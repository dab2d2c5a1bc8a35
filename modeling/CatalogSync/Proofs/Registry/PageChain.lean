import CatalogSync.Proofs.Registry.Paging
import Mathlib.Data.List.Chain
/-!
# Chains of pages

What a listing does is settled by the chain of pages that the registry sends. At most a thousand
requests are made, each with the token of the page before it. A chain that ends within them is
brought whole and in order, one that goes on is a failure without a status, and a page that cannot
be had fails the listing with its own fault (`list_exact`).

`Serves` describes the chain from the side of the registry: each page is what a single request
brings in the state that the requests before it have left.
-/

namespace CatalogSync.Registry.Client

open Json (Decodable)
open Proc (Handler)

variable {α β σ : Type} [Decodable α] [Decodable β] {c : Client} {url : String}

/-! ## §1 The requests of a listing -/

/-- The request for the first page of a listing. -/
def firstRequest (c : Client) (url : String) : Http.Request :=
  { method := .get, url, query := [("pageSize", "100")], token := c.token }

/-- The request for the page behind a token. -/
def nextRequest (c : Client) (url token : String) : Http.Request :=
  { method := .get, url, token := c.token
    query := [("pageSize", "100"), ("nextPageToken", token)] }

theorem render_pageSize : Natural.render pageSize = "100" := by decide +kernel

theorem request_pageQuery_of_ne {token : String} (htoken : token ≠ "") :
    c.request url (pageQuery token) = c.nextRequest url token := by
  have hempty : token.isEmpty = false := by simpa using htoken
  simp [request, nextRequest, pageQuery, hempty, render_pageSize]

theorem request_pageQuery_empty : c.request url (pageQuery "") = c.firstRequest url := by
  simp [request, firstRequest, pageQuery, render_pageSize]

/-- The second of two exchanges asks for the page that the first one names. -/
def Continues (α : Type) [Decodable α] (c : Client) (url : String)
    (e e' : Event Http.interface) : Prop :=
  ∃ page : Page α, document? (Page α) e.answer = some page ∧
    e'.call = c.nextRequest url page.nextToken

/-- The exchanges of a listing: the first asks for the first page, and each further one for the page
that the one before it names. -/
structure Linked (α : Type) [Decodable α] (c : Client) (url : String)
    (t : List (Event Http.interface)) : Prop where
  first : ∀ e ∈ t.head?, e.call = c.firstRequest url
  next : t.IsChain (Continues α c url)

section

variable {token next : String} {pages : List (Page α)} {t : List (Event Http.interface)}

theorem Follows.length_eq (hpages : Follows c url token t pages next) :
    t.length = pages.length := by
  induction hpages with
  | nil => rfl
  | cons _ _ _ ih => simp [ih]

/-- Pages that were read, and an exchange behind them, begin with an exchange for their token. -/
theorem Follows.exists_head (hpages : Follows c url token t pages next)
    (answer : Option Http.Response) :
    ∃ first rest,
      t ++ [c.pageExchange url next answer] = c.pageExchange url token first :: rest := by
  cases hpages with
  | nil => exact ⟨answer, [], rfl⟩
  | cons => exact ⟨_, _, rfl⟩

theorem Follows.isChain (hpages : Follows c url token t pages next)
    (answer : Option Http.Response) :
    (t ++ [c.pageExchange url next answer]).IsChain (Continues α c url) := by
  induction hpages with
  | nil => exact .singleton _
  | cons hpage hgoesOn hrest ih =>
    obtain ⟨first, rest, hhead⟩ := hrest.exists_head answer
    rw [hhead] at ih
    rw [List.cons_append, hhead, List.isChain_cons_cons]
    exact ⟨⟨_, hpage, request_pageQuery_of_ne hgoesOn.named⟩, ih⟩

/-- A listing that goes on from page to page is linked, with an exchange behind them or without. -/
theorem Follows.linked (hpages : Follows c url "" t pages next) (answer : Option Http.Response) :
    Linked α c url (t ++ [c.pageExchange url next answer]) ∧ Linked α c url t := by
  obtain ⟨first, rest, hhead⟩ := hpages.exists_head answer
  have hchain := hpages.isChain answer
  refine ⟨⟨?_, hchain⟩, ⟨?_, hchain.left_of_append⟩⟩
  · rw [hhead]
    rintro e ⟨⟩
    exact request_pageQuery_empty
  · cases hpages with
    | nil => simp
    | cons =>
      rintro e ⟨⟩
      exact request_pageQuery_empty

/-- Every exchange of a listing that succeeds brings a page. -/
theorem Brings.exists_page {P : String → Page α → Prop} {token : String} {most : Nat}
    {items : List α} (hbrings : Brings c url P token most t items) :
    ∀ e ∈ t, ∃ page, document? (Page α) e.answer = some page := by
  cases hbrings with
  | intro hpages hmost hlast hend =>
    induction hpages with
    | nil => simpa [pageExchange] using ⟨_, hlast⟩
    | cons hpage hgoesOn hrest ih =>
      rintro e he
      rcases List.mem_cons.mp he with rfl | he
      · exact ⟨_, hpage⟩
      · exact ih (Nat.lt_of_succ_lt hmost) hend e he

theorem Brings.linked {P : String → Page α → Prop} {most : Nat} {items : List α}
    (hbrings : Brings c url P "" most t items) : Linked α c url t ∧ t.length ≤ most := by
  cases hbrings with
  | intro hpages hmost =>
    refine ⟨(hpages.linked _).1, ?_⟩
    rw [List.length_append, hpages.length_eq]
    exact hmost

theorem Breaks.linked {most : Nat} (hbreaks : Breaks α c url "" most t) :
    Linked α c url t ∧ t.length ≤ most := by
  cases hbreaks with
  | failed hpages hmost =>
    refine ⟨(hpages.linked _).1, ?_⟩
    rw [List.length_append, hpages.length_eq]
    exact hmost
  | endless hpages hmost => exact ⟨(hpages.linked none).2, (hpages.length_eq.trans hmost).le⟩

end

/-- A listing asks at most a thousand times, each time for the page that the one before names. -/
theorem linked_list (c : Client) (path : String) (k : Handler Http.interface σ) (s : σ) :
    Linked α c (c.address path) ((list α c path).proc.trace k s) ∧
      ((list α c path).proc.trace k s).length ≤ 1000 := by
  have hcollect := run_collect (α := α) c (c.address path) k maxPages "" [] s
  rw [list]
  revert hcollect
  cases ((collect α c (c.address path) maxPages "" []).proc.run k s).1 with
  | ok items =>
    rintro ⟨_, _, hbrings⟩
    exact hbrings.linked
  | error f => exact fun hbreaks => hbreaks.linked

/-- A listing in which an exchange brings no page fails. -/
theorem exists_page_of_list {c : Client} {path : String} {k : Handler Http.interface σ} {s : σ}
    {items : List α} (hitems : ((list α c path).proc.run k s).1 = .ok items) :
    ∀ e ∈ (list α c path).proc.trace k s, ∃ page, document? (Page α) e.answer = some page := by
  have hcollect := run_collect (α := α) c (c.address path) k maxPages "" [] s
  rw [list] at hitems ⊢
  rw [hitems] at hcollect
  obtain ⟨_, _, hbrings⟩ := hcollect
  exact hbrings.exists_page

/-! ## §2 The chain that a registry serves -/

/-- Pages that a registry serves one after another, with each of which a listing goes on: the first
to a request with one token, each further one to a request with the token that the page before it
names, and the last names the other token. -/
inductive Serves (k : Handler Http.interface σ) (c : Client) (url : String) :
    String → σ → List (Page α) → String → σ → Prop where
  | nil (token : String) (s : σ) : Serves k c url token s [] token s
  | cons {token next : String} {s s' s'' : σ} {page : Page α} {pages : List (Page α)}
      (hpage : (get (Page α) c url (pageQuery token)).proc.run k s = (.ok page, s'))
      (hgoesOn : page.GoesOn token) (hrest : Serves k c url page.nextToken s' pages next s'') :
      Serves k c url token s (page :: pages) next s''

section

variable {k : Handler Http.interface σ} {s s' : σ} {token next : String} (most : Nat)
  (found : List α)

theorem length_trace_get (c : Client) (url : String) (query : List (String × String)) :
    ((get β c url query).proc.trace k s).length = 1 := by
  obtain ⟨judge, hproc, -⟩ := exists_proc_get (β := β) c url query
  rw [hproc, Proc.trace_call]
  rfl

/-- Getting a document leaves the state that its one request leaves. -/
theorem run_get_snd (c : Client) (url : String) (query : List (String × String)) :
    ((get β c url query).proc.run k s).2 = (k (c.request url query) s).2 := by
  obtain ⟨judge, hproc, -⟩ := exists_proc_get (β := β) c url query
  rw [hproc]
  rfl

/-- A page with which the listing goes on: the rest of it is a listing behind that page. -/
theorem collect_of_page {page : Page α}
    (hpage : (get (Page α) c url (pageQuery token)).proc.run k s = (.ok page, s'))
    (hgoesOn : page.GoesOn token) :
    (collect α c url (most + 1) token found).proc.run k s =
        (collect α c url most page.nextToken (found ++ page.items)).proc.run k s' ∧
      ((collect α c url (most + 1) token found).proc.trace k s).length =
        ((collect α c url most page.nextToken
          (found ++ page.items)).proc.trace k s').length + 1 := by
  have htest : ¬ (page.nextToken.isEmpty || page.nextToken == token ||
      page.items.isEmpty) = true := by
    simp [hgoesOn.named, hgoesOn.fresh, hgoesOn.filled]
  rw [collect, Task.run_bind, Task.trace_bind, hpage, List.length_append, length_trace_get]
  simp only [Task.andThen, if_neg htest]
  exact ⟨trivial, Nat.add_comm _ _⟩

/-- A page that names no next one ends the listing. -/
theorem collect_of_end {page : Page α}
    (hpage : (get (Page α) c url (pageQuery token)).proc.run k s = (.ok page, s'))
    (hend : page.nextToken = "") :
    ((collect α c url (most + 1) token found).proc.run k s).1 = .ok (found ++ page.items) ∧
      ((collect α c url (most + 1) token found).proc.trace k s).length = 1 := by
  have htest : (page.nextToken.isEmpty || page.nextToken == token ||
      page.items.isEmpty) = true := by
    simp [hend]
  rw [collect, Task.run_bind, Task.trace_bind, hpage, List.length_append, length_trace_get]
  simp only [Task.andThen, if_pos htest]
  exact ⟨rfl, rfl⟩

/-- A page that cannot be had fails the listing with its own fault. -/
theorem collect_of_fault {f : Fault}
    (hfault : (get (Page α) c url (pageQuery token)).proc.run k s = (.error f, s')) :
    ((collect α c url (most + 1) token found).proc.run k s).1 = .error f ∧
      ((collect α c url (most + 1) token found).proc.trace k s).length = 1 := by
  rw [collect, Task.run_bind, Task.trace_bind, hfault, List.length_append, length_trace_get]
  exact ⟨rfl, rfl⟩

/-- Behind the pages that a registry serves, a listing is one of what is left of its requests, with
the items of these pages found. -/
theorem collect_of_serves {pages : List (Page α)}
    (hserves : Serves k c url token s pages next s') :
    (collect α c url (pages.length + most) token found).proc.run k s =
        (collect α c url most next (found ++ pages.flatMap (·.items))).proc.run k s' ∧
      ((collect α c url (pages.length + most) token found).proc.trace k s).length =
        pages.length + ((collect α c url most next
          (found ++ pages.flatMap (·.items))).proc.trace k s').length := by
  induction hserves generalizing found with
  | nil => simp
  | @cons token next s s' s'' page pages hpage hgoesOn hrest ih =>
    obtain ⟨hrun, htrace⟩ := collect_of_page (pages.length + most) found hpage hgoesOn
    obtain ⟨hrunRest, htraceRest⟩ := ih (found ++ page.items)
    rw [List.length_cons, Nat.add_right_comm, hrun, htrace, hrunRest, htraceRest, List.flatMap_cons,
      List.append_assoc]
    exact ⟨rfl, Nat.add_right_comm _ _ _⟩

end

/-! ## §3 Listings of a chain -/

/-- The request behind `n` of a thousand pages is one of those that are left. -/
theorem maxPages_eq {n : Nat} (hn : n < 1000) : maxPages = n + ((999 - n) + 1) := by
  rw [maxPages]
  omega

/-- A listing asks at most a thousand times, each time for the page that the one before names. Of a
chain of at most a thousand pages it brings all items in order, with one request for each page. A
chain that goes on for a thousand pages fails it without a status. It succeeds only if every request
has brought a page: one that cannot be had fails the listing with its own fault. -/
theorem list_exact (c : Client) (path : String) (k : Handler Http.interface σ) (s : σ) :
    (Linked α c (c.address path) ((list α c path).proc.trace k s) ∧
        ((list α c path).proc.trace k s).length ≤ 1000) ∧
      (∀ (pages : List (Page α)) next s' last s'',
        Serves k c (c.address path) "" s pages next s' →
        (get (Page α) c (c.address path) (pageQuery next)).proc.run k s' = (.ok last, s'') →
        last.nextToken = "" → (pages ++ [last]).length ≤ 1000 →
          ((list α c path).proc.run k s).1 = .ok ((pages ++ [last]).flatMap (·.items)) ∧
            ((list α c path).proc.trace k s).length = (pages ++ [last]).length) ∧
      (∀ (pages : List (Page α)) next s', Serves k c (c.address path) "" s pages next s' →
        pages.length = 1000 →
          ((list α c path).proc.run k s).1 = .error (.registry c.endpoint
              ("GET " ++ c.address path ++ " exceeded 1000 pages") none) ∧
            ((list α c path).proc.trace k s).length = 1000) ∧
      (∀ items, ((list α c path).proc.run k s).1 = .ok items →
        ∀ e ∈ (list α c path).proc.trace k s, ∃ page, document? (Page α) e.answer = some page) ∧
      ∀ (pages : List (Page α)) next s' f s'',
        Serves k c (c.address path) "" s pages next s' → pages.length < 1000 →
        (get (Page α) c (c.address path) (pageQuery next)).proc.run k s' = (.error f, s'') →
          ((list α c path).proc.run k s).1 = .error f ∧
            ((list α c path).proc.trace k s).length = pages.length + 1 := by
  refine ⟨linked_list c path k s, ?_, ?_, fun items => exists_page_of_list, ?_⟩
  · intro pages next s' last s'' hserves hlast hend hlength
    rw [List.length_append, List.length_singleton] at hlength
    obtain ⟨hrun, htrace⟩ := collect_of_serves (999 - pages.length + 1) [] hserves
    obtain ⟨hrunLast, htraceLast⟩ :=
      collect_of_end (999 - pages.length) ([] ++ pages.flatMap (·.items)) hlast hend
    rw [list, maxPages_eq hlength, hrun, htrace, hrunLast, htraceLast]
    simp
  · intro pages next s' hserves hlength
    obtain ⟨hrun, htrace⟩ := collect_of_serves 0 [] hserves
    have hmost : maxPages = pages.length + 0 := hlength.symm
    have hrender : Natural.render maxPages = "1000" := by decide +kernel
    rw [list, hmost, hrun, htrace, collect, hrender, hlength]
    simp [String.append_assoc]
  · intro pages next s' f s'' hserves hlength hfault
    obtain ⟨hrun, htrace⟩ := collect_of_serves (999 - pages.length + 1) [] hserves
    obtain ⟨hrunLast, htraceLast⟩ :=
      collect_of_fault (999 - pages.length) ([] ++ pages.flatMap (·.items)) hfault
    rw [list, maxPages_eq hlength, hrun, htrace, hrunLast, htraceLast]
    exact ⟨rfl, rfl⟩

/-! ### Three registries -/

def mnistFirst : Page RegisteredModel := ⟨[{ id := "1", name := "mnist" }], "p"⟩

def graniteLast : Page RegisteredModel := ⟨[{ id := "2", name := "granite" }], ""⟩

/-- A registry that sends one page, and cannot be reached behind it. -/
def lostBehind : Handler Http.interface Unit := fun r _ =>
  (if r.query.length = 1 then some { status := 200, body := Text.Utf8.encode mnistPage }
    else none, ())

theorem run_get_lost {token : String} (htoken : token ≠ "") :
    (get (Page RegisteredModel) registry (registry.address modelsPath)
      (pageQuery token)).proc.run lostBehind () =
        (.error (.registry registry.endpoint
          ("GET " ++ registry.address modelsPath ++ " failed") none), ()) := by
  have hlost : lostBehind (registry.request (registry.address modelsPath) (pageQuery token)) () =
      (none, ()) := by
    rw [request_pageQuery_of_ne htoken]
    rfl
  rw [request] at hlost
  unfold get Http.send
  rw [Task.run_bind, Task.proc_ofProc, Proc.run_call, Proc.run_done, hlost]
  rfl

def mnistAgainPage : String :=
  "\x7b\"items\":[\x7b\"id\":\"1\",\"name\":\"mnist\"\x7d],\"nextPageToken\":\"q\"\x7d"

/-- A registry that sends page after page, each of which names another token than the one before. -/
def endless : Handler Http.interface Bool := fun _ odd =>
  (some { status := 200, body := Text.Utf8.encode (if odd then mnistAgainPage else mnistPage) },
    !odd)

def endlessPage (odd : Bool) : Page RegisteredModel :=
  ⟨[{ id := "1", name := "mnist" }], if odd then "q" else "p"⟩

theorem run_get_endless (token : String) (odd : Bool) :
    (get (Page RegisteredModel) registry (registry.address modelsPath)
      (pageQuery token)).proc.run endless odd = (.ok (endlessPage odd), !odd) := by
  -- The token plays no part in what such a registry sends.
  have hblind : (get (Page RegisteredModel) registry (registry.address modelsPath)
      (pageQuery token)).proc.run endless odd = (get (Page RegisteredModel) registry
        (registry.address modelsPath) []).proc.run endless odd := rfl
  rw [hblind]
  refine Prod.ext (eq_ok_of_toOption ?_) (run_get_snd _ _ _)
  cases odd <;> decide +kernel

theorem serves_endless (n : Nat) {token : String} {odd : Bool}
    (hfresh : (endlessPage odd).nextToken ≠ token) :
    ∃ (pages : List (Page RegisteredModel)) (next : String) (odd' : Bool), pages.length = n ∧
      Serves endless registry (registry.address modelsPath) token odd pages next odd' := by
  induction n generalizing token odd with
  | zero => exact ⟨[], token, odd, rfl, .nil token odd⟩
  | succ n ih =>
    have hgoesOn : (endlessPage odd).GoesOn token := by
      refine ⟨?_, hfresh, List.cons_ne_nil _ _⟩
      cases odd <;> decide
    have hnext : (endlessPage !odd).nextToken ≠ (endlessPage odd).nextToken := by
      cases odd <;> decide
    obtain ⟨pages, next, odd', hlength, hrest⟩ := ih hnext
    exact ⟨_, next, odd', congrArg (· + 1) hlength, .cons (run_get_endless token odd) hgoesOn hrest⟩

/-- A registry of two pages, one that is lost behind its first page, and one that sends page after
page. -/
theorem list_exact_threeRegistries :
    (((list RegisteredModel registry modelsPath).proc.run (twoPages mnistPage granitePage) ()).1 =
        .ok mnistAndGranite ∧
      ((list RegisteredModel registry modelsPath).proc.trace
        (twoPages mnistPage granitePage) ()).length = 2) ∧
      ((list RegisteredModel registry modelsPath).proc.run lostBehind ()).1 =
        .error (.registry registry.endpoint
          ("GET " ++ registry.address modelsPath ++ " failed") none) ∧
      ((list RegisteredModel registry modelsPath).proc.run endless false).1 =
        .error (.registry registry.endpoint
          ("GET " ++ registry.address modelsPath ++ " exceeded 1000 pages") none) := by
  have hgoesOn : mnistFirst.GoesOn "" := ⟨by decide, by decide, List.cons_ne_nil _ _⟩
  refine ⟨?_, ?_, ?_⟩
  · have hfirst : (get (Page RegisteredModel) registry (registry.address modelsPath)
        (pageQuery "")).proc.run (twoPages mnistPage granitePage) () = (.ok mnistFirst, ()) :=
      Prod.ext (eq_ok_of_toOption (by decide +kernel)) (Subsingleton.elim _ _)
    have hlast : (get (Page RegisteredModel) registry (registry.address modelsPath)
        (pageQuery "p")).proc.run (twoPages mnistPage granitePage) () = (.ok graniteLast, ()) :=
      Prod.ext (eq_ok_of_toOption (by decide +kernel)) (Subsingleton.elim _ _)
    have hitems : ([mnistFirst] ++ [graniteLast]).flatMap (·.items) = mnistAndGranite := rfl
    have hserves : Serves (twoPages mnistPage granitePage) registry (registry.address modelsPath)
        "" () [mnistFirst] "p" () := .cons hfirst hgoesOn (.nil "p" ())
    have hlist := (list_exact registry modelsPath (twoPages mnistPage granitePage) ()).2.1
      [mnistFirst] "p" () graniteLast () hserves hlast rfl (by decide)
    rw [hitems] at hlist
    exact hlist
  · have hfirst : (get (Page RegisteredModel) registry (registry.address modelsPath)
        (pageQuery "")).proc.run lostBehind () = (.ok mnistFirst, ()) :=
      Prod.ext (eq_ok_of_toOption (by decide +kernel)) (Subsingleton.elim _ _)
    exact ((list_exact registry modelsPath lostBehind ()).2.2.2.2 [mnistFirst] "p" () _ ()
      (.cons hfirst hgoesOn (.nil "p" ())) (by decide) (run_get_lost (by decide))).1
  · have hfresh : (endlessPage false).nextToken ≠ "" := by decide
    obtain ⟨pages, next, odd, hlength, hserves⟩ := serves_endless 1000 hfresh
    exact ((list_exact registry modelsPath endless false).2.2.1 pages next odd hserves hlength).1

end CatalogSync.Registry.Client
