import CatalogSync.Proofs.Effect.Trace
import CatalogSync.Registry.Rest
/-!
# Listings in pages

A listing over HTTP asks for page after page, each with the token that the page before it names. It
ends in one of four ways. A page names no next one: then the listing is complete. A page names a next
one, but has no items or names itself: then the listing is cut short, and still counts as a success.
An exchange fails, or the pages are too many: then the listing fails.

So a listing that succeeds brings the items of all pages that were read, in order, and it is complete
unless the registry has sent an empty page, or one that repeats its token, before the last one
(`list_complete_unless_cut`).
-/

namespace CatalogSync

open Json (Decodable)
open Proc (Handler)

/-- A procedure that ends after one call, whatever it is answered. -/
theorem Proc.exists_call_done {I : Interface} {α : Type} {c : I.Call}
    {resume : I.Answer c → Proc I α} {P : I.Answer c → α → Prop}
    (h : ∀ answer, ∃ a, resume answer = .done a ∧ P answer a) :
    ∃ judge : I.Answer c → α, Proc.call c resume = .call c (fun answer => .done (judge answer)) ∧
      ∀ answer, P answer (judge answer) :=
  ⟨fun answer => (h answer).choose, congrArg _ (funext fun answer => (h answer).choose_spec.1),
    fun answer => (h answer).choose_spec.2⟩

theorem eq_ok_of_toOption {ε α : Type} {r : Except ε α} {a : α} (h : r.toOption = some a) :
    r = .ok a := by
  cases r with
  | error e => cases h
  | ok b => exact congrArg _ (Option.some.inj h)

namespace Registry

/-! ## §1 Pages -/

deriving instance DecidableEq for Page

namespace Page

variable {α : Type}

/-- The page names a next one, and the listing goes on with it. -/
structure GoesOn (token : String) (page : Page α) : Prop where
  named : page.nextToken ≠ ""
  fresh : page.nextToken ≠ token
  filled : page.items ≠ []

/-- The page names a next one, but has no items or names itself. -/
structure Cuts (token : String) (page : Page α) : Prop where
  named : page.nextToken ≠ ""
  stalled : page.nextToken = token ∨ page.items = []

variable {token : String} {page : Page α}

theorem not_goesOn_iff :
    ¬ page.GoesOn token ↔ page.nextToken = "" ∨ page.nextToken = token ∨ page.items = [] := by
  constructor
  · intro hstops
    by_cases hend : page.nextToken = "" ∨ page.nextToken = token ∨ page.items = []
    · exact hend
    · rw [not_or, not_or] at hend
      exact absurd ⟨hend.1, hend.2.1, hend.2.2⟩ hstops
  · rintro (hlast | hown | hempty) hgoesOn
    · exact hgoesOn.named hlast
    · exact hgoesOn.fresh hown
    · exact hgoesOn.filled hempty

theorem cuts_of_not_goesOn (hstops : ¬ page.GoesOn token) (hnamed : page.nextToken ≠ "") :
    page.Cuts token := ⟨hnamed, (not_goesOn_iff.mp hstops).resolve_left hnamed⟩

end Page

namespace Client

variable {α β σ : Type} [Decodable α] [Decodable β] {c : Client} {url : String}

/-- The request for a document. -/
def request (c : Client) (url : String) (query : List (String × String)) : Http.Request :=
  { method := .get, url, query, token := c.token }

/-- The document that an exchange brings, unless it fails. -/
def document? (β : Type) [Decodable β] (answer : Option Http.Response) : Option β :=
  answer.bind fun r => if Http.Status.isSuccess r.status then r.decode? β else none

/-- What is made of an exchange: the document that it brings, or a fault. -/
def Judged (answer : Option Http.Response) (result : Except Fault β) : Prop :=
  match document? β answer with
  | some b => result = .ok b
  | none => ∃ f, result = .error f

theorem Judged.ok {answer : Option Http.Response} {result : Except Fault β} {b : β}
    (h : Judged answer result) (hsome : document? β answer = some b) : result = .ok b := by
  rwa [Judged, hsome] at h

theorem Judged.error {answer : Option Http.Response} {result : Except Fault β}
    (h : Judged answer result) (hnone : document? β answer = none) : ∃ f, result = .error f := by
  rwa [Judged, hnone] at h

/-- Getting a document takes one exchange, and succeeds exactly if that brings it. -/
theorem exists_proc_get (c : Client) (url : String) (query : List (String × String)) :
    ∃ judge : Option Http.Response → Except Fault β,
      (get β c url query).proc =
        .call (c.request url query) (fun answer => .done (judge answer)) ∧
      ∀ answer, Judged answer (judge answer) := by
  unfold get Http.send
  rw [Task.proc_bind, Task.proc_ofProc, Proc.bind_call]
  refine Proc.exists_call_done (I := Http.interface) (c := c.request url query)
    (P := Judged) fun answer => ?_
  dsimp only [Proc.bind_done, Task.andThen]
  cases answer with
  | none => exact ⟨_, rfl, _, rfl⟩
  | some r =>
    by_cases hsuccess : Http.Status.isSuccess r.status = true
    · dsimp only [Judged, document?, Option.bind_some]
      rw [if_pos hsuccess, if_pos hsuccess]
      cases r.decode? β with
      | none => exact ⟨_, rfl, _, rfl⟩
      | some b => exact ⟨_, rfl, rfl⟩
    · dsimp only [Judged, document?, Option.bind_some]
      rw [if_neg hsuccess, if_neg hsuccess]
      exact ⟨_, rfl, _, rfl⟩

/-! ## §2 The pages that are read -/

/-- The exchange for the page with a token. -/
def pageExchange (c : Client) (url token : String) (answer : Option Http.Response) :
    Event Http.interface := ⟨c.request url (pageQuery token), answer⟩

/-- Pages that were read one after another and with each of which the listing went on: the first was
asked for with one token, each further one with the token that the page before it names, and the last
names the other token. -/
inductive Follows (c : Client) (url : String) :
    String → List (Event Http.interface) → List (Page α) → String → Prop where
  | nil (token : String) : Follows c url token [] [] token
  | cons {token next : String} {answer : Option Http.Response} {page : Page α}
      {t : List (Event Http.interface)} {pages : List (Page α)}
      (hpage : document? (Page α) answer = some page) (hgoesOn : page.GoesOn token)
      (hrest : Follows c url page.nextToken t pages next) :
      Follows c url token (c.pageExchange url token answer :: t) (page :: pages) next

/-- A listing that may read a number of pages goes on from page to page, up to a last one that stands
in a relation to its token, and brings the items of all of them in order. -/
inductive Brings (c : Client) (url : String) (P : String → Page α → Prop) (token : String)
    (most : Nat) : List (Event Http.interface) → List α → Prop where
  | intro {t : List (Event Http.interface)} {pages : List (Page α)} {next : String}
      {answer : Option Http.Response} {last : Page α}
      (hpages : Follows c url token t pages next) (hmost : pages.length < most)
      (hlast : document? (Page α) answer = some last) (hend : P next last) :
      Brings c url P token most (t ++ [c.pageExchange url next answer])
        (pages.flatMap (·.items) ++ last.items)

/-- A whole listing, up to a page that names no next one. -/
abbrev Complete (c : Client) (url : String) (t : List (Event Http.interface)) (items : List α) :
    Prop := Brings c url (fun _ (last : Page α) => last.nextToken = "") "" maxPages t items

/-- A listing up to a page that names a next one, but has no items or names itself. -/
abbrev CutShort (c : Client) (url : String) (t : List (Event Http.interface)) (items : List α) :
    Prop := Brings c url (fun token (last : Page α) => last.Cuts token) "" maxPages t items

/-- A listing that may read a number of pages goes on from page to page, up to an exchange that
brings none or to the last page that it may read. -/
inductive Breaks (α : Type) [Decodable α] (c : Client) (url token : String) (most : Nat) :
    List (Event Http.interface) → Prop where
  | failed {t : List (Event Http.interface)} {pages : List (Page α)} {next : String}
      {answer : Option Http.Response} (hpages : Follows c url token t pages next)
      (hmost : pages.length < most) (hnone : document? (Page α) answer = none) :
      Breaks α c url token most (t ++ [c.pageExchange url next answer])
  | endless {t : List (Event Http.interface)} {pages : List (Page α)} {next : String}
      (hpages : Follows c url token t pages next) (hmost : pages.length = most) :
      Breaks α c url token most t

section

variable {token : String} {most : Nat} {answer : Option Http.Response} {page : Page α}
  {t : List (Event Http.interface)}

theorem Brings.cons {P : String → Page α → Prop} {items : List α}
    (hpage : document? (Page α) answer = some page) (hgoesOn : page.GoesOn token)
    (hrest : Brings c url P page.nextToken most t items) :
    Brings c url P token (most + 1) (c.pageExchange url token answer :: t) (page.items ++ items) := by
  cases hrest with
  | intro hpages hmost hlast hend =>
    rw [← List.append_assoc, ← List.cons_append]
    exact .intro (.cons hpage hgoesOn hpages) (Nat.succ_lt_succ hmost) hlast hend

theorem Breaks.cons (hpage : document? (Page α) answer = some page) (hgoesOn : page.GoesOn token)
    (hrest : Breaks α c url page.nextToken most t) :
    Breaks α c url token (most + 1) (c.pageExchange url token answer :: t) := by
  cases hrest with
  | failed hpages hmost hnone =>
    rw [← List.cons_append]
    exact .failed (.cons hpage hgoesOn hpages) (Nat.succ_lt_succ hmost) hnone
  | endless hpages hmost =>
    exact .endless (.cons hpage hgoesOn hpages) (congrArg (· + 1) hmost)

/-- A listing of one exchange brings its last page. -/
theorem Brings.of_singleton {P : String → Page α → Prop} {items : List α}
    (hbrings : Brings c url P token most t items) (ht : t = [c.pageExchange url token answer]) :
    ∃ last, document? (Page α) answer = some last ∧ P token last := by
  cases hbrings with
  | @intro before _ _ _ _ hpages hmost hlast hend =>
    have happend : before ++ _ = [] ++ [c.pageExchange url token answer] := ht
    obtain ⟨rfl, hexchange⟩ := List.append_singleton_inj.mp happend
    cases hpages
    cases hexchange
    exact ⟨_, hlast, hend⟩

/-- The last page decides which kind of listing it is. -/
theorem Brings.or {P Q R : String → Page α → Prop} {items : List α}
    (hbrings : Brings c url P token most t items)
    (hP : ∀ next last, P next last → Q next last ∨ R next last) :
    Brings c url Q token most t items ∨ Brings c url R token most t items := by
  cases hbrings with
  | intro hpages hmost hlast hend =>
    exact (hP _ _ hend).imp (.intro hpages hmost hlast) (.intro hpages hmost hlast)

end

/-! ## §3 Listings -/

section

variable {k : Handler Http.interface σ} {s : σ} {token : String} {page : Page α} (most : Nat)
  (found : List α)

/-- A listing asks for a page, and what that brings decides how it goes on. -/
theorem proc_collect (c : Client) (url token : String) :
    ∃ judge : Option Http.Response → Except Fault (Page α),
      (collect α c url (most + 1) token found).proc =
        .call (c.request url (pageQuery token)) (fun answer => Task.andThen (fun page =>
          if page.nextToken.isEmpty || page.nextToken == token || page.items.isEmpty then
            pure (found ++ page.items)
          else collect α c url most page.nextToken (found ++ page.items)) (judge answer)) ∧
      ∀ answer, Judged answer (judge answer) := by
  obtain ⟨judge, hproc, hjudge⟩ := exists_proc_get (β := Page α) c url (pageQuery token)
  refine ⟨judge, ?_, hjudge⟩
  rw [collect, Task.proc_bind, hproc]
  rfl

theorem collect_of_none
    (hnone : document? (Page α) (k (c.request url (pageQuery token)) s).1 = none) :
    (∃ f, ((collect α c url (most + 1) token found).proc.run k s).1 = .error f) ∧
      (collect α c url (most + 1) token found).proc.trace k s =
        [c.pageExchange url token (k (c.request url (pageQuery token)) s).1] := by
  obtain ⟨judge, hproc, hjudge⟩ := proc_collect most found c url token
  obtain ⟨f, hfault⟩ := (hjudge _).error hnone
  rw [hproc, Proc.run_call, Proc.trace_call, hfault]
  exact ⟨⟨f, rfl⟩, rfl⟩

section

variable (hpage : document? (Page α) (k (c.request url (pageQuery token)) s).1 = some page)
include hpage

theorem collect_of_last (hlast : ¬ page.GoesOn token) :
    ((collect α c url (most + 1) token found).proc.run k s).1 = .ok (found ++ page.items) ∧
      (collect α c url (most + 1) token found).proc.trace k s =
        [c.pageExchange url token (k (c.request url (pageQuery token)) s).1] := by
  obtain ⟨judge, hproc, hjudge⟩ := proc_collect most found c url token
  have htest : (page.nextToken.isEmpty || page.nextToken == token ||
      page.items.isEmpty) = true := by
    simpa [or_assoc] using Page.not_goesOn_iff.mp hlast
  rw [hproc, Proc.run_call, Proc.trace_call, (hjudge _).ok hpage, Task.andThen, if_pos htest]
  exact ⟨rfl, rfl⟩

theorem collect_of_goesOn (hgoesOn : page.GoesOn token) :
    ((collect α c url (most + 1) token found).proc.run k s).1 =
        ((collect α c url most page.nextToken (found ++ page.items)).proc.run k
          (k (c.request url (pageQuery token)) s).2).1 ∧
      (collect α c url (most + 1) token found).proc.trace k s =
        c.pageExchange url token (k (c.request url (pageQuery token)) s).1 ::
          (collect α c url most page.nextToken (found ++ page.items)).proc.trace k
            (k (c.request url (pageQuery token)) s).2 := by
  obtain ⟨judge, hproc, hjudge⟩ := proc_collect most found c url token
  have htest : ¬ (page.nextToken.isEmpty || page.nextToken == token ||
      page.items.isEmpty) = true := by
    simp [hgoesOn.named, hgoesOn.fresh, hgoesOn.filled]
  rw [hproc, Proc.run_call, Proc.trace_call, (hjudge _).ok hpage, Task.andThen, if_neg htest]
  exact ⟨rfl, rfl⟩

end

end

/-- What the rest of a listing brings is added to what was found before. -/
theorem run_collect (c : Client) (url : String) (k : Handler Http.interface σ) (most : Nat)
    (token : String) (found : List α) (s : σ) :
    match ((collect α c url most token found).proc.run k s).1 with
    | .ok items => ∃ more, items = found ++ more ∧
        Brings c url (fun token page => ¬ page.GoesOn token) token most
          ((collect α c url most token found).proc.trace k s) more
    | .error _ => Breaks α c url token most ((collect α c url most token found).proc.trace k s) := by
  induction most generalizing token found s with
  | zero => exact .endless (.nil token) rfl
  | succ most ih =>
    cases hpage : document? (Page α) (k (c.request url (pageQuery token)) s).1 with
    | none =>
      obtain ⟨⟨f, hrun⟩, htrace⟩ := collect_of_none most found hpage
      rw [hrun, htrace]
      exact .failed (.nil token) (Nat.succ_pos most) hpage
    | some page =>
      by_cases hgoesOn : page.GoesOn token
      · obtain ⟨hrun, htrace⟩ := collect_of_goesOn most found hpage hgoesOn
        rw [hrun, htrace]
        have hrest := ih page.nextToken (found ++ page.items)
          (k (c.request url (pageQuery token)) s).2
        revert hrest
        cases ((collect α c url most page.nextToken (found ++ page.items)).proc.run k
          (k (c.request url (pageQuery token)) s).2).1 with
        | error f => exact fun hbreaks => hbreaks.cons hpage hgoesOn
        | ok items =>
          rintro ⟨more, rfl, hbrings⟩
          exact ⟨page.items ++ more, List.append_assoc _ _ _, hbrings.cons hpage hgoesOn⟩
      · obtain ⟨hrun, htrace⟩ := collect_of_last most found hpage hgoesOn
        rw [hrun, htrace]
        exact ⟨page.items, rfl, .intro (.nil token) (Nat.succ_pos most) hpage hgoesOn⟩

/-- A listing that succeeds brings the items of all pages that were read, in order, each asked for
with the token of the one before it. It is complete, unless it was cut short by a page that has no
items or repeats its token. A listing that stops at any other page fails. -/
theorem list_complete_unless_cut (c : Client) (path : String) (k : Handler Http.interface σ)
    (s : σ) :
    (∀ items, ((list α c path).proc.run k s).1 = .ok items →
      Complete c (c.address path) ((list α c path).proc.trace k s) items ∨
        CutShort c (c.address path) ((list α c path).proc.trace k s) items) ∧
      ∀ f, ((list α c path).proc.run k s).1 = .error f →
        Breaks α c (c.address path) "" maxPages ((list α c path).proc.trace k s) := by
  have hcollect := run_collect (α := α) c (c.address path) k maxPages "" [] s
  constructor
  · intro items hitems
    rw [list] at hitems ⊢
    rw [hitems] at hcollect
    obtain ⟨_, rfl, hbrings⟩ := hcollect
    refine hbrings.or fun next last hend => ?_
    by_cases hnamed : last.nextToken = ""
    · exact .inl hnamed
    · exact .inr (Page.cuts_of_not_goesOn hend hnamed)
  · intro f hf
    rw [list] at hf ⊢
    rwa [hf] at hcollect

/-! ### Two pages -/

def registry : Client := .connect "http://registry" none

def modelsPath : String := "/registered_models"

/-- A registry that sends one page to a request without a token, and another to one with a token. -/
def twoPages (first second : String) : Handler Http.interface Unit := fun r _ =>
  (some { status := 200, body := Text.Utf8.encode (if r.query.length = 1 then first else second) },
    ())

def mnistPage : String :=
  "\x7b\"items\":[\x7b\"id\":\"1\",\"name\":\"mnist\"\x7d],\"nextPageToken\":\"p\"\x7d"

def granitePage : String := "\x7b\"items\":[\x7b\"id\":\"2\",\"name\":\"granite\"\x7d]\x7d"

/-- A page without items that names a next one. -/
def emptyPage : String := "\x7b\"items\":[],\"nextPageToken\":\"p\"\x7d"

def mnistAndGranite : List RegisteredModel :=
  [{ id := "1", name := "mnist" }, { id := "2", name := "granite" }]

/-- The listing that two pages make up. -/
theorem list_complete_unless_cut_twoPages :
    ((list RegisteredModel registry modelsPath).proc.run (twoPages mnistPage granitePage) ()).1 =
        .ok mnistAndGranite ∧
      (Complete registry (registry.address modelsPath)
          ((list RegisteredModel registry modelsPath).proc.trace (twoPages mnistPage granitePage) ())
          mnistAndGranite ∨
        CutShort registry (registry.address modelsPath)
          ((list RegisteredModel registry modelsPath).proc.trace (twoPages mnistPage granitePage) ())
          mnistAndGranite) := by
  have hrun : ((list RegisteredModel registry modelsPath).proc.run
      (twoPages mnistPage granitePage) ()).1 = .ok mnistAndGranite :=
    eq_ok_of_toOption (by decide +kernel)
  exact ⟨hrun, (list_complete_unless_cut registry modelsPath (twoPages mnistPage granitePage) ()).1
    mnistAndGranite hrun⟩

/-- The first page has no items and names a next one, which has one: the listing succeeds without
it. -/
theorem list_cut_short :
    ((list RegisteredModel registry modelsPath).proc.run (twoPages emptyPage granitePage) ()).1 =
        .ok [] ∧
      ¬ Complete registry (registry.address modelsPath)
        ((list RegisteredModel registry modelsPath).proc.trace (twoPages emptyPage granitePage) ())
        ([] : List RegisteredModel) := by
  have hpage : document? (Page RegisteredModel) (twoPages emptyPage granitePage
      (registry.request (registry.address modelsPath) (pageQuery "")) ()).1 = some ⟨[], "p"⟩ := by
    decide +kernel
  have hstops : ¬ (⟨[], "p"⟩ : Page RegisteredModel).GoesOn "" := fun hgoesOn => hgoesOn.filled rfl
  obtain ⟨hrun, htrace⟩ := collect_of_last 999 [] hpage hstops
  refine ⟨hrun, fun hcomplete => ?_⟩
  obtain ⟨last, hlast, hend⟩ := hcomplete.of_singleton htrace
  rw [hpage] at hlast
  cases hlast
  exact absurd hend (by decide)

end Client

end Registry

end CatalogSync
