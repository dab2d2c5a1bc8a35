import CatalogSync.Proofs.Storage.Attempts
/-!
# Changes to a shared configuration map

Any number of backends and others change one configuration map at the same time. The cluster gives
every object that it stores a new version, and replaces the map only by one with the current version
(`Versioned`). A map that was loaded is then the current one as long as its version is
(`Versioned.knows_of_loaded`), so an accepted replace changes the map as it is at that moment
(`no_lost_update`).
-/

namespace CatalogSync.ConfigMap

open Proc (Handler Leads eventsOf)

variable {F : Interface} {σ α : Type}

/-! ## §1 The shared map -/

/-- The calls of backends, next to those of others. -/
abbrev shared (F : Interface) : Interface where
  Call := Call ⊕ F.Call
  Answer
    | .inl c => Except Fault c.Result
    | .inr c => F.Answer c

/-- A call of a backend among those of others. -/
def asShared (e : Event interface) : Event (shared F) := ⟨.inl e.call, e.answer⟩

/-- The calls that backends make. -/
def ownEvents (t : List (Event (shared F))) : List (Event interface) :=
  t.filterMap fun
    | ⟨.inl c, answer⟩ => some ⟨c, answer⟩
    | ⟨.inr _, _⟩ => none

theorem ownEvents_map (t : List (Event interface)) :
    ownEvents (t.map (asShared (F := F))) = t := by
  induction t with
  | nil => rfl
  | cons e t ih => exact congrArg (e :: ·) ih

/-- A procedure of a backend, at the shared map. -/
def onShared (p : Proc interface α) : Proc (shared F) α :=
  p.through fun (c : Call) => (.call (.inl c) .done : Proc (shared F) (Except Fault c.Result))

theorem ensures_onShared {D : List (Event interface) → Call → Prop}
    {E : List (Event interface) → α → Prop} {p : Proc interface α} (hp : p.Ensures D E []) :
    (onShared (F := F) p).Ensures
      (fun now c => ∃ own c', now = own.map asShared ∧ c = Sum.inl c' ∧ D own c')
      (fun now a => ∃ own, now = own.map asShared ∧ E own a) [] := by
  refine Proc.Ensures.through (K := fun own now => now = own.map asShared) hp rfl ?_
  intro own now c hown hc
  refine ⟨⟨own, c, hown, rfl, hc⟩, fun answer => ?_⟩
  show now ++ [_] = (own ++ [_]).map asShared
  rw [List.map_append, hown]
  rfl

/-- A cluster that keeps a map for several writers. -/
structure Versioned (h : Handler (shared F) σ) (object : σ → Option ConfigMap)
    (given : σ → Option String → Prop) : Prop where
  -- A version that was given once stays given.
  given_mono : ∀ c s v, given s v → given (h c s).2 v
  -- Whoever calls, an object that is stored anew gets a version that no object ever had.
  stored : ∀ c s, object (h c s).2 = object s ∨ object (h c s).2 = none ∨
    ∃ m, object (h c s).2 = some m ∧ ¬ given s m.version ∧ given (h c s).2 m.version
  read : ∀ s m, (h (.inl .read) s).1 = .ok m → object s = m
  read_object : ∀ s, object (h (.inl .read) s).2 = object s
  created : ∀ draft s m, (h (.inl (.create draft)) s).1 = .ok m → object s = none ∧
    object (h (.inl (.create draft)) s).2 = some m ∧ m.entries = draft.entries ∧
      m.texts = draft.texts
  -- Only a map with the current version takes the place of the current map.
  replaced : ∀ m s, (h (.inl (.replace m)) s).1 = .ok () → ∃ current version,
    object s = some current ∧ m.version = current.version ∧
      object (h (.inl (.replace m)) s).2 = some { m with version }
  refused : ∀ c s f, (h (.inl c) s).1 = .error f → object (h (.inl c) s).2 = object s

/-! ## §2 Maps that were loaded -/

/-- A map is the current one as long as its version is. -/
structure Knows (object : σ → Option ConfigMap) (given : σ → Option String → Prop) (m : ConfigMap)
    (s : σ) : Prop where
  given_version : given s m.version
  eq_of_version : ∀ current, object s = some current → current.version = m.version → current = m

/-- A map that is current is known. -/
theorem Knows.of_object {object : σ → Option ConfigMap} {given : σ → Option String → Prop} {s : σ}
    {m : ConfigMap} (hs : ∀ m, object s = some m → given s m.version) (hm : object s = some m) :
    Knows object given m s where
  given_version := hs m hm
  eq_of_version _ hcurrent _ := Option.some.inj (hcurrent.symm.trans hm)

namespace Versioned

variable {h : Handler (shared F) σ} {object : σ → Option ConfigMap}
  {given : σ → Option String → Prop} (server : Versioned h object given) {s s' : σ}
  {t : List (Event (shared F))} {m : ConfigMap}
include server

theorem knows_step (hm : Knows object given m s) (c : (shared F).Call) :
    Knows object given m (h c s).2 where
  given_version := server.given_mono c s _ hm.given_version
  eq_of_version current hcurrent hversion := by
    obtain hsame | hnone | ⟨m', hm', hnew, -⟩ := server.stored c s
    · exact hm.eq_of_version current (hsame ▸ hcurrent) hversion
    · rw [hnone] at hcurrent
      cases hcurrent
    · -- The version would have been given before.
      obtain rfl := Option.some.inj (hm'.symm.trans hcurrent)
      exact absurd (hversion ▸ hm.given_version) hnew

theorem knows_of_leads (hleads : Leads h s t s') (hm : Knows object given m s) :
    Knows object given m s' := by
  induction hleads with
  | nil s => exact hm
  | @cons c _ _ _ _ ih => exact ih (server.knows_step hm c)

/-- The version of the current map was given. -/
theorem given_of_leads (hleads : Leads h s t s') (hs : ∀ m, object s = some m → given s m.version) :
    ∀ m, object s' = some m → given s' m.version := by
  induction hleads with
  | nil s => exact hs
  | @cons c s _ _ _ ih =>
    refine ih fun m hm => ?_
    obtain hsame | hnone | ⟨m', hm', -, hgiven⟩ := server.stored c s
    · exact server.given_mono c s _ (hs m (hsame ▸ hm))
    · rw [hnone] at hm
      cases hm
    · obtain rfl := Option.some.inj (hm'.symm.trans hm)
      exact hgiven

/-- A map that was loaded once is known from then on. -/
theorem knows_of_loaded {e : Event interface} (hs : ∀ m, object s = some m → given s m.version)
    (hleads : Leads h s t s') (he : asShared e ∈ t) (hloads : Loads m e) :
    Knows object given m s' := by
  obtain ⟨before, after, rfl⟩ := List.append_of_mem he
  obtain ⟨x, hbefore, hrest⟩ := hleads.split
  obtain ⟨hanswer, hafter⟩ := hrest.head
  have hx := server.given_of_leads hbefore hs
  refine server.knows_of_leads hafter ?_
  cases hloads with
  | read =>
    have hread : object x = some m := server.read x (some m) hanswer.symm
    exact server.knows_step (.of_object hx hread) (.inl .read)
  | created draft =>
    obtain ⟨-, hcreated, -⟩ := server.created draft x m hanswer.symm
    exact .of_object (server.given_of_leads (.cons (.nil _)) hx) hcreated

/-- An accepted replace changes the map as it is at that moment. -/
theorem replaced_of_knows (hm : Knows object given m s) {entries : SortedMap String Bytes}
    (hanswer : (h (.inl (.replace { m with entries })) s).1 = .ok ()) :
    ∃ version, object s = some m ∧
      object (h (.inl (.replace { m with entries })) s).2 = some { m with entries, version } := by
  obtain ⟨current, version, hcurrent, hversion, hobject⟩ := server.replaced _ s hanswer
  obtain rfl := hm.eq_of_version current hcurrent hversion.symm
  exact ⟨version, hcurrent, hobject⟩

end Versioned

/-! ## §3 Writes -/

/-- A change of one entry. -/
inductive Write where
  | put (key : ImportKey) (record : Storage.StoredRecord)
  | remove (key : ImportKey)

namespace Write

def key : Write → ImportKey
  | .put key _ => key
  | .remove key => key

/-- The entry after the write. -/
def value : Write → Option Bytes
  | .put _ record => some record.encode
  | .remove _ => none

def change : Write → SortedMap String Bytes → Option (SortedMap String Bytes)
  | .put key record => fun entries => some (entries.insert key.text record.encode)
  | .remove key => without key.text

/-- The write at the backend; its result says whether something was changed. -/
def proc : Write → Proc interface (Except Fault Bool)
  | .put key record => (ConfigMap.put key record).proc >>= fun r => .done (r.map fun _ => true)
  | .remove key => (ConfigMap.remove key).proc

theorem ensures_proc (w : Write) : w.proc.Ensures (Attempt w.change) (Concluded w.change) [] := by
  have hmodify : ∀ change, (modify change (maxAttempts - 1)).proc.Ensures (Attempt change)
      (Concluded change) [] := fun change => ensures_modify change _ rfl (by decide)
  cases w with
  | remove key => exact hmodify (without key.text)
  | put key record =>
    have hput : (ConfigMap.put key record).proc.Ensures (Attempt (Write.put key record).change)
        (fun now r => Concluded (Write.put key record).change now (r.map fun _ => true)) [] := by
      refine Task.ensures_bind (hmodify _) (fun now changed _ hnow => ?_) fun _ f hnow => hnow
      -- An entry can always be put.
      have htrue : changed = true := by
        by_contra hfalse
        obtain ⟨_, -, hchange⟩ := hnow.unchanged (by rw [Bool.eq_false_iff.mpr hfalse])
        cases hchange
      subst htrue
      exact hnow
    exact hput.bind fun _ _ _ hr => hr

/-- The entry of a write was changed, and nothing else was. -/
structure Applied (w : Write) (before after : ConfigMap) : Prop where
  entry : after.entries.get? w.key.text = w.value
  others : ∀ name, name ≠ w.key.text → after.entries.get? name = before.entries.get? name
  texts : after.texts = before.texts
  metadata : after.metadata = before.metadata
  -- What is removed was there.
  present : w.value = none → (before.entries.get? w.key.text).isSome = true

theorem applied_of_change {w : Write} {m : ConfigMap} {entries : SortedMap String Bytes}
    (hchange : w.change m.entries = some entries) (version : Option String) :
    w.Applied m { m with entries, version } := by
  cases w with
  | put key record =>
    obtain rfl := Option.some.inj hchange
    exact {
      entry := by
        show (m.entries.insert key.text record.encode).get? key.text = some record.encode
        simp
      others := fun name hname => by simp [show name ≠ key.text from hname]
      texts := rfl
      metadata := rfl
      present := fun h => nomatch h }
  | remove key =>
    have hthere : m.entries.contains key.text = true ∧ m.entries.erase key.text = entries := by
      simpa [change, without] using hchange
    obtain ⟨hcontains, rfl⟩ := hthere
    exact {
      entry := by
        show (m.entries.erase key.text).get? key.text = none
        simp
      others := fun name hname => by simp [show name ≠ key.text from hname]
      texts := rfl
      metadata := rfl
      present := fun _ => hcontains }

end Write

/-! ## §4 No lost update -/

/-- Nothing was done, unless an empty map was created where none was. -/
def Untouched (before after : Option ConfigMap) : Prop :=
  after = before ∨
    before = none ∧ ∃ m, after = some m ∧ m.entries = .empty ∧ m.texts = .empty

theorem Versioned.untouched {h : Handler (shared F) σ} {object : σ → Option ConfigMap}
    {given : σ → Option String → Prop} (server : Versioned h object given) {s : σ}
    {change : SortedMap String Bytes → Option (SortedMap String Bytes)}
    {past : List (Event interface)} {e : Event interface} (he : Attempt change past e.call)
    (hanswer : e.answer = (h (.inl e.call) s).1) (hrefused : isAccepted e = false) :
    Untouched (object s) (object (h (.inl e.call) s).2) := by
  obtain ⟨c, answer⟩ := e
  cases answer with
  | error f => exact .inl (server.refused c s f hanswer.symm)
  | ok result =>
    cases he with
    | read => exact .inl (server.read_object s)
    | create =>
      obtain ⟨hnone, hcreated, hentries, htexts⟩ := server.created fresh s result hanswer.symm
      exact .inr ⟨hnone, result, hcreated, hentries, htexts⟩
    | replace => cases hrefused

/-- An accepted replace applies the write to the map as it is. -/
theorem Versioned.applied {h : Handler (shared F) σ} {object : σ → Option ConfigMap}
    {given : σ → Option String → Prop} (server : Versioned h object given) {s x : σ}
    {t : List (Event (shared F))} {w : Write} {past : List (Event interface)}
    {e : Event interface} (start : ∀ m, object s = some m → given s m.version)
    (hleads : Leads h s t x) (hpast : ∀ e ∈ past, asShared e ∈ t)
    (he : Attempt w.change past e.call) (hanswer : e.answer = (h (.inl e.call) x).1)
    (haccepted : isAccepted e = true) : ∃ current result, object x = some current ∧
      object (h (.inl e.call) x).2 = some result ∧ w.Applied current result := by
  obtain ⟨c, answer⟩ := e
  cases he with
  | read => cases haccepted
  | create => cases haccepted
  | @replace m entries loaded changed =>
    cases answer with
    | error f => cases haccepted
    | ok result =>
      obtain ⟨e, he, hloads⟩ := loaded
      have hm := server.knows_of_loaded start hleads (hpast e he) hloads
      obtain ⟨version, hcurrent, hreplaced⟩ := server.replaced_of_knows hm hanswer.symm
      exact ⟨m, _, hcurrent, hreplaced, Write.applied_of_change changed version⟩

section

variable {ι : Type} [DecidableEq ι] {h : Handler (shared F) σ} {object : σ → Option ConfigMap}
  {given : σ → Option String → Prop} {tasks : ι → Proc (shared F) (Except Fault Bool)} {s : σ}
  {i : ι} {w : Write}

/-- What a write has called among others are calls of the backend, at most three attempts of which
one at most was accepted. -/
theorem exists_own_events (h : Handler (shared F) σ) (turns : List ι) (s : σ)
    (hi : tasks i = onShared w.proc) : ∃ own : List (Event interface),
      eventsOf i (Proc.interleave h turns tasks s).log = own.map asShared ∧
        attempts own ≤ maxAttempts ∧ accepted own ≤ 1 := by
  have hbecomes := Proc.becomes_interleave h turns tasks s i
  rw [hi] at hbecomes
  have hinvariant := (ensures_onShared (F := F) w.ensures_proc).invariant (K := fun now =>
    ∃ own : List (Event interface), now = own.map asShared ∧ attempts own ≤ maxAttempts ∧
      accepted own ≤ 1) ⟨[], rfl, by decide, by decide⟩ ?_ hbecomes
  · exact hinvariant
  · intro past e ⟨own, hown, hattempts, haccepted⟩ ⟨own', c, hown', hcall, hattempt⟩
    have heq : own' = own := by
      rw [← ownEvents_map (F := F) own', ← hown', hown, ownEvents_map]
    subst heq
    obtain ⟨c', answer⟩ := e
    subst hcall
    refine ⟨own' ++ [⟨c, answer⟩], by rw [hown, List.map_append]; rfl, ?_⟩
    rw [attempts_concat, accepted_concat]
    cases hattempt with
    | read => exact ⟨hattempts, haccepted⟩
    | create => exact ⟨hattempts, haccepted⟩
    | replace _ _ unaccepted more =>
      exact ⟨more, by rw [unaccepted, Nat.zero_add]; exact Bool.toNat_le _⟩

/-- However many backends and others write to the map at once, and however their calls are
interleaved: a write makes three attempts at most and is accepted once at most, and when it has
ended, its result tells whether it was. Where it is accepted, it changes its entry of the map as it
is at that moment, and nothing else. None of its other calls changes a map that exists. -/
theorem no_lost_update (server : Versioned h object given) (turns : List ι)
    (start : ∀ m, object s = some m → given s m.version) (hi : tasks i = onShared w.proc) :
    let run := Proc.interleave h turns tasks s
    let own := ownEvents (eventsOf i run.log)
    attempts own ≤ 3 ∧ accepted own ≤ 1 ∧
    (∀ r, run.running i = .done r →
      (r = .ok true → accepted own = 1) ∧ (r ≠ .ok true → accepted own = 0)) ∧
    (∀ before e after, run.log = before ++ (i, asShared e) :: after → ∃ x,
      Leads h s (before.map (·.2)) x ∧
      (isAccepted e = true → ∃ current result, object x = some current ∧
        object (h (.inl e.call) x).2 = some result ∧ w.Applied current result) ∧
      (isAccepted e = false → Untouched (object x) (object (h (.inl e.call) x).2))) := by
  intro run own
  obtain ⟨events, hevents, hattempts, haccepted⟩ := exists_own_events h turns s hi
  have hown : own = events := by
    show ownEvents (eventsOf i run.log) = events
    rw [hevents, ownEvents_map]
  rw [← hown] at hattempts haccepted
  refine ⟨hattempts, haccepted, fun r hr => ?_, fun before e after hlog => ?_⟩
  · have hbecomes := Proc.becomes_interleave h turns tasks s i
    rw [hi, show (Proc.interleave h turns tasks s).running i = .done r from hr] at hbecomes
    obtain ⟨events', hevents', hconcluded⟩ := (ensures_onShared w.ensures_proc).result hbecomes
    have hsame : own = events' := by
      show ownEvents (eventsOf i run.log) = events'
      rw [← ownEvents_map (F := F) events', ← hevents']
      rfl
    rw [hsame]
    exact ⟨hconcluded.accepted_once, hconcluded.not_accepted⟩
  · have hleads := Proc.leads_interleave h turns tasks s
    rw [show (Proc.interleave h turns tasks s).log = _ from hlog, List.map_append,
      List.map_cons] at hleads
    obtain ⟨x, hbefore, hrest⟩ := hleads.split
    obtain ⟨hanswer, -⟩ := hrest.head
    have hensures := ensures_onShared (F := F) w.ensures_proc
    rw [← hi] at hensures
    obtain ⟨past, c, hpast, hcall, hattempt⟩ := Proc.Ensures.called_interleave hlog hensures
    obtain rfl : e.call = c := Sum.inl.inj hcall
    have hseen : ∀ e ∈ past, asShared e ∈ before.map (·.2) := by
      intro e he
      have hmem : asShared e ∈ eventsOf i before := hpast ▸ List.mem_map_of_mem he
      exact List.mem_map_of_mem (f := (·.2)) (Proc.mem_eventsOf.mp hmem)
    exact ⟨x, hbefore, server.applied start hbefore hseen hattempt hanswer,
      server.untouched hattempt hanswer⟩

end

/-! ## §5 Two writers and an editor -/

/-- Others edit the map without looking at its version. -/
abbrev edits : Interface := ⟨ConfigMap → ConfigMap, fun _ => Unit⟩

/-- A cluster that numbers its versions. -/
structure Numbered where
  object : Option ConfigMap := none
  next : Nat := 0

namespace Numbered

def stamp (n : Nat) : Option String := some (String.ofList (List.replicate n 'v'))

theorem stamp_inj {m n : Nat} (h : stamp m = stamp n) : m = n := by
  have hlist := congrArg String.toList (Option.some.inj h)
  rw [String.toList_ofList, String.toList_ofList] at hlist
  simpa using congrArg List.length hlist

/-- The object that is stored next. -/
def store (n : Nat) (m : ConfigMap) : Numbered := ⟨some { m with version := stamp n }, n + 1⟩

def handler : Handler (shared edits) Numbered
  | .inl .read, s => (.ok s.object, s)
  | .inl (.create draft), ⟨none, n⟩ => (.ok { draft with version := stamp n }, store n draft)
  | .inl (.create _), ⟨some current, n⟩ => (.error (.cluster (some 409)), ⟨some current, n⟩)
  | .inl (.replace _), ⟨none, n⟩ => (.error (.cluster (some 404)), ⟨none, n⟩)
  | .inl (.replace m), ⟨some current, n⟩ =>
    if m.version = current.version then (.ok (), store n m)
    else (.error (.cluster (some 409)), ⟨some current, n⟩)
  | .inr _, ⟨none, n⟩ => ((), ⟨none, n⟩)
  | .inr edit, ⟨some current, n⟩ => ((), store n (edit current))

/-- The versions that were given. -/
def Given (s : Numbered) (version : Option String) : Prop := ∃ n < s.next, version = stamp n

theorem handler_replace_of_current {m current : ConfigMap} (h : m.version = current.version)
    (n : Nat) : handler (.inl (.replace m)) ⟨some current, n⟩ = (.ok (), store n m) := if_pos h

theorem handler_replace_of_stale {m current : ConfigMap} (h : m.version ≠ current.version)
    (n : Nat) : handler (.inl (.replace m)) ⟨some current, n⟩ =
      (.error (.cluster (some 409)), ⟨some current, n⟩) := if_neg h

theorem handler_cases (c : (shared edits).Call) (s : Numbered) :
    (handler c s).2 = s ∨ ∃ m, (handler c s).2 = store s.next m := by
  obtain ⟨_ | current, n⟩ := s
  · rcases c with (_ | draft | m) | edit
    · exact .inl rfl
    · exact .inr ⟨draft, rfl⟩
    · exact .inl rfl
    · exact .inl rfl
  · rcases c with (_ | draft | m) | edit
    · exact .inl rfl
    · exact .inl rfl
    · by_cases hversion : m.version = current.version
      · exact .inr ⟨m, by rw [handler_replace_of_current hversion]⟩
      · exact .inl (by rw [handler_replace_of_stale hversion])
    · exact .inr ⟨edit current, rfl⟩

theorem versioned_handler : Versioned handler object Given where
  given_mono c s v hv := by
    obtain ⟨n, hn, rfl⟩ := hv
    obtain hsame | ⟨m, hstore⟩ := handler_cases c s
    · exact ⟨n, by rw [hsame]; exact hn, rfl⟩
    · exact ⟨n, by rw [hstore]; exact Nat.lt_succ_of_lt hn, rfl⟩
  stored c s := by
    obtain hsame | ⟨m, hstore⟩ := handler_cases c s
    · exact .inl (congrArg object hsame)
    · rw [hstore]
      refine .inr (.inr ⟨_, rfl, fun ⟨n, hn, hversion⟩ => ?_, s.next, Nat.lt_succ_self _, rfl⟩)
      exact absurd (stamp_inj hversion) (Nat.ne_of_gt hn)
  read s m hm := Except.ok.inj hm
  read_object s := rfl
  created draft s m hm := by
    obtain ⟨_ | current, n⟩ := s
    · obtain rfl := Except.ok.inj hm
      exact ⟨rfl, rfl, rfl, rfl⟩
    · cases hm
  replaced m s hm := by
    obtain ⟨_ | current, n⟩ := s
    · cases hm
    · by_cases hversion : m.version = current.version
      · exact ⟨current, stamp n, rfl, hversion, by rw [handler_replace_of_current hversion]; rfl⟩
      · rw [handler_replace_of_stale hversion] at hm
        cases hm
  refused c s f hf := by
    obtain ⟨_ | current, n⟩ := s
    · cases c with
      | create draft => cases hf
      | _ => rfl
    · cases c with
      | replace m =>
        by_cases hversion : m.version = current.version
        · rw [handler_replace_of_current hversion] at hf
          cases hf
        · rw [handler_replace_of_stale hversion]
      | _ => rfl

end Numbered

def firstKey : ImportKey := ⟨"ns_a", by decide +kernel⟩

def secondKey : ImportKey := ⟨"ns_b", by decide +kernel⟩

/-- Two backends put a record each, and someone gives the map a label. -/
def putsAndEdit : Fin 3 → Proc (shared edits) (Except Fault Bool)
  | 0 => onShared (Write.put firstKey { body := [], lastUpdate := 1 }).proc
  | 1 => onShared (Write.put secondKey { body := [], lastUpdate := 2 }).proc
  | 2 => .call (.inr fun m => { m with texts := m.texts.insert "owner" "me" }) fun _ =>
    .done (.ok true)

/-- Both find no map and create one, and the second backend loses the race twice more. -/
def raceTurns : List (Fin 3) := [0, 1, 0, 1, 1, 2, 0, 0, 1, 1, 0, 1, 1, 1]

theorem no_lost_update_race :
    let run := Proc.interleave Numbered.handler raceTurns putsAndEdit {}
    let own := fun i => ownEvents (eventsOf i run.log)
    run.running 0 = .done (.ok true) ∧ accepted (own 0) = 1 ∧
      run.running 1 = .done (.ok true) ∧ accepted (own 1) = 1 ∧ attempts (own 1) = 3 ∧
      ∃ before e after x current result, run.log = before ++ (1, asShared e) :: after ∧
        Leads Numbered.handler {} (before.map (·.2)) x ∧ x.object = some current ∧
        (Numbered.handler (.inl e.call) x).2.object = some result ∧
        (Write.put secondKey { body := [], lastUpdate := 2 }).Applied current result := by
  intro run own
  have start : ∀ m, ({} : Numbered).object = some m → Numbered.Given {} m.version := by
    intro m hm
    cases hm
  have hfirst := no_lost_update Numbered.versioned_handler raceTurns start
    (show putsAndEdit 0 = onShared _ from rfl)
  have hsecond := no_lost_update Numbered.versioned_handler raceTurns start
    (show putsAndEdit 1 = onShared _ from rfl)
  have hended : run.running 0 = .done (.ok true) ∧ run.running 1 = .done (.ok true) := ⟨rfl, rfl⟩
  refine ⟨hended.1, (hfirst.2.2.1 _ hended.1).1 rfl, hended.2, (hsecond.2.2.1 _ hended.2).1 rfl,
    rfl, ?_⟩
  have hreplaced : ∃ m, ((1 : Fin 3), asShared ⟨.replace m, .ok ()⟩) ∈ run.log :=
    ⟨_, List.mem_of_getElem? (i := 13) (by rfl)⟩
  obtain ⟨m, hm⟩ := hreplaced
  obtain ⟨before, after, hlog⟩ := List.append_of_mem hm
  obtain ⟨x, hleads, happlied, -⟩ := hsecond.2.2.2 before _ after hlog
  obtain ⟨current, result, hcurrent, hresult, hput⟩ := happlied rfl
  exact ⟨before, _, after, x, current, result, hlog, hleads, hcurrent, hresult, hput⟩

end CatalogSync.ConfigMap
