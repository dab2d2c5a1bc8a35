import CatalogSync.Proofs.Storage.Lives
import CatalogSync.Proofs.Storage.Pool
/-!
# Notices to the importer

What the service tells the importer, in the light of all that has happened before. A call is proper
after a history (`Proper`) when a notice of a removal is given exactly after a deletion, a record is
stored as known only if the importer has acknowledged its key, and the importer is not told again
about a key that it has acknowledged, unless the backend has failed. `Proceeds` says of a procedure
that all its calls are proper, whatever the backend and the importer answer, and how it ends. Every
change starts and ends in a settled history (`Settled`), and all its calls are proper
(`proceeds_write`, `proceeds_erase`, `proceeds_keep`).
-/

namespace CatalogSync.Storage

namespace Service

open Proc (Handler)

variable {σ α β : Type} {h : Handler interface σ} {store : σ → Store} {key : ImportKey}
  {past past' : List (Event interface)} {e : Event interface}

/-! ## §1 Proper calls -/

/-- What a call may be after a history. -/
structure Proper (past : List (Event interface)) (c : Call) : Prop where
  -- The importer is told that a record is gone after its deletion, and then nothing else is done.
  due : ∀ key, c = .removed key ↔ JustDeleted key past
  flagged : ∀ key record, c = .storage (.put key record) → record.imported = true →
    Acknowledged key past
  once : ∀ key, c = .imported key → Faultless past → ¬ Acknowledged key past

/-- Every call of a history is proper after those before it. -/
def Properly (t : List (Event interface)) : Prop :=
  ∀ before e rest, t = before ++ e :: rest → Proper before e.call

theorem properly_nil : Properly [] := by
  intro before e rest heq
  exact absurd heq.symm (List.append_ne_nil_of_right_ne_nil _ (List.cons_ne_nil _ _))

theorem Properly.concat (hpast : Properly past) (he : Proper past e.call) :
    Properly (past ++ [e]) := by
  intro before e' rest heq
  rcases List.eq_nil_or_concat' rest with rfl | ⟨front, last, rfl⟩
  · obtain ⟨rfl, hlast⟩ := List.append_inj' heq rfl
    obtain rfl : e = e' := (List.cons.inj hlast).1
    exact he
  · rw [← List.cons_append, ← List.append_assoc] at heq
    exact hpast before e' front (List.append_inj' heq rfl).1

theorem Properly.front (hpast : Properly past') (hfront : past <+: past') :
    Properly past := by
  obtain ⟨more, rfl⟩ := hfront
  rintro before e rest rfl
  exact hpast before e (rest ++ more) (by rw [List.append_assoc, List.cons_append])

/-! ## §2 Procedures whose calls are proper -/

/-- What a call may be answered by surroundings that keep a store. -/
def Possible (past : List (Event interface)) : (c : Call) → c.Answer → Prop
  | .storage c, .ok x => x = (Store.perform c (replayed past)).1
  | _, _ => True

/-- The history after an event. The lock is left out of it. -/
def noted (past : List (Event interface)) (e : Event interface) : List (Event interface) :=
  if e.call.isLock then past else past ++ [e]

/-- Whatever its calls are answered, a procedure that goes on from a history makes proper calls, and
a property holds of its result and the history at its end. -/
inductive Proceeds (Q : α → List (Event interface) → Prop) :
    Proc interface α → List (Event interface) → Prop where
  | done {a : α} {past : List (Event interface)} (ha : Q a past) : Proceeds Q (.done a) past
  | call {c : Call} {resume : c.Answer → Proc interface α} {past : List (Event interface)}
      (hproper : Proper past c)
      (hrest : ∀ answer, Possible past c answer →
        Proceeds Q (resume answer) (noted past ⟨c, answer⟩)) :
      Proceeds Q (.call c resume) past

namespace Proceeds

variable {Q R : α → List (Event interface) → Prop} {p : Proc interface α}

theorem imp (hp : Proceeds Q p past) (hQR : ∀ a past', Q a past' → R a past') :
    Proceeds R p past := by
  induction hp with
  | done ha => exact .done (hQR _ _ ha)
  | call hproper _ ih => exact .call hproper ih

theorem bind {Q : β → List (Event interface) → Prop} {f : α → Proc interface β}
    (hp : Proceeds (fun a past' => Proceeds Q (f a) past') p past) : Proceeds Q (p >>= f) past := by
  induction hp with
  | done ha => exact ha
  | call hproper _ ih => exact .call hproper ih

theorem noted_append_outsideOf (e : Event interface) (t : List (Event interface)) :
    noted past e ++ Pool.outsideOf t = past ++ Pool.outsideOf (e :: t) := by
  unfold noted Pool.outsideOf
  cases hlock : e.call.isLock with
  | true => rw [if_pos rfl, List.filter_cons_of_neg (by rw [hlock]; decide)]
  | false =>
    rw [if_neg Bool.false_ne_true, List.filter_cons_of_pos (by rw [hlock]; rfl),
      List.append_assoc, List.singleton_append]

/-- In surroundings that keep a store, the calls of a run are proper. -/
theorem of_run (backed : Backed h store) {s : σ} (hp : Proceeds Q p past)
    (hs : store s = replayed past) (hpast : Properly past) :
    Q (p.run h s).1 (past ++ Pool.outsideOf (p.trace h s)) ∧
      store (p.run h s).2 = replayed (past ++ Pool.outsideOf (p.trace h s)) ∧
      Properly (past ++ Pool.outsideOf (p.trace h s)) := by
  induction hp generalizing s with
  | done ha =>
    rw [Proc.trace_done, Pool.outsideOf, List.filter_nil, List.append_nil]
    exact ⟨ha, hs, hpast⟩
  | @call c resume past hproper _ ih =>
    have hpossible : Possible past c (h c s).1 := by
      cases c with
      | acquire => trivial
      | release => trivial
      | imported key => trivial
      | removed key => trivial
      | storage c =>
        rcases backed.storage c s with ⟨hans, -⟩ | ⟨⟨f, hans⟩, -⟩
        · rw [hans, hs]
          exact rfl
        · rw [hans]
          trivial
    have hstore : store (h c s).2 = replayed (noted past ⟨c, (h c s).1⟩) := by
      rw [backed.effect, hs, noted]
      split
      next hlock =>
        cases c with
        | acquire => rfl
        | release => rfl
        | imported key => cases hlock
        | removed key => cases hlock
        | storage c => cases hlock
      next => exact (replayed_concat _ _).symm
    have hproperly : Properly (noted past ⟨c, (h c s).1⟩) := by
      unfold noted
      split
      · exact hpast
      · exact hpast.concat hproper
    rw [Proc.run_call, Proc.trace_call, ← noted_append_outsideOf]
    exact ih _ hpossible hstore hproperly

end Proceeds

/-! ## §3 Settled histories -/

/-- The record of the key, if it is there, says whether the importer has acknowledged the key; only
after a failure of the backend may it miss that. -/
def Flagged (key : ImportKey) (past : List (Event interface)) : Prop :=
  ∀ record, (replayed past).get? key = some record →
    (record.imported = true → Acknowledged key past) ∧
    (Faultless past → Acknowledged key past → record.imported = true)

/-- Nothing is due, and every record says whether its key is acknowledged. -/
structure Settled (past : List (Event interface)) : Prop where
  nothingDue : ∀ key, ¬ JustDeleted key past
  flags : ∀ key, Flagged key past

theorem settled_nil : Settled [] where
  nothingDue _ := not_justDeleted_nil
  flags _ _ hrecord := nomatch hrecord

/-- A call of another kind is proper when nothing is due. -/
theorem proper_of_other {c : Call} (hdue : ∀ key, ¬ JustDeleted key past)
    (hc : ∀ key, c ≠ .removed key)
    (hput : ∀ key record, c = .storage (.put key record) → record.imported = true →
      Acknowledged key past)
    (htell : ∀ key, c = .imported key → Faultless past → ¬ Acknowledged key past) :
    Proper past c where
  due key := ⟨fun h => absurd h (hc key), fun h => absurd h (hdue key)⟩
  flagged := hput
  once := htell

/-- An event that does not touch the record of a key, and is no acknowledgement of it, leaves its
flag right. -/
theorem Flagged.concat (hflag : Flagged key past)
    (hsame : (effect e (replayed past)).get? key = (replayed past).get? key)
    (he : e ≠ taken key) : Flagged key (past ++ [e]) := by
  intro record hrecord
  rw [replayed_concat, hsame] at hrecord
  have hstored : (replayed past).contains key = true := by
    rw [SortedMap.contains, hrecord]
    rfl
  have hstays : (replayed (past ++ [e])).contains key = true := by
    rw [replayed_concat, SortedMap.contains, hsame, hrecord]
    rfl
  obtain ⟨hknown, hmissed⟩ := hflag record hrecord
  rw [acknowledged_concat_iff, faultless_append]
  refine ⟨fun himported => ⟨hstored, hstays, .inl (hknown himported)⟩, ?_⟩
  rintro ⟨hfaultless, -⟩ ⟨-, -, hack | hack⟩
  · exact hmissed hfaultless hack
  · exact absurd hack he

/-- An event that leaves the store as it is and is no acknowledgement leaves a settled history
settled. -/
theorem Settled.concat (hsettled : Settled past)
    (hsame : effect e (replayed past) = replayed past) (he : ∀ key, e ≠ taken key) :
    Settled (past ++ [e]) where
  nothingDue _ := not_justDeleted_of_same hsame
  flags key := (hsettled.flags key).concat (congrArg (SortedMap.get? · key) hsame) (he key)

/-! ## §4 Actions -/

/-- The importer is told about the key between two histories. -/
def Attempted (key : ImportKey) (past past' : List (Event interface)) : Prop :=
  ∃ own, past' = past ++ own ∧ ∃ e ∈ own, e.call = .imported key

section Rules

variable {Q : Except Rejection β → List (Event interface) → Prop}

theorem Proceeds.action_bind {a : Action α} {f : α → Action β}
    {P : Except Rejection α → List (Event interface) → Prop} (ha : Proceeds P a.run past)
    (hok : ∀ x past', P (.ok x) past' → Proceeds Q (f x).run past')
    (herror : ∀ e past', P (.error e) past' → Q (.error e) past') :
    Proceeds Q (a >>= f).run past := by
  rw [run_bind]
  refine (ha.imp fun r past' hr => ?_).bind
  cases r with
  | ok x => exact hok x past' hr
  | error e => exact .done (herror e past' hr)

/-- A call to the backend finds what the history has left in the store, or fails. -/
theorem Proceeds.storage {c : Backend.Call} {f : c.Result → Action β}
    (hproper : Proper past (.storage c))
    (hok : ∀ x, (Store.perform c (replayed past)).1 = x →
      Proceeds Q (f x).run (past ++ [⟨.storage c, .ok x⟩]))
    (herror : ∀ e, Q (.error (.ofFault e)) (past ++ [⟨.storage c, .error e⟩])) :
    Proceeds Q (Service.storage c >>= f).run past := by
  rw [run_storage_bind]
  refine .call hproper fun answer hanswer => ?_
  cases answer with
  | ok x => exact hok x hanswer.symm
  | error e => exact .done (herror e)

end Rules

/-- A stored record says whether its key is acknowledged, if it says what was known before. -/
theorem flagged_put {record : StoredRecord}
    (hknown : record.imported = true → Acknowledged key past)
    (hmissed : Faultless past → Acknowledged key past → record.imported = true) :
    Flagged key (past ++ [⟨.storage (.put key record), .ok ()⟩]) := by
  have hget : (replayed (past ++ [⟨.storage (.put key record), .ok ()⟩])).get? key =
      some record := by
    rw [replayed_concat]
    exact (SortedMap.get?_insert _ _ _ _).trans (if_pos rfl)
  have hstays : (replayed (past ++ [⟨.storage (.put key record), .ok ()⟩])).contains key =
      true := by
    rw [SortedMap.contains, hget]
    rfl
  intro record' hrecord'
  obtain rfl : record = record' := Option.some.inj (hget.symm.trans hrecord')
  rw [acknowledged_concat_iff, faultless_append]
  refine ⟨fun himported => ⟨(hknown himported).stored, hstays, .inl (hknown himported)⟩, ?_⟩
  rintro ⟨hfaultless, -⟩ ⟨-, -, hack | hack⟩
  · exact hmissed hfaultless hack
  · cases hack

/-- Storing a record deletes nothing. -/
theorem not_justDeleted_put {k : ImportKey} {record : StoredRecord} :
    ¬ JustDeleted k (past ++ [⟨.storage (.put key record), .ok ()⟩]) := by
  rw [justDeleted_concat_iff]
  rintro ⟨hstored, habsent⟩
  change ((replayed past).insert key record).contains k = false at habsent
  rw [SortedMap.contains, SortedMap.get?_insert] at habsent
  split at habsent
  · cases habsent
  · cases hstored.symm.trans habsent

theorem Settled.put {record : StoredRecord} (hsettled : Settled past)
    (hknown : record.imported = true → Acknowledged key past)
    (hmissed : Faultless past → Acknowledged key past → record.imported = true) :
    Settled (past ++ [⟨.storage (.put key record), .ok ()⟩]) where
  nothingDue _ := not_justDeleted_put
  flags k := by
    by_cases hk : k = key
    · subst hk
      exact flagged_put hknown hmissed
    · refine (hsettled.flags k).concat ?_ fun h => nomatch h
      exact (SortedMap.get?_insert _ _ _ _).trans (if_neg hk)

/-- The acknowledgement of a key does not concern the records of other keys. -/
theorem Settled.flagged_taken (hsettled : Settled past) {k : ImportKey} (hk : k ≠ key) :
    Flagged k (past ++ [taken key]) := by
  refine (hsettled.flags k).concat rfl fun h => ?_
  cases h
  exact hk rfl

/-- After an acknowledgement the record is stored as known. -/
theorem Settled.marked {record : StoredRecord} (hsettled : Settled past)
    (hack : Acknowledged key (past ++ [taken key])) (hmark : record.imported = true) :
    Settled (past ++ [taken key] ++ [⟨.storage (.put key record), .ok ()⟩]) where
  nothingDue _ := not_justDeleted_put
  flags k := by
    by_cases hk : k = key
    · subst hk
      exact flagged_put (fun _ => hack) fun _ _ => hmark
    · refine (hsettled.flagged_taken hk).concat ?_ fun h => nomatch h
      exact (SortedMap.get?_insert _ _ _ _).trans (if_neg hk)

/-- The record misses an acknowledgement when the backend fails. -/
theorem Settled.unmarked {record marked : StoredRecord} (hsettled : Settled past)
    (hrecord : (replayed past).get? key = some record) (hunknown : record.imported = false)
    (f : Fault) :
    Settled (past ++ [taken key] ++ [⟨.storage (.put key marked), .error f⟩]) where
  nothingDue _ := not_justDeleted_of_same rfl
  flags k := by
    by_cases hk : k = key
    · subst hk
      intro record' hrecord'
      rw [replayed_concat, replayed_concat] at hrecord'
      obtain rfl : record = record' := Option.some.inj (hrecord.symm.trans hrecord')
      refine ⟨fun h => absurd (hunknown.symm.trans h) Bool.false_ne_true, fun hfaultless => ?_⟩
      exact absurd List.mem_concat_self (hfaultless _ f)
    · exact (hsettled.flagged_taken hk).concat rfl fun h => nomatch h

/-- The importer is told about a record that it does not know, and the record is stored as known
when that has succeeded. -/
theorem proceeds_announce {record : StoredRecord} (hsettled : Settled past)
    (hrecord : (replayed past).get? key = some record) (hunknown : record.imported = false) :
    Proceeds (fun r past' => r = .ok () ∧ Settled past' ∧ Attempted key past past')
      (announce key record).run past := by
  have hstored : (replayed past).contains key = true := by
    rw [SortedMap.contains, hrecord]
    rfl
  have htell : Proper past (.imported key) := by
    refine proper_of_other hsettled.nothingDue (by rintro _ ⟨⟩) (by rintro _ _ ⟨⟩) ?_
    rintro k h hfaultless hack
    cases h
    have hknown := (hsettled.flags key record hrecord).2 hfaultless hack
    exact Bool.false_ne_true (hunknown.symm.trans hknown)
  refine .call htell fun answer _ => ?_
  cases answer with
  -- The importer has not taken the notice; the record stays as it is.
  | error f =>
    have hsettled' : Settled (past ++ [⟨.imported key, .error f⟩]) :=
      hsettled.concat rfl (by rintro _ ⟨⟩)
    exact .done ⟨rfl, hsettled', _, rfl, _, List.mem_singleton_self _, rfl⟩
  | ok _ =>
    have hack : Acknowledged key (past ++ [taken key]) :=
      acknowledged_concat_iff.mpr ⟨hstored, by rw [replayed_concat]; exact hstored, .inr rfl⟩
    have hput : Proper (past ++ [taken key])
        (.storage (.put key { record with imported := true })) := by
      refine proper_of_other (fun k => not_justDeleted_of_same rfl) (by rintro _ ⟨⟩) ?_
        (by rintro _ ⟨⟩)
      intro k r h _
      cases h
      exact hack
    have hattempted : ∀ e, Attempted key past (past ++ [taken key] ++ [e]) := by
      intro e
      exact ⟨[taken key, e], List.append_assoc _ _ _, _, List.mem_cons_self, rfl⟩
    refine .call hput fun answer _ => ?_
    cases answer with
    | ok _ => exact .done ⟨rfl, hsettled.marked hack rfl, hattempted _⟩
    | error f => exact .done ⟨rfl, hsettled.unmarked hrecord hunknown f, hattempted _⟩

/-- Reading and failed calls leave a settled history settled. -/
theorem Settled.get (hsettled : Settled past) (answer : Except Fault (Option StoredRecord)) :
    Settled (past ++ [⟨.storage (.get key), answer⟩]) := by
  refine hsettled.concat ?_ fun k h => nomatch h
  cases answer <;> rfl

theorem Settled.failed (hsettled : Settled past) (c : Backend.Call) (f : Fault) :
    Settled (past ++ [⟨.storage c, .error f⟩]) := hsettled.concat rfl fun _ h => nomatch h

theorem acknowledged_of_get {answer : Except Fault (Option StoredRecord)}
    (hack : Acknowledged key (past ++ [⟨.storage (.get key), answer⟩])) : Acknowledged key past := by
  rcases (acknowledged_concat_iff.mp hack).2.2 with hack | h
  · exact hack
  · cases h

theorem Attempted.of_append {own : List (Event interface)}
    (hattempted : Attempted key (past ++ own) past') : Attempted key past past' := by
  obtain ⟨more, rfl, e, he, hcall⟩ := hattempted
  exact ⟨own ++ more, List.append_assoc _ _ _, e, List.mem_append_right _ he, hcall⟩

/-- When nothing is due, a call to the backend is proper unless it stores a record as known that is
not. -/
theorem Settled.proper_storage (hsettled : Settled past) {c : Backend.Call}
    (hc : ∀ key record, c = .put key record → record.imported = true → Acknowledged key past) :
    Proper past (.storage c) := by
  refine proper_of_other hsettled.nothingDue (fun _ h => nomatch h) ?_ fun _ h => nomatch h
  intro key record h
  cases h
  exact hc key record rfl

/-- A record that the importer does not know is stored, and the importer is told about it. -/
theorem proceeds_store {record : StoredRecord} (hsettled : Settled past)
    (hunknown : record.imported = false) (hack : Faultless past → ¬ Acknowledged key past)
    (outcome : WriteOutcome) :
    Proceeds (fun r past' => Settled past' ∧ ∀ x, r = .ok x → Attempted key past past')
      (storage (.put key record) >>= fun _ => announce key record >>= fun _ => pure outcome).run
      past := by
  have hknown : record.imported = true → Acknowledged key past :=
    fun h => absurd (hunknown.symm.trans h) Bool.false_ne_true
  refine .storage (hsettled.proper_storage ?_) (fun _ _ => ?_) fun e => ?_
  · intro k r h
    cases h
    exact hknown
  · have hsettled' := hsettled.put hknown fun hfaultless h => absurd h (hack hfaultless)
    have hrecord : (replayed (past ++ [⟨.storage (.put key record), .ok ()⟩])).get? key =
        some record := by
      rw [replayed_concat]
      exact (SortedMap.get?_insert _ _ _ _).trans (if_pos rfl)
    refine (proceeds_announce hsettled' hrecord hunknown).action_bind ?_ fun e past' h => nomatch h.1
    rintro x past' ⟨-, hsettled', hattempted⟩
    exact .done ⟨hsettled', fun _ _ => hattempted.of_append⟩
  · exact ⟨hsettled.failed _ _, fun _ h => nomatch h⟩

/-- A write that is accepted finds its key acknowledged, or the importer is told about it. -/
theorem proceeds_write (hsettled : Settled past) (body : PostBody) (marker : Nat)
    (provenance : Provenance) :
    Proceeds (fun r past' => Settled past' ∧ ∀ outcome, r = .ok outcome → outcome ≠ .ignored →
        Acknowledged key past ∨ Attempted key past past')
      (write key body marker provenance).run past := by
  refine .storage (hsettled.proper_storage (by rintro _ _ ⟨⟩)) (fun found hfound => ?_)
    fun e => ?_
  · change (replayed past).get? key = found at hfound
    have hread : Settled (past ++ [⟨.storage (.get key), .ok found⟩]) := hsettled.get _
    cases found with
    | none =>
      refine (proceeds_store hread rfl (fun _ hack => ?_) .created).imp ?_
      -- A key that is not stored is not acknowledged.
      · have hstored := (acknowledged_of_get hack).stored
        rw [SortedMap.contains, hfound] at hstored
        cases hstored
      · rintro r past' ⟨hsettled', htold⟩
        exact ⟨hsettled', fun outcome h _ => .inr (htold outcome h).of_append⟩
    | some old =>
      obtain ⟨hknown, hmissed⟩ := hsettled.flags key old hfound
      by_cases holder : marker < old.lastUpdate
      · simp only [if_pos holder]
        refine .done ⟨hread, fun outcome h hne => ?_⟩
        cases h
        exact absurd rfl hne
      · simp only [if_neg holder]
        cases himported : old.imported with
        | true =>
          have hack := hknown himported
          have hack' : Acknowledged key (past ++ [⟨.storage (.get key), .ok (some old)⟩]) :=
            acknowledged_concat_iff.mpr ⟨hack.stored, by rw [replayed_concat]; exact hack.stored,
              .inl hack⟩
          refine .storage (hread.proper_storage ?_) (fun _ _ => ?_) fun e => ?_
          · intro k r h _
            cases h
            exact hack'
          · exact .done ⟨hread.put (fun _ => hack') fun _ _ => rfl, fun _ _ _ => .inl hack⟩
          · exact ⟨hread.failed _ _, by rintro _ ⟨⟩⟩
        | false =>
          refine (proceeds_store hread rfl (fun hfaultless hack => ?_) .updated).imp ?_
          · rw [faultless_append] at hfaultless
            have hmark := hmissed hfaultless.1 (acknowledged_of_get hack)
            exact Bool.false_ne_true (himported.symm.trans hmark)
          · rintro r past' ⟨hsettled', htold⟩
            exact ⟨hsettled', fun outcome h _ => .inr (htold outcome h).of_append⟩
  · exact ⟨hsettled.failed _ _, by rintro _ ⟨⟩⟩

/-! ### Removals -/

/-- A record that was there has been deleted, and the importer has been told so. -/
theorem Settled.removed (hsettled : Settled past) (hstored : (replayed past).contains key = true)
    (answer : Except Fault Unit) :
    Settled (past ++ [⟨.storage (.remove key), .ok true⟩] ++ [⟨.removed key, answer⟩]) where
  nothingDue _ := not_justDeleted_of_same rfl
  flags k := by
    by_cases hk : k = key
    · subst hk
      intro record hrecord
      rw [replayed_concat, replayed_concat] at hrecord
      change ((replayed past).erase k).get? k = some record at hrecord
      rw [SortedMap.get?_erase, if_pos rfl] at hrecord
      cases hrecord
    · refine Flagged.concat (.concat (hsettled.flags k) ?_ fun h => nomatch h) rfl fun h => nomatch h
      exact (SortedMap.get?_erase _ _ _).trans (if_neg hk)

theorem justDeleted_remove_iff (hstored : (replayed past).contains key = true) {k : ImportKey} :
    JustDeleted k (past ++ [⟨.storage (.remove key), .ok true⟩]) ↔ k = key := by
  have hafter : ((replayed past).erase key).contains k = true ↔
      k ≠ key ∧ (replayed past).contains k = true := by
    rw [SortedMap.contains, SortedMap.get?_erase]
    by_cases hk : k = key <;> simp [hk, SortedMap.contains]
  rw [justDeleted_concat_iff, Deletes]
  show _ ∧ ((replayed past).erase key).contains k = false ↔ _
  rw [Bool.eq_false_iff, ne_eq, hafter]
  constructor
  · rintro ⟨hk, hnot⟩
    by_contra hne
    exact hnot ⟨hne, hk⟩
  · rintro rfl
    exact ⟨hstored, fun h => h.1 rfl⟩

theorem proper_removed (hstored : (replayed past).contains key = true) :
    Proper (past ++ [⟨.storage (.remove key), .ok true⟩]) (.removed key) where
  due k := by rw [justDeleted_remove_iff hstored, Call.removed.injEq, eq_comm]
  flagged _ _ h := nomatch h
  once _ h := nomatch h

/-- The importer is told about the record that is removed, and then the procedure goes on in a
settled history. -/
theorem proceeds_remove {Q : Except Rejection β → List (Event interface) → Prop} {f : Bool → Action β}
    {g : Unit → Action β} (hsettled : Settled past) (hfound : f true = tellRemoved key >>= g)
    (hg : ∀ past', Settled past' → Proceeds Q (g ()).run past')
    (habsent : ∀ past', Settled past' → Proceeds Q (f false).run past')
    (herror : ∀ e past', Settled past' → Q (.error (.ofFault e)) past') :
    Proceeds Q (storage (.remove key) >>= f).run past := by
  refine .storage (hsettled.proper_storage fun _ _ h => nomatch h) (fun found hstored => ?_)
    fun e => herror e _ (hsettled.failed _ _)
  change (replayed past).contains key = found at hstored
  cases found with
  | true =>
    rw [hfound]
    exact .call (proper_removed hstored) fun answer _ => hg _ (hsettled.removed hstored answer)
  | false =>
    refine habsent _ (hsettled.concat ?_ fun _ h => nomatch h)
    -- The key was not stored, so nothing is erased.
    show (replayed past).erase key = _
    refine SortedMap.filterKeys_eq_self fun k hk => bne_iff_ne.mpr ?_
    rintro rfl
    rw [SortedMap.mem_keys_iff] at hk
    exact Bool.false_ne_true (hstored.symm.trans hk)

theorem proceeds_erase (hsettled : Settled past) :
    Proceeds (fun _ past' => Settled past') (erase key).run past :=
  proceeds_remove (g := pure) hsettled rfl (fun _ h => .done h) (fun _ h => .done h) fun _ _ h => h

theorem proceeds_prune (hsettled : Settled past) (keys : List ImportKey) :
    Proceeds (fun _ past' => Settled past') (prune keys).run past := by
  induction keys generalizing past with
  | nil => exact .done hsettled
  | cons key keys ih =>
    refine proceeds_remove hsettled rfl (fun past' hsettled' => ?_) (fun past' => ih)
      fun _ _ h => h
    exact (ih hsettled').action_bind (fun _ _ h => .done h) fun _ _ h => h

theorem proceeds_keep (hsettled : Settled past) (keys : SortedSet ImportKey) :
    Proceeds (fun _ past' => Settled past') (keep keys).run past := by
  refine .storage (hsettled.proper_storage fun _ _ h => nomatch h) (fun stored _ => ?_)
    fun e => hsettled.failed _ _
  have hlisted : Settled (past ++ [⟨.storage .list, .ok stored⟩]) :=
    hsettled.concat rfl fun _ h => nomatch h
  exact proceeds_prune hlisted _

end Service

end CatalogSync.Storage
