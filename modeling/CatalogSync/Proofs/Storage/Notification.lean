import CatalogSync.Proofs.Storage.Notices
import CatalogSync.Proofs.Storage.Serializability
import CatalogSync.Proofs.Storage.Wire
/-!
# What the importer is told in a run

Any number of changes are handled at the same time, from an empty store, in surroundings in which
any call to the backend and any notice may fail. In every state that can be reached a record is
marked as known only when the importer has taken a notice of it since it was created; without a
failure of the backend the importer is not told again about a record that it has taken a notice of,
and until then it is told at every accepted write; and every deletion of a record is followed by one
notice of it, which is never given otherwise (`Router.notified`).
-/

namespace CatalogSync.Storage

open Proc (Handler)
open Service (Acknowledged Attempted Backed Deletes Faultless JustDeleted Life Notice Proceeds
  Properly Rejection Reply Settled alone notices replayed taken)

namespace Service

variable {α β : Type} {key : ImportKey} {past t before life rest : List (Event interface)}
  {e creation : Event interface}

/-! ## §1 Notices in a life -/

theorem mem_notices_iff : (.imported key, true) ∈ notices t ↔ taken key ∈ t := by
  unfold notices
  rw [List.mem_filterMap]
  constructor
  · rintro ⟨⟨c, answer⟩, he, hnotice⟩
    cases c with
    | imported k =>
      obtain ⟨hk, htook⟩ := Prod.mk.inj (Option.some.inj hnotice)
      cases hk
      cases answer with
      | ok _ => exact he
      | error f => cases htook
    | removed k => cases hnotice
    | acquire => cases hnotice
    | release => cases hnotice
    | storage c => cases hnotice
  · exact fun he => ⟨_, he, rfl⟩

theorem mem_notices_of_call {took : Bool} (h : (.imported key, took) ∈ notices t) :
    ∃ e ∈ t, e.call = .imported key := by
  obtain ⟨⟨c, answer⟩, he, hnotice⟩ := List.mem_filterMap.mp h
  cases c with
  | imported k =>
    cases (Prod.mk.inj (Option.some.inj hnotice)).1
    exact ⟨_, he, rfl⟩
  | removed k => cases hnotice
  | acquire => cases hnotice
  | release => cases hnotice
  | storage c => cases hnotice

theorem exists_notice_of_call (he : e ∈ t) (hcall : e.call = .imported key) :
    ∃ took, (.imported key, took) ∈ notices t := by
  obtain ⟨c, answer⟩ := e
  cases hcall
  exact ⟨_, List.mem_filterMap.mpr ⟨_, he, rfl⟩⟩

/-- In the course of a life, unless the backend fails, no notice follows one that was taken. -/
theorem pairwise_notices (ht : Properly t) (hfaultless : Faultless t)
    (hlife : Life key before creation life) (heq : t = before ++ creation :: (life ++ rest)) :
    (notices life).Pairwise fun a b => a = (.imported key, true) → b.1 ≠ .imported key := by
  induction life using List.reverseRecOn generalizing rest with
  | nil => exact .nil
  | append_singleton life e ih =>
    rw [List.append_assoc, List.singleton_append] at heq
    rw [notices_append]
    refine List.pairwise_append.mpr ⟨ih hlife.front heq, ?_, ?_⟩
    · -- One event gives one notice at most.
      unfold notices
      rw [List.filterMap_cons]
      split
      · exact .nil
      · exact List.pairwise_singleton _ _
    · rintro a ha ⟨notice, took⟩ hb rfl rfl
      obtain ⟨e', he', hcall⟩ := mem_notices_of_call hb
      cases List.mem_singleton.mp he'
      rw [← List.cons_append, ← List.append_assoc] at heq
      have hack := hlife.front.acknowledged_iff.mpr (mem_notices_iff.mp ha)
      have hbefore : Faultless (before ++ creation :: life) := by
        rw [heq, faultless_append] at hfaultless
        exact hfaultless.1
      exact (ht _ _ _ heq).once key hcall hbefore hack

/-- What nothing like it follows occurs once at most. -/
theorem count_le_one_of_pairwise [BEq α] [LawfulBEq α] {x : α} {l : List α}
    (hl : l.Pairwise fun a b => a = x → b ≠ x) : l.count x ≤ 1 := by
  induction l with
  | nil => exact Nat.zero_le 1
  | cons a l ih =>
    obtain ⟨ha, hl⟩ := List.pairwise_cons.mp hl
    by_cases hax : a = x
    · have hnone : l.count x = 0 := List.count_eq_zero.mpr fun hx => ha x hx hax rfl
      rw [List.count_cons, hnone]
      split <;> decide
    · rw [List.count_cons_of_ne hax]
      exact ih hl

/-! ## §2 Requests -/

theorem Settled.proper_lock {c : Call} (hsettled : Settled past) (hc : c.isLock = true) :
    Proper past c where
  due key := by
    constructor
    · rintro rfl
      cases hc
    · exact fun h => absurd h (hsettled.nothingDue key)
  flagged key record h := by
    subst h
    cases hc
  once key h := by
    subst h
    cases hc

/-- What is done under the lock, and then shown, proceeds as it does without the lock. -/
theorem proceeds_locked {a : Action α} {P : Except Rejection α → List (Event interface) → Prop}
    (f : α → Reply) (g : Except Rejection Reply → β) (hsettled : Settled past)
    (ha : Proceeds (fun r past' => Settled past' ∧ P r past') a.run past) :
    Proceeds (fun b past' => Settled past' ∧ ∃ r, b = g (r.map f) ∧ P r past')
      ((locked a >>= fun x => pure (f x)).run >>= fun r => .done (g r)) past := by
  rw [locked_eq]
  refine .call (hsettled.proper_lock rfl) fun _ _ => (ha.imp fun r past' hr => ?_).bind
  exact .call (hr.1.proper_lock rfl) fun _ _ => .done ⟨hr.1, r, rfl, hr.2⟩

end Service

namespace Router

open Service (proceeds_locked)

variable {n : Nat} {σ : Type} {h : Handler Service.interface σ} {store : σ → Store}
  {requests : Fin n → Incoming} {s : σ} {past : List (Event Service.interface)}

/-- A response to a write says which key was written, and what became of the write. -/
theorem response_written_inj {w : Except Rejection WriteOutcome} {key key' : ImportKey}
    {outcome : WriteOutcome}
    (heq : response (w.map (.written key)) = response (.ok (.written key' outcome))) :
    key = key' ∧ w = .ok outcome := by
  cases w with
  -- A refusal is a plain text.
  | error e =>
    have htype := congrArg Http.Response.contentType heq
    simp only [Except.map, response, textResponse, jsonResponse, Option.some.injEq] at htype
    exact absurd htype (by decide)
  | ok o =>
    have hbody := congrArg Http.Response.body heq
    simp only [Except.map, response, jsonResponse] at hbody
    have hread := UpsertResponse.decode_written ⟨key, o⟩
    rw [hbody, UpsertResponse.decode_written] at hread
    cases hread
    exact ⟨rfl, rfl⟩

/-- An accepted write finds its key acknowledged, or the importer is told about it. -/
def Heralded (r : Incoming) (past : List (Event Service.interface)) (answer : Http.Response)
    (past' : List (Event Service.interface)) : Prop :=
  ∀ parameter type body key outcome, asked? r = some (.upsert parameter type body) →
    answer = response (.ok (.written key outcome)) → outcome ≠ .ignored →
    Acknowledged key past ∨ Attempted key past past'

theorem heralded_of_not_upsert {r : Incoming}
    (hr : ∀ parameter type body, asked? r ≠ some (.upsert parameter type body))
    (answer : Http.Response) (past' : List (Event Service.interface)) :
    Heralded r past answer past' := fun _ _ _ _ _ h => absurd h (hr _ _ _)

/-- The calls of a request for a change are proper, and it ends in a settled history. -/
theorem proceeds_handle {r : Incoming} (hr : Changes r) (hsettled : Settled past) :
    Proceeds (fun answer past' => Settled past' ∧ Heralded r past answer past') (handle r) past := by
  cases hq : asked? r with
  | none =>
    obtain ⟨answer, hhandle⟩ := handle_of_not_asked hq
    rw [hhandle]
    exact .done ⟨hsettled, heralded_of_not_upsert (fun _ _ _ h => nomatch hq.symm.trans h) _ _⟩
  | some q =>
    have hchange := hr q hq
    rw [handle_of_asked hq]
    simp only [shown_of_asked hq hchange]
    unfold Service.answer Service.perform
    cases q with
    | upsert parameter type body =>
      simp only [Service.upsert_eq]
      cases htarget : Service.targetOf parameter body with
      | error e =>
        refine .done ⟨hsettled, fun _ _ _ key outcome _ h _ => ?_⟩
        have heq : response ((Except.error e : Except Rejection WriteOutcome).map (.written key)) =
            response (.ok (.written key outcome)) := h
        cases (response_written_inj heq).2
      | ok target =>
        refine (proceeds_locked _ _ hsettled (Service.proceeds_write hsettled _ _ _)).imp ?_
        rintro answer past' ⟨hsettled', w, rfl, hw⟩
        refine ⟨hsettled', fun _ _ _ key outcome _ h hne => ?_⟩
        obtain ⟨rfl, rfl⟩ := response_written_inj h
        exact hw outcome rfl hne
    | remove parameter =>
      have hother : ∀ answer past', Heralded r past answer past' :=
        heralded_of_not_upsert fun _ _ _ h => nomatch hq.symm.trans h
      simp only [Service.remove_eq]
      cases Service.keyOf parameter with
      | error e => exact .done ⟨hsettled, hother _ _⟩
      | ok key =>
        refine (proceeds_locked (P := fun _ _ => True) _ _ hsettled
          ((Service.proceeds_erase hsettled).imp fun _ _ h => ⟨h, trivial⟩)).imp ?_
        exact fun answer past' h => ⟨h.1, hother _ _⟩
    | keySet parameter =>
      have hother : ∀ answer past', Heralded r past answer past' :=
        heralded_of_not_upsert fun _ _ _ h => nomatch hq.symm.trans h
      simp only [Service.keySet_eq]
      cases Service.keysOf parameter with
      | error e => exact .done ⟨hsettled, hother _ _⟩
      | ok keys =>
        refine (proceeds_locked (P := fun _ _ => True) _ _ hsettled
          ((Service.proceeds_keep hsettled _).imp fun _ _ h => ⟨h, trivial⟩)).imp ?_
        exact fun answer past' h => ⟨h.1, hother _ _⟩
    | list => cases hchange
    | fetch _ => cases hchange
    | card _ => cases hchange

/-! ## §3 Runs -/

/-- Changes that are handled one at a time, from an empty store, leave a settled history of proper
calls. -/
theorem settled_work (backed : Backed h store) (hempty : store s = .empty)
    (hchanges : ∀ i, Changes (requests i)) (l : List (Fin n)) :
    Settled (Pool.work (alone h) (l.map (tasks requests)) s) ∧
      store (after (alone h) (l.map requests) s) =
        replayed (Pool.work (alone h) (l.map (tasks requests)) s) ∧
      Properly (Pool.work (alone h) (l.map (tasks requests)) s) := by
  induction l using List.reverseRecOn with
  | nil => exact ⟨Service.settled_nil, hempty, Service.properly_nil⟩
  | append_singleton l i ih =>
    obtain ⟨hsettled, hstore, hproperly⟩ := ih
    rw [← after_tasks] at hstore ⊢
    rw [Pool.work_concat, Pool.after_concat]
    obtain ⟨hanswer, hafter, hmore⟩ :=
      (proceeds_handle (hchanges i) hsettled).of_run backed.alone hstore hproperly
    exact ⟨hanswer.1, hafter, hmore⟩

/-- In every pool that can be reached the store is what the calls so far have made of it. -/
theorem store_outside (backed : Backed h store) (hempty : store s = .empty)
    {p : Pool n Http.Response σ} (hreach : Pool.Reaches h (Pool.start (tasks requests) s) p) :
    store p.outside = replayed p.log := by
  induction hreach with
  | refl => exact hempty
  | tail _ hstep ih =>
    cases hstep with
    | acquire _ _ => exact ih
    | release _ _ => exact ih
    | outside _ _ =>
      show store (h _ _).2 = replayed (_ ++ [_])
      rw [Service.replayed_concat, backed.effect, ih]

/-- A record is there because it was stored just now or was there before. -/
theorem get?_effect {e : Event Service.interface} {m : Store} {key : ImportKey}
    {record : StoredRecord} (hrecord : (Service.effect e m).get? key = some record) :
    e.call = .storage (.put key record) ∨ m.get? key = some record := by
  obtain ⟨c, answer⟩ := e
  cases c with
  | acquire => exact .inr hrecord
  | release => exact .inr hrecord
  | imported k => exact .inr hrecord
  | removed k => exact .inr hrecord
  | storage c =>
    cases answer with
    | error f => exact .inr hrecord
    | ok x =>
      cases c with
      | get k => exact .inr hrecord
      | list => exact .inr hrecord
      | put k r =>
        change (m.insert k r).get? key = some record at hrecord
        rw [SortedMap.get?_insert] at hrecord
        split at hrecord
        next heq =>
          cases hrecord
          rw [heq]
          exact .inl rfl
        next => exact .inr hrecord
      | remove k =>
        change (m.erase k).get? key = some record at hrecord
        rw [SortedMap.get?_erase] at hrecord
        split at hrecord
        · cases hrecord
        · exact .inr hrecord

/-- A record that is marked as known was stored by a proper call. -/
theorem acknowledged_of_imported {t : List (Event Service.interface)} (ht : Properly t)
    {key : ImportKey} {record : StoredRecord} (hrecord : (replayed t).get? key = some record)
    (himported : record.imported = true) : Acknowledged key t := by
  induction t using List.reverseRecOn with
  | nil => cases hrecord
  | append_singleton t e ih =>
    have hstays : (replayed (t ++ [e])).contains key = true := by
      rw [SortedMap.contains, hrecord]
      rfl
    have hbefore : Acknowledged key t := by
      rw [Service.replayed_concat] at hrecord
      rcases get?_effect hrecord with hput | hstored
      · exact (ht t e [] rfl).flagged key record hput himported
      · exact ih (ht.front (List.prefix_append _ _)) hstored
    exact Service.acknowledged_concat_iff.mpr ⟨hbefore.stored, hstays, .inl hbefore⟩

/-- A write that was accepted found its key acknowledged when it had the lock, or the importer was
told about the key in its course. -/
theorem heralded_of_accepted (backed : Backed h store) (hempty : store s = .empty)
    (hchanges : ∀ i, Changes (requests i)) {p : Pool n Http.Response σ}
    (hreach : Pool.Reaches h (Pool.start (tasks requests) s) p) {i : Fin n}
    {parameter type : Option String} {body : PostBody} {key : ImportKey} {outcome : WriteOutcome}
    (hq : asked? (requests i) = some (.upsert parameter type body))
    (hdone : p.running i = .done (response (.ok (.written key outcome))))
    (hne : outcome ≠ .ignored) :
    ∃ earlier, earlier ++ [i] <+: p.acquired ∧
      Pool.work (alone h) ((earlier ++ [i]).map (tasks requests)) s <+: p.log ∧
      (Acknowledged key (Pool.work (alone h) (earlier.map (tasks requests)) s) ∨
        ∃ took, (.imported key, took) ∈
          told (alone h) (requests i) (after (alone h) (earlier.map requests) s)) := by
  have hguarded := guarded_tasks hchanges
  have inv : Pool.Inv h (fun _ _ => True) (tasks requests) s p :=
    .of_reaches hguarded (fun i s => .of_true _ _ _) hreach
  by_cases hmem : i ∈ p.acquired
  · obtain ⟨earlier, later, hsplit⟩ := List.append_of_mem hmem
    have hearlier : earlier ++ [i] <+: p.acquired :=
      ⟨later, by rw [hsplit, List.append_assoc, List.singleton_append]⟩
    have hheld : p.holder ≠ some i := by
      intro hholder
      obtain ⟨_, hholds⟩ := inv.busy i hholder
      have hheld := hholds.held
      rw [hdone] at hheld
      cases hheld
    have hanswer := Proc.done.inj (hdone.symm.trans (inv.ended earlier i hearlier hheld))
    rw [after_tasks] at hanswer
    obtain ⟨hsettled, hstore, hproperly⟩ := settled_work backed hempty hchanges earlier
    have hheralded :=
      ((proceeds_handle (hchanges i) hsettled).of_run backed.alone hstore hproperly).1.2
    refine ⟨earlier, hearlier, Pool.Inv.work_front_log_of_ended hguarded hreach hearlier hheld,
      (hheralded _ _ _ key outcome hq hanswer.symm hne).imp_right ?_⟩
    rintro ⟨own, hown, e, he, hcall⟩
    rw [told, ← notices_outsideOf, List.append_cancel_left hown]
    exact Service.exists_notice_of_call he hcall
  -- Without the lock nothing is written.
  · have hproceeds := proceeds_handle (hchanges i) Service.settled_nil
    rw [← tasks, ← inv.untouched i hmem, hdone] at hproceeds
    cases hproceeds with
    | done hheralded =>
      rcases hheralded.2 _ _ _ key outcome hq rfl hne with hack | ⟨own, hown, e, he, -⟩
      · exact absurd hack Service.not_acknowledged_nil
      · rw [List.nil_append] at hown
        rw [← hown] at he
        cases he

/-- Changes that are handled at the same time, from an empty store, while any call to the backend
and any notice may fail. In every pool that they can reach:
a record that is marked as known is acknowledged, that is, the importer has taken a notice of it
since its key was last created;
unless the backend has failed, between the creation of a key and its next deletion the importer
takes one notice of it at most and is not given another one after that;
a write that was accepted found its key acknowledged, or the importer was told about the key in its
course;
and a notice of a removal follows each deletion of a record at once, and nothing else. -/
theorem notified (backed : Backed h store) (hempty : store s = .empty)
    (hchanges : ∀ i, Changes (requests i)) {p : Pool n Http.Response σ}
    (hreach : Pool.Reaches h (Pool.start (tasks requests) s) p) :
    (∀ key record, (store p.outside).get? key = some record → record.imported = true →
      Acknowledged key p.log) ∧
    (Faultless p.log → ∀ key before creation life rest, Life key before creation life →
      p.log = before ++ creation :: (life ++ rest) →
      (notices life).count (.imported key, true) ≤ 1 ∧
      (notices life).Pairwise fun a b => a = (.imported key, true) → b.1 ≠ .imported key) ∧
    (∀ i parameter type body key outcome,
      asked? (requests i) = some (.upsert parameter type body) →
      p.running i = .done (response (.ok (.written key outcome))) → outcome ≠ .ignored →
      ∃ earlier, earlier ++ [i] <+: p.acquired ∧
        Pool.work (alone h) ((earlier ++ [i]).map (tasks requests)) s <+: p.log ∧
        (Acknowledged key (Pool.work (alone h) (earlier.map (tasks requests)) s) ∨
          ∃ took, (.imported key, took) ∈
            told (alone h) (requests i) (after (alone h) (earlier.map requests) s))) ∧
    (∀ key before e rest, p.log = before ++ e :: rest → e.call = .removed key →
      JustDeleted key before) ∧
    ∀ key before e rest, p.log = before ++ e :: rest → Deletes key e (replayed before) →
      (∃ answer later, rest = ⟨.removed key, answer⟩ :: later) ∨ rest = [] ∧ p.holder ≠ none := by
  have hguarded := guarded_tasks hchanges
  have inv : Pool.Inv h (fun _ _ => True) (tasks requests) s p :=
    .of_reaches hguarded (fun i s => .of_true _ _ _) hreach
  have hproperly : Properly p.log :=
    (settled_work backed hempty hchanges p.acquired).2.2.front inv.log_prefix
  refine ⟨fun key record hrecord himported => ?_, fun hfaultless key before creation life rest
    hlife heq => ?_, fun i parameter type body key outcome hq hdone hne => ?_,
    fun key before e rest heq hcall => ?_, fun key before e rest heq hdeletes => ?_⟩
  · rw [store_outside backed hempty hreach] at hrecord
    exact acknowledged_of_imported hproperly hrecord himported
  · have hpairwise := Service.pairwise_notices hproperly hfaultless hlife heq
    refine ⟨Service.count_le_one_of_pairwise (hpairwise.imp fun hab ha hb => ?_), hpairwise⟩
    exact hab ha (congrArg Prod.fst hb)
  · exact heralded_of_accepted backed hempty hchanges hreach hq hdone hne
  · exact ((hproperly before e rest heq).due key).mp hcall
  · have hjust : JustDeleted key (before ++ [e]) := Service.justDeleted_concat_iff.mpr hdeletes
    cases rest with
    | nil =>
      refine .inr ⟨rfl, fun hfree => ?_⟩
      have hsettled := (settled_work backed hempty hchanges p.acquired).1
      rw [← (inv.free hfree).2, heq] at hsettled
      exact hsettled.nothingDue key hjust
    | cons e' later =>
      obtain ⟨c, answer⟩ := e'
      have hnext := hproperly (before ++ [e]) ⟨c, answer⟩ later (by rw [heq, List.append_assoc]; rfl)
      obtain rfl : c = .removed key := (hnext.due key).mpr hjust
      exact .inl ⟨answer, later, rfl⟩

/-! ### A write and a removal of its record -/

theorem notified_writeAndRemoval :
    ∃ p : Pool 2 Http.Response Depot,
      Pool.Reaches Depot.handler (Pool.start (tasks writeAndRemoval) { store := .empty }) p ∧
      p.Complete ∧
      (∀ key record, p.outside.store.get? key = some record → record.imported = true →
        Acknowledged key p.log) ∧
      ∀ key before e rest, p.log = before ++ e :: rest → Deletes key e (replayed before) →
        ∃ answer later, rest = ⟨.removed key, answer⟩ :: later := by
  have hguarded := guarded_tasks changes_writeAndRemoval
  obtain ⟨p, hreach, hcomplete⟩ :=
    Pool.exists_complete Depot.handler hguarded { store := .empty }
  have inv : Pool.Inv Depot.handler (fun _ _ => True) (tasks writeAndRemoval) _ p :=
    .of_reaches hguarded (fun i s => .of_true _ _ _) hreach
  obtain ⟨hknown, -, -, -, hdeleted⟩ :=
    notified Depot.backed_handler rfl changes_writeAndRemoval hreach
  refine ⟨p, hreach, hcomplete, hknown, fun key before e rest heq hdeletes => ?_⟩
  rcases hdeleted key before e rest heq hdeletes with hnotice | ⟨-, hheld⟩
  · exact hnotice
  · exact absurd (inv.holder_of_complete hcomplete) hheld

end Router

end CatalogSync.Storage
