import CatalogSync.Proofs.Order.Membership
import CatalogSync.Proofs.Storage.Calls
import Mathlib.Data.List.Induction
import Mathlib.Data.List.Infix
/-!
# Lives of keys

The calls to the backend with their answers tell what has become of an empty store (`replayed`). In
such a history a key is created, stays stored for a while, and is deleted again, any number of times
(`Life`, `Deletes`). A key is acknowledged when the importer has taken a notice of it since it was
last created (`Acknowledged`); `acknowledged_concat_iff` says how one more event changes that.
-/

namespace CatalogSync.Storage

namespace Service

open Proc (Handler)

variable {σ : Type} {h : Handler interface σ} {store : σ → Store} {key : ImportKey}
  {t before before' life life' : List (Event interface)} {e creation creation' : Event interface}

/-! ## §1 What a history makes of a store -/

/-- What an event does to a store. A call that has failed does nothing. -/
def effect (e : Event interface) (m : Store) : Store :=
  match e with
  | ⟨.storage c, .ok _⟩ => (Store.perform c m).2
  | _ => m

/-- The store that a history makes of an empty store. -/
def replayed (t : List (Event interface)) : Store := t.foldl (fun m e => effect e m) .empty

theorem replayed_concat (t : List (Event interface)) (e : Event interface) :
    replayed (t ++ [e]) = effect e (replayed t) := by
  unfold replayed
  rw [List.foldl_append, List.foldl_cons, List.foldl_nil]

/-- Surroundings that keep a store do to it what the event says. -/
theorem Backed.effect (backed : Backed h store) (c : Call) (s : σ) :
    store (h c s).2 = effect ⟨c, (h c s).1⟩ (store s) := by
  cases c with
  | acquire => exact backed.acquire s
  | release => exact backed.release s
  | imported key => exact backed.imported key s
  | removed key => exact backed.removed key s
  | storage c =>
    rcases backed.storage c s with ⟨hans, hs⟩ | ⟨⟨f, hans⟩, hs⟩
    · rw [hans]
      exact hs
    · rw [hans]
      exact hs

/-! ## §2 Lives -/

/-- An event creates the key, and it stays stored in the events after that. -/
structure Life (key : ImportKey) (before : List (Event interface)) (creation : Event interface)
    (life : List (Event interface)) : Prop where
  absent : (replayed before).contains key = false
  stored : ∀ part, part <+: life → (replayed (before ++ creation :: part)).contains key = true

theorem Life.concat (hlife : Life key before creation life)
    (hstored : (replayed (before ++ creation :: (life ++ [e]))).contains key = true) :
    Life key before creation (life ++ [e]) where
  absent := hlife.absent
  stored part hpart := by
    rcases List.prefix_concat_iff.mp hpart with rfl | hpart
    · exact hstored
    · exact hlife.stored part hpart

theorem Life.front (hlife : Life key before creation (life ++ life')) :
    Life key before creation life where
  absent := hlife.absent
  stored part hpart := hlife.stored part (hpart.trans (List.prefix_append _ _))

/-- A key that is stored is in the course of a life. -/
theorem exists_life (hstored : (replayed t).contains key = true) :
    ∃ before creation life, t = before ++ creation :: life ∧ Life key before creation life := by
  induction t using List.reverseRecOn with
  | nil => cases hstored
  | append_singleton t e ih =>
    cases hbefore : (replayed t).contains key with
    -- The last event has created the key.
    | false =>
      refine ⟨t, e, [], rfl, hbefore, fun part hpart => ?_⟩
      rw [List.prefix_nil.mp hpart]
      exact hstored
    | true =>
      obtain ⟨before, creation, life, rfl, hlife⟩ := ih hbefore
      rw [List.append_assoc, List.cons_append] at hstored ⊢
      exact ⟨before, creation, life ++ [e], rfl, hlife.concat hstored⟩

/-- A life does not begin in the course of another one. -/
theorem Life.eq_of_append {gap : List (Event interface)} (hlife : Life key before creation life)
    (hlife' : Life key before' creation' life') (hbefore : before' = before ++ gap)
    (hrest : creation :: life = gap ++ creation' :: life') :
    before = before' ∧ creation = creation' ∧ life = life' := by
  cases gap with
  | nil =>
    obtain ⟨rfl, rfl⟩ := List.cons.inj hrest
    exact ⟨(hbefore.trans (List.append_nil _)).symm, rfl, rfl⟩
  | cons e gap =>
    obtain ⟨rfl, rfl⟩ := List.cons.inj hrest
    have hstored := hlife.stored gap (List.prefix_append _ _)
    rw [← hbefore, hlife'.absent] at hstored
    cases hstored

/-- A history ends in the course of one life at most. -/
theorem Life.unique (hlife : Life key before creation life)
    (hlife' : Life key before' creation' life')
    (heq : before ++ creation :: life = before' ++ creation' :: life') :
    before = before' ∧ creation = creation' ∧ life = life' := by
  rcases List.append_eq_append_iff.mp heq with ⟨gap, hbefore, hrest⟩ | ⟨gap, hbefore, hrest⟩
  · exact hlife.eq_of_append hlife' hbefore hrest
  · obtain ⟨h₁, h₂, h₃⟩ := hlife'.eq_of_append hlife hbefore hrest
    exact ⟨h₁.symm, h₂.symm, h₃.symm⟩

/-! ## §3 Acknowledgements -/

/-- The importer takes a notice that the record of the key is there. -/
def taken (key : ImportKey) : Event interface := ⟨.imported key, .ok ()⟩

/-- The importer has taken a notice of the key since it was last created. -/
def Acknowledged (key : ImportKey) (t : List (Event interface)) : Prop :=
  ∃ before creation life, t = before ++ creation :: life ∧ Life key before creation life ∧
    taken key ∈ life

theorem Acknowledged.stored (hack : Acknowledged key t) : (replayed t).contains key = true := by
  obtain ⟨before, creation, life, rfl, hlife, -⟩ := hack
  exact hlife.stored life (List.prefix_refl life)

/-- In the course of a life the key is acknowledged by a notice that was taken in this life. -/
theorem Life.acknowledged_iff (hlife : Life key before creation life) :
    Acknowledged key (before ++ creation :: life) ↔ taken key ∈ life := by
  constructor
  · rintro ⟨before', creation', life', heq, hlife', htaken⟩
    obtain ⟨-, -, rfl⟩ := hlife.unique hlife' heq
    exact htaken
  · exact fun htaken => ⟨before, creation, life, rfl, hlife, htaken⟩

/-- After one more event a key is acknowledged if it has stayed stored, and was acknowledged before
or is by this event. -/
theorem acknowledged_concat_iff : Acknowledged key (t ++ [e]) ↔
    (replayed t).contains key = true ∧ (replayed (t ++ [e])).contains key = true ∧
      (Acknowledged key t ∨ e = taken key) := by
  constructor
  · intro hack
    have hstored := hack.stored
    obtain ⟨before, creation, life, heq, hlife, htaken⟩ := hack
    obtain ⟨life, last, rfl⟩ : ∃ front last, life = front ++ [last] := by
      refine (List.eq_nil_or_concat' life).resolve_left ?_
      rintro rfl
      cases htaken
    rw [← List.cons_append, ← List.append_assoc] at heq
    obtain ⟨rfl, hlast⟩ := List.append_inj' heq rfl
    obtain rfl : e = last := (List.cons.inj hlast).1
    have hlife := hlife.front
    refine ⟨hlife.stored life (List.prefix_refl life), hstored, ?_⟩
    rcases List.mem_append.mp htaken with htaken | htaken
    · exact .inl (hlife.acknowledged_iff.mpr htaken)
    · exact .inr (List.mem_singleton.mp htaken).symm
  · rintro ⟨hbefore, hstored, htaken⟩
    obtain ⟨before, creation, life, rfl, hlife⟩ := exists_life hbefore
    rw [List.append_assoc, List.cons_append] at hstored ⊢
    refine (hlife.concat hstored).acknowledged_iff.mpr (List.mem_append.mpr ?_)
    rcases htaken with hack | rfl
    · exact .inl (hlife.acknowledged_iff.mp hack)
    · exact .inr (List.mem_singleton_self _)

theorem not_acknowledged_nil : ¬ Acknowledged key [] := by
  rintro ⟨before, creation, life, heq, -, -⟩
  exact List.append_ne_nil_of_right_ne_nil _ (List.cons_ne_nil _ _) heq.symm

/-! ## §4 Deletions -/

/-- An event deletes the record of a key from a store. -/
def Deletes (key : ImportKey) (e : Event interface) (m : Store) : Prop :=
  m.contains key = true ∧ (effect e m).contains key = false

/-- The last event of a history has deleted the record of the key. -/
def JustDeleted (key : ImportKey) (t : List (Event interface)) : Prop :=
  ∃ before e, t = before ++ [e] ∧ Deletes key e (replayed before)

theorem justDeleted_concat_iff : JustDeleted key (t ++ [e]) ↔ Deletes key e (replayed t) := by
  constructor
  · rintro ⟨before, last, heq, hdeletes⟩
    obtain ⟨rfl, hlast⟩ := List.append_inj' heq rfl
    obtain rfl : e = last := (List.cons.inj hlast).1
    exact hdeletes
  · exact fun hdeletes => ⟨t, e, rfl, hdeletes⟩

theorem not_justDeleted_nil : ¬ JustDeleted key [] := by
  rintro ⟨before, e, heq, -⟩
  exact List.append_ne_nil_of_right_ne_nil _ (List.cons_ne_nil _ _) heq.symm

/-- An event that leaves the store as it is deletes nothing. -/
theorem not_justDeleted_of_same (hsame : effect e (replayed t) = replayed t) :
    ¬ JustDeleted key (t ++ [e]) := by
  rw [justDeleted_concat_iff, Deletes, hsame]
  rintro ⟨hstored, habsent⟩
  cases hstored.symm.trans habsent

end Service

end CatalogSync.Storage
