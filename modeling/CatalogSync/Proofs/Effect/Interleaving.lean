import CatalogSync.Proofs.Effect.Trace
import Mathlib.Logic.Function.Basic
/-!
# Procedures that take turns

Several procedures are under way in the same surroundings. They take turns as a schedule says, each
turn being one call, and a log lists the calls of all of them with their answers.

To one of the procedures the others are part of the surroundings. It may find them in another state
at each of its calls, but what it is answered is still what the surroundings answer in that state.
So what it calls is what it calls alone in surroundings that are unsteady in this way
(`Proc.exists_trace_interleave`), and every law about all surroundings applies to it.
-/

namespace CatalogSync.Proc

variable {I : Interface} {ι α σ : Type}

/-! ## §1 Taking turns -/

/-- Procedures that are under way in the same surroundings. -/
structure Woven (I : Interface) (ι α σ : Type) where
  -- What each procedure still has to do.
  running : ι → Proc I α
  state : σ
  -- The calls that were made, in order, and by whom.
  log : List (ι × Event I)

section

variable [DecidableEq ι]

/-- Procedures after they have taken turns. A turn of one that has ended is skipped. -/
def interleave (h : Handler I σ) : List ι → (ι → Proc I α) → σ → Woven I ι α σ
  | [], tasks, s => ⟨tasks, s, []⟩
  | i :: turns, tasks, s =>
    match tasks i with
    | .done _ => interleave h turns tasks s
    | .call c resume =>
      let rest := interleave h turns (Function.update tasks i (resume (h c s).1)) (h c s).2
      { rest with log := (i, ⟨c, (h c s).1⟩) :: rest.log }

/-- The calls of one of the procedures. -/
def eventsOf (i : ι) (log : List (ι × Event I)) : List (Event I) :=
  log.filterMap fun e => if e.1 = i then some e.2 else none

variable {i j : ι} {log : List (ι × Event I)} {e : Event I}

theorem eventsOf_append (i : ι) (log log' : List (ι × Event I)) :
    eventsOf i (log ++ log') = eventsOf i log ++ eventsOf i log' := List.filterMap_append

theorem eventsOf_cons_self (i : ι) (e : Event I) (log : List (ι × Event I)) :
    eventsOf i ((i, e) :: log) = e :: eventsOf i log :=
  List.filterMap_cons_some (if_pos rfl)

theorem eventsOf_cons_ne (hij : j ≠ i) (e : Event I) (log : List (ι × Event I)) :
    eventsOf i ((j, e) :: log) = eventsOf i log :=
  List.filterMap_cons_none (if_neg hij)

theorem mem_eventsOf : e ∈ eventsOf i log ↔ (i, e) ∈ log := by
  simp only [eventsOf, List.mem_filterMap, Option.ite_none_right_eq_some, Option.some.injEq]
  constructor
  · rintro ⟨⟨_, _⟩, hmem, rfl, rfl⟩
    exact hmem
  · intro hmem
    exact ⟨_, hmem, rfl, rfl⟩

end

/-! ## §2 States on the way -/

/-- The surroundings give these answers one after another and come from one state to the other. -/
inductive Leads (h : Handler I σ) : σ → List (Event I) → σ → Prop where
  | nil (s : σ) : Leads h s [] s
  | cons {c : I.Call} {s s' : σ} {t : List (Event I)} (hrest : Leads h (h c s).2 t s') :
      Leads h s (⟨c, (h c s).1⟩ :: t) s'

namespace Leads

variable {h : Handler I σ} {s m s' : σ} {t t' : List (Event I)}

theorem step {c : I.Call} {answer : I.Answer c} (hc : h c s = (answer, m))
    (hrest : Leads h m t s') : Leads h s (⟨c, answer⟩ :: t) s' := by
  obtain ⟨rfl, rfl⟩ := Prod.mk.inj hc
  exact .cons hrest

theorem split (hleads : Leads h s (t ++ t') s') : ∃ m, Leads h s t m ∧ Leads h m t' s' := by
  induction t generalizing s with
  | nil => exact ⟨s, .nil s, hleads⟩
  | cons e t ih =>
    cases hleads with
    | cons hrest =>
      obtain ⟨m, hfirst, hsecond⟩ := ih hrest
      exact ⟨m, .cons hfirst, hsecond⟩

/-- An answer was given in the state before it. -/
theorem head {c : I.Call} {answer : I.Answer c} (hleads : Leads h s (⟨c, answer⟩ :: t) s') :
    answer = (h c s).1 ∧ Leads h (h c s).2 t s' := by
  cases hleads with
  | cons hrest => exact ⟨rfl, hrest⟩

/-- Every answer was given in some state. -/
theorem answered {e : Event I} (hleads : Leads h s t s') (he : e ∈ t) :
    ∃ m, e.answer = (h e.call m).1 := by
  induction hleads with
  | nil s => cases he
  | @cons c s s' t _ ih =>
    rcases List.mem_cons.mp he with rfl | he
    · exact ⟨s, rfl⟩
    · exact ih he

end Leads

section

variable [DecidableEq ι]

theorem leads_interleave (h : Handler I σ) (turns : List ι) (tasks : ι → Proc I α) (s : σ) :
    Leads h s ((interleave h turns tasks s).log.map (·.2)) (interleave h turns tasks s).state := by
  induction turns generalizing tasks s with
  | nil => exact .nil s
  | cons i turns ih =>
    unfold interleave
    split
    · exact ih tasks s
    · exact .cons (ih _ _)

/-- What procedures do depends on the answers only. In surroundings that give the same answers they
do the same. -/
theorem interleave_of_leads {τ : Type} {h : Handler I σ} {h' : Handler I τ} {turns : List ι}
    {tasks : ι → Proc I α} {s : σ} {x x' : τ}
    (hleads : Leads h' x ((interleave h turns tasks s).log.map (·.2)) x') :
    (interleave h' turns tasks x).running = (interleave h turns tasks s).running ∧
      (interleave h' turns tasks x).state = x' ∧
      (interleave h' turns tasks x).log = (interleave h turns tasks s).log := by
  induction turns generalizing tasks s x with
  | nil =>
    cases hleads
    exact ⟨rfl, rfl, rfl⟩
  | cons i turns ih =>
    unfold interleave at hleads ⊢
    split
    next a hi =>
      rw [hi] at hleads
      exact ih hleads
    next c resume hi =>
      rw [hi] at hleads
      obtain ⟨hanswer, hrest⟩ := hleads.head
      rw [← hanswer]
      obtain ⟨hrunning, hstate, hlog⟩ := ih hrest
      exact ⟨hrunning, hstate, congrArg _ hlog⟩

/-! ## §3 One procedure among others -/

/-- Surroundings that answer every call in a state of its own. -/
def unsteady (h : Handler I σ) : Handler I (Nat → σ) :=
  fun c states => ((h c (states 0)).1, fun n => states (n + 1))

/-- What a procedure has called among others, together with what it still has to call, is what it
calls alone in unsteady surroundings. -/
theorem exists_trace_interleave (h : Handler I σ) (turns : List ι) (tasks : ι → Proc I α) (s : σ)
    (i : ι) : ∃ states states' : Nat → σ,
      (tasks i).trace (unsteady h) states =
        eventsOf i (interleave h turns tasks s).log ++
          ((interleave h turns tasks s).running i).trace (unsteady h) states' := by
  induction turns generalizing tasks s with
  | nil => exact ⟨fun _ => s, fun _ => s, rfl⟩
  | cons j turns ih =>
    unfold interleave
    split
    · exact ih tasks s
    next c resume hj =>
      obtain ⟨states, states', htrace⟩ :=
        ih (Function.update tasks j (resume (h c s).1)) (h c s).2
      by_cases hij : j = i
      · subst hij
        -- The state of this call comes before those of the calls that follow.
        refine ⟨fun n => n.casesOn s states, states', ?_⟩
        rw [Function.update_self] at htrace
        rw [hj, trace_call]
        dsimp only
        rw [eventsOf_cons_self, List.cons_append, ← htrace]
        rfl
      · refine ⟨states, states', ?_⟩
        rw [Function.update_of_ne (Ne.symm hij)] at htrace
        dsimp only
        rw [eventsOf_cons_ne hij, htrace]

end

end CatalogSync.Proc
