import CatalogSync.Effect.Proc
import CatalogSync.Effect.Retry
import Mathlib.Order.Bounds.Defs
/-!
# Attempts in surroundings

`Proc.attempt` runs an operation again and again, whatever comes of it, each time in the state that
the attempt before has left. A bounded retry stops at the first of these attempts that is final, or
else at the last one that its policy allows (`Proc.run_retry`). So the outcomes and the policy decide
how often an operation is attempted, and the outcome of the retry is that of its last attempt.
-/

namespace CatalogSync.Proc

variable {I : Interface} {α ε σ : Type}

/-! ## §1 Attempts -/

/-- No other attempt follows: the outcome is a success, or a failure that cannot be mended. -/
def Final (mendable : ε → Bool) (outcome : Except ε α) : Prop :=
  ∀ e, outcome = .error e → mendable e = false

@[simp] theorem final_ok {mendable : ε → Bool} {a : α} :
    Final mendable (.ok a : Except ε α) := fun _ he => nomatch he

@[simp] theorem final_error_iff {mendable : ε → Bool} {e : ε} :
    Final mendable (.error e : Except ε α) ↔ mendable e = false := by
  simp [Final]

/-- A failure of the first step is one of both. -/
theorem Final.bind {β : Type} {mendable : ε → Bool} {r : Except ε α} {f : α → Except ε β}
    (hr : Final mendable r) (hf : ∀ a, Final mendable (f a)) : Final mendable (r >>= f) := by
  cases r with
  | ok a => exact hf a
  | error e => exact final_error_iff.mpr (final_error_iff.mp hr)

/-- What comes of an attempt, counted from 0, when an operation is attempted again and again. -/
def attempt (h : Handler I σ) (operation : Proc I (Except ε α)) (s : σ) : Nat → Except ε α × σ
  | 0 => operation.run h s
  | n + 1 => operation.run h (attempt h operation s n).2

variable {h : Handler I σ} {operation : Proc I (Except ε α)} {s : σ} {mendable : ε → Bool}

/-- The attempts after the first one are those from the state that it leaves. -/
theorem attempt_succ (n : Nat) :
    attempt h operation s (n + 1) = attempt h operation (operation.run h s).2 n := by
  induction n with
  | zero => rfl
  | succ n ih => rw [attempt, ih, attempt]

/-! ## §2 Bounded retry -/

/-- Nothing is attempted again after a success or a failure that another attempt cannot mend. -/
theorem run_attempts (hfinal : Final mendable (operation.run h s).1) (more : Nat) :
    (attempts mendable operation more).run h s = operation.run h s := by
  cases more with
  | zero => rfl
  | succ more =>
    rw [attempts, run_bind]
    cases hresult : (operation.run h s).1 with
    | ok a =>
      show (Except.ok a, (operation.run h s).2) = _
      rw [← hresult]
    | error e =>
      simp only [hfinal e hresult, Bool.false_eq_true, if_false]
      show (Except.error e, (operation.run h s).2) = _
      rw [← hresult]

/-- Another attempt follows in the state that a failure leaves which may be mended. -/
theorem run_attempts_succ (hagain : ¬ Final mendable (operation.run h s).1) (more : Nat) :
    (attempts mendable operation (more + 1)).run h s =
      (attempts mendable operation more).run h (operation.run h s).2 := by
  rw [attempts, run_bind]
  cases hresult : (operation.run h s).1 with
  | ok a => exact absurd (hresult ▸ final_ok) hagain
  | error e =>
    have hmendable : mendable e = true := by simpa [hresult] using hagain
    simp only [hmendable, if_true]

theorem exists_run_attempts (h : Handler I σ) (mendable : ε → Bool)
    (operation : Proc I (Except ε α)) (s : σ) (more : Nat) :
    ∃ n, IsLeast {n | Final mendable (attempt h operation s n).1 ∨ more ≤ n} n ∧
      (attempts mendable operation more).run h s = attempt h operation s n := by
  induction more generalizing s with
  | zero => exact ⟨0, ⟨.inr (Nat.le_refl 0), fun _ _ => Nat.zero_le _⟩, rfl⟩
  | succ more ih =>
    by_cases hfinal : Final mendable (operation.run h s).1
    · exact ⟨0, ⟨.inl hfinal, fun _ _ => Nat.zero_le _⟩, run_attempts hfinal _⟩
    · obtain ⟨n, ⟨hlast, hleast⟩, hrun⟩ := ih (operation.run h s).2
      refine ⟨n + 1, ⟨?_, ?_⟩, ?_⟩
      · show Final mendable (attempt h operation s (n + 1)).1 ∨ more + 1 ≤ n + 1
        rw [attempt_succ]
        exact hlast.imp_right Nat.succ_le_succ
      · rintro m (hm | hm)
        · -- The first attempt is not final, so it is a later one.
          cases m with
          | zero => exact absurd hm hfinal
          | succ m =>
            rw [attempt_succ] at hm
            exact Nat.succ_le_succ (hleast (.inl hm))
        · cases m with
          | zero => exact absurd hm (Nat.not_succ_le_zero _)
          | succ m => exact Nat.succ_le_succ (hleast (.inr (Nat.le_of_succ_le_succ hm)))
      · rw [run_attempts_succ hfinal, hrun, attempt_succ]

/-- A retry ends with the first attempt that is final or else with the last one that the policy
allows, in the state that this attempt leaves. -/
theorem run_retry (h : Handler I σ) (policy : RetryPolicy) (mendable : ε → Bool)
    (operation : Proc I (Except ε α)) (s : σ) :
    ∃ n, IsLeast {n | Final mendable (attempt h operation s n).1 ∨ policy.maxAttempts ≤ n + 1} n ∧
      (retry policy mendable operation).run h s = attempt h operation s n := by
  obtain ⟨n, hn, hrun⟩ := exists_run_attempts h mendable operation s (policy.maxAttempts - 1)
  have hlimit : ∀ m, policy.maxAttempts - 1 ≤ m ↔ policy.maxAttempts ≤ m + 1 := fun m => by omega
  simp only [hlimit] at hn
  exact ⟨n, hn, hrun⟩

/-! ## §3 Outcomes that are laid down -/

/-- The number of the last attempt, counted from 1, when the outcomes of all attempts and a limit are
given. -/
def IsLast (limit : Nat) (final : Nat → Prop) (k : Nat) : Prop :=
  IsLeast {k | 1 ≤ k ∧ (final k ∨ limit ≤ k)} k

/-- There are no more attempts than the limit, unless it is 0. -/
theorem IsLast.le {limit : Nat} {final : Nat → Prop} {k : Nat} (hk : IsLast limit final k) :
    k ≤ max 1 limit :=
  hk.2 ⟨Nat.le_max_left _ _, .inr (Nat.le_max_right _ _)⟩

theorem isLast_succ {limit : Nat} {final : Nat → Prop} {n : Nat}
    (hn : IsLeast {n | final (n + 1) ∨ limit ≤ n + 1} n) : IsLast limit final (n + 1) := by
  refine ⟨⟨Nat.succ_pos n, hn.1⟩, ?_⟩
  rintro k ⟨hpos, hk⟩
  obtain ⟨m, rfl⟩ := Nat.exists_eq_add_of_le' hpos
  exact Nat.succ_le_succ (hn.2 hk)

/-- An operation that is nothing but one call for its outcome. -/
abbrev trial (ε α : Type) : Interface := ⟨Unit, fun _ => Except ε α⟩

/-- The outcomes of all trials are laid down, and the trials are counted. -/
def laidDown (outcomes : Nat → Except ε α) : Handler (trial ε α) Nat :=
  fun _ n => (outcomes (n + 1), n + 1)

theorem attempt_laidDown (outcomes : Nat → Except ε α) (n : Nat) :
    attempt (laidDown outcomes) (ask (I := trial ε α) ()) 0 n = (outcomes (n + 1), n + 1) := by
  induction n with
  | zero => rfl
  | succ n ih =>
    rw [attempt, ih]
    rfl

/-- Of a sequence of outcomes, a retry takes as many as it takes to come to one that is final or to
the limit, and the last one that it takes is its own. -/
theorem retry_laidDown (policy : RetryPolicy) (mendable : ε → Bool)
    (outcomes : Nat → Except ε α) :
    ∃ k, IsLast policy.maxAttempts (fun k => Final mendable (outcomes k)) k ∧
      (retry policy mendable (ask (I := trial ε α) ())).run (laidDown outcomes) 0 =
        (outcomes k, k) := by
  obtain ⟨n, hn, hrun⟩ := run_retry (laidDown outcomes) policy mendable (ask (I := trial ε α) ()) 0
  simp only [attempt_laidDown] at hn hrun
  exact ⟨n + 1, isLast_succ hn, hrun⟩

end CatalogSync.Proc
