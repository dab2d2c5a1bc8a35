import CatalogSync.Fault
/-!
# Procedures

A procedure is a computation that may call its surroundings. An `Interface` says which calls there
are and what kind of answer each has; `Proc I α` is either finished with a result or waits for the
answer to a call. Nothing is said of how calls are answered: a `Handler` answers them in a state,
and a step-by-step view (`Proc.step`) lets several procedures be interleaved at their calls.

`Task I α` is a procedure that may fail with a fault.
-/

namespace CatalogSync

/-- The calls that a procedure may make, and the kind of answer to each. -/
structure Interface where
  Call : Type
  Answer : Call → Type

/-- A computation over an interface. -/
inductive Proc (I : Interface) (α : Type) where
  -- The computation has ended.
  | done (a : α)
  -- The computation makes a call and goes on with its answer.
  | call (c : I.Call) (resume : I.Answer c → Proc I α)

namespace Proc

variable {I J : Interface} {α β γ σ : Type}

/-! ## §1 Sequencing -/

/-- Run one procedure after another. -/
def bind : Proc I α → (α → Proc I β) → Proc I β
  | .done a, f => f a
  | .call c resume, f => .call c fun answer => (resume answer).bind f

instance : Monad (Proc I) where
  pure := .done
  bind := bind

@[simp] theorem bind_done (a : α) (f : α → Proc I β) : (Proc.done a >>= f) = f a := rfl

@[simp] theorem bind_call (c : I.Call) (resume : I.Answer c → Proc I α) (f : α → Proc I β) :
    (Proc.call c resume >>= f) = .call c fun answer => resume answer >>= f := rfl

theorem bind_assoc (p : Proc I α) (f : α → Proc I β) (g : β → Proc I γ) :
    ((p >>= f) >>= g) = (p >>= fun a => f a >>= g) := by
  induction p with
  | done a => rfl
  | call c resume ih => simp only [bind_call]; exact congrArg _ (funext ih)

/-- The procedure that makes one call and ends with its answer. -/
def ask (c : I.Call) : Proc I (I.Answer c) := .call c .done

/-! ## §2 Surroundings -/

/-- Surroundings with a state, which answer calls. -/
abbrev Handler (I : Interface) (σ : Type) := (c : I.Call) → σ → I.Answer c × σ

/-- Run a procedure in surroundings. -/
def run (h : Handler I σ) : Proc I α → σ → α × σ
  | .done a, s => (a, s)
  | .call c resume, s =>
    match h c s with
    | (answer, s) => (resume answer).run h s

@[simp] theorem run_done (h : Handler I σ) (a : α) (s : σ) : (Proc.done a).run h s = (a, s) := rfl

theorem run_call (h : Handler I σ) (c : I.Call) (resume : I.Answer c → Proc I α) (s : σ) :
    (Proc.call c resume).run h s = (resume (h c s).1).run h (h c s).2 := rfl

theorem run_bind (h : Handler I σ) (p : Proc I α) (f : α → Proc I β) (s : σ) :
    (p >>= f).run h s = (f (p.run h s).1).run h (p.run h s).2 := by
  induction p generalizing s with
  | done a => rfl
  | call c resume ih => exact ih _ _

/-- Answer the calls of one interface by procedures over another. -/
def through (answer : (c : I.Call) → Proc J (I.Answer c)) : Proc I α → Proc J α
  | .done a => .done a
  | .call c resume => (answer c).bind fun a => (resume a).through answer

theorem run_through (answer : (c : I.Call) → Proc J (I.Answer c)) (h : Handler J σ) (p : Proc I α)
    (s : σ) : (p.through answer).run h s = p.run (fun c => (answer c).run h) s := by
  induction p generalizing s with
  | done a => rfl
  | call c resume ih =>
    show ((answer c) >>= fun a => (resume a).through answer).run h s = _
    rw [run_bind, ih]
    rfl

/-- What a procedure does next: it has ended, or it makes a call. -/
def step (p : Proc I α) : α ⊕ ((c : I.Call) × (I.Answer c → Proc I α)) :=
  match p with
  | .done a => .inl a
  | .call c resume => .inr ⟨c, resume⟩

end Proc

/-! ## §3 Procedures that may fail -/

/-- A procedure that ends with a result or a fault. -/
abbrev Task (I : Interface) (α : Type) := ExceptT Fault (Proc I) α

namespace Task

variable {I J : Interface} {α : Type}

/-- The procedure behind a task. -/
def proc (t : Task I α) : Proc I (Except Fault α) := ExceptT.run t

/-- The task of a procedure that ends with a result or a fault. -/
def ofProc (p : Proc I (Except Fault α)) : Task I α := ExceptT.mk p

/-- The task that is already decided. -/
def ofExcept (r : Except Fault α) : Task I α := ofProc (.done r)

/-- Run a task and go on with its outcome, whatever it is. -/
def outcome (t : Task I α) : Task I (Except Fault α) := ofProc (t.proc.bind fun r => .done (.ok r))

/-- The result of a task, or the given value where it fails. -/
def orElse (t : Task I α) (fallback : α) : Task I α :=
  ofProc (t.proc.bind fun r => .done (.ok (r.toOption.getD fallback)))

end Task

end CatalogSync
