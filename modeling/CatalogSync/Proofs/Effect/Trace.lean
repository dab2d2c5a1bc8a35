import CatalogSync.Effect.Proc
/-!
# Traces of procedures

A run of a procedure makes calls and gets answers; its trace lists them in order. What a procedure
does to its surroundings is read off the trace, whatever the state of the surroundings is.

- `Proc.trace` lists the calls of a run with their answers; `Proc.trace_bind` follows sequencing.
- `Proc.states` lists the states through which a run goes.
- `Proc.Calls P` says of a procedure alone that it only makes calls with the property `P`.
- `Proc.Meets P` says of a run that each of its calls has the property `P` in its state.
- `Proc.eval` runs a procedure against fixed answers; by `Proc.run_eq_eval`, surroundings that
  always give these answers lead to the same result, whatever their state is.
- `Proc.Alike` relates surroundings in other states that a procedure cannot tell apart
  (`Proc.Calls.run_alike`).
-/

namespace CatalogSync

/-- A call together with the answer that it got. -/
structure Event (I : Interface) where
  call : I.Call
  answer : I.Answer call

namespace Proc

variable {I J : Interface} {α β σ τ : Type}

/-! ## §1 Traces -/

/-- The calls of a run with their answers, in order. -/
def trace (h : Handler I σ) : Proc I α → σ → List (Event I)
  | .done _, _ => []
  | .call c resume, s => ⟨c, (h c s).1⟩ :: (resume (h c s).1).trace h (h c s).2

@[simp] theorem trace_done (h : Handler I σ) (a : α) (s : σ) : (Proc.done a).trace h s = [] := rfl

@[simp] theorem trace_call (h : Handler I σ) (c : I.Call) (resume : I.Answer c → Proc I α)
    (s : σ) : (Proc.call c resume).trace h s =
      ⟨c, (h c s).1⟩ :: (resume (h c s).1).trace h (h c s).2 := rfl

/-- Every answer in a trace was given in some state. -/
theorem exists_answer_of_mem_trace {h : Handler I σ} {p : Proc I α} {s : σ} {e : Event I}
    (he : e ∈ p.trace h s) : ∃ s', e.answer = (h e.call s').1 := by
  induction p generalizing s with
  | done a => cases he
  | call c resume ih =>
    rcases List.mem_cons.mp he with rfl | he
    · exact ⟨s, rfl⟩
    · exact ih _ he

/-- The second of two procedures goes on in the state that the first has left. -/
theorem trace_bind (h : Handler I σ) (p : Proc I α) (f : α → Proc I β) (s : σ) :
    (p >>= f).trace h s = p.trace h s ++ (f (p.run h s).1).trace h (p.run h s).2 := by
  induction p generalizing s with
  | done a => rfl
  | call c resume ih =>
    -- Both sides make the first call in the same state, and go on with its answer.
    rw [bind_call, trace_call, trace_call, run_call, ih]
    rfl

/-- The states through which a run goes, from the first to the last. -/
def states (h : Handler I σ) : Proc I α → σ → List σ
  | .done _, s => [s]
  | .call c resume, s => s :: (resume (h c s).1).states h (h c s).2

/-! ## §2 The calls that a procedure may make -/

/-- Every call that the procedure may make, whatever it is answered, has a property. -/
def Calls (P : I.Call → Prop) : Proc I α → Prop
  | .done _ => True
  | .call c resume => P c ∧ ∀ answer, (resume answer).Calls P

theorem Calls.bind {P : I.Call → Prop} {p : Proc I α} {f : α → Proc I β} (hp : p.Calls P)
    (hf : ∀ a, (f a).Calls P) : (p >>= f).Calls P := by
  induction p with
  | done a => exact hf a
  | call c resume ih => exact ⟨hp.1, fun answer => ih answer (hp.2 answer)⟩

theorem Calls.imp {P Q : I.Call → Prop} {p : Proc I α} (hp : p.Calls P) (hPQ : ∀ c, P c → Q c) :
    p.Calls Q := by
  induction p with
  | done a => trivial
  | call c resume ih => exact ⟨hPQ c hp.1, fun answer => ih answer (hp.2 answer)⟩

/-- Calls that are answered by procedures become the calls of these procedures. -/
theorem Calls.through {P : J.Call → Prop} {answer : (c : I.Call) → Proc J (I.Answer c)}
    (hanswer : ∀ c, (answer c).Calls P) (p : Proc I α) : (p.through answer).Calls P := by
  induction p with
  | done a => trivial
  | call c resume ih => exact (hanswer c).bind ih

/-- The events of a run are calls that the procedure may make. -/
theorem Calls.of_mem_trace {P : I.Call → Prop} {h : Handler I σ} {p : Proc I α} (hp : p.Calls P)
    {s : σ} {e : Event I} (he : e ∈ p.trace h s) : P e.call := by
  induction p generalizing s with
  | done a => cases he
  | call c resume ih =>
    rcases List.mem_cons.mp he with rfl | he
    · exact hp.1
    · exact ih _ (hp.2 _) he

/-- What is collected from the events of a run is empty when none of the calls contributes. -/
theorem Calls.filterMap_trace {P : I.Call → Prop} {p : Proc I α} (hp : p.Calls P)
    {f : Event I → Option β} (hf : ∀ e, P e.call → f e = none) (h : Handler I σ) (s : σ) :
    (p.trace h s).filterMap f = [] := by
  rw [List.filterMap_eq_nil_iff]
  intro e he
  exact hf e (hp.of_mem_trace he)

theorem Calls.any_trace {P : I.Call → Prop} {p : Proc I α} (hp : p.Calls P)
    {test : Event I → Bool} (htest : ∀ e, P e.call → test e = false) (h : Handler I σ) (s : σ) :
    (p.trace h s).any test = false := by
  rw [List.any_eq_false]
  intro e he
  rw [htest e (hp.of_mem_trace he)]
  exact Bool.false_ne_true

/-- What relates the states before and after every call relates the first state to every state
through which a run goes. -/
theorem Calls.of_mem_states {h : Handler I σ} {R : σ → σ → Prop} (hrefl : ∀ s, R s s)
    (htrans : ∀ s₁ s₂ s₃, R s₁ s₂ → R s₂ s₃ → R s₁ s₃) {p : Proc I α}
    (hp : p.Calls fun c => ∀ s, R s (h c s).2) {s s' : σ} (hs' : s' ∈ p.states h s) : R s s' := by
  induction p generalizing s with
  | done a => exact List.mem_singleton.mp hs' ▸ hrefl s
  | call c resume ih =>
    rcases List.mem_cons.mp hs' with rfl | hs'
    · exact hrefl _
    · exact htrans _ _ _ (hp.1 s) (ih _ (hp.2 _) hs')

/-- Every call of a run has a property in the state in which it is made. -/
inductive Meets (P : I.Call → σ → Prop) (h : Handler I σ) : Proc I α → σ → Prop where
  | done (a : α) (s : σ) : Meets P h (.done a) s
  | call {c : I.Call} {resume : I.Answer c → Proc I α} {s : σ} (hc : P c s)
      (hrest : Meets P h (resume (h c s).1) (h c s).2) : Meets P h (.call c resume) s

theorem Meets.of_true (h : Handler I σ) (p : Proc I α) (s : σ) :
    p.Meets (fun _ _ => True) h s := by
  induction p generalizing s with
  | done a => exact .done a s
  | call c resume ih => exact .call trivial (ih _ _)

theorem Meets.bind {P : I.Call → σ → Prop} {h : Handler I σ} {p : Proc I α} {f : α → Proc I β}
    {s : σ} (hp : p.Meets P h s) (hf : (f (p.run h s).1).Meets P h (p.run h s).2) :
    (p >>= f).Meets P h s := by
  induction hp with
  | done a s => exact hf
  | call hc _ ih => exact .call hc (ih hf)

/-- Calls that have the property in every state have it in a run. -/
theorem Calls.meets {P : I.Call → σ → Prop} {p : Proc I α} (hp : p.Calls fun c => ∀ s, P c s)
    (h : Handler I σ) (s : σ) : p.Meets P h s := by
  induction p generalizing s with
  | done a => exact .done a s
  | call c resume ih => exact .call (hp.1 s) (ih _ (hp.2 _) _)

theorem through_bind (answer : (c : I.Call) → Proc J (I.Answer c)) (p : Proc I α)
    (f : α → Proc I β) :
    (p >>= f).through answer = p.through answer >>= fun a => (f a).through answer := by
  induction p with
  | done a => rfl
  | call c resume ih =>
    -- Only the order of sequencing differs.
    show (answer c >>= fun a => (resume a >>= f).through answer) =
      ((answer c >>= fun a => (resume a).through answer) >>= _)
    rw [bind_assoc]
    exact congrArg _ (funext ih)

/-! ## §3 Fixed answers -/

/-- The result of a procedure whose calls are always answered in the same way. -/
def eval (answer : (c : I.Call) → I.Answer c) : Proc I α → α
  | .done a => a
  | .call c resume => (resume (answer c)).eval answer

@[simp] theorem eval_call (answer : (c : I.Call) → I.Answer c) (c : I.Call)
    (resume : I.Answer c → Proc I α) :
    (Proc.call c resume).eval answer = (resume (answer c)).eval answer := rfl

theorem eval_bind (answer : (c : I.Call) → I.Answer c) (p : Proc I α) (f : α → Proc I β) :
    (p >>= f).eval answer = (f (p.eval answer)).eval answer := by
  induction p with
  | done a => rfl
  | call c resume ih => exact ih _

/-- Surroundings that always give the same answers lead to the result for these answers. -/
theorem run_eq_eval {h : Handler I σ} {answer : (c : I.Call) → I.Answer c}
    (steady : ∀ c s, (h c s).1 = answer c) (p : Proc I α) (s : σ) :
    (p.run h s).1 = p.eval answer := by
  induction p generalizing s with
  | done a => rfl
  | call c resume ih => rw [run_call, ih, steady, eval_call]

/-! ## §4 Surroundings that answer alike -/

/-- Certain calls are answered alike as long as the states are related, and keep them related. -/
def Alike (P : I.Call → Prop) (R : σ → τ → Prop) (h : Handler I σ) (h' : Handler I τ) : Prop :=
  ∀ c s x, P c → R s x → (h c s).1 = (h' c x).1 ∧ R (h c s).2 (h' c x).2

section

variable {P : I.Call → Prop} {R : σ → τ → Prop} {h : Handler I σ} {h' : Handler I τ} {s : σ} {x : τ}

/-- A procedure cannot tell surroundings apart that answer its calls alike. -/
theorem Calls.run_alike (alike : Alike P R h h') {p : Proc I α} (hp : p.Calls P) (hs : R s x) :
    (p.run h s).1 = (p.run h' x).1 ∧ p.trace h s = p.trace h' x ∧
      R (p.run h s).2 (p.run h' x).2 := by
  induction p generalizing s x with
  | done a => exact ⟨rfl, rfl, hs⟩
  | call c resume ih =>
    obtain ⟨hanswer, hnext⟩ := alike c s x hp.1 hs
    rw [run_call, run_call, trace_call, trace_call, ← hanswer]
    obtain ⟨hresult, htrace, hrest⟩ := ih (h c s).1 (hp.2 _) hnext
    exact ⟨hresult, congrArg _ htrace, hrest⟩

/-- The answers to calls that are made one after another. -/
def answers (h : Handler I σ) : List I.Call → σ → List (Event I)
  | [], _ => []
  | c :: calls, s => ⟨c, (h c s).1⟩ :: answers h calls (h c s).2

theorem answers_alike (alike : Alike P R h h') {calls : List I.Call} (hcalls : ∀ c ∈ calls, P c)
    (hs : R s x) : answers h calls s = answers h' calls x := by
  induction calls generalizing s x with
  | nil => rfl
  | cons c calls ih =>
    obtain ⟨hanswer, hnext⟩ := alike c s x (hcalls c List.mem_cons_self) hs
    rw [answers, answers, ← hanswer]
    exact congrArg _ (ih (fun c hc => hcalls c (List.mem_cons_of_mem _ hc)) hnext)

end

/-! ## §5 Loops -/

theorem foldlM_nil (f : β → α → Proc I β) (b : β) : [].foldlM f b = Proc.done b := rfl

theorem foldlM_cons (f : β → α → Proc I β) (b : β) (a : α) (l : List α) :
    (a :: l).foldlM f b = (f b a >>= fun b => l.foldlM f b) := rfl

/-- A loop calls what its rounds call. -/
theorem Calls.foldlM {P : I.Call → Prop} {f : β → α → Proc I β} {l : List α} {b : β}
    (hf : ∀ a ∈ l, ∀ b, (f b a).Calls P) : (l.foldlM f b).Calls P := by
  induction l generalizing b with
  | nil => trivial
  | cons a l ih =>
    rw [foldlM_cons]
    exact (hf a List.mem_cons_self b).bind fun _ => ih fun x hx => hf x (List.mem_cons_of_mem _ hx)

/-- What no round of a loop does, the loop does not do. -/
theorem any_trace_foldlM {h : Handler I σ} {f : β → α → Proc I β} {l : List α}
    {test : Event I → Bool} (hf : ∀ a ∈ l, ∀ b s, ((f b a).trace h s).any test = false) (b : β)
    (s : σ) : ((l.foldlM f b).trace h s).any test = false := by
  induction l generalizing b s with
  | nil => rfl
  | cons a l ih =>
    rw [foldlM_cons, trace_bind, List.any_append, hf a List.mem_cons_self, Bool.false_or]
    exact ih (fun a ha => hf a (List.mem_cons_of_mem _ ha)) _ _

/-- A loop does for each of its elements, at some point, what its body does. -/
theorem trace_subset_trace_foldlM (h : Handler I σ) (f : β → α → Proc I β) {l : List α} {a : α}
    (ha : a ∈ l) (b : β) (s : σ) :
    ∃ b' s', (f b' a).trace h s' ⊆ (l.foldlM f b).trace h s := by
  induction l generalizing b s with
  | nil => cases ha
  | cons x l ih =>
    rw [foldlM_cons, trace_bind]
    rcases List.mem_cons.mp ha with rfl | ha
    -- The round of the element is the first one.
    · exact ⟨b, s, List.subset_append_left _ _⟩
    · obtain ⟨b', s', hsub⟩ := ih ha ((f b x).run h s).1 ((f b x).run h s).2
      exact ⟨b', s', List.Subset.trans hsub (List.subset_append_right _ _)⟩

end Proc

/-! ## §6 Tasks -/

namespace Task

variable {I : Interface} {α β σ : Type}

@[simp] theorem proc_ofProc (p : Proc I (Except Fault α)) : (ofProc p).proc = p := rfl

@[simp] theorem proc_pure (a : α) : (pure a : Task I α).proc = .done (.ok a) := rfl

@[simp] theorem proc_throw (f : Fault) : (throw f : Task I α).proc = .done (.error f) := rfl

/-- The rest of a task, which is left out after a fault. -/
def andThen (f : α → Task I β) : Except Fault α → Proc I (Except Fault β)
  | .ok a => (f a).proc
  | .error e => .done (.error e)

theorem proc_bind (t : Task I α) (f : α → Task I β) : (t >>= f).proc = t.proc >>= andThen f := by
  show (t.proc >>= _) = _
  congr 1
  funext r
  cases r <;> rfl

theorem proc_lift (p : Proc I α) :
    (liftM p : Task I α).proc = p >>= fun a => .done (.ok a) := rfl

theorem proc_outcome (t : Task I α) : t.outcome.proc = t.proc >>= fun r => .done (.ok r) := rfl

theorem run_bind (h : Proc.Handler I σ) (t : Task I α) (f : α → Task I β) (s : σ) :
    (t >>= f).proc.run h s = (andThen f (t.proc.run h s).1).run h (t.proc.run h s).2 := by
  rw [proc_bind, Proc.run_bind]

/-- Whatever the outcome of a task is, the rest goes on. -/
theorem run_outcome_bind (h : Proc.Handler I σ) (t : Task I α) (f : Except Fault α → Task I β)
    (s : σ) : (t.outcome >>= f).proc.run h s =
      (f (t.proc.run h s).1).proc.run h (t.proc.run h s).2 := by
  rw [run_bind, proc_outcome, Proc.run_bind]
  rfl

theorem trace_bind (h : Proc.Handler I σ) (t : Task I α) (f : α → Task I β) (s : σ) :
    (t >>= f).proc.trace h s =
      t.proc.trace h s ++ (andThen f (t.proc.run h s).1).trace h (t.proc.run h s).2 := by
  rw [proc_bind, Proc.trace_bind]

theorem run_lift_bind (h : Proc.Handler I σ) (p : Proc I α) (f : α → Task I β) (s : σ) :
    ((liftM p : Task I α) >>= f).proc.run h s =
      (f (p.run h s).1).proc.run h (p.run h s).2 := by
  rw [run_bind, proc_lift, Proc.run_bind]
  rfl

/-- A procedure that does not fail is followed by the rest of the task. -/
theorem trace_lift_bind (h : Proc.Handler I σ) (p : Proc I α) (f : α → Task I β) (s : σ) :
    ((liftM p : Task I α) >>= f).proc.trace h s =
      p.trace h s ++ (f (p.run h s).1).proc.trace h (p.run h s).2 := by
  rw [trace_bind, proc_lift, Proc.trace_bind, Proc.run_bind, Proc.trace_done, List.append_nil]
  rfl

/-- A task calls what its parts call. -/
theorem calls_bind {P : I.Call → Prop} {t : Task I α} {f : α → Task I β} (ht : t.proc.Calls P)
    (hf : ∀ a, (f a).proc.Calls P) : (t >>= f).proc.Calls P := by
  rw [proc_bind]
  refine ht.bind fun r => ?_
  -- A fault ends the task without further calls.
  cases r with
  | ok a => exact hf a
  | error e => trivial

end Task

end CatalogSync
