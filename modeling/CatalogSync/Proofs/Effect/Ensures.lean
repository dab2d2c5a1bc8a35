import CatalogSync.Proofs.Effect.Interleaving
/-!
# What a procedure does whatever it is answered

`Proc.Becomes p t q` says that after the events `t` the procedure `p` still has to do what `q` does;
`Proc.Ends p t a` that it has then ended. Nothing is said of the surroundings. So what is proved of
these events holds in all of them, and for procedures that take turns
(`Proc.becomes_interleave`).

`Proc.Ensures P Q p past` says of a procedure that has a past: each of its calls has the property
`P` of what came before it, and its result the property `Q`. The rules of this judgement follow
sequencing, loops (`Ensures.foldlM`), and calls that are answered by procedures (`Ensures.through`).
-/

namespace CatalogSync

variable {I J : Interface} {ι α β σ : Type}

namespace Proc

/-! ## §1 What is left to do -/

/-- After these events a procedure still has to do what the other one does. -/
inductive Becomes : Proc I α → List (Event I) → Proc I α → Prop where
  | refl (p : Proc I α) : Becomes p [] p
  | step {c : I.Call} {resume : I.Answer c → Proc I α} {answer : I.Answer c} {t : List (Event I)}
      {q : Proc I α} (hrest : Becomes (resume answer) t q) :
      Becomes (.call c resume) (⟨c, answer⟩ :: t) q

/-- After these events a procedure has ended with a result. -/
abbrev Ends (p : Proc I α) (t : List (Event I)) (a : α) : Prop := Becomes p t (.done a)

theorem becomes_call_iff {c : I.Call} {resume : I.Answer c → Proc I α} {t : List (Event I)}
    {q : Proc I α} : Becomes (.call c resume) t q ↔
      (t = [] ∧ q = .call c resume) ∨
        ∃ answer rest, t = ⟨c, answer⟩ :: rest ∧ Becomes (resume answer) rest q := by
  constructor
  · intro h
    cases h with
    | refl => exact .inl ⟨rfl, rfl⟩
    | step hrest => exact .inr ⟨_, _, rfl, hrest⟩
  · intro h
    obtain ⟨rfl, rfl⟩ | ⟨answer, rest, rfl, hrest⟩ := h
    · exact .refl _
    · exact .step hrest

@[simp] theorem ends_done_iff {a b : α} {t : List (Event I)} :
    Ends (.done a) t b ↔ t = [] ∧ b = a := by
  constructor
  · intro h
    cases h
    exact ⟨rfl, rfl⟩
  · intro ⟨ht, hb⟩
    subst ht hb
    exact .refl _

theorem ends_call_iff {c : I.Call} {resume : I.Answer c → Proc I α} {t : List (Event I)} {a : α} :
    Ends (.call c resume) t a ↔
      ∃ answer rest, t = ⟨c, answer⟩ :: rest ∧ Ends (resume answer) rest a := by
  simp [Ends, becomes_call_iff]

/-- Of two procedures in sequence, the second starts with the result of the first. -/
theorem ends_bind_iff {p : Proc I α} {f : α → Proc I β} {t : List (Event I)} {b : β} :
    Ends (p >>= f) t b ↔ ∃ first rest a, t = first ++ rest ∧ Ends p first a ∧
      Ends (f a) rest b := by
  induction p generalizing t with
  | done a =>
    rw [bind_done]
    constructor
    · exact fun h => ⟨[], t, a, rfl, .refl _, h⟩
    · intro ⟨first, rest, a', ht, hfirst, hrest⟩
      obtain ⟨rfl, rfl⟩ := ends_done_iff.mp hfirst
      exact ht ▸ hrest
  | call c resume ih =>
    rw [bind_call, ends_call_iff]
    constructor
    · intro ⟨answer, t', ht, h⟩
      obtain ⟨first, rest, a, rfl, hfirst, hrest⟩ := (ih answer).mp h
      exact ⟨⟨c, answer⟩ :: first, rest, a, ht, .step hfirst, hrest⟩
    · intro ⟨first, rest, a, ht, hfirst, hrest⟩
      obtain ⟨answer, first', rfl, hfirst'⟩ := ends_call_iff.mp hfirst
      exact ⟨answer, first' ++ rest, ht, (ih answer).mpr ⟨first', rest, a, rfl, hfirst', hrest⟩⟩

/-- The events decide when a procedure has ended, and with which result. -/
theorem Ends.unique {p : Proc I α} {t t' rest rest' : List (Event I)} {a b : α} (ha : Ends p t a)
    (hb : Ends p t' b) (heq : t ++ rest = t' ++ rest') : t = t' ∧ a = b := by
  induction p generalizing t t' with
  | done c =>
    obtain ⟨rfl, rfl⟩ := ends_done_iff.mp ha
    obtain ⟨rfl, rfl⟩ := ends_done_iff.mp hb
    exact ⟨rfl, rfl⟩
  | call c resume ih =>
    obtain ⟨answer, first, rfl, ha'⟩ := ends_call_iff.mp ha
    obtain ⟨answer', first', rfl, hb'⟩ := ends_call_iff.mp hb
    obtain ⟨he, hrest⟩ := List.cons.inj heq
    cases he
    obtain ⟨rfl, rfl⟩ := ih answer ha' hb' hrest
    exact ⟨rfl, rfl⟩

/-- What is left to do makes its call. -/
theorem Becomes.concat {p : Proc I α} {t : List (Event I)} {c : I.Call}
    {resume : I.Answer c → Proc I α} (hp : Becomes p t (.call c resume)) (answer : I.Answer c) :
    Becomes p (t ++ [⟨c, answer⟩]) (resume answer) := by
  generalize hq : Proc.call c resume = q at hp
  induction hp with
  | refl p => exact hq ▸ .step (.refl _)
  | step _ ih => exact .step (ih hq)

/-- The events are calls that the procedure may make. -/
theorem Calls.of_becomes {D : I.Call → Prop} {p q : Proc I α} {t : List (Event I)}
    (hp : p.Calls D) (hbecomes : Becomes p t q) : ∀ e ∈ t, D e.call := by
  induction hbecomes with
  | refl p => exact fun e he => nomatch he
  | step _ ih => exact List.forall_mem_cons.mpr ⟨hp.1, ih (hp.2 _)⟩

/-- A run ends after its trace. -/
theorem ends_run (h : Handler I σ) (p : Proc I α) (s : σ) :
    Ends p (p.trace h s) (p.run h s).1 := by
  induction p generalizing s with
  | done a => exact .refl _
  | call c resume ih => exact .step (ih _ _)

/-- Procedures that take turns, each by itself. -/
theorem becomes_interleave [DecidableEq ι] (h : Handler I σ) (turns : List ι)
    (tasks : ι → Proc I α) (s : σ) (i : ι) :
    Becomes (tasks i) (eventsOf i (interleave h turns tasks s).log)
      ((interleave h turns tasks s).running i) := by
  induction turns generalizing tasks s with
  | nil => exact .refl _
  | cons j turns ih =>
    unfold interleave
    split
    · exact ih tasks s
    next c resume hj =>
      have hrest := ih (Function.update tasks j (resume (h c s).1)) (h c s).2
      dsimp only
      by_cases hij : j = i
      · subst hij
        rw [hj, eventsOf_cons_self]
        rw [Function.update_self] at hrest
        exact .step hrest
      · rw [eventsOf_cons_ne hij]
        rwa [Function.update_of_ne (Ne.symm hij)] at hrest

/-! ## §2 What calls and results may depend on -/

/-- Whatever a procedure with a certain past is answered, each of its calls has the property `P` of
what came before, and its result has the property `Q` of everything. -/
def Ensures (P : List (Event I) → I.Call → Prop) (Q : List (Event I) → α → Prop) :
    Proc I α → List (Event I) → Prop
  | .done a, past => Q past a
  | .call c resume, past =>
    P past c ∧ ∀ answer, (resume answer).Ensures P Q (past ++ [⟨c, answer⟩])

namespace Ensures

variable {P P' : List (Event I) → I.Call → Prop} {Q Q' : List (Event I) → α → Prop}
  {R : List (Event I) → β → Prop} {p : Proc I α} {past : List (Event I)}

theorem imp (hp : p.Ensures P Q past) (hP : ∀ past c, P past c → P' past c)
    (hQ : ∀ past a, Q past a → Q' past a) : p.Ensures P' Q' past := by
  induction p generalizing past with
  | done a => exact hQ past a hp
  | call c resume ih => exact ⟨hP past c hp.1, fun answer => ih answer (hp.2 answer)⟩

/-- The past does not change. -/
theorem extends_past (hp : p.Ensures P Q past) :
    p.Ensures P (fun now a => past <+: now ∧ Q now a) past := by
  induction p generalizing past with
  | done a => exact ⟨List.prefix_refl _, hp⟩
  | call c resume ih =>
    refine ⟨hp.1, fun answer => (ih answer (hp.2 answer)).imp (fun _ _ hP => hP) ?_⟩
    intro now a ⟨hgrown, hQ⟩
    exact ⟨(List.prefix_append _ _).trans hgrown, hQ⟩

theorem bind {f : α → Proc I β} (hp : p.Ensures P Q past)
    (hf : ∀ now a, past <+: now → Q now a → (f a).Ensures P R now) :
    (p >>= f).Ensures P R past := by
  induction p generalizing past with
  | done a => exact hf past a (List.prefix_refl _) hp
  | call c resume ih =>
    refine ⟨hp.1, fun answer => ih answer (hp.2 answer) fun now a hgrown => ?_⟩
    exact hf now a ((List.prefix_append _ _).trans hgrown)

/-- One property of the calls alone is enough where nothing is asked of the result. -/
theorem of_calls {D : I.Call → Prop} (hp : p.Calls D) (hD : ∀ past c, D c → P past c) :
    p.Ensures P (fun _ _ => True) past := by
  induction p generalizing past with
  | done a => trivial
  | call c resume ih => exact ⟨hD past c hp.1, fun answer => ih answer (hp.2 answer)⟩

/-- A loop keeps what each of its rounds keeps. -/
theorem foldlM {γ : Type} {f : β → γ → Proc I β} {l : List γ} {b : β}
    (hf : ∀ x ∈ l, ∀ now b, past <+: now → R now b → (f b x).Ensures P R now) (hb : R past b) :
    (l.foldlM f b).Ensures P R past := by
  induction l generalizing past b with
  | nil => exact hb
  | cons x l ih =>
    rw [foldlM_cons]
    refine (hf x List.mem_cons_self past b (List.prefix_refl _) hb).bind fun now b hgrown hb => ?_
    refine ih (fun y hy later b hlater => ?_) hb
    exact hf y (List.mem_cons_of_mem _ hy) later b (hgrown.trans hlater)

/-- Calls that are answered by procedures. A relation between what was called and what these
procedures have called is kept by each of them. -/
theorem through {D : List (Event J) → J.Call → Prop} {E : List (Event J) → α → Prop}
    {K : List (Event J) → List (Event I) → Prop} {p : Proc J α}
    {answer : (c : J.Call) → Proc I (J.Answer c)} {own : List (Event J)} (hp : p.Ensures D E own)
    (hown : K own past)
    (hanswer : ∀ own past c, K own past → D own c →
      (answer c).Ensures P (fun now a => K (own ++ [⟨c, a⟩]) now) past) :
    (p.through answer).Ensures P (fun now a => ∃ own, K own now ∧ E own a) past := by
  induction p generalizing own past with
  | done a => exact ⟨own, hown, hp⟩
  | call c resume ih =>
    refine (hanswer own past c hown hp.1).bind fun now a _ hnow => ?_
    exact ih a (hp.2 a) hnow

/-- Calls that are answered by procedures, where every answer is shown by one of their calls. -/
theorem through_shown {E : List (Event J) → α → Prop} {p : Proc J α}
    {answer : (c : J.Call) → Proc I (J.Answer c)} (shown : Event J → Event I)
    (hp : p.Ensures (fun _ _ => True) E [])
    (hanswer : ∀ c now, (answer c).Ensures P (fun later a => shown ⟨c, a⟩ ∈ later) now) :
    (p.through answer).Ensures P
      (fun now a => ∃ own, (∀ e ∈ own, shown e ∈ now) ∧ E own a) past := by
  refine through (K := fun own now => ∀ e ∈ own, shown e ∈ now) hp (fun e he => nomatch he) ?_
  intro own now c hown _
  refine (hanswer c now).extends_past.imp (fun _ _ h => h) fun later a ⟨hlater, ha⟩ e he => ?_
  obtain he | he := List.mem_append.mp he
  · exact hlater.subset (hown e he)
  · rw [List.mem_singleton.mp he]
    exact ha

/-! ## §3 Calls and results of a run -/

/-- What is left to do after some events ensures the same. -/
theorem rest {q : Proc I α} {t : List (Event I)} (hp : p.Ensures P Q past)
    (hbecomes : Becomes p t q) : q.Ensures P Q (past ++ t) := by
  induction hbecomes generalizing past with
  | refl p =>
    rw [List.append_nil]
    exact hp
  | step _ ih =>
    rw [List.append_cons]
    exact ih (hp.2 _)

theorem result {t : List (Event I)} {a : α} (hp : p.Ensures P Q past) (hends : Ends p t a) :
    Q (past ++ t) a := hp.rest hends

theorem called {q : Proc I α} {t t' : List (Event I)} {e : Event I} (hp : p.Ensures P Q past)
    (hbecomes : Becomes p (t ++ e :: t') q) : P (past ++ t) e.call := by
  induction t generalizing p past with
  | nil =>
    rw [List.append_nil]
    cases hbecomes
    exact hp.1
  | cons e' t ih =>
    cases hbecomes with
    | @step c resume answer _ _ hrest =>
      rw [List.append_cons]
      exact ih (hp.2 answer) hrest

/-- What every call keeps holds of all events up to any point. -/
theorem invariant {K : List (Event I) → Prop} {q : Proc I α} {t : List (Event I)}
    (hp : p.Ensures P Q past) (hpast : K past)
    (hstep : ∀ past e, K past → P past e.call → K (past ++ [e])) (hbecomes : Becomes p t q) :
    K (past ++ t) := by
  induction hbecomes generalizing past with
  | refl p =>
    rw [List.append_nil]
    exact hpast
  | @step c resume answer _ _ _ ih =>
    rw [List.append_cons]
    exact ih (hp.2 answer) (hstep past ⟨c, answer⟩ hpast hp.1)

/-- A call of one of several procedures that take turns has the property of what that procedure has
called before. -/
theorem called_interleave [DecidableEq ι] {h : Handler I σ} {turns : List ι} {tasks : ι → Proc I α}
    {s : σ} {i : ι} {e : Event I} {before after : List (ι × Event I)}
    (hlog : (interleave h turns tasks s).log = before ++ (i, e) :: after)
    (hi : (tasks i).Ensures P Q []) : P (eventsOf i before) e.call := by
  have hbecomes := becomes_interleave h turns tasks s i
  rw [hlog, eventsOf_append, eventsOf_cons_self] at hbecomes
  exact hi.called hbecomes

end Ensures

end Proc

/-! ## §4 Tasks -/

namespace Task

/-- A procedure that does not fail is followed by the rest of the task. -/
theorem ends_lift_bind_iff {p : Proc I α} {f : α → Task I β} {t : List (Event I)}
    {r : Except Fault β} : Proc.Ends ((liftM p : Task I α) >>= f).proc t r ↔
      ∃ first rest a, t = first ++ rest ∧ Proc.Ends p first a ∧ Proc.Ends (f a).proc rest r := by
  have hproc : ((liftM p : Task I α) >>= f).proc = p >>= fun a => (f a).proc := by
    rw [proc_bind, proc_lift, Proc.bind_assoc]
    rfl
  rw [hproc]
  exact Proc.ends_bind_iff

section

variable {P : List (Event I) → I.Call → Prop} {Q : List (Event I) → Except Fault α → Prop}
  {R : List (Event I) → Except Fault β → Prop} {t : Task I α} {past : List (Event I)}

/-- A fault of the first task is one of both. -/
theorem ensures_bind {f : α → Task I β} (ht : t.proc.Ensures P Q past)
    (hok : ∀ now a, past <+: now → Q now (.ok a) → (f a).proc.Ensures P R now)
    (herror : ∀ now e, Q now (.error e) → R now (.error e)) : (t >>= f).proc.Ensures P R past := by
  rw [proc_bind]
  refine Proc.Ensures.bind ht fun now r hgrown hr => ?_
  cases r with
  | ok a => exact hok now a hgrown hr
  | error e => exact herror now e hr

/-- Whatever the outcome of a task is, the rest goes on. -/
theorem ensures_outcome_bind {f : Except Fault α → Task I β} (ht : t.proc.Ensures P Q past)
    (hf : ∀ now r, past <+: now → Q now r → (f r).proc.Ensures P R now) :
    (t.outcome >>= f).proc.Ensures P R past := by
  rw [proc_bind, proc_outcome, Proc.bind_assoc]
  exact Proc.Ensures.bind ht hf

end

/-- A task makes calls with a property, and its result has one unless it fails. -/
abbrev Ensures (P : List (Event I) → I.Call → Prop) (Q : List (Event I) → α → Prop) (t : Task I α)
    (past : List (Event I)) : Prop :=
  t.proc.Ensures P (fun now r => ∀ a, r = .ok a → Q now a) past

namespace Ensures

variable {P : List (Event I) → I.Call → Prop} {Q : List (Event I) → α → Prop}
  {R : List (Event I) → β → Prop} {t : Task I α} {past : List (Event I)}

theorem pure {a : α} (ha : Q past a) : (pure a : Task I α).Ensures P Q past :=
  fun _ hr => Except.ok.inj hr ▸ ha

theorem throw (f : Fault) : (throw f : Task I α).Ensures P Q past := fun _ hr => nomatch hr

theorem ofExcept (r : Except Fault α) (hr : ∀ a, r = .ok a → Q past a) :
    (Task.ofExcept r).Ensures P Q past := hr

theorem imp (ht : t.Ensures P Q past) {Q' : List (Event I) → α → Prop}
    (hQ : ∀ now a, Q now a → Q' now a) : t.Ensures P Q' past :=
  Proc.Ensures.imp ht (fun _ _ hP => hP) fun now _ hr a ha => hQ now a (hr a ha)

/-- The rest of a task is left out after a fault. -/
theorem bind {f : α → Task I β} (ht : t.Ensures P Q past)
    (hf : ∀ now a, past <+: now → Q now a → (f a).Ensures P R now) :
    (t >>= f).Ensures P R past :=
  ensures_bind ht (fun now a hgrown ha => hf now a hgrown (ha a rfl)) fun _ _ _ _ h => nomatch h

theorem lift_bind {p : Proc I α} {f : α → Task I β} (hp : p.Ensures P Q past)
    (hf : ∀ now a, past <+: now → Q now a → (f a).Ensures P R now) :
    ((liftM p : Task I α) >>= f).Ensures P R past := by
  refine bind (Q := Q) ?_ hf
  unfold Ensures
  rw [proc_lift]
  exact hp.bind fun now a _ ha r hr => Except.ok.inj hr ▸ ha

/-- Nothing is asked of the calls and the results. -/
theorem trivial (t : Task I α) : t.Ensures (fun _ _ => True) (fun _ _ => True) past := by
  unfold Ensures
  refine Proc.Ensures.imp (Q := fun _ _ => True) ?_ (fun _ _ h => h) fun _ _ _ _ _ => True.intro
  induction t.proc generalizing past with
  | done r => exact True.intro
  | call c resume ih => exact ⟨True.intro, fun answer => ih answer⟩

end Ensures

end Task

end CatalogSync
