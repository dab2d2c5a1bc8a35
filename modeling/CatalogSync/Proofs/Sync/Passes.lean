import CatalogSync.Proofs.Effect.Ensures
import CatalogSync.Sync.Bridge
import CatalogSync.Sync.PassLoop
/-!
# Passes among everything else that goes on

The loop that runs passes is not alone. Cycles are under way beside it, a watcher sees deployments
go, the interval passes, and others may run passes directly. All of them take turns, move by move,
and a log lists what happened.

Passes are kept apart by a lock. A caller that has asked for a pass waits until it is given the
lock, and looks whether it has been cancelled before it takes the lock. A pass that is already
running notices its cancellation at some later move only. The request for a pass is a single flag of
the loop: it stays set until the loop takes it, however often it is set again.

`State.step` carries out a move, and `Step` says once what a move can do. From this follow the facts
that need no more than the present state: what the loop does tells whether it has asked for a pass
(`InPhase`), the pass that is running has the lock (`Exclusive`), and a caller that has been
cancelled starts no pass (`Barred`).
-/

namespace CatalogSync.Sync.Passes

open Proc (Handler Becomes Ends)

/-! ## §1 Who takes part -/

/-- Who has passes run. -/
inductive Caller (κ : Type) where
  | loop
  | direct (k : κ)
  deriving DecidableEq

/-- How far a caller has come with its pass. -/
inductive Stage where
  | idle
  -- It has asked for a pass and does not have the lock.
  | waiting
  -- Its pass, by number, still has this to do.
  | running (n : Nat) (rest : Proc interface (Except Fault Summary × Bridge))

/-- Who calls the surroundings. -/
inductive Actor (ι : Type) where
  | cycle (i : ι)
  | pass (n : Nat)
  deriving DecidableEq

/-- What is noted in the log. -/
inductive Note (ι κ : Type) where
  -- The watcher has seen a deployment go.
  | requested
  | cancelled (c : Caller κ)
  -- A pass of the bridge as it was then.
  | started (n : Nat) (c : Caller κ) (b : Bridge)
  | called (who : Actor ι) (e : Event interface)
  -- A pass has ended or was given up.
  | ended (n : Nat) (r : Except Fault Summary)

/-- Everything that is under way. -/
structure State (ι κ σ : Type) where
  loop : PassLoop
  -- Whether a direct caller has been cancelled.
  withdrawn : κ → Bool
  stage : Caller κ → Stage
  -- Who has the lock.
  holder : Option (Caller κ)
  -- What each cycle still has to do.
  cycles : ι → Proc interface (Except Fault Next)
  bridge : Bridge
  surroundings : σ
  -- How many passes have been started.
  passes : Nat
  log : List (Note ι κ)

variable {ι κ σ : Type}

/-- Before anything has happened. -/
def start (b : Bridge) (cycles : ι → Proc interface (Except Fault Next)) (surroundings : σ) :
    State ι κ σ where
  loop := {}
  withdrawn _ := false
  stage _ := .idle
  holder := none
  cycles
  bridge := b
  surroundings
  passes := 0
  log := []

/-! ## §2 Moves -/

inductive Move (ι κ : Type) where
  -- The watcher sees a deployment go.
  | deleted
  | tick
  | cancel (c : Caller κ)
  -- A cycle makes its next call.
  | cycle (i : ι)
  -- The loop looks whether there is something to do.
  | look
  -- Someone else asks for a pass.
  | enter (k : κ)
  -- A waiting caller tries to start its pass.
  | begin (c : Caller κ)
  -- The running pass of a caller makes its next call, or ends.
  | pass (c : Caller κ)
  -- The running pass of a caller notices that it has been cancelled.
  | heed (c : Caller κ)

/-- What the loop hears of a call. -/
def heard : Call → PassLoop → PassLoop
  | .requestPass, l => l.notice .request
  | _, l => l

/-- The result of a pass that was cancelled. -/
def givenUp : Except Fault Summary := .error (.cancelled "full pass")

/-- Whether a result says that the pass was cancelled. -/
def isGivenUp : Except Fault Summary → Bool
  | .error (.cancelled _) => true
  | _ => false

namespace State

variable [DecidableEq κ] (s : State ι κ σ)

def isCancelled : Caller κ → Bool
  | .loop => s.loop.cancelled
  | .direct k => s.withdrawn k

def request : State ι κ σ :=
  { s with loop := s.loop.notice .request, log := s.log ++ [.requested] }

def cancel (c : Caller κ) : State ι κ σ :=
  match c with
  | .loop => { s with loop := s.loop.notice .cancel, log := s.log ++ [.cancelled .loop] }
  | .direct k =>
    { s with withdrawn := Function.update s.withdrawn k true, log := s.log ++ [.cancelled c] }

/-- A call is made. -/
def made (h : Handler interface σ) (who : Actor ι) (c : Call) : State ι κ σ :=
  { s with
    loop := heard c s.loop
    surroundings := (h c s.surroundings).2
    log := s.log ++ [.called who ⟨c, (h c s.surroundings).1⟩] }

def cycleCalls [DecidableEq ι] (h : Handler interface σ) (i : ι) (c : Call)
    (resume : c.Answer → Proc interface (Except Fault Next)) : State ι κ σ :=
  { s.made h (.cycle i) c with
    cycles := Function.update s.cycles i (resume (h c s.surroundings).1) }

/-- A caller comes to another stage. -/
def move (c : Caller κ) (stage : Stage) : State ι κ σ :=
  { s with stage := Function.update s.stage c stage }

/-- A caller has its pass behind it; the loop goes on or stops. -/
def leave (c : Caller κ) (r : Except Fault Summary) : State ι κ σ :=
  match c with
  | .loop => { s.move c .idle with loop := s.loop.notice (.passEnded (isGivenUp r)) }
  | .direct _ => s.move c .idle

/-- A caller takes the lock and starts its pass. -/
def begin (c : Caller κ) : State ι κ σ :=
  { s.move c (.running s.passes (s.bridge.fullPass none)) with
    holder := some c
    passes := s.passes + 1
    log := s.log ++ [.started s.passes c s.bridge] }

def passCalls (h : Handler interface σ) (c : Caller κ) (n : Nat) (q : Call)
    (resume : q.Answer → Proc interface (Except Fault Summary × Bridge)) : State ι κ σ :=
  (s.made h (.pass n) q).move c (.running n (resume (h q s.surroundings).1))

/-- The pass of a caller is over, and the lock is given back. -/
def finish (c : Caller κ) (n : Nat) (r : Except Fault Summary) (b : Bridge) : State ι κ σ :=
  { s.leave c r with holder := none, bridge := b, log := s.log ++ [.ended n r] }

/-- Carry out a move; one that is not possible is skipped. -/
def step [DecidableEq ι] (h : Handler interface σ) : Move ι κ → State ι κ σ
  | .deleted => s.request
  | .tick => { s with loop := s.loop.notice .tick }
  | .cancel c => s.cancel c
  | .cycle i =>
    match s.cycles i with
    | .done _ => s
    | .call c resume => s.cycleCalls h i c resume
  | .look =>
    -- Only a loop that was waiting may have asked for a pass.
    if s.loop.phase = .waiting ∧ s.loop.proceed.phase = .passing then
      { s.move .loop .waiting with loop := s.loop.proceed }
    else { s with loop := s.loop.proceed }
  | .enter k =>
    match s.stage (.direct k) with
    | .idle => s.move (.direct k) .waiting
    | _ => s
  | .begin c =>
    match s.stage c with
    | .waiting =>
      if s.isCancelled c then s.leave c givenUp
      else if s.holder.isNone then s.begin c
      else s
    | _ => s
  | .pass c =>
    match s.stage c with
    | .running n (.call q resume) => s.passCalls h c n q resume
    | .running n (.done (r, b)) => s.finish c n r b
    | _ => s
  | .heed c =>
    match s.stage c with
    | .running n _ => if s.isCancelled c then s.finish c n givenUp s.bridge else s
    | _ => s

/-- Carry out moves one after another. -/
def run [DecidableEq ι] (h : Handler interface σ) (moves : List (Move ι κ)) : State ι κ σ :=
  moves.foldl (fun s m => s.step h m) s

end State

/-! ## §3 What a move can do -/

section

variable [DecidableEq ι] [DecidableEq κ]

/-- One state comes after another. -/
inductive Step (h : Handler interface σ) (s : State ι κ σ) : State ι κ σ → Prop where
  | skip : Step h s s
  | request : Step h s s.request
  | tick : Step h s { s with loop := s.loop.notice .tick }
  | cancel (c : Caller κ) : Step h s (s.cancel c)
  | cycleCalls {i : ι} {c : Call} {resume : c.Answer → Proc interface (Except Fault Next)}
      (hcycle : s.cycles i = .call c resume) : Step h s (s.cycleCalls h i c resume)
  -- The loop has nothing to do, or stops.
  | stays (hasks : s.loop.phase = .waiting → s.loop.proceed.phase ≠ .passing) :
      Step h s { s with loop := s.loop.proceed }
  | asks (hphase : s.loop.phase = .waiting) (hasks : s.loop.proceed.phase = .passing) :
      Step h s { s.move .loop .waiting with loop := s.loop.proceed }
  | enter {k : κ} (hstage : s.stage (.direct k) = .idle) : Step h s (s.move (.direct k) .waiting)
  | giveUp {c : Caller κ} (hstage : s.stage c = .waiting) (hcancelled : s.isCancelled c = true) :
      Step h s (s.leave c givenUp)
  | begin {c : Caller κ} (hstage : s.stage c = .waiting) (hcancelled : s.isCancelled c = false)
      (hfree : s.holder = none) : Step h s (s.begin c)
  | passCalls {c : Caller κ} {n : Nat} {q : Call}
      {resume : q.Answer → Proc interface (Except Fault Summary × Bridge)}
      (hstage : s.stage c = .running n (.call q resume)) : Step h s (s.passCalls h c n q resume)
  -- Either the pass has ended by itself or its caller has been cancelled.
  | finish {c : Caller κ} {n : Nat} {p : Proc interface (Except Fault Summary × Bridge)}
      {r : Except Fault Summary} {b : Bridge} (hstage : s.stage c = .running n p)
      (hend : p = .done (r, b) ∨ s.isCancelled c = true) : Step h s (s.finish c n r b)

theorem step_of_move (h : Handler interface σ) (s : State ι κ σ) (m : Move ι κ) :
    Step h s (s.step h m) := by
  cases m with
  | deleted => exact .request
  | tick => exact .tick
  | cancel c => exact .cancel c
  | cycle i =>
    simp only [State.step]
    split
    · exact .skip
    next hcycle => exact .cycleCalls hcycle
  | look =>
    simp only [State.step]
    split
    next hasks => exact .asks hasks.1 hasks.2
    next hstays => exact .stays fun hphase hasks => hstays ⟨hphase, hasks⟩
  | enter k =>
    simp only [State.step]
    split
    next hstage => exact .enter hstage
    · exact .skip
  | begin c =>
    simp only [State.step]
    split
    next hstage =>
      split
      next hcancelled => exact .giveUp hstage hcancelled
      next hcancelled =>
        split
        next hfree =>
          exact .begin hstage (Bool.eq_false_iff.mpr hcancelled)
            (Option.isNone_iff_eq_none.mp hfree)
        · exact .skip
    · exact .skip
  | pass c =>
    simp only [State.step]
    split
    next hstage => exact .passCalls hstage
    next hstage => exact .finish hstage (.inl rfl)
    · exact .skip
  | heed c =>
    simp only [State.step]
    split
    next hstage =>
      split
      next hcancelled => exact .finish hstage (.inr hcancelled)
      · exact .skip
    · exact .skip

/-- What every step keeps holds after any moves. -/
theorem run_induction {P : State ι κ σ → Prop} {h : Handler interface σ}
    (hstep : ∀ s s', P s → Step h s s' → P s') (moves : List (Move ι κ)) {s : State ι κ σ}
    (hs : P s) : P (s.run h moves) := by
  induction moves generalizing s with
  | nil => exact hs
  | cons m moves ih => exact ih (hstep s _ hs (step_of_move h s m))

end

/-! ## §4 What is left as it was -/

theorem cancelled_notice_passEnded (l : PassLoop) (cancelled : Bool) :
    (l.notice (.passEnded cancelled)).cancelled = l.cancelled := by
  unfold PassLoop.notice
  dsimp only
  split <;> rfl

theorem requested_notice_passEnded (l : PassLoop) (cancelled : Bool) :
    (l.notice (.passEnded cancelled)).requested = l.requested := by
  unfold PassLoop.notice
  dsimp only
  split <;> rfl

theorem cancelled_proceed (l : PassLoop) : l.proceed.cancelled = l.cancelled := by
  unfold PassLoop.proceed
  repeat' split
  all_goals rfl

@[simp] theorem phase_heard (c : Call) (l : PassLoop) : (heard c l).phase = l.phase := by
  cases c <;> rfl

@[simp] theorem cancelled_heard (c : Call) (l : PassLoop) :
    (heard c l).cancelled = l.cancelled := by
  cases c <;> rfl

theorem isCancelled_of_eq {s s' : State ι κ σ} {c : Caller κ} (hc : s.isCancelled c = true)
    (hloop : s'.loop.cancelled = s.loop.cancelled) (hdirect : s'.withdrawn = s.withdrawn) :
    s'.isCancelled c = true := by
  cases c with
  | loop => exact hloop.trans hc
  | direct k => exact (congrFun hdirect k).trans hc

section

variable [DecidableEq κ] (s : State ι κ σ) (c : Caller κ) (r : Except Fault Summary)

@[simp] theorem stage_leave : (s.leave c r).stage = Function.update s.stage c .idle := by
  cases c <;> rfl

@[simp] theorem log_leave : (s.leave c r).log = s.log := by cases c <;> rfl

@[simp] theorem holder_leave : (s.leave c r).holder = s.holder := by cases c <;> rfl

@[simp] theorem passes_leave : (s.leave c r).passes = s.passes := by cases c <;> rfl

@[simp] theorem cycles_leave : (s.leave c r).cycles = s.cycles := by cases c <;> rfl

@[simp] theorem cancelled_leave : (s.leave c r).loop.cancelled = s.loop.cancelled := by
  cases c with
  | loop => exact cancelled_notice_passEnded s.loop _
  | direct k => rfl

@[simp] theorem isCancelled_leave (c' : Caller κ) :
    (s.leave c r).isCancelled c' = s.isCancelled c' := by
  cases c' with
  | loop => exact cancelled_leave s c r
  | direct k => cases c <;> rfl

@[simp] theorem requested_leave : (s.leave c r).loop.requested = s.loop.requested := by
  cases c with
  | loop => exact requested_notice_passEnded s.loop _
  | direct k => rfl

@[simp] theorem log_cancel : (s.cancel c).log = s.log ++ [.cancelled c] := by cases c <;> rfl

@[simp] theorem stage_cancel : (s.cancel c).stage = s.stage := by cases c <;> rfl

end

section

variable [DecidableEq ι] [DecidableEq κ] {h : Handler interface σ} {s s' : State ι κ σ}

/-- Nobody's cancellation is taken back. -/
theorem isCancelled_step (hstep : Step h s s') {c : Caller κ} (hc : s.isCancelled c = true) :
    s'.isCancelled c = true := by
  cases hstep with
  | skip => exact hc
  | request => exact isCancelled_of_eq hc rfl rfl
  | tick => exact isCancelled_of_eq hc rfl rfl
  | cancel c' =>
    cases c with
    | loop =>
      cases c' with
      | loop => rfl
      | direct k => exact hc
    | direct k =>
      cases c' with
      | loop => exact hc
      | direct k' =>
        by_cases hk : k = k'
        · exact hk ▸ Function.update_self ..
        · exact (Function.update_of_ne hk ..).trans hc
  | cycleCalls hcycle => exact isCancelled_of_eq hc (cancelled_heard _ _) rfl
  | stays hasks => exact isCancelled_of_eq hc (cancelled_proceed _) rfl
  | asks hphase hasks => exact isCancelled_of_eq hc (cancelled_proceed _) rfl
  | enter hstage => exact isCancelled_of_eq hc rfl rfl
  | giveUp hstage hcancelled => exact (isCancelled_leave s _ _ c).trans hc
  | begin hstage hcancelled hfree => exact isCancelled_of_eq hc rfl rfl
  | passCalls hstage => exact isCancelled_of_eq hc (cancelled_heard _ _) rfl
  | finish hstage hend => exact (isCancelled_leave s _ _ c).trans hc

end

/-! ## §5 The lock -/

section

variable [DecidableEq κ] {stage : Caller κ → Stage} {c c' : Caller κ} {x : Stage} {n : Nat}
  {p : Proc interface (Except Fault Summary × Bridge)}

theorem running_update (hrunning : Function.update stage c x c' = .running n p) :
    (c' = c ∧ x = .running n p) ∨ (c' ≠ c ∧ stage c' = .running n p) := by
  by_cases hc : c' = c
  · subst hc
    rw [Function.update_self] at hrunning
    exact .inl ⟨rfl, hrunning⟩
  · rw [Function.update_of_ne hc] at hrunning
    exact .inr ⟨hc, hrunning⟩

/-- Who runs a pass while another caller comes to a stage without one. -/
theorem running_of_update (hx : ∀ n p, x ≠ .running n p)
    (hrunning : Function.update stage c x c' = .running n p) : c' ≠ c ∧ stage c' = .running n p :=
  (running_update hrunning).resolve_left fun h => hx n p h.2

/-- Nothing changes for the running passes when a caller without one comes to such a stage. -/
theorem running_update_iff (hold : ∀ n p, stage c ≠ .running n p) (hx : ∀ n p, x ≠ .running n p) :
    Function.update stage c x c' = .running n p ↔ stage c' = .running n p := by
  refine ⟨fun hrunning => (running_of_update hx hrunning).2, fun hrunning => ?_⟩
  have hne : c' ≠ c := fun hc => hold n p (hc ▸ hrunning)
  rwa [Function.update_of_ne hne]

end

/-- Whoever runs a pass has the lock. -/
def Exclusive (s : State ι κ σ) : Prop := ∀ c n p, s.stage c = .running n p → s.holder = some c

section

variable {h : Handler interface σ} {s s' : State ι κ σ}

theorem Exclusive.alone (hs : Exclusive s) {c c' : Caller κ} {n n' : Nat}
    {p p' : Proc interface (Except Fault Summary × Bridge)} (hc : s.stage c = .running n p)
    (hc' : s.stage c' = .running n' p') : c = c' ∧ n = n' ∧ p = p' := by
  obtain rfl := Option.some.inj ((hs c n p hc).symm.trans (hs c' n' p' hc'))
  exact ⟨rfl, Stage.running.inj (hc.symm.trans hc')⟩

variable [DecidableEq ι] [DecidableEq κ]

theorem Exclusive.step (hs : Exclusive s) (hstep : Step h s s') : Exclusive s' := by
  intro c n p hrunning
  cases hstep with
  | skip => exact hs c n p hrunning
  | request => exact hs c n p hrunning
  | tick => exact hs c n p hrunning
  | cancel c' =>
    rw [stage_cancel] at hrunning
    cases c' <;> exact hs c n p hrunning
  | cycleCalls hcycle => exact hs c n p hrunning
  | stays hasks => exact hs c n p hrunning
  | asks hphase hasks =>
    exact hs c n p (running_of_update (fun _ _ => Stage.noConfusion) hrunning).2
  | enter hstage => exact hs c n p (running_of_update (fun _ _ => Stage.noConfusion) hrunning).2
  | giveUp hstage hcancelled =>
    rw [stage_leave] at hrunning
    rw [holder_leave]
    exact hs c n p (running_of_update (fun _ _ => Stage.noConfusion) hrunning).2
  | begin hstage hcancelled hfree =>
    -- The lock was free, so nobody else runs a pass.
    rcases running_update hrunning with ⟨rfl, -⟩ | ⟨-, hother⟩
    · rfl
    · exact absurd (hs c n p hother) (by simp [hfree])
  | passCalls hstage =>
    rcases running_update hrunning with ⟨rfl, -⟩ | ⟨-, hother⟩
    · exact hs c _ _ hstage
    · exact hs c n p hother
  | finish hstage hend =>
    obtain ⟨hne, hother⟩ := running_of_update (fun _ _ => Stage.noConfusion)
      ((congrFun (stage_leave s _ _) c).symm.trans hrunning)
    exact absurd (hs.alone hother hstage).1 hne

end

/-! ## §6 What the loop does -/

/-- The loop is passing while it has asked for a pass. -/
def InPhase (s : State ι κ σ) : Prop := s.stage .loop = .idle ↔ s.loop.phase ≠ .passing

section

variable {h : Handler interface σ} {s s' : State ι κ σ}

namespace InPhase

theorem passing (hs : InPhase s) (hstage : s.stage .loop ≠ .idle) : s.loop.phase = .passing :=
  not_not.mp (mt hs.mpr hstage)

theorem idle (hs : InPhase s) (hphase : s.loop.phase = .waiting) : s.stage .loop = .idle :=
  hs.mpr (hphase.trans_ne PassLoop.Phase.noConfusion)

theorem of_idle (hstage : s.stage .loop = .idle) (hphase : s.loop.phase ≠ .passing) : InPhase s :=
  iff_of_true hstage hphase

theorem of_asked {stage : Stage} (hstage : s.stage .loop = stage) (hne : stage ≠ .idle)
    (hphase : s.loop.phase = .passing) : InPhase s :=
  iff_of_false (hstage.trans_ne hne) (not_not.mpr hphase)

theorem congr (hs : InPhase s) (hstage : s'.stage .loop = s.stage .loop)
    (hphase : s'.loop.phase = s.loop.phase) : InPhase s' := by
  rw [InPhase, hstage, hphase]
  exact hs

end InPhase

theorem proceed_of_ne {l : PassLoop} (hl : l.phase ≠ .waiting) : l.proceed = l := if_neg hl

/-- When a pass has ended, the loop waits or has stopped. -/
theorem phase_notice_passEnded (l : PassLoop) (cancelled : Bool) :
    (l.notice (.passEnded cancelled)).phase ≠ .passing := by
  unfold PassLoop.notice
  dsimp only
  split
  · cases cancelled <;> exact PassLoop.Phase.noConfusion
  next hphase => exact hphase

variable [DecidableEq ι] [DecidableEq κ]

theorem update_loop (stage : Caller κ → Stage) (x : Stage) :
    Function.update stage .loop x .loop = x := Function.update_self ..

theorem InPhase.step (hs : InPhase s) (hstep : Step h s s') : InPhase s' := by
  cases hstep with
  | skip => exact hs
  | request => exact hs
  | tick => exact hs
  | cancel c => cases c <;> exact hs
  | cycleCalls hcycle => exact hs.congr rfl (phase_heard _ _)
  | stays hasks =>
    by_cases hphase : s.loop.phase = .waiting
    · exact .of_idle (hs.idle hphase) (hasks hphase)
    · exact hs.congr rfl (congrArg PassLoop.phase (proceed_of_ne hphase))
  | asks hphase hasks => exact .of_asked (update_loop s.stage _) Stage.noConfusion hasks
  | enter hstage => exact hs.congr rfl rfl
  | @giveUp c hstage hcancelled =>
    cases c with
    | loop => exact .of_idle (update_loop s.stage .idle) (phase_notice_passEnded _ _)
    | direct k => exact hs.congr rfl rfl
  | @begin c hstage hcancelled hfree =>
    cases c with
    | loop =>
      have hpassing := hs.passing (hstage.trans_ne Stage.noConfusion)
      exact .of_asked (update_loop s.stage _) Stage.noConfusion hpassing
    | direct k => exact hs.congr rfl rfl
  | @passCalls c n q resume hstage =>
    cases c with
    | loop =>
      have hpassing := hs.passing (hstage.trans_ne Stage.noConfusion)
      exact .of_asked (update_loop s.stage _) Stage.noConfusion ((phase_heard _ _).trans hpassing)
    | direct k => exact hs.congr rfl (phase_heard _ _)
  | @finish c n p r b hstage hend =>
    cases c with
    | loop => exact .of_idle (update_loop s.stage .idle) (phase_notice_passEnded _ _)
    | direct k => exact hs.congr rfl rfl

end

/-! ## §7 The log -/

/-- Where something stands in a list with one more item: before the item, or it is the item. -/
theorem concat_eq_append_cons {α : Type} {l before after : List α} {x y : α}
    (heq : l ++ [x] = before ++ y :: after) :
    (∃ rest, after = rest ++ [x] ∧ l = before ++ y :: rest) ∨
      (after = [] ∧ y = x ∧ before = l) := by
  rcases List.eq_nil_or_concat after with rfl | ⟨rest, z, rfl⟩
  · obtain ⟨rfl, hlast⟩ := List.append_inj' heq rfl
    exact .inr ⟨rfl, (List.cons.inj hlast).1.symm, rfl⟩
  · rw [List.concat_eq_append, ← List.cons_append, ← List.append_assoc] at heq
    obtain ⟨rfl, hlast⟩ := List.append_inj' heq rfl
    exact .inl ⟨rest, by rw [List.concat_eq_append, (List.cons.inj hlast).1], rfl⟩

/-- Where something stands in a longer list, of which it is not the new part. -/
theorem append_eq_append_cons {α : Type} {l more before after : List α} {y : α}
    (heq : l ++ more = before ++ y :: after) (hy : y ∉ more) :
    ∃ rest, after = rest ++ more ∧ l = before ++ y :: rest := by
  rcases List.append_eq_append_iff.mp heq with ⟨rest, -, hmore⟩ | ⟨rest, rfl, hrest⟩
  · exact absurd (hmore ▸ List.mem_append_right _ List.mem_cons_self) hy
  · cases rest with
    | nil => exact absurd (List.nil_append more ▸ hrest ▸ List.mem_cons_self) hy
    | cons z rest =>
      obtain ⟨rfl, rfl⟩ := List.cons.inj hrest
      exact ⟨rest, rfl, rfl⟩

theorem nil_ne_append_cons {α : Type} {before after : List α} {x : α} :
    [] ≠ before ++ x :: after :=
  (List.append_ne_nil_of_right_ne_nil before (List.cons_ne_nil x after)).symm

/-- A caller that has been cancelled stays so, and starts no pass any more. -/
def Barred (s : State ι κ σ) : Prop := ∀ before c after, s.log = before ++ .cancelled c :: after →
  s.isCancelled c = true ∧ ∀ n b, .started n c b ∉ after

section

variable {h : Handler interface σ} {s s' : State ι κ σ} [DecidableEq ι] [DecidableEq κ]

/-- A step notes one thing at most. A cancellation that is noted is one, and a pass is started only
for a caller that has not been cancelled. -/
theorem log_step (hstep : Step h s s') : s'.log = s.log ∨ ∃ x, s'.log = s.log ++ [x] ∧
    (∀ c, x = .cancelled c → s'.isCancelled c = true) ∧
    ∀ n c b, x = .started n c b → s.isCancelled c = false := by
  cases hstep with
  | skip => exact .inl rfl
  | request => exact .inr ⟨_, rfl, nofun, nofun⟩
  | tick => exact .inl rfl
  | cancel c =>
    refine .inr ⟨.cancelled c, log_cancel s c, ?_, nofun⟩
    rintro c' heq
    cases heq
    cases c with
    | loop => rfl
    | direct k => exact Function.update_self ..
  | cycleCalls hcycle => exact .inr ⟨_, rfl, nofun, nofun⟩
  | stays hasks => exact .inl rfl
  | asks hphase hasks => exact .inl rfl
  | enter hstage => exact .inl rfl
  | giveUp hstage hcancelled => exact .inl (log_leave ..)
  | begin hstage hcancelled hfree =>
    refine .inr ⟨_, rfl, nofun, ?_⟩
    rintro n c b heq
    cases heq
    exact hcancelled
  | passCalls hstage => exact .inr ⟨_, rfl, nofun, nofun⟩
  | finish hstage hend => exact .inr ⟨_, rfl, nofun, nofun⟩

theorem Barred.step (hs : Barred s) (hstep : Step h s s') : Barred s' := by
  intro before c after heq
  rcases log_step hstep with hlog | ⟨x, hlog, hcancelled, hstarted⟩
  · rw [hlog] at heq
    obtain ⟨hc, hnone⟩ := hs before c after heq
    exact ⟨isCancelled_step hstep hc, hnone⟩
  · rw [hlog] at heq
    rcases concat_eq_append_cons heq with ⟨rest, rfl, hold⟩ | ⟨rfl, hx, -⟩
    · obtain ⟨hc, hnone⟩ := hs before c rest hold
      refine ⟨isCancelled_step hstep hc, fun n b hmem => ?_⟩
      rcases List.mem_append.mp hmem with hmem | hmem
      · exact hnone n b hmem
      · have hfalse := hstarted n c b (List.mem_singleton.mp hmem).symm
        rw [hc] at hfalse
        cases hfalse
    · exact ⟨hcancelled c hx.symm, fun _ _ => List.not_mem_nil⟩

end

end CatalogSync.Sync.Passes
