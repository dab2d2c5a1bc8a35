import CatalogSync.Proofs.Sync.Passes
import CatalogSync.Proofs.Sync.World
/-!
# No request for a pass is lost

A request may come while the loop waits, while it decides what to do, or in the middle of a pass
whose lists were read too early. In every case a whole pass of the loop starts after it, before the
loop has nothing to do again (`no_request_lost`). The invariant is that a request is kept until
then: as the flag of the loop, or by the loop having asked for a pass that has not been started
(`Kept`).

That the pass is a whole one is read off the log: what is noted of a pass from its start to its end
are the events of one run of the procedure (`Recorded`). The same holds of the cycles (`Faithful`),
of which those that find their deployment gone make a request (`requests_of_gone`). So a deployment
that was found to be gone leads to a whole pass after that (`passed_after_gone`).
-/

namespace CatalogSync.Sync

/-- The loop has nothing to do. -/
def PassLoop.Resting (l : PassLoop) : Prop := l.phase = .waiting ∧ l.proceed = l

theorem PassLoop.resting_iff {l : PassLoop} : l.Resting ↔
    l.phase = .waiting ∧ l.cancelled = false ∧ l.requested = false ∧ l.due = false := by
  obtain ⟨requested, due, cancelled, phase⟩ := l
  cases requested <;> cases due <;> cases cancelled <;> cases phase <;>
    simp [Resting, PassLoop.proceed]

namespace Passes

open Proc (Handler Becomes Ends)

variable {ι κ σ : Type}

/-! ## §1 Requests -/

/-- A note of a request, by the watcher or by whoever makes the call. -/
def Note.IsRequest : Note ι κ → Prop
  | .requested => True
  | .called _ e => e.call = .requestPass
  | _ => False

/-- After each request a pass of the loop was started. -/
def Followed (log : List (Note ι κ)) : Prop := ∀ before x after, log = before ++ x :: after →
  x.IsRequest → ∃ n b, .started n .loop b ∈ after

theorem Followed.concat {log : List (Note ι κ)} (hlog : Followed log) {x : Note ι κ}
    (hx : ¬ x.IsRequest) : Followed (log ++ [x]) := by
  intro before y after heq hy
  rcases concat_eq_append_cons heq with ⟨rest, rfl, hold⟩ | ⟨-, rfl, -⟩
  · obtain ⟨n, b, hmem⟩ := hlog before y rest hold hy
    exact ⟨n, b, List.mem_append_left _ hmem⟩
  · exact absurd hy hx

/-- A pass of the loop follows everything before it. -/
theorem followed_concat_started (log : List (Note ι κ)) (n : Nat) (b : Bridge) :
    Followed (log ++ [.started n .loop b]) := by
  intro before y after heq hy
  rcases concat_eq_append_cons heq with ⟨rest, rfl, -⟩ | ⟨-, rfl, -⟩
  · exact ⟨n, b, List.mem_append_right _ List.mem_cons_self⟩
  · exact hy.elim

/-- A request is kept until a pass of the loop is started, unless the loop ends before. -/
def Kept (s : State ι κ σ) : Prop :=
  s.loop.requested = true ∨ s.stage .loop = .waiting ∨ s.loop.phase = .stopped ∨
    s.loop.cancelled = true ∨ Followed s.log

namespace Kept

variable {s s' : State ι κ σ}

theorem of_requested (h : s.loop.requested = true) : Kept s := .inl h

theorem of_waiting (h : s.stage .loop = .waiting) : Kept s := .inr (.inl h)

theorem of_cancelled (h : s.loop.cancelled = true) : Kept s := .inr (.inr (.inr (.inl h)))

theorem of_followed (h : Followed s.log) : Kept s := .inr (.inr (.inr (.inr h)))

/-- What a step must leave as it is. -/
theorem congr (hs : Kept s) (hrequested : s.loop.requested = true → s'.loop.requested = true)
    (hstage : s.stage .loop = .waiting → s'.stage .loop = .waiting)
    (hphase : s.loop.phase = .stopped → s'.loop.phase = .stopped)
    (hcancelled : s.loop.cancelled = true → s'.loop.cancelled = true)
    (hlog : Followed s.log → Followed s'.log) : Kept s' :=
  hs.imp hrequested (.imp hstage (.imp hphase (.imp hcancelled hlog)))

end Kept

theorem requested_heard {c : Call} {l : PassLoop} (hl : l.requested = true) :
    (heard c l).requested = true := by
  cases c <;> first | exact hl | rfl

/-- The loop that waits and does not ask for a pass is cancelled, or has no reason to ask. -/
theorem cancelled_or_proceed_eq {l : PassLoop} (hphase : l.phase = .waiting)
    (hasks : l.proceed.phase ≠ .passing) : l.cancelled = true ∨ l.proceed = l := by
  obtain ⟨requested, due, cancelled, phase⟩ := l
  cases hphase
  cases cancelled
  · cases requested <;> cases due <;> simp [PassLoop.proceed] at hasks ⊢
  · exact .inl rfl

theorem stopped_notice_passEnded {l : PassLoop} (cancelled : Bool) (hl : l.phase = .stopped) :
    (l.notice (.passEnded cancelled)).phase = .stopped := by
  unfold PassLoop.notice
  dsimp only
  rw [if_neg (by rw [hl]; exact PassLoop.Phase.noConfusion)]
  exact hl

section

variable [DecidableEq ι] [DecidableEq κ] {h : Handler interface σ} {s s' : State ι κ σ}

theorem Kept.step (hs : Kept s) (hstep : Step h s s') : Kept s' := by
  cases hstep with
  | skip => exact hs
  | request => exact .of_requested rfl
  | tick => exact hs
  | cancel c =>
    cases c with
    | loop => exact .of_cancelled rfl
    | direct k => exact hs.congr id id id id fun hlog => hlog.concat id
  | @cycleCalls i c resume hcycle =>
    by_cases hc : c = .requestPass
    · subst hc
      exact .of_requested rfl
    · exact hs.congr requested_heard id (phase_heard _ _).trans (cancelled_heard _ _).trans
        fun hlog => hlog.concat hc
  | stays hasks =>
    by_cases hphase : s.loop.phase = .waiting
    · rcases cancelled_or_proceed_eq hphase (hasks hphase) with hcancelled | heq
      · exact .of_cancelled ((cancelled_proceed _).trans hcancelled)
      · rwa [heq]
    · rwa [proceed_of_ne hphase]
  | asks hphase hasks => exact .of_waiting (update_loop s.stage .waiting)
  | enter hstage => exact hs
  | @giveUp c hstage hcancelled =>
    cases c with
    | loop => exact .of_cancelled ((cancelled_leave s _ _).trans hcancelled)
    | direct k => exact hs
  | @begin c hstage hcancelled hfree =>
    cases c with
    | loop => exact .of_followed (followed_concat_started _ _ _)
    | direct k => exact hs.congr id id id id fun hlog => hlog.concat id
  | @passCalls c n q resume hstage =>
    by_cases hq : q = .requestPass
    · subst hq
      exact .of_requested rfl
    · refine hs.congr requested_heard ?_ (phase_heard _ _).trans (cancelled_heard _ _).trans
        fun hlog => hlog.concat hq
      cases c with
      | loop =>
        intro hwaiting
        cases hstage.symm.trans hwaiting
      | direct k => exact id
  | @finish c n p r b hstage hend =>
    cases c with
    | loop =>
      refine hs.congr (requested_leave s _ _).trans ?_ (stopped_notice_passEnded _)
        (cancelled_leave s _ _).trans fun hlog => hlog.concat id
      intro hwaiting
      cases hstage.symm.trans hwaiting
    | direct k => exact hs.congr id id id id fun hlog => hlog.concat id

end

/-! ## §2 What the log says of a pass -/

/-- The number of the pass that a note is about. -/
def Note.number? : Note ι κ → Option Nat
  | .started n _ _ => some n
  | .called (.pass n) _ => some n
  | .ended n _ => some n
  | _ => none

theorem Actor.pass_ne_cycle {n : Nat} {i : ι} : Actor.pass n ≠ .cycle i := nofun

variable [DecidableEq ι]

/-- What a note says that someone has called. -/
def Note.eventOf? (who : Actor ι) : Note ι κ → Option (Event interface)
  | .called who' e => if who' = who then some e else none
  | _ => none

/-- The events of a pass or a cycle. -/
def eventsOf (who : Actor ι) (log : List (Note ι κ)) : List (Event interface) :=
  log.filterMap (Note.eventOf? who)

theorem eventsOf_append {who : Actor ι} {more : List (Note ι κ)}
    (hmore : ∀ x ∈ more, x.eventOf? who = none) (log : List (Note ι κ)) :
    eventsOf who (log ++ more) = eventsOf who log := by
  rw [eventsOf, List.filterMap_append, List.filterMap_eq_nil_iff.mpr hmore]
  exact List.append_nil _

theorem eventsOf_concat_called (who : Actor ι) (log : List (Note ι κ)) (e : Event interface) :
    eventsOf who (log ++ [.called who e]) = eventsOf who log ++ [e] := by
  simp [eventsOf, Note.eventOf?]

theorem eventOf?_called_of_ne {who who' : Actor ι} (hne : who' ≠ who) (e : Event interface) :
    (.called who' e : Note ι κ).eventOf? who = none := if_neg hne

theorem eventOf?_of_number? {x : Note ι κ} (hx : x.number? = none) (n : Nat) :
    x.eventOf? (.pass n) = none := by
  cases x with
  | requested => rfl
  | cancelled c => rfl
  | started m c b => rfl
  | called who e =>
    cases who with
    | cycle i => exact eventOf?_called_of_ne Actor.pass_ne_cycle.symm e
    | pass m => cases hx
  | ended m r => rfl

/-- A pass is not of interest any more: its caller has been cancelled, or it has ended by itself. -/
def Settled (s : State ι κ σ) (n : Nat) (c : Caller κ) (b : Bridge) (since : List (Note ι κ)) :
    Prop :=
  s.isCancelled c = true ∨
    ∃ r b', .ended n r ∈ since ∧ Ends (b.fullPass none) (eventsOf (.pass n) since) (r, b')

/-- A pass is under way, or it is settled. -/
def Going (s : State ι κ σ) (n : Nat) (c : Caller κ) (b : Bridge) (since : List (Note ι κ)) :
    Prop :=
  (∃ p, s.stage c = .running n p ∧ Becomes (b.fullPass none) (eventsOf (.pass n) since) p) ∨
    Settled s n c b since

/-- The log lists the passes as they were. -/
structure Recorded (s : State ι κ σ) : Prop where
  numbered : ∀ x ∈ s.log, ∀ n, x.number? = some n → n < s.passes
  running : ∀ c n p, s.stage c = .running n p →
    (∃ b, .started n c b ∈ s.log) ∧ ∀ r, .ended n r ∉ s.log
  called : ∀ before n e after, s.log = before ++ .called (.pass n) e :: after →
    ∃ c b, .started n c b ∈ before
  going : ∀ before n c b after, s.log = before ++ .started n c b :: after → Going s n c b after

section

variable {s s' : State ι κ σ} {n : Nat} {c : Caller κ} {b : Bridge} {since more : List (Note ι κ)}

theorem Settled.mono (hsettled : Settled s n c b since)
    (hcancelled : s.isCancelled c = true → s'.isCancelled c = true)
    (hmore : ∀ x ∈ more, x.eventOf? (.pass n) = none) : Settled s' n c b (since ++ more) := by
  rcases hsettled with hc | ⟨r, b', hended, hends⟩
  · exact .inl (hcancelled hc)
  · exact .inr ⟨r, b', List.mem_append_left _ hended, (eventsOf_append hmore since).symm ▸ hends⟩

theorem Going.mono (hgoing : Going s n c b since)
    (hstage : ∀ p, s.stage c = .running n p → s'.stage c = .running n p)
    (hcancelled : s.isCancelled c = true → s'.isCancelled c = true)
    (hmore : ∀ x ∈ more, x.eventOf? (.pass n) = none) : Going s' n c b (since ++ more) := by
  rcases hgoing with ⟨p, hp, hbecomes⟩ | hsettled
  · exact .inl ⟨p, hstage p hp, (eventsOf_append hmore since).symm ▸ hbecomes⟩
  · exact .inr (hsettled.mono hcancelled hmore)

end

section

variable {s s' : State ι κ σ}

/-- A step that has nothing to do with the passes that have been started. -/
theorem Recorded.beside (hs : Recorded s) {more : List (Note ι κ)}
    (hstage : ∀ c n p, s'.stage c = .running n p ↔ s.stage c = .running n p)
    (hcancelled : ∀ c, s.isCancelled c = true → s'.isCancelled c = true)
    (hpasses : s'.passes = s.passes) (hlog : s'.log = s.log ++ more)
    (hmore : ∀ x ∈ more, x.number? = none) : Recorded s' where
  numbered x hx n hn := by
    rw [hlog] at hx
    rw [hpasses]
    rcases List.mem_append.mp hx with hx | hx
    · exact hs.numbered x hx n hn
    · cases (hmore x hx).symm.trans hn
  running c n p hrunning := by
    obtain ⟨⟨b, hstarted⟩, hended⟩ := hs.running c n p ((hstage c n p).mp hrunning)
    rw [hlog]
    refine ⟨⟨b, List.mem_append_left _ hstarted⟩, fun r hmem => ?_⟩
    rcases List.mem_append.mp hmem with hmem | hmem
    · exact hended r hmem
    · cases hmore _ hmem
  called before n e after heq := by
    obtain ⟨rest, -, hold⟩ := append_eq_append_cons (hlog.symm.trans heq) fun h => nomatch hmore _ h
    exact hs.called before n e rest hold
  going before n c b after heq := by
    obtain ⟨rest, rfl, hold⟩ :=
      append_eq_append_cons (hlog.symm.trans heq) fun h => nomatch hmore _ h
    exact (hs.going before n c b rest hold).mono (fun p => (hstage c n p).mpr) (hcancelled c)
      fun x hx => eventOf?_of_number? (hmore x hx) n

theorem Recorded.number_lt (hs : Recorded s) {c : Caller κ} {n : Nat}
    {p : Proc interface (Except Fault Summary × Bridge)} (hstage : s.stage c = .running n p) :
    n < s.passes := by
  obtain ⟨b, hstarted⟩ := (hs.running c n p hstage).1
  exact hs.numbered _ hstarted n rfl

variable [DecidableEq κ]

/-- A pass is started while nobody else runs one. -/
theorem Recorded.begin (hs : Recorded s) (hnone : ∀ c n p, s.stage c ≠ .running n p)
    (c : Caller κ) : Recorded (s.begin c) where
  numbered x hx n hn := by
    rcases List.mem_append.mp hx with hx | hx
    · exact Nat.lt_succ_of_lt (hs.numbered x hx n hn)
    · cases List.mem_singleton.mp hx
      exact Option.some.inj hn ▸ Nat.lt_succ_self _
  running c' n p hrunning := by
    rcases running_update hrunning with ⟨rfl, hx⟩ | ⟨-, hother⟩
    · cases hx
      refine ⟨⟨s.bridge, List.mem_append_right _ List.mem_cons_self⟩, fun r hmem => ?_⟩
      -- A number that is noted belongs to an earlier pass.
      rcases List.mem_append.mp hmem with hmem | hmem
      · exact Nat.lt_irrefl _ (hs.numbered _ hmem _ rfl)
      · cases List.mem_singleton.mp hmem
    · exact absurd hother (hnone c' n p)
  called before n e after heq := by
    obtain ⟨rest, -, hold⟩ := append_eq_append_cons heq fun h => nomatch List.mem_singleton.mp h
    exact hs.called before n e rest hold
  going before n c' b after heq := by
    rcases concat_eq_append_cons heq with ⟨rest, rfl, hold⟩ | ⟨rfl, hx, -⟩
    · exact (hs.going before n c' b rest hold).mono (fun p hp => absurd hp (hnone c' n p))
        (fun hc => isCancelled_of_eq hc rfl rfl) (List.forall_mem_singleton.mpr rfl)
    · cases hx
      exact .inl ⟨_, Function.update_self .., .refl _⟩

variable {c : Caller κ} {n : Nat}

theorem Recorded.passCalls (hs : Recorded s) (hexclusive : Exclusive s) {q : Call}
    {resume : q.Answer → Proc interface (Except Fault Summary × Bridge)}
    (hstage : s.stage c = .running n (.call q resume)) (h : Handler interface σ) :
    Recorded (s.passCalls h c n q resume) where
  numbered x hx m hm := by
    rcases List.mem_append.mp hx with hx | hx
    · exact hs.numbered x hx m hm
    · cases List.mem_singleton.mp hx
      exact Option.some.inj hm ▸ hs.number_lt hstage
  running c' m p hrunning := by
    have hold : ∃ p', s.stage c' = .running m p' := by
      rcases running_update hrunning with ⟨rfl, hx⟩ | ⟨-, hother⟩
      · cases hx
        exact ⟨_, hstage⟩
      · exact ⟨p, hother⟩
    obtain ⟨p', hp'⟩ := hold
    obtain ⟨⟨b, hstarted⟩, hended⟩ := hs.running c' m p' hp'
    refine ⟨⟨b, List.mem_append_left _ hstarted⟩, fun r hmem => ?_⟩
    rcases List.mem_append.mp hmem with hmem | hmem
    · exact hended r hmem
    · cases List.mem_singleton.mp hmem
  called before m e after heq := by
    rcases concat_eq_append_cons heq with ⟨rest, -, hold⟩ | ⟨-, hx, rfl⟩
    · exact hs.called before m e rest hold
    · cases hx
      exact ⟨c, (hs.running c n _ hstage).1⟩
  going before m c' b after heq := by
    obtain ⟨rest, rfl, hold⟩ := append_eq_append_cons heq fun hx => nomatch List.mem_singleton.mp hx
    have hcancelled : s.isCancelled c' = true →
        (s.passCalls h c n q resume).isCancelled c' = true :=
      fun hc => isCancelled_of_eq hc (cancelled_heard _ _) rfl
    rcases hs.going before m c' b rest hold with ⟨p, hp, hbecomes⟩ | hsettled
    · obtain ⟨rfl, rfl, rfl⟩ := hexclusive.alone hstage hp
      refine .inl ⟨_, Function.update_self .., ?_⟩
      rw [eventsOf_concat_called]
      exact hbecomes.concat _
    · by_cases hm : n = m
      · subst hm
        -- The pass has not ended.
        rcases hsettled with hc | ⟨r, b', hended, -⟩
        · exact .inr (.inl (hcancelled hc))
        · exact absurd (by simp [hold, hended]) ((hs.running c n _ hstage).2 r)
      · have hne : (.pass n : Actor ι) ≠ .pass m := fun heq => hm (Actor.pass.inj heq)
        exact .inr (hsettled.mono hcancelled
          (List.forall_mem_singleton.mpr (eventOf?_called_of_ne hne _)))

theorem Recorded.finish (hs : Recorded s) (hexclusive : Exclusive s)
    {p : Proc interface (Except Fault Summary × Bridge)} {r : Except Fault Summary} {b : Bridge}
    (hstage : s.stage c = .running n p) (hend : p = .done (r, b) ∨ s.isCancelled c = true) :
    Recorded (s.finish c n r b) where
  numbered x hx m hm := by
    have hpasses : (s.finish c n r b).passes = s.passes := passes_leave s c r
    rw [hpasses]
    rcases List.mem_append.mp hx with hx | hx
    · exact hs.numbered x hx m hm
    · cases List.mem_singleton.mp hx
      exact Option.some.inj hm ▸ hs.number_lt hstage
  running c' m p' hrunning := by
    -- Nobody runs a pass any more.
    obtain ⟨hne, hother⟩ := running_of_update (fun _ _ => Stage.noConfusion)
      ((congrFun (stage_leave s c r) c').symm.trans hrunning)
    exact absurd (hexclusive.alone hother hstage).1 hne
  called before m e after heq := by
    obtain ⟨rest, -, hold⟩ := append_eq_append_cons heq fun hx => nomatch List.mem_singleton.mp hx
    exact hs.called before m e rest hold
  going before m c' b' after heq := by
    obtain ⟨rest, rfl, hold⟩ := append_eq_append_cons heq fun hx => nomatch List.mem_singleton.mp hx
    have hcancelled : s.isCancelled c' = true → (s.finish c n r b).isCancelled c' = true :=
      (isCancelled_leave s c r c').trans
    have hnone : ∀ x ∈ [(.ended n r : Note ι κ)], x.eventOf? (.pass m) = none :=
      List.forall_mem_singleton.mpr rfl
    rcases hs.going before m c' b' rest hold with ⟨p', hp', hbecomes⟩ | hsettled
    · obtain ⟨rfl, rfl, rfl⟩ := hexclusive.alone hstage hp'
      rcases hend with rfl | hc
      · refine .inr (.inr ⟨r, b, List.mem_append_right _ List.mem_cons_self, ?_⟩)
        rw [eventsOf_append hnone]
        exact hbecomes
      · exact .inr (.inl (hcancelled hc))
    · exact .inr (hsettled.mono hcancelled hnone)

end

section

variable {h : Handler interface σ} {s s' : State ι κ σ} [DecidableEq κ]

theorem Recorded.step (hs : Recorded s) (hexclusive : Exclusive s) (hphase : InPhase s)
    (hstep : Step h s s') : Recorded s' := by
  have hcancelled c (hc : s.isCancelled c = true) := isCancelled_step hstep hc
  have hnil : ∀ x ∈ ([] : List (Note ι κ)), x.number? = none := List.forall_mem_nil _
  cases hstep with
  | skip => exact hs
  | request =>
    exact hs.beside (fun _ _ _ => .rfl) hcancelled rfl rfl (List.forall_mem_singleton.mpr rfl)
  | tick => exact hs.beside (fun _ _ _ => .rfl) hcancelled rfl (List.append_nil _).symm hnil
  | cancel c =>
    refine hs.beside (fun c' n p => ?_) hcancelled ?_ (log_cancel s c)
      (List.forall_mem_singleton.mpr rfl)
    · rw [stage_cancel]
    · cases c <;> rfl
  | cycleCalls hcycle =>
    exact hs.beside (fun _ _ _ => .rfl) hcancelled rfl rfl (List.forall_mem_singleton.mpr rfl)
  | stays hasks => exact hs.beside (fun _ _ _ => .rfl) hcancelled rfl (List.append_nil _).symm hnil
  | asks hwaiting hasks =>
    refine hs.beside (fun c n p => ?_) hcancelled rfl (List.append_nil _).symm hnil
    exact running_update_iff (fun _ _ => (hphase.idle hwaiting).trans_ne Stage.noConfusion)
      fun _ _ => Stage.noConfusion
  | enter hidle =>
    refine hs.beside (fun c n p => ?_) hcancelled rfl (List.append_nil _).symm hnil
    exact running_update_iff (fun _ _ => hidle.trans_ne Stage.noConfusion)
      fun _ _ => Stage.noConfusion
  | @giveUp c hwaiting hnow =>
    refine hs.beside (fun c' n p => ?_) hcancelled (passes_leave s c _)
      ((log_leave s c _).trans (List.append_nil _).symm) hnil
    rw [stage_leave]
    exact running_update_iff (fun _ _ => hwaiting.trans_ne Stage.noConfusion)
      fun _ _ => Stage.noConfusion
  | begin hwaiting hnot hfree =>
    refine hs.begin (fun c n p hrunning => ?_) _
    cases hfree.symm.trans (hexclusive c n p hrunning)
  | passCalls hrunning => exact hs.passCalls hexclusive hrunning h
  | finish hrunning hend => exact hs.finish hexclusive hrunning hend

end

/-! ## §3 Any order of moves -/

/-- What holds at any time. -/
structure Orderly (s : State ι κ σ) : Prop where
  exclusive : Exclusive s
  inPhase : InPhase s
  barred : Barred s
  kept : Kept s
  recorded : Recorded s

theorem orderly_start (b : Bridge) (cycles : ι → Proc interface (Except Fault Next))
    (surroundings : σ) : Orderly (start b cycles surroundings : State ι κ σ) where
  exclusive _ _ _ hrunning := Stage.noConfusion hrunning
  inPhase := .of_idle rfl PassLoop.Phase.noConfusion
  barred _ _ _ heq := absurd heq nil_ne_append_cons
  kept := .of_followed fun _ _ _ heq => absurd heq nil_ne_append_cons
  recorded :=
    { numbered := fun _ hx => nomatch hx
      running := fun _ _ _ hrunning => Stage.noConfusion hrunning
      called := fun _ _ _ _ heq => absurd heq nil_ne_append_cons
      going := fun _ _ _ _ _ heq => absurd heq nil_ne_append_cons }

section

variable [DecidableEq κ] (h : Handler interface σ) (b : Bridge)
  (cycles : ι → Proc interface (Except Fault Next)) (surroundings : σ) (moves : List (Move ι κ))

theorem orderly_run : Orderly ((start b cycles surroundings).run h moves) := by
  refine run_induction (fun s s' hs hstep => ?_) moves (orderly_start b cycles surroundings)
  exact
    { exclusive := hs.exclusive.step hstep
      inPhase := hs.inPhase.step hstep
      barred := hs.barred.step hstep
      kept := hs.kept.step hstep
      recorded := hs.recorded.step hs.exclusive hs.inPhase hstep }

end

section

variable {s : State ι κ σ}

/-- After each request, the loop that has nothing to do has run a whole pass. -/
theorem Orderly.passed (hs : Orderly s) (hresting : s.loop.Resting)
    {before after : List (Note ι κ)} {x : Note ι κ} (heq : s.log = before ++ x :: after)
    (hx : x.IsRequest) : ∃ mid n b rest r b', after = mid ++ .started n .loop b :: rest ∧
      .ended n r ∈ rest ∧ Ends (b.fullPass none) (eventsOf (.pass n) rest) (r, b') := by
  obtain ⟨hphase, hcancelled, hrequested, -⟩ := PassLoop.resting_iff.mp hresting
  have hidle : s.stage .loop = .idle := hs.inPhase.idle hphase
  have hfollowed : Followed s.log := by
    rcases hs.kept with hr | hstage | hstopped | hc | hfollowed
    · cases hrequested.symm.trans hr
    · cases hidle.symm.trans hstage
    · cases hphase.symm.trans hstopped
    · cases hcancelled.symm.trans hc
    · exact hfollowed
  obtain ⟨n, b, hmem⟩ := hfollowed before x after heq hx
  obtain ⟨mid, rest, rfl⟩ := List.append_of_mem hmem
  -- The loop does not run the pass any more and has not been cancelled, so the pass has ended.
  have hlog : s.log = (before ++ x :: mid) ++ .started n .loop b :: rest := by
    rw [heq, List.append_assoc, List.cons_append]
  rcases hs.recorded.going _ n .loop b rest hlog with ⟨p, hp, -⟩ | hc | ⟨r, b', hended, hends⟩
  · cases hidle.symm.trans hp
  · cases hcancelled.symm.trans hc
  · exact ⟨mid, n, b, rest, r, b', rfl, hended, hends⟩

/-- Whatever a pass calls after its caller has been cancelled, it was started before. -/
theorem Orderly.started_before (hs : Orderly s) {before mid rest : List (Note ι κ)} {c : Caller κ}
    {n : Nat} {e : Event interface}
    (heq : s.log = before ++ .cancelled c :: (mid ++ .called (.pass n) e :: rest)) :
    ∃ c' b, .started n c' b ∈ before ++ .cancelled c :: mid ∧
      (c' = c → .started n c b ∈ before) := by
  have hlog : s.log = (before ++ .cancelled c :: mid) ++ .called (.pass n) e :: rest := by
    rw [heq, List.append_assoc, List.cons_append]
  obtain ⟨c', b, hstarted⟩ := hs.recorded.called _ n e rest hlog
  refine ⟨c', b, hstarted, ?_⟩
  rintro rfl
  rcases List.mem_append.mp hstarted with hbefore | hafter
  · exact hbefore
  · rcases List.mem_cons.mp hafter with heq' | hmid
    · cases heq'
    · exact absurd (List.mem_append_left _ hmid) ((hs.barred before c' _ heq).2 n b)

end

section

variable [DecidableEq κ]

/-- Whatever moves are made in whatever order: after each request, a loop that has nothing to do has
started a pass and run it to its end; one pass runs at most; and a caller that has been cancelled
starts no pass, so that what passes call from then on was started before, or by others. -/
theorem no_request_lost (h : Handler interface σ) (b : Bridge)
    (cycles : ι → Proc interface (Except Fault Next)) (surroundings : σ)
    (moves : List (Move ι κ)) :
    let s := (start b cycles surroundings).run h moves
    (s.loop.Resting → ∀ before x after, s.log = before ++ x :: after → x.IsRequest →
      ∃ mid n b' rest r b'', after = mid ++ .started n .loop b' :: rest ∧ .ended n r ∈ rest ∧
        Ends (b'.fullPass none) (eventsOf (.pass n) rest) (r, b'')) ∧
    (∀ c c' n n' p p', s.stage c = .running n p → s.stage c' = .running n' p' → c = c') ∧
    ∀ before c after, s.log = before ++ .cancelled c :: after →
      (∀ n b', .started n c b' ∉ after) ∧
      ∀ mid n e rest, after = mid ++ .called (.pass n) e :: rest →
        ∃ c' b', .started n c' b' ∈ before ++ .cancelled c :: mid ∧
          (c' = c → .started n c b' ∈ before) := by
  intro s
  have hs : Orderly s := orderly_run h b cycles surroundings moves
  refine ⟨fun hresting before x after heq hx => hs.passed hresting heq hx, ?_, ?_⟩
  · exact fun c c' n n' p p' hc hc' => (hs.exclusive.alone hc hc').1
  · intro before c after heq
    refine ⟨(hs.barred before c after heq).2, ?_⟩
    rintro mid n e rest rfl
    exact hs.started_before heq

end

/-- A bridge without registries. -/
def plainBridge : Bridge where
  style := { format := .jsonArray }
  directory := .ofList []

/-- A cluster without deployments. -/
def deserted : World where
  deployments := []
  details _ := .ok {}
  registry _ _ := .error (.cluster none)

/-- The deployment is found to be gone in the middle of the first pass, whose list has been read. -/
def goneMeanwhile : State Unit Empty Unit :=
  (start plainBridge (fun _ => plainBridge.reconcile none "ns" "a") ()).run deserted.surroundings
    [.look, .begin .loop, .pass .loop, .cycle (), .cycle (), .pass .loop, .pass .loop,
      .look, .begin .loop, .pass .loop, .pass .loop, .pass .loop, .look]

theorem no_request_lost_meanwhile : goneMeanwhile.loop.Resting ∧
    ∃ before after, goneMeanwhile.log = before ++ .called (.cycle ()) ⟨.requestPass, ()⟩ :: after ∧
      ∃ mid n b rest r b', after = mid ++ .started n .loop b :: rest ∧ .ended n r ∈ rest ∧
        Ends (b.fullPass none) (eventsOf (.pass n) rest) (r, b') := by
  have hresting : goneMeanwhile.loop.Resting := ⟨rfl, rfl⟩
  have hmem : .called (.cycle ()) ⟨.requestPass, ()⟩ ∈ goneMeanwhile.log :=
    List.mem_of_getElem? (i := 3) rfl
  obtain ⟨before, after, heq⟩ := List.append_of_mem hmem
  refine ⟨hresting, before, after, heq, ?_⟩
  exact (no_request_lost _ _ _ _ _).1 hresting before _ after heq rfl

/-! ## §4 Deployments that are gone -/

/-- The log lists the cycles as they were. -/
def Faithful (cycles : ι → Proc interface (Except Fault Next)) (s : State ι κ σ) : Prop :=
  ∀ i, Becomes (cycles i) (eventsOf (.cycle i) s.log) (s.cycles i)

section

variable {h : Handler interface σ} {cycles : ι → Proc interface (Except Fault Next)}
  {s s' : State ι κ σ}

/-- A step of someone else. -/
theorem Faithful.beside (hs : Faithful cycles s) {more : List (Note ι κ)}
    (hcycles : s'.cycles = s.cycles) (hlog : s'.log = s.log ++ more)
    (hmore : ∀ i, ∀ x ∈ more, x.eventOf? (.cycle i) = none) : Faithful cycles s' := by
  intro i
  rw [hcycles, hlog, eventsOf_append (hmore i)]
  exact hs i

theorem Faithful.cycleCalls (hs : Faithful cycles s) {i : ι} {c : Call}
    {resume : c.Answer → Proc interface (Except Fault Next)} (hcycle : s.cycles i = .call c resume)
    (h : Handler interface σ) : Faithful cycles (s.cycleCalls h i c resume) := by
  intro j
  show Becomes (cycles j) (eventsOf (.cycle j) (s.log ++ [.called (.cycle i) _]))
    (Function.update s.cycles i _ j)
  by_cases hij : j = i
  · subst hij
    have hbecomes := hs j
    rw [hcycle] at hbecomes
    rw [eventsOf_concat_called, Function.update_self]
    exact hbecomes.concat _
  · have hne : Actor.cycle i ≠ .cycle j := fun heq => hij (Actor.cycle.inj heq).symm
    rw [eventsOf_append (List.forall_mem_singleton.mpr (eventOf?_called_of_ne hne _)),
      Function.update_of_ne hij]
    exact hs j

theorem Faithful.step [DecidableEq κ] (hs : Faithful cycles s) (hstep : Step h s s') :
    Faithful cycles s' := by
  have hnil : ∀ i, ∀ x ∈ ([] : List (Note ι κ)), x.eventOf? (.cycle i) = none :=
    fun _ => List.forall_mem_nil _
  cases hstep with
  | skip => exact hs
  | request => exact hs.beside rfl rfl fun _ => List.forall_mem_singleton.mpr rfl
  | tick => exact hs.beside rfl (List.append_nil _).symm hnil
  | cancel c =>
    refine hs.beside ?_ (log_cancel s c) fun _ => List.forall_mem_singleton.mpr rfl
    cases c <;> rfl
  | cycleCalls hcycle => exact hs.cycleCalls hcycle h
  | stays hasks => exact hs.beside rfl (List.append_nil _).symm hnil
  | asks hwaiting hasks => exact hs.beside rfl (List.append_nil _).symm hnil
  | enter hidle => exact hs.beside rfl (List.append_nil _).symm hnil
  | @giveUp c hwaiting hcancelled =>
    exact hs.beside (cycles_leave s c _) ((log_leave s c _).trans (List.append_nil _).symm) hnil
  | begin hwaiting hnot hfree => exact hs.beside rfl rfl fun _ => List.forall_mem_singleton.mpr rfl
  | passCalls hrunning =>
    exact hs.beside rfl rfl fun _ =>
      List.forall_mem_singleton.mpr (eventOf?_called_of_ne Actor.pass_ne_cycle _)
  | @finish c n p r b hrunning hend =>
    exact hs.beside (cycles_leave s c r) rfl fun _ => List.forall_mem_singleton.mpr rfl

end

/-- A cycle that finds its deployment gone requests a pass, and that is all. -/
theorem requests_of_gone {b : Bridge} {ns name : String} {t : List (Event interface)}
    {r : Except Fault Next}
    (hends : Ends (b.reconcile none ns name) (⟨.deployment ns name, .ok none⟩ :: t) r) :
    t = [⟨.requestPass, ()⟩] := by
  cases hends with
  | step hrest =>
    cases hrest with
    | step hrest =>
      cases hrest
      rfl

/-- What is noted after something. -/
theorem eventsOf_append_cons (who : Actor ι) (before after : List (Note ι κ))
    (e : Event interface) : eventsOf who (before ++ .called who e :: after) =
      eventsOf who before ++ e :: eventsOf who after := by
  simp [eventsOf, Note.eventOf?]

theorem called_of_eventsOf {who : Actor ι} {log : List (Note ι κ)} {e : Event interface}
    (he : e ∈ eventsOf who log) : .called who e ∈ log := by
  obtain ⟨x, hx, hevent⟩ := List.mem_filterMap.mp he
  cases x with
  | called who' e' =>
    simp only [Note.eventOf?, Option.ite_none_right_eq_some, Option.some.injEq] at hevent
    obtain ⟨rfl, rfl⟩ := hevent
    exact hx
  | requested => cases hevent
  | cancelled c => cases hevent
  | started n c b => cases hevent
  | ended n r => cases hevent

/-- When a cycle has found its deployment gone and has ended, and the loop has nothing to do, then
a pass was started after that and run to its end. -/
theorem passed_after_gone [DecidableEq κ] (h : Handler interface σ) (b : Bridge)
    (cycles : ι → Proc interface (Except Fault Next)) (surroundings : σ) (moves : List (Move ι κ))
    {i : ι} {b' : Bridge} {ns name : String} (hcycle : cycles i = b'.reconcile none ns name) :
    let s := (start b cycles surroundings).run h moves
    s.loop.Resting → (∃ r, s.cycles i = .done r) → ∀ before after,
      s.log = before ++ .called (.cycle i) ⟨.deployment ns name, .ok none⟩ :: after →
      eventsOf (.cycle i) before = [] →
      ∃ mid n b' rest r b'', after = mid ++ .started n .loop b' :: rest ∧ .ended n r ∈ rest ∧
        Ends (b'.fullPass none) (eventsOf (.pass n) rest) (r, b'') := by
  intro s hresting hended before after heq hfirst
  obtain ⟨r, hr⟩ := hended
  have hs : Orderly s := orderly_run h b cycles surroundings moves
  have hfaithful : Faithful cycles s :=
    run_induction (fun _ _ hs hstep => hs.step hstep) moves fun i => .refl (cycles i)
  have hends := hfaithful i
  rw [hcycle, hr, heq, eventsOf_append_cons, hfirst] at hends
  have hrequest : .called (.cycle i) ⟨.requestPass, ()⟩ ∈ after :=
    called_of_eventsOf (requests_of_gone hends ▸ List.mem_cons_self)
  obtain ⟨first, rest, rfl⟩ := List.append_of_mem hrequest
  have hlog : s.log = (before ++ .called (.cycle i) ⟨.deployment ns name, .ok none⟩ :: first) ++
      .called (.cycle i) ⟨.requestPass, ()⟩ :: rest := by
    rw [heq, List.append_assoc, List.cons_append]
  obtain ⟨mid, n, b', rest', r', b'', rfl, hended, hends⟩ := hs.passed hresting hlog rfl
  exact ⟨first ++ .called (.cycle i) ⟨.requestPass, ()⟩ :: mid, n, b', rest', r', b'',
    by rw [List.append_assoc, List.cons_append], hended, hends⟩

end Passes

end CatalogSync.Sync
