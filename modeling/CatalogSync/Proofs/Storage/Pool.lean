import CatalogSync.Proofs.Storage.Locking
import Mathlib.Data.List.Infix
import Mathlib.Logic.Relation
/-!
# Procedures at the same time

Guarded procedures run at the same time and are interleaved at their calls, in any order that the
lock admits. The surroundings answer the other calls as they like; what they answer may depend on
all that has happened before, so their state may hold any series of answers.

The invariant (`Pool.Inv`) compares a pool with the execution of its procedures one at a time in the
order in which they took the lock: while nobody holds the lock the two agree, and what the holder
still has to do leads to where its procedure alone would have led. When all procedures have ended,
the two agree altogether (`Pool.Inv.exists_order`).
-/

namespace CatalogSync.Storage

open Proc (Handler)
open Service (Guarded Held alone)

/-- Procedures that are under way at the same time. -/
structure Pool (n : Nat) (α σ : Type) where
  -- What each procedure still has to do.
  running : Fin n → Proc Service.interface α
  holder : Option (Fin n) := none
  -- The procedures that have taken the lock, in order.
  acquired : List (Fin n) := []
  -- The state of the surroundings.
  outside : σ
  -- The calls to the backend and the importer with their answers, in order.
  log : List (Event Service.interface) := []

namespace Pool

variable {n : Nat} {α σ : Type} {h : Handler Service.interface σ} {P : Service.Call → σ → Prop}
  {tasks : Fin n → Proc Service.interface α} {s : σ} {p : Pool n α σ}

/-! ## §1 Steps -/

def start (tasks : Fin n → Proc Service.interface α) (s : σ) : Pool n α σ where
  running := tasks
  outside := s

/-- The pool in which one procedure has come to the given rest. -/
def resume (p : Pool n α σ) (i : Fin n) (rest : Proc Service.interface α) : Pool n α σ :=
  { p with running := fun j => if j = i then rest else p.running j }

/-- A procedure has taken the lock. -/
def taken (p : Pool n α σ) (i : Fin n) (rest : Unit → Proc Service.interface α) : Pool n α σ :=
  { p.resume i (rest ()) with holder := some i, acquired := p.acquired ++ [i] }

/-- A procedure has given the lock back. -/
def given (p : Pool n α σ) (i : Fin n) (rest : Unit → Proc Service.interface α) : Pool n α σ :=
  { p.resume i (rest ()) with holder := none }

/-- A procedure has called the backend or the importer. -/
def called (h : Handler Service.interface σ) (p : Pool n α σ) (i : Fin n) (c : Service.Call)
    (rest : c.Answer → Proc Service.interface α) : Pool n α σ :=
  { p.resume i (rest (h c p.outside).1) with
    outside := (h c p.outside).2
    log := p.log ++ [⟨c, (h c p.outside).1⟩] }

theorem running_taken (p : Pool n α σ) (i : Fin n) (rest : Unit → Proc Service.interface α) :
    (p.taken i rest).running i = rest () := if_pos rfl

theorem running_taken_ne (p : Pool n α σ) {i j : Fin n} (hne : j ≠ i)
    (rest : Unit → Proc Service.interface α) :
    (p.taken i rest).running j = p.running j := if_neg hne

theorem running_given (p : Pool n α σ) (i : Fin n) (rest : Unit → Proc Service.interface α) :
    (p.given i rest).running i = rest () := if_pos rfl

theorem running_given_ne (p : Pool n α σ) {i j : Fin n} (hne : j ≠ i)
    (rest : Unit → Proc Service.interface α) :
    (p.given i rest).running j = p.running j := if_neg hne

theorem running_called (h : Handler Service.interface σ) (p : Pool n α σ) (i : Fin n)
    (c : Service.Call) (rest : c.Answer → Proc Service.interface α) :
    (called h p i c rest).running i = rest (h c p.outside).1 := if_pos rfl

theorem running_called_ne (h : Handler Service.interface σ) (p : Pool n α σ) {i j : Fin n}
    (hne : j ≠ i) (c : Service.Call) (rest : c.Answer → Proc Service.interface α) :
    (called h p i c rest).running j = p.running j := if_neg hne

/-- One procedure makes its next call. Only the lock may keep it from that. -/
inductive Step (h : Handler Service.interface σ) : Pool n α σ → Pool n α σ → Prop where
  | acquire {p : Pool n α σ} {i : Fin n} {rest : Unit → Proc Service.interface α}
      (hi : p.running i = .call .acquire rest) (hfree : p.holder = none) : Step h p (p.taken i rest)
  | release {p : Pool n α σ} {i : Fin n} {rest : Unit → Proc Service.interface α}
      (hi : p.running i = .call .release rest) (hheld : p.holder = some i) :
      Step h p (p.given i rest)
  | outside {p : Pool n α σ} {i : Fin n} {c : Service.Call}
      {rest : c.Answer → Proc Service.interface α} (hi : p.running i = .call c rest)
      (hc : c.isLock = false) : Step h p (called h p i c rest)

/-- The pools that can be reached. -/
abbrev Reaches (h : Handler Service.interface σ) : Pool n α σ → Pool n α σ → Prop :=
  Relation.ReflTransGen (Step h)

/-- Every procedure has ended. -/
def Complete (p : Pool n α σ) : Prop := ∀ i, ∃ a, p.running i = .done a

/-! ## §2 One at a time -/

/-- The state after procedures, one after another. -/
def after (h : Handler Service.interface σ) (l : List (Proc Service.interface α)) (s : σ) : σ :=
  l.foldl (fun s task => (task.run h s).2) s

theorem after_cons (task : Proc Service.interface α) (l : List (Proc Service.interface α)) (s : σ) :
    after h (task :: l) s = after h l (task.run h s).2 := rfl

theorem after_append (l l' : List (Proc Service.interface α)) (s : σ) :
    after h (l ++ l') s = after h l' (after h l s) := List.foldl_append

/-- The calls to the backend and the importer. -/
def outsideOf (t : List (Event Service.interface)) : List (Event Service.interface) :=
  t.filter fun e => !e.call.isLock

/-- The calls of procedures to the backend and the importer, one procedure after another. -/
def work (h : Handler Service.interface σ) :
    List (Proc Service.interface α) → σ → List (Event Service.interface)
  | [], _ => []
  | task :: l, s => outsideOf (task.trace h s) ++ work h l (task.run h s).2

theorem work_append (l l' : List (Proc Service.interface α)) (s : σ) :
    work h (l ++ l') s = work h l s ++ work h l' (after h l s) := by
  induction l generalizing s with
  | nil => rfl
  | cons task l ih => rw [List.cons_append, work, work, ih, after_cons, List.append_assoc]

theorem after_concat (l : List (Fin n)) (i : Fin n) (s : σ) :
    after h ((l ++ [i]).map tasks) s = ((tasks i).run h (after h (l.map tasks) s)).2 := by
  rw [List.map_append, after_append]
  rfl

theorem work_concat (l : List (Fin n)) (i : Fin n) (s : σ) :
    work h ((l ++ [i]).map tasks) s = work h (l.map tasks) s ++
      outsideOf ((tasks i).trace h (after h (l.map tasks) s)) := by
  rw [List.map_append, work_append]
  exact congrArg _ (List.append_nil _)

/-! ## §3 The invariant -/

/-- What the holder of the lock still has to do leads to where its procedure alone would have led
after the procedures that had the lock before. -/
structure Holds (h : Handler Service.interface σ) (P : Service.Call → σ → Prop)
    (tasks : Fin n → Proc Service.interface α) (s : σ) (p : Pool n α σ) (i : Fin n)
    (earlier : List (Fin n)) : Prop where
  last : p.acquired = earlier ++ [i]
  held : Held (p.running i)
  run : (p.running i).run (alone h) p.outside =
    (tasks i).run (alone h) (after (alone h) (earlier.map tasks) s)
  log : p.log ++ outsideOf ((p.running i).trace (alone h) p.outside) =
    work (alone h) ((earlier ++ [i]).map tasks) s
  meets : (p.running i).Meets P (alone h) p.outside

/-- The pool agrees with the execution of its procedures one at a time. -/
structure Inv (h : Handler Service.interface σ) (P : Service.Call → σ → Prop)
    (tasks : Fin n → Proc Service.interface α) (s : σ) (p : Pool n α σ) : Prop where
  nodup : p.acquired.Nodup
  untouched : ∀ i, i ∉ p.acquired → p.running i = tasks i
  ended : ∀ earlier i, earlier ++ [i] <+: p.acquired → p.holder ≠ some i →
    p.running i = .done ((tasks i).run (alone h) (after (alone h) (earlier.map tasks) s)).1
  free : p.holder = none → p.outside = after (alone h) (p.acquired.map tasks) s ∧
    p.log = work (alone h) (p.acquired.map tasks) s
  busy : ∀ i, p.holder = some i → ∃ earlier, Holds h P tasks s p i earlier

/-- An element without repetition has one list in front of it. -/
theorem eq_of_concat_prefix {l l' : List (Fin n)} {i : Fin n} (hnodup : (l' ++ [i]).Nodup)
    (hfront : l ++ [i] <+: l' ++ [i]) : l = l' := by
  rcases List.prefix_concat_iff.mp hfront with heq | hfront
  · exact List.append_inj_left' heq rfl
  · have hmem : i ∈ l' := hfront.subset List.mem_concat_self
    exact absurd rfl ((List.nodup_append.mp hnodup).2.2 i hmem i List.mem_cons_self)

theorem inv_start (h : Handler Service.interface σ) (P : Service.Call → σ → Prop)
    (tasks : Fin n → Proc Service.interface α) (s : σ) : Inv h P tasks s (start tasks s) where
  nodup := .nil
  untouched _ _ := rfl
  ended earlier i hfront _ := by
    have hnil := List.prefix_nil.mp hfront
    cases (List.append_eq_nil_iff.mp hnil).2
  free _ := ⟨rfl, rfl⟩
  busy i hi := nomatch hi

namespace Inv

/-- A procedure that has had the lock has ended. -/
theorem done_of_mem (inv : Inv h P tasks s p) {i : Fin n} (hi : i ∈ p.acquired)
    (hheld : p.holder ≠ some i) : ∃ a, p.running i = .done a := by
  obtain ⟨earlier, later, hsplit⟩ := List.append_of_mem hi
  have hfront : earlier ++ [i] <+: p.acquired := ⟨later, by rw [hsplit, List.append_assoc]; rfl⟩
  exact ⟨_, inv.ended earlier i hfront hheld⟩

/-- Only the holder of the lock calls the backend and the importer, or gives the lock back. -/
theorem holder_of_call (inv : Inv h P tasks s p) (hguarded : ∀ i, Guarded (tasks i)) {i : Fin n}
    {c : Service.Call} {rest : c.Answer → Proc Service.interface α}
    (hi : p.running i = .call c rest) (hc : c ≠ .acquire) : p.holder = some i := by
  by_contra hheld
  by_cases hmem : i ∈ p.acquired
  · obtain ⟨a, hdone⟩ := inv.done_of_mem hmem hheld
    cases hi.symm.trans hdone
  -- A procedure that has not had the lock begins with taking it.
  · have hbegins := hguarded i
    rw [← inv.untouched i hmem, hi] at hbegins
    cases hbegins with
    | acquire _ => exact hc rfl

/-- A procedure that takes the lock has not had it before. -/
theorem not_mem_of_acquire (inv : Inv h P tasks s p) {i : Fin n}
    {rest : Unit → Proc Service.interface α} (hi : p.running i = .call .acquire rest)
    (hfree : p.holder = none) : i ∉ p.acquired := by
  intro hmem
  obtain ⟨a, hdone⟩ := inv.done_of_mem hmem (by rw [hfree]; exact fun h => nomatch h)
  cases hi.symm.trans hdone

theorem acquire (inv : Inv h P tasks s p) (hguarded : ∀ i, Guarded (tasks i))
    (hmeets : ∀ i s, (tasks i).Meets P (alone h) s) {i : Fin n}
    {rest : Unit → Proc Service.interface α} (hi : p.running i = .call .acquire rest)
    (hfree : p.holder = none) :
    Inv h P tasks s (p.taken i rest) := by
  have hnew := inv.not_mem_of_acquire hi hfree
  have htask : tasks i = .call .acquire rest := (inv.untouched i hnew).symm.trans hi
  obtain ⟨houtside, hlog⟩ := inv.free hfree
  constructor
  case nodup =>
    exact List.nodup_append.mpr ⟨inv.nodup, List.pairwise_singleton _ _, fun a ha b hb =>
      fun hab => hnew (List.mem_singleton.mp hb ▸ hab ▸ ha)⟩
  case untouched =>
    intro j hj
    obtain ⟨hj, hji⟩ := not_or.mp (mt List.mem_append.mpr hj)
    rw [← inv.untouched j hj]
    exact running_taken_ne p (fun h => hji (List.mem_singleton.mpr h)) _
  case ended =>
    intro earlier j hfront hheld
    have hne : j ≠ i := fun h => hheld (h ▸ rfl)
    rcases List.prefix_concat_iff.mp hfront with heq | hfront
    · exact absurd (List.append_inj_right' heq rfl) fun h => hne (List.cons.inj h).1
    · rw [← inv.ended earlier j hfront (by rw [hfree]; exact fun h => nomatch h)]
      exact running_taken_ne p hne _
  case free => exact fun h => nomatch h
  case busy =>
    intro j hj
    obtain rfl : i = j := Option.some.inj hj
    have hrest := running_taken p i rest
    have hbegins := hguarded i
    have hcareful := hmeets i p.outside
    rw [htask] at hbegins hcareful
    refine ⟨p.acquired, rfl, ?_, ?_, ?_, ?_⟩
    · rw [hrest]
      cases hbegins with
      | acquire hheld => exact hheld ()
    -- Taking the lock does not change the surroundings.
    · rw [hrest, ← houtside, htask]
      rfl
    · rw [hrest, work_concat, ← houtside, ← hlog, htask]
      rfl
    · rw [hrest]
      cases hcareful with
      | call _ hlater => exact hlater

theorem outside (inv : Inv h P tasks s p) (hguarded : ∀ i, Guarded (tasks i)) {i : Fin n}
    {c : Service.Call} {rest : c.Answer → Proc Service.interface α}
    (hi : p.running i = .call c rest) (hc : c.isLock = false) :
    Inv h P tasks s (called h p i c rest) := by
  have hholder : p.holder = some i := inv.holder_of_call hguarded hi fun h => by cases h; cases hc
  obtain ⟨earlier, hlast, hheld, hrun, hlog, hmeets⟩ := inv.busy i hholder
  have hmem : i ∈ p.acquired := by rw [hlast]; exact List.mem_concat_self
  rw [hi] at hheld hrun hlog hmeets
  constructor
  case nodup => exact inv.nodup
  case untouched =>
    intro j hj
    have hne : j ≠ i := by
      rintro rfl
      exact hj hmem
    rw [← inv.untouched j hj]
    exact running_called_ne h p hne c rest
  case ended =>
    intro earlier j hfront hheld
    have hne : j ≠ i := by
      rintro rfl
      exact hheld hholder
    rw [← inv.ended earlier j hfront hheld]
    exact running_called_ne h p hne c rest
  case free => exact fun h => nomatch hholder.symm.trans h
  case busy =>
    intro j hj
    obtain rfl : i = j := Option.some.inj (hholder.symm.trans hj)
    have hrest := running_called h p i c rest
    -- The holder goes on alone with the answer that it got.
    have hstep : alone h c p.outside = h c p.outside := Service.alone_eq hc _
    refine ⟨earlier, hlast, ?_, ?_, ?_, ?_⟩
    · rw [hrest]
      exact hheld.resume hc _
    · rw [hrest, ← hrun, Proc.run_call, hstep]
      rfl
    · rw [hrest, ← hlog, Proc.trace_call, hstep]
      show (p.log ++ _) ++ _ = _
      rw [List.append_assoc]
      refine congrArg (p.log ++ ·) ?_
      unfold outsideOf
      rw [List.filter_cons_of_pos (by rw [hc]; rfl)]
      rfl
    · rw [hrest]
      cases hmeets with
      | call _ hlater =>
        rw [hstep] at hlater
        exact hlater

theorem release (inv : Inv h P tasks s p) {i : Fin n}
    {rest : Unit → Proc Service.interface α} (hi : p.running i = .call .release rest)
    (hholder : p.holder = some i) :
    Inv h P tasks s (p.given i rest) := by
  obtain ⟨earlier, hlast, hheld, hrun, hlog, hmeets⟩ := inv.busy i hholder
  have hmem : i ∈ p.acquired := by rw [hlast]; exact List.mem_concat_self
  rw [hi] at hheld hrun hlog
  obtain ⟨a, ha⟩ : ∃ a, ∀ answer, rest answer = .done a := by
    cases hheld with
    | release ha => exact ⟨_, ha⟩
    | call hc _ => cases hc
  -- The holder has ended, as its procedure alone would have ended.
  have hresult : (a, p.outside) =
      (tasks i).run (alone h) (after (alone h) (earlier.map tasks) s) := by
    rw [← hrun, Proc.run_call, ha]
    rfl
  constructor
  case nodup => exact inv.nodup
  case untouched =>
    intro j hj
    have hne : j ≠ i := by
      rintro rfl
      exact hj hmem
    rw [← inv.untouched j hj]
    exact running_given_ne p hne rest
  case ended =>
    intro earlier' j hfront _
    by_cases hji : j = i
    · subst hji
      change earlier' ++ [j] <+: p.acquired at hfront
      rw [hlast] at hfront
      have hsame : earlier' = earlier := eq_of_concat_prefix (hlast ▸ inv.nodup) hfront
      rw [hsame, ← hresult]
      exact (running_given p j rest).trans (ha ())
    · have hheld : p.holder ≠ some j := by
        rw [hholder]
        exact fun h => hji (Option.some.inj h).symm
      rw [← inv.ended earlier' j hfront hheld]
      exact running_given_ne p hji rest
  case free =>
    intro _
    refine ⟨?_, ?_⟩
    · show p.outside = after (alone h) (p.acquired.map tasks) s
      rw [hlast, after_concat, ← hresult]
    · show p.log = work (alone h) (p.acquired.map tasks) s
      rw [hlast, ← hlog, Proc.trace_call, ha]
      exact (List.append_nil _).symm
  case busy => exact fun j hj => nomatch hj

theorem step (inv : Inv h P tasks s p) (hguarded : ∀ i, Guarded (tasks i))
    (hmeets : ∀ i s, (tasks i).Meets P (alone h) s) {p' : Pool n α σ} (hstep : Step h p p') :
    Inv h P tasks s p' := by
  cases hstep with
  | acquire hi hfree => exact inv.acquire hguarded hmeets hi hfree
  | release hi hheld => exact inv.release hi hheld
  | outside hi hc => exact inv.outside hguarded hi hc

theorem of_reaches (hguarded : ∀ i, Guarded (tasks i))
    (hmeets : ∀ i s, (tasks i).Meets P (alone h) s) (hreach : Reaches h (start tasks s) p) :
    Inv h P tasks s p := by
  induction hreach with
  | refl => exact inv_start h P tasks s
  | tail _ hstep ih => exact ih.step hguarded hmeets hstep

/-! ## §4 What follows for all pools -/

/-- A call to the backend or the importer has the property that it has when the procedures run one
at a time. -/
theorem meets_of_call (inv : Inv h P tasks s p) (hguarded : ∀ i, Guarded (tasks i)) {i : Fin n}
    {c : Service.Call} {rest : c.Answer → Proc Service.interface α}
    (hi : p.running i = .call c rest) (hc : c ≠ .acquire) : P c p.outside := by
  obtain ⟨earlier, hholds⟩ := inv.busy i (inv.holder_of_call hguarded hi hc)
  have hmeets := hholds.meets
  rw [hi] at hmeets
  cases hmeets with
  | call hc _ => exact hc

/-- The calls so far are the first of those that are made one procedure at a time. -/
theorem log_prefix (inv : Inv h P tasks s p) :
    p.log <+: work (alone h) (p.acquired.map tasks) s := by
  cases hholder : p.holder with
  | none =>
    rw [(inv.free hholder).2]
  | some i =>
    obtain ⟨earlier, hholds⟩ := inv.busy i hholder
    rw [hholds.last, ← hholds.log]
    exact List.prefix_append _ _

theorem work_front {l l' : List (Fin n)} (hfront : l <+: l') (s : σ) :
    work h (l.map tasks) s <+: work h (l'.map tasks) s := by
  obtain ⟨more, rfl⟩ := hfront
  rw [List.map_append, work_append]
  exact List.prefix_append _ _

/-- While a procedure has the lock, those that had it before have made all their calls. -/
theorem work_front_log (hguarded : ∀ i, Guarded (tasks i)) (hreach : Reaches h (start tasks s) p)
    {i : Fin n} {earlier : List (Fin n)} (hholder : p.holder = some i)
    (hlast : p.acquired = earlier ++ [i]) : work (alone h) (earlier.map tasks) s <+: p.log := by
  induction hreach with
  | refl => cases hholder
  | tail hreach hstep ih =>
    have inv : Inv h (fun _ _ => True) tasks s _ :=
      of_reaches hguarded (fun i s => .of_true _ _ _) hreach
    cases hstep with
    | acquire _ hfree =>
      obtain ⟨rfl, -⟩ := List.append_inj' hlast rfl
      rw [← (inv.free hfree).2]
      exact List.prefix_refl _
    | release _ _ => cases hholder
    | outside _ _ => exact (ih hholder hlast).trans (List.prefix_append _ _)

/-- A procedure that has had the lock has made all its calls. -/
theorem work_front_log_of_ended (hguarded : ∀ i, Guarded (tasks i))
    (hreach : Reaches h (start tasks s) p) {i : Fin n} {earlier : List (Fin n)}
    (hearlier : earlier ++ [i] <+: p.acquired) (hheld : p.holder ≠ some i) :
    work (alone h) ((earlier ++ [i]).map tasks) s <+: p.log := by
  have inv : Inv h (fun _ _ => True) tasks s p :=
    of_reaches hguarded (fun i s => .of_true _ _ _) hreach
  cases hholder : p.holder with
  | none =>
    rw [(inv.free hholder).2]
    exact work_front hearlier s
  | some j =>
    obtain ⟨before, hholds⟩ := inv.busy j hholder
    have hlast := hholds.last
    rw [hlast] at hearlier
    rcases List.prefix_concat_iff.mp hearlier with heq | hearlier
    · obtain ⟨-, hji⟩ := List.append_inj' heq rfl
      cases hji
      exact absurd hholder hheld
    · exact (work_front hearlier s).trans (work_front_log hguarded hreach hholder hlast)

theorem holder_of_complete (inv : Inv h P tasks s p) (hcomplete : p.Complete) :
    p.holder = none := by
  cases hholder : p.holder with
  | none => rfl
  | some i =>
    obtain ⟨earlier, hholds⟩ := inv.busy i hholder
    obtain ⟨a, ha⟩ := hcomplete i
    have hheld := hholds.held
    rw [ha] at hheld
    cases hheld

/-- A procedure that ended without the lock makes no calls. -/
theorem task_of_not_mem (inv : Inv h P tasks s p) (hcomplete : p.Complete) {i : Fin n}
    (hi : i ∉ p.acquired) : ∃ a, tasks i = .done a := by
  rw [← inv.untouched i hi]
  exact hcomplete i

/-- Procedures that make no calls change nothing. -/
theorem after_of_done {l : List (Fin n)} (hl : ∀ i ∈ l, ∃ a, tasks i = .done a) (s : σ) :
    after (alone h) (l.map tasks) s = s ∧ work (alone h) (l.map tasks) s = [] := by
  induction l with
  | nil => exact ⟨rfl, rfl⟩
  | cons i l ih =>
    obtain ⟨a, ha⟩ := hl i List.mem_cons_self
    rw [List.map_cons, ha]
    exact ih fun j hj => hl j (List.mem_cons_of_mem _ hj)

/-- When all procedures have ended, everything is as if they had run one at a time, in an order that
begins with those that took the lock, in the order in which they took it. -/
theorem exists_order (inv : Inv h P tasks s p) (hcomplete : p.Complete) :
    ∃ order : List (Fin n), order.Nodup ∧ (∀ i, i ∈ order) ∧ p.acquired <+: order ∧
      p.outside = after (alone h) (order.map tasks) s ∧
      p.log = work (alone h) (order.map tasks) s ∧
      ∀ earlier i, earlier ++ [i] <+: order → p.running i =
        .done ((tasks i).run (alone h) (after (alone h) (earlier.map tasks) s)).1 := by
  obtain ⟨houtside, hlog⟩ := inv.free (inv.holder_of_complete hcomplete)
  have hrest : ∀ i ∈ (List.finRange n).filter fun i => i ∉ p.acquired, ∃ a, tasks i = .done a :=
    fun i hi => inv.task_of_not_mem hcomplete (of_decide_eq_true (List.mem_filter.mp hi).2)
  have hnodup : (p.acquired ++ (List.finRange n).filter fun i => i ∉ p.acquired).Nodup := by
    refine List.nodup_append.mpr ⟨inv.nodup, (List.nodup_finRange n).filter _, fun a ha b hb => ?_⟩
    rintro rfl
    exact of_decide_eq_true (List.mem_filter.mp hb).2 ha
  refine ⟨_, hnodup, fun i => ?_, List.prefix_append _ _, ?_, ?_, fun earlier i hfront => ?_⟩
  · by_cases hi : i ∈ p.acquired
    · exact List.mem_append_left _ hi
    · exact List.mem_append_right _ (List.mem_filter.mpr ⟨List.mem_finRange i, decide_eq_true hi⟩)
  · rw [List.map_append, after_append, (after_of_done hrest _).1, houtside]
  · rw [List.map_append, work_append, (after_of_done hrest _).2, List.append_nil, hlog]
  · rcases List.prefix_or_prefix_of_prefix hfront (List.prefix_append p.acquired _) with
      hfront' | hfront'
    · refine inv.ended earlier i hfront' ?_
      rw [inv.holder_of_complete hcomplete]
      exact fun h => nomatch h
    · rcases List.prefix_concat_iff.mp hfront' with heq | hfront'
      · refine inv.ended earlier i (heq ▸ List.prefix_refl _) ?_
        rw [inv.holder_of_complete hcomplete]
        exact fun h => nomatch h
      -- The procedure comes after all that took the lock, so it did not take it.
      · have hi : i ∉ p.acquired := by
          intro hi
          have hsub := hnodup.sublist hfront.sublist
          exact (List.nodup_append.mp hsub).2.2 i (hfront'.subset hi) i List.mem_cons_self rfl
        obtain ⟨a, ha⟩ := inv.task_of_not_mem hcomplete hi
        rw [inv.untouched i hi, ha]
        rfl

end Inv

/-! ## §5 No deadlock -/

/-- The holder of the lock can go on until it has given the lock back and ended. -/
theorem exists_released {rest : Proc Service.interface α} (hrest : Held rest) {i : Fin n}
    (hi : p.running i = rest) (hholder : p.holder = some i) :
    ∃ p', Reaches h p p' ∧ p'.holder = none ∧ (∃ a, p'.running i = .done a) ∧
      ∀ j, j ≠ i → p'.running j = p.running j := by
  induction hrest generalizing p with
  | @release a rest ha =>
    refine ⟨_, .single (.release hi hholder), rfl, ⟨a, ?_⟩, fun j hj => ?_⟩
    · exact (running_given p i rest).trans (ha ())
    · exact running_given_ne p hj rest
  | @call c rest hc _ ih =>
    have hstep := Step.outside (h := h) hi hc
    obtain ⟨p', hreach, hfree, hdone, hothers⟩ :=
      ih (h c p.outside).1 (p := called h p i c rest) (running_called h p i c rest) hholder
    refine ⟨p', .head hstep hreach, hfree, hdone, fun j hj => ?_⟩
    exact (hothers j hj).trans (running_called_ne h p hj c rest)

/-- A procedure that has ended stays so. -/
theorem running_of_done {p' : Pool n α σ} {i : Fin n} {a : α} (hi : p.running i = .done a)
    (hreach : Reaches h p p') : p'.running i = .done a := by
  induction hreach with
  | refl => exact hi
  | tail _ hstep ih =>
    have hne : ∀ {p : Pool n α σ} {j : Fin n} {c : Service.Call}
        {rest : c.Answer → Proc Service.interface α}, p.running i = .done a →
        p.running j = .call c rest → i ≠ j := by
      rintro p j c rest hdone hcall rfl
      cases hdone.symm.trans hcall
    cases hstep with
    | acquire hj _ => exact (running_taken_ne _ (hne ih hj) _).trans ih
    | release hj _ => exact (running_given_ne _ (hne ih hj) _).trans ih
    | outside hj _ => exact (running_called_ne h _ (hne ih hj) _ _).trans ih

/-- While the lock is free, guarded procedures can be run to their ends one after another. -/
theorem exists_done (l : List (Fin n)) (hguarded : ∀ i, Guarded (p.running i))
    (hfree : p.holder = none) :
    ∃ p', Reaches h p p' ∧ p'.holder = none ∧ (∀ i, Guarded (p'.running i)) ∧
      ∀ i ∈ l, ∃ a, p'.running i = .done a := by
  induction l generalizing p with
  | nil => exact ⟨p, .refl, hfree, hguarded, fun i hi => nomatch hi⟩
  | cons i l ih =>
    -- First the procedure in front is run to its end, then the others.
    obtain ⟨p₁, hreach₁, hfree₁, hguarded₁, hdone₁⟩ : ∃ p₁, Reaches h p p₁ ∧ p₁.holder = none ∧
        (∀ j, Guarded (p₁.running j)) ∧ ∃ a, p₁.running i = .done a := by
      cases hi : p.running i with
      | done a => exact ⟨p, .refl, hfree, hguarded, a, hi⟩
      | call c rest =>
        have hbegins := hguarded i
        rw [hi] at hbegins
        cases hbegins with
        | acquire hheld =>
          obtain ⟨p₁, hreach, hfree₁, ⟨a, ha⟩, hothers⟩ :=
            exists_released (hheld ()) (running_taken p i _) rfl
          refine ⟨p₁, .head (.acquire hi hfree) hreach, hfree₁, fun j => ?_, a, ha⟩
          by_cases hj : j = i
          · rw [hj, ha]
            exact .done a
          · rw [hothers j hj, running_taken_ne p hj _]
            exact hguarded j
    obtain ⟨p₂, hreach₂, hfree₂, hguarded₂, hdone₂⟩ := ih hguarded₁ hfree₁
    refine ⟨p₂, hreach₁.trans hreach₂, hfree₂, hguarded₂, fun j hj => ?_⟩
    rcases List.mem_cons.mp hj with rfl | hj
    · obtain ⟨a, ha⟩ := hdone₁
      exact ⟨a, running_of_done ha hreach₂⟩
    · exact hdone₂ j hj

/-- Guarded procedures can be run to their ends. -/
theorem exists_complete (h : Handler Service.interface σ) (hguarded : ∀ i, Guarded (tasks i))
    (s : σ) : ∃ p, Reaches h (start tasks s) p ∧ p.Complete := by
  obtain ⟨p, hreach, -, -, hdone⟩ :=
    exists_done (h := h) (p := start tasks s) (List.finRange n) hguarded rfl
  exact ⟨p, hreach, fun i => hdone i (List.mem_finRange i)⟩

end Pool

end CatalogSync.Storage
