import CatalogSync.Proofs.Effect.Ensures
import CatalogSync.Storage.ConfigMap
/-!
# How a change is attempted

Whatever the cluster answers, a change replaces the configuration map only by a map that it has
loaded, with the change made to its entries; it does so at most three times, and never again once a
replace was accepted (`ensures_modify`). Its result tells how often that was: once when the result
is that something was changed, and otherwise not at all.
-/

namespace CatalogSync.ConfigMap

/-! ## §1 Events -/

/-- An answer brings a map as the cluster has it. -/
inductive Loads (m : ConfigMap) : Event interface → Prop where
  | read : Loads m ⟨.read, .ok (some m)⟩
  | created (draft : ConfigMap) : Loads m ⟨.create draft, .ok m⟩

def isReplace : Event interface → Bool
  | ⟨.replace _, _⟩ => true
  | _ => false

def isAccepted : Event interface → Bool
  | ⟨.replace _, .ok _⟩ => true
  | _ => false

/-- How often it was tried to replace the map. -/
def attempts (t : List (Event interface)) : Nat := t.countP isReplace

/-- How often the map was replaced. -/
def accepted (t : List (Event interface)) : Nat := t.countP isAccepted

theorem attempts_concat (t : List (Event interface)) (e : Event interface) :
    attempts (t ++ [e]) = attempts t + (isReplace e).toNat := by
  cases h : isReplace e <;> simp [attempts, h]

theorem accepted_concat (t : List (Event interface)) (e : Event interface) :
    accepted (t ++ [e]) = accepted t + (isAccepted e).toNat := by
  cases h : isAccepted e <;> simp [accepted, h]

/-! ## §2 Loading -/

variable {change : SortedMap String Bytes → Option (SortedMap String Bytes)}
  {past : List (Event interface)}

/-- The next call of a change, after these events. -/
inductive Attempt (change : SortedMap String Bytes → Option (SortedMap String Bytes))
    (past : List (Event interface)) : Call → Prop where
  | read : Attempt change past .read
  | create : Attempt change past (.create fresh)
  | replace {m : ConfigMap} {entries : SortedMap String Bytes} (loaded : ∃ e ∈ past, Loads m e)
      (changed : change m.entries = some entries) (unaccepted : accepted past = 0)
      (more : attempts past < maxAttempts) : Attempt change past (.replace { m with entries })

/-- The map was not replaced in between, and nobody tried to. -/
structure Spared (past now : List (Event interface)) : Prop where
  attempts_eq : attempts now = attempts past
  accepted_eq : accepted now = accepted past

theorem Spared.concat {now : List (Event interface)} {e : Event interface}
    (hnow : Spared past now) (he : isReplace e = false) (he' : isAccepted e = false) :
    Spared past (now ++ [e]) where
  attempts_eq := by rw [attempts_concat, he, hnow.attempts_eq, Bool.toNat_false, Nat.add_zero]
  accepted_eq := by rw [accepted_concat, he', hnow.accepted_eq, Bool.toNat_false, Nat.add_zero]

/-- Asking for anything but a replace. -/
theorem ensures_ask {c : Call} (hc : Attempt change past c)
    (hquiet : ∀ answer : Except Fault c.Result, isReplace ⟨c, answer⟩ = false ∧
      isAccepted ⟨c, answer⟩ = false) {start : List (Event interface)} (hstart : Spared start past) :
    (ask c).proc.Ensures (Attempt change)
      (fun now r => Spared start now ∧ ⟨c, r⟩ ∈ now) past := by
  refine ⟨hc, fun answer => ?_⟩
  obtain ⟨hreplace, haccepted⟩ := hquiet answer
  exact ⟨hstart.concat hreplace haccepted,
    List.mem_append_right _ (List.mem_singleton.mpr rfl)⟩

/-- Loading replaces nothing, and what it brings is what the cluster had. -/
theorem ensures_load : load.proc.Ensures (Attempt change)
    (fun now r => Spared past now ∧ ∀ m, r = .ok m → ∃ e ∈ now, Loads m e) past := by
  have hread : ∀ {now}, Spared past now → (ask .read).proc.Ensures (Attempt change)
      (fun later r => Spared past later ∧ ⟨.read, r⟩ ∈ later) now :=
    fun hnow => ensures_ask .read (fun _ => ⟨rfl, rfl⟩) hnow
  have hloaded : ∀ {now m}, Spared past now → (∃ e ∈ now, Loads m e) →
      Spared past now ∧ ∀ m', (.ok m : Except Fault ConfigMap) = .ok m' → ∃ e ∈ now, Loads m' e :=
    fun hnow he => ⟨hnow, fun _ hm => Except.ok.inj hm ▸ he⟩
  have hfailed : ∀ {now} {f : Fault}, Spared past now →
      Spared past now ∧ ∀ m, (.error f : Except Fault ConfigMap) = .ok m → ∃ e ∈ now, Loads m e :=
    fun hnow => ⟨hnow, fun _ hm => nomatch hm⟩
  unfold load
  refine Task.ensures_bind (hread ⟨rfl, rfl⟩) (fun now found _ ⟨hnow, hfound⟩ => ?_)
    fun now f hnow => hfailed hnow.1
  cases found with
  | some m => exact hloaded hnow ⟨_, hfound, .read⟩
  | none =>
    refine Task.ensures_outcome_bind (ensures_ask .create (fun _ => ⟨rfl, rfl⟩) hnow)
      fun later r _ ⟨hlater, hr⟩ => ?_
    cases r with
    | ok m => exact hloaded hlater ⟨_, hr, .created fresh⟩
    | error f =>
      dsimp only
      split
      · -- The map that another has created is read instead.
        refine Task.ensures_bind (hread hlater) (fun last found _ ⟨hlast, hfound⟩ => ?_)
          fun last f hlast => hfailed hlast.1
        cases found with
        | some m => exact hloaded hlast ⟨_, hfound, .read⟩
        | none => exact hfailed hlast
      · exact hfailed hlater

/-! ## §3 Changing -/

/-- What the result of a change says of its attempts. -/
structure Concluded (change : SortedMap String Bytes → Option (SortedMap String Bytes))
    (t : List (Event interface)) (r : Except Fault Bool) : Prop where
  attempts_le : attempts t ≤ maxAttempts
  accepted_once : r = .ok true → accepted t = 1
  not_accepted : r ≠ .ok true → accepted t = 0
  -- Without a change there was nothing to change.
  unchanged : r = .ok false → ∃ m : ConfigMap, (∃ e ∈ t, Loads m e) ∧ change m.entries = none

namespace Concluded

variable {t : List (Event interface)} {r : Except Fault Bool}

theorem failed (hattempts : attempts t ≤ maxAttempts) (haccepted : accepted t = 0) (f : Fault) :
    Concluded change t (.error f) where
  attempts_le := hattempts
  accepted_once h := nomatch h
  not_accepted _ := haccepted
  unchanged h := nomatch h

theorem made (hattempts : attempts t ≤ maxAttempts) (haccepted : accepted t = 1) :
    Concluded change t (.ok true) where
  attempts_le := hattempts
  accepted_once _ := haccepted
  not_accepted h := absurd rfl h
  unchanged h := nomatch h

theorem idle (hattempts : attempts t ≤ maxAttempts) (haccepted : accepted t = 0) {m : ConfigMap}
    (hm : ∃ e ∈ t, Loads m e) (hchange : change m.entries = none) :
    Concluded change t (.ok false) where
  attempts_le := hattempts
  accepted_once h := nomatch h
  not_accepted _ := haccepted
  unchanged _ := ⟨m, hm, hchange⟩

end Concluded

/-- One attempt after others that were not accepted. -/
theorem ensures_ask_replace {m : ConfigMap} {entries : SortedMap String Bytes}
    (loaded : ∃ e ∈ past, Loads m e) (changed : change m.entries = some entries)
    (haccepted : accepted past = 0) (hattempts : attempts past < maxAttempts) :
    (ask (.replace { m with entries })).proc.Ensures (Attempt change)
      (fun now r => attempts now = attempts past + 1 ∧ accepted now = r.toBool.toNat) past := by
  refine ⟨.replace loaded changed haccepted hattempts, fun answer => ?_⟩
  refine ⟨by rw [attempts_concat]; rfl, ?_⟩
  rw [accepted_concat, haccepted, Nat.zero_add]
  cases answer <;> rfl

/-- What a change begins with: the map is loaded, and without anything to change that is all. -/
theorem ensures_load_bind {next : ConfigMap → SortedMap String Bytes → Task interface Bool}
    {more : Nat} (haccepted : accepted past = 0) (hattempts : attempts past + more < maxAttempts)
    (hnext : ∀ now m entries, accepted now = 0 → attempts now + more < maxAttempts →
      (∃ e ∈ now, Loads m e) → change m.entries = some entries →
        (next m entries).proc.Ensures (Attempt change) (Concluded change) now) :
    (load >>= fun m => match change m.entries with
      | none => pure false
      | some entries => next m entries).proc.Ensures (Attempt change) (Concluded change) past := by
  refine Task.ensures_bind ensures_load (fun now m _ ⟨hnow, hm⟩ => ?_) fun now f ⟨hnow, _⟩ => ?_
  · have haccepted' : accepted now = 0 := hnow.accepted_eq.trans haccepted
    have hattempts' : attempts now + more < maxAttempts := by rw [hnow.attempts_eq]; exact hattempts
    split
    next hchange => exact Concluded.idle (by omega) haccepted' (hm m rfl) hchange
    next entries hchange => exact hnext now m entries haccepted' hattempts' (hm m rfl) hchange
  · exact Concluded.failed (by rw [hnow.attempts_eq]; omega) (hnow.accepted_eq.trans haccepted) f

/-- A change with some attempts left. -/
theorem ensures_modify (change : SortedMap String Bytes → Option (SortedMap String Bytes))
    (more : Nat) (haccepted : accepted past = 0) (hattempts : attempts past + more < maxAttempts) :
    (modify change more).proc.Ensures (Attempt change) (Concluded change) past := by
  induction more generalizing past with
  | zero =>
    refine ensures_load_bind haccepted hattempts fun now m entries haccepted hattempts hm hchange =>
      ?_
    refine Task.ensures_bind (ensures_ask_replace hm hchange haccepted hattempts) ?_ ?_
    · intro later _ _ ⟨htried, hcount⟩
      exact Concluded.made (by omega) hcount
    · intro later f ⟨htried, hcount⟩
      exact Concluded.failed (by omega) hcount f
  | succ more ih =>
    refine ensures_load_bind haccepted hattempts fun now m entries haccepted hattempts hm hchange =>
      ?_
    refine Task.ensures_outcome_bind (ensures_ask_replace hm hchange haccepted (by omega)) ?_
    intro later r _ ⟨htried, hcount⟩
    cases r with
    | ok _ => exact Concluded.made (by omega) hcount
    | error f =>
      dsimp only
      split
      · -- Others were faster, so there is one attempt less.
        exact ih hcount (by omega)
      · exact Concluded.failed (by omega) hcount f

end CatalogSync.ConfigMap
