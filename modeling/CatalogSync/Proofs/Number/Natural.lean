import CatalogSync.Number.Natural
import CatalogSync.Proofs.Text.Split
import Mathlib.Algebra.Group.Nat.Defs
/-!
# Numbers that were written

Reading the decimal digits of a number gives the number back, as long as it has 64 bits.
-/

namespace CatalogSync.Natural

/-- A digit is read as what it stands for, and it is no blank. -/
theorem digit_facts : ∀ n < 10, Text.isDigit (Char.ofNat (48 + n)) = true ∧
    Text.digitValue (Char.ofNat (48 + n)) = n ∧ Text.isBlank (Char.ofNat (48 + n)) = false ∧
    Char.ofNat (48 + n) ≠ '+' := by
  decide

theorem ofDigits_append (start : Nat) (l l' : List Char) :
    ofDigits start (l ++ l') = ofDigits (ofDigits start l) l' := List.foldl_append

theorem toNat_of_isDigit {c : Char} (hc : Text.isDigit c = true) : c.toNat ≤ 57 := by
  simp only [Text.isDigit, Bool.and_eq_true, decide_eq_true_eq] at hc
  exact hc.2

theorem digitValue_le {c : Char} (hc : Text.isDigit c = true) : Text.digitValue c ≤ 9 :=
  Nat.sub_le_sub_right (toNat_of_isDigit hc) 48

/-- A number of so many digits. -/
theorem ofDigits_lt {l : List Char} (hl : ∀ c ∈ l, Text.isDigit c = true) :
    ofDigits 0 l < 10 ^ l.length := by
  have hstart : ∀ start, ofDigits start l < (start + 1) * 10 ^ l.length := by
    induction l with
    | nil => exact fun start => by simp [ofDigits]
    | cons c l ih =>
      intro start
      have hc := digitValue_le (hl c List.mem_cons_self)
      have hrest := ih (fun d hd => hl d (List.mem_cons_of_mem _ hd))
        (start * 10 + Text.digitValue c)
      have hsmall : (start * 10 + Text.digitValue c + 1) * 10 ^ l.length ≤
          (start + 1) * 10 * 10 ^ l.length := Nat.mul_le_mul_right _ (by omega)
      rw [List.length_cons, Nat.pow_succ']
      calc ofDigits start (c :: l) = ofDigits (start * 10 + Text.digitValue c) l := rfl
        _ < (start + 1) * 10 * 10 ^ l.length := Nat.lt_of_lt_of_le hrest hsmall
        _ = (start + 1) * (10 * 10 ^ l.length) := Nat.mul_assoc _ _ _
  have h := hstart 0
  rwa [Nat.zero_add, Nat.one_mul] at h

/-- What is read has 64 bits. -/
theorem le_of_read64? {l : List Char} {n : Nat} (hread : read64? l = some n) : n ≤ max64 := by
  unfold read64? at hread
  simp only at hread
  split at hread
  · split at hread
    next hle =>
      cases hread
      exact hle
    next => cases hread
  · cases hread

/-- A timestamp of a registry fits into 64 bits. -/
theorem millis_le (text : Option String) : millis text ≤ max64 := by
  unfold millis
  cases text with
  | none => exact Nat.zero_le _
  | some s =>
    simp only
    cases hread : read64? (Text.trimChars s.toList) with
    | none => exact Nat.zero_le _
    | some n => exact le_of_read64? hread

/-- The digits that are written in front of a tail. -/
theorem digitsWith_eq {fuel n : Nat} (hfuel : n < fuel) (tail : List Char) :
    ∃ digits, digitsWith fuel n tail = digits ++ tail ∧ digits ≠ [] ∧
      (∀ c ∈ digits, ∃ d < 10, c = Char.ofNat (48 + d)) ∧ ofDigits 0 digits = n := by
  induction fuel generalizing n tail with
  | zero => exact absurd hfuel (Nat.not_lt_zero n)
  | succ fuel ih =>
    have hlast : n % 10 < 10 := Nat.mod_lt n (by decide)
    rw [digitsWith]
    by_cases hzero : n / 10 = 0
    · simp only [if_pos hzero]
      refine ⟨[Char.ofNat (48 + n % 10)], rfl, List.cons_ne_nil _ _, fun c hc => ?_, ?_⟩
      · exact ⟨n % 10, hlast, List.mem_singleton.mp hc⟩
      · show 0 * 10 + Text.digitValue _ = n
        rw [(digit_facts _ hlast).2.1]
        omega
    · simp only [if_neg hzero]
      obtain ⟨digits, heq, hne, hdigits, hvalue⟩ :=
        ih (n := n / 10) (by omega) (Char.ofNat (48 + n % 10) :: tail)
      refine ⟨digits ++ [Char.ofNat (48 + n % 10)], ?_, ?_, fun c hc => ?_, ?_⟩
      · rw [heq, List.append_assoc, List.singleton_append]
      · exact List.append_ne_nil_of_left_ne_nil hne _
      · rcases List.mem_append.mp hc with hc | hc
        · exact hdigits c hc
        · exact ⟨n % 10, hlast, List.mem_singleton.mp hc⟩
      · rw [ofDigits_append, hvalue]
        show n / 10 * 10 + Text.digitValue _ = n
        rw [(digit_facts _ hlast).2.1]
        omega

theorem digitsOf_eq (n : Nat) : digitsOf n ≠ [] ∧
    (∀ c ∈ digitsOf n, ∃ d < 10, c = Char.ofNat (48 + d)) ∧ ofDigits 0 (digitsOf n) = n := by
  obtain ⟨digits, heq, hne, hdigits, hvalue⟩ := digitsWith_eq (Nat.lt_succ_self n) []
  rw [List.append_nil] at heq
  rw [digitsOf, heq]
  exact ⟨hne, hdigits, hvalue⟩

theorem isDigit_digitsOf (n : Nat) : ∀ c ∈ digitsOf n, Text.isDigit c = true := by
  intro c hc
  obtain ⟨d, hd, rfl⟩ := (digitsOf_eq n).2.1 c hc
  exact (digit_facts d hd).1

/-- Something is always written, and a digit comes first. -/
theorem exists_digitsOf_cons (n : Nat) :
    ∃ c digits, digitsOf n = c :: digits ∧ Text.isDigit c = true := by
  obtain ⟨c, digits, hcons⟩ := List.exists_cons_of_ne_nil (digitsOf_eq n).1
  exact ⟨c, digits, hcons, isDigit_digitsOf n c (hcons ▸ List.mem_cons_self)⟩

/-- The digits of a number do not begin with a zero. -/
theorem head?_digitsWith {fuel n : Nat} (hfuel : n < fuel) (hn : 0 < n) (tail : List Char) :
    (digitsWith fuel n tail).head? ≠ some '0' := by
  induction fuel generalizing n tail with
  | zero => exact absurd hfuel (Nat.not_lt_zero n)
  | succ fuel ih =>
    rw [digitsWith]
    by_cases hlast : n / 10 = 0
    · have hzero : ∀ d < 10, 0 < d → some (Char.ofNat (48 + d)) ≠ some '0' := by decide
      simp only [if_pos hlast]
      exact hzero (n % 10) (Nat.mod_lt n (by decide)) (by omega)
    · simp only [if_neg hlast]
      exact ih (by omega) (Nat.pos_of_ne_zero hlast) _

/-- A zero in front stands alone. -/
theorem length_of_head?_zero {n : Nat} (hn : (digitsOf n).head? = some '0') :
    (digitsOf n).length = 1 := by
  cases n with
  | zero => rfl
  | succ n => exact absurd hn (head?_digitsWith (Nat.lt_succ_self _) (Nat.succ_pos n) [])

/-- A number of 64 bits is read as it was written. -/
theorem read64?_digitsOf {n : Nat} (hn : n ≤ max64) : read64? (digitsOf n) = some n := by
  obtain ⟨hne, hdigits, hvalue⟩ := digitsOf_eq n
  have hdigits? : digits? (digitsOf n) = some n := by
    have hall : (digitsOf n).all Text.isDigit = true := List.all_eq_true.mpr (isDigit_digitsOf n)
    have hempty : (digitsOf n).isEmpty = false := by
      simpa using hne
    rw [digits?, hempty, hall, hvalue]
    rfl
  unfold read64?
  split
  next rest hplus =>
    -- No number is written with a sign.
    obtain ⟨d, hd, hc⟩ := hdigits '+' (by rw [hplus]; exact List.mem_cons_self)
    exact absurd hc.symm (digit_facts d hd).2.2.2
  next =>
    simp only [hdigits?]
    exact if_pos hn

theorem toList_render (n : Nat) : (render n).toList = digitsOf n := String.toList_ofList

theorem isBlank_render (n : Nat) : ∀ c ∈ (render n).toList, Text.isBlank c = false := by
  intro c hc
  rw [toList_render] at hc
  obtain ⟨d, hd, rfl⟩ := (digitsOf_eq n).2.1 c hc
  exact (digit_facts d hd).2.2.1

theorem isEmpty_render (n : Nat) : (render n).isEmpty = false := by
  have hne := (digitsOf_eq n).1
  rw [← toList_render] at hne
  simpa using hne

end CatalogSync.Natural
