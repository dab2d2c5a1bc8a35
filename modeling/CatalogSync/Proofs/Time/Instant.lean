import CatalogSync.Proofs.Number.Natural
import CatalogSync.Time.Instant
/-!
# How late a timestamp can be

The milliseconds of every timestamp that can be read fit into 64 bits.
-/

namespace CatalogSync.Instant

/-- A fraction of a second counts less than a thousand milliseconds. -/
theorem fraction?_lt {l rest : List Char} {thousandths : Nat}
    (h : fraction? l = some (thousandths, rest)) : thousandths < 1000 := by
  unfold fraction? at h
  split at h
  next tail =>
    by_cases hempty : (tail.takeWhile Text.isDigit).isEmpty = true
    · simp only [if_pos hempty] at h
      cases h
    simp only [if_neg hempty, Option.some.injEq, Prod.mk.injEq] at h
    rw [← h.1]
    generalize hdigits : tail.takeWhile Text.isDigit = digits
    -- Three digits stand for what is kept of the fraction.
    have hall : ∀ c ∈ digits.take 3 ++ List.replicate (3 - digits.length) '0',
        Text.isDigit c = true := by
      intro c hc
      rcases List.mem_append.mp hc with hc | hc
      · have hkept : ∀ d ∈ digits, Text.isDigit d = true :=
          hdigits ▸ List.all_eq_true.mp List.all_takeWhile
        exact hkept c (List.mem_of_mem_take hc)
      · rw [(List.mem_replicate.mp hc).2]
        rfl
    have hlength : (digits.take 3 ++ List.replicate (3 - digits.length) '0').length = 3 := by
      rw [List.length_append, List.length_take, List.length_replicate]
      omega
    have hvalue := Natural.ofDigits_lt hall
    rwa [hlength] at hvalue
  next =>
    cases h
    decide

theorem Local.millis?_le {t : Local} {n : Int} (hn : t.millis? = some n)
    (hthousandths : t.thousandths < 1000) : n.toNat ≤ Natural.max64 := by
  unfold millis? at hn
  split at hn
  next h =>
    obtain ⟨hreal, -, hlate⟩ := h
    have hsecond : t.second ≤ 60 := by
      simp only [isReal, Bool.and_eq_true, decide_eq_true_eq] at hreal
      exact hreal.1.2
    have hlimit : daysSinceEpoch (lastYear + 1) 1 1 * 1440 ≤ 200000000000 := by decide
    cases hn
    have hmax : (Natural.max64 : Int) = 18446744073709551615 := rfl
    omega
  next => cases hn

/-- A timestamp that can be read fits into 64 bits. -/
theorem millis?_le {text : String} {n : Int} (hn : millis? text = some n) :
    n.toNat ≤ Natural.max64 := by
  simp only [millis?, Option.bind_eq_bind, Option.bind_eq_some_iff] at hn
  -- Of all that is read, only the fraction matters here.
  obtain ⟨_, -, _, -, _, -, _, -, _, -, _, -, _, -, _, -, _, -, _, -, _, -, ⟨thousandths, l⟩,
    hfraction, _, -, hlocal⟩ := hn
  split at hlocal
  · exact Local.millis?_le hlocal (fraction?_lt hfraction)
  · cases hlocal

end CatalogSync.Instant
