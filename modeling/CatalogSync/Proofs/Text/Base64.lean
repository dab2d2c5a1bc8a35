import CatalogSync.Text.Base64
/-!
# Which texts are base64

A text is read as bytes exactly when it is canonical: letters of the alphabet in groups of four, of
which only the last may be padded, and no bit set that belongs to no byte (`canonical_iff_exists`).
It is then the text of those bytes and of no others (`decode?_eq_some_iff`).
-/

namespace CatalogSync.Text.Base64

/-! ## §1 The alphabet -/

/-- The letters in the order of their values. -/
def alphabet : List Char :=
  "ABCDEFGHIJKLMNOPQRSTUVWXYZabcdefghijklmnopqrstuvwxyz0123456789+/".toList

/-- A letter stands for a number. -/
def Stands (c : Char) (n : Nat) : Prop := alphabet[n]? = some c

theorem stands_iff {c : Char} {n : Nat} : Stands c n ↔ n < 64 ∧ c = letter n := by
  have hlength : alphabet.length = 64 := by decide
  have hletters : ∀ n < 64, alphabet[n]? = some (letter n) := by decide
  constructor
  · intro hc
    have hn : n < 64 := hlength ▸ (List.getElem?_eq_some_iff.mp hc).1
    exact ⟨hn, Option.some.inj (hc.symm.trans (hletters n hn))⟩
  · rintro ⟨hn, rfl⟩
    exact hletters n hn

/-- All letters are among the first characters. -/
theorem toNat_lt_of_value? {c : Char} {n : Nat} (h : value? c = some n) : c.toNat < 128 := by
  refine Nat.lt_of_not_le fun hlarge => ?_
  have hbeyond : ∀ d : Char, d.toNat < 128 → ¬ c ≤ d := fun d hd hle =>
    absurd (Nat.le_trans hlarge (show c.toNat ≤ d.toNat from hle)) (by omega)
  have hne : ∀ d : Char, d.toNat < 128 → c ≠ d := by
    rintro d hd rfl
    omega
  rw [value?, if_neg fun h => hbeyond 'Z' (by decide) h.2,
    if_neg fun h => hbeyond 'z' (by decide) h.2, if_neg fun h => hbeyond '9' (by decide) h.2,
    if_neg (hne '+' (by decide)), if_neg (hne '/' (by decide))] at h
  cases h

theorem value?_eq_some_iff {c : Char} {n : Nat} : value? c = some n ↔ Stands c n := by
  rw [stands_iff]
  constructor
  · intro hvalue
    have hall : ∀ k < 128, ∀ n ∈ value? (Char.ofNat k), n < 64 ∧ Char.ofNat k = letter n := by
      decide
    have hfound := hall c.toNat (toNat_lt_of_value? hvalue)
    rw [Char.ofNat_toNat] at hfound
    exact hfound n hvalue
  · rintro ⟨hn, rfl⟩
    exact value?_letter n hn

/-! ## §2 Canonical texts -/

/-- A canonical text. A padded group holds one byte or two, and the bits of its last letter that
belong to neither are zero. -/
inductive Canonical : List Char → Prop where
  | nil : Canonical []
  | one {a b : Char} {x y : Nat} : Stands a x → Stands b y → y % 16 = 0 → Canonical [a, b, '=', '=']
  | two {a b c : Char} {x y z : Nat} : Stands a x → Stands b y → Stands c z → z % 4 = 0 →
      Canonical [a, b, c, '=']
  | group {a b c d : Char} {x y z w : Nat} {rest : List Char} :
      Stands a x → Stands b y → Stands c z → Stands d w → Canonical rest →
      Canonical (a :: b :: c :: d :: rest)

theorem toNat_ofNat_byte {n : Nat} (h : n < 256) : (UInt8.ofNat n).toNat = n :=
  UInt8.toNat_ofNat_of_lt' h

/-- What is read is canonical, and it is the text of the bytes it is read as. -/
theorem of_decodeChars? {l : List Char} {bytes : Bytes} (h : decodeChars? l = some bytes) :
    Canonical l ∧ encodeChars bytes = l := by
  fun_induction decodeChars? l generalizing bytes with
  | case1 =>
    cases h
    exact ⟨.nil, rfl⟩
  | case2 a b c d rest ih =>
    obtain ⟨x, ha, hsecond⟩ := Option.bind_eq_some_iff.mp h
    obtain ⟨y, hb, hthird⟩ := Option.bind_eq_some_iff.mp hsecond
    have ha := value?_eq_some_iff.mp ha
    have hb := value?_eq_some_iff.mp hb
    obtain ⟨hx, hax⟩ := stands_iff.mp ha
    obtain ⟨hy, hby⟩ := stands_iff.mp hb
    clear h hsecond
    have hfirst : (UInt8.ofNat (x * 4 + y / 16)).toNat = x * 4 + y / 16 :=
      toNat_ofNat_byte (by omega)
    have hx' : (x * 4 + y / 16) / 4 = x := by omega
    split at hthird
    case isTrue hc =>
      obtain ⟨⟨hd, hrest, hzero⟩, hbytes⟩ := Option.ite_none_right_eq_some.mp hthird
      subst hc hd hrest
      cases hbytes
      have hy' : (x * 4 + y / 16) % 4 * 16 = y := by omega
      exact ⟨.one ha hb hzero, by rw [encodeChars, hfirst, hx', hy', ← hax, ← hby]⟩
    case isFalse hc =>
      obtain ⟨z, hcz, hfourth⟩ := Option.bind_eq_some_iff.mp hthird
      have hcz := value?_eq_some_iff.mp hcz
      obtain ⟨hz, hcz'⟩ := stands_iff.mp hcz
      have hmiddle : (UInt8.ofNat (y % 16 * 16 + z / 4)).toNat = y % 16 * 16 + z / 4 :=
        toNat_ofNat_byte (by omega)
      have hy' : (x * 4 + y / 16) % 4 * 16 + (y % 16 * 16 + z / 4) / 16 = y := by omega
      clear hthird
      split at hfourth
      case isTrue hd =>
        obtain ⟨⟨hrest, hzero⟩, hbytes⟩ := Option.ite_none_right_eq_some.mp hfourth
        subst hd hrest
        cases hbytes
        have hz' : (y % 16 * 16 + z / 4) % 16 * 4 = z := by omega
        exact ⟨.two ha hb hcz hzero,
          by rw [encodeChars, hfirst, hmiddle, hx', hy', hz', ← hax, ← hby, ← hcz']⟩
      case isFalse hd =>
        obtain ⟨w, hdw, hlater⟩ := Option.bind_eq_some_iff.mp hfourth
        obtain ⟨more, hmore, hbytes⟩ := Option.bind_eq_some_iff.mp hlater
        cases hbytes
        have hdw := value?_eq_some_iff.mp hdw
        obtain ⟨hw, hdw'⟩ := stands_iff.mp hdw
        obtain ⟨hcanonical, hencode⟩ := ih hmore
        have hlast : (UInt8.ofNat (z % 4 * 64 + w)).toNat = z % 4 * 64 + w :=
          toNat_ofNat_byte (by omega)
        have hz' : (y % 16 * 16 + z / 4) % 16 * 4 + (z % 4 * 64 + w) / 64 = z := by omega
        have hw' : (z % 4 * 64 + w) % 64 = w := by omega
        exact ⟨.group ha hb hcz hdw hcanonical,
          by rw [encodeChars, hfirst, hmiddle, hlast, hx', hy', hz', hw', ← hax, ← hby, ← hcz',
            ← hdw', hencode]⟩
  | case3 => cases h

/-- A canonical text is read. -/
theorem Canonical.isSome {l : List Char} (h : Canonical l) : (decodeChars? l).isSome := by
  have hne {c : Char} {n : Nat} (hc : Stands c n) : c ≠ '=' := by
    obtain ⟨hn, rfl⟩ := stands_iff.mp hc
    exact letter_ne_pad n hn
  have hvalue {c : Char} {n : Nat} (hc : Stands c n) : value? c = some n :=
    value?_eq_some_iff.mpr hc
  induction h with
  | nil => rfl
  | one ha hb hzero => simp [decodeChars?, hvalue ha, hvalue hb, hzero]
  | two ha hb hc hzero => simp [decodeChars?, hvalue ha, hvalue hb, hvalue hc, hne hc, hzero]
  | group ha hb hc hd _ ih =>
    obtain ⟨more, hmore⟩ := Option.isSome_iff_exists.mp ih
    simp [decodeChars?, hvalue ha, hvalue hb, hvalue hc, hvalue hd, hne hc, hne hd, hmore]

theorem decode?_eq_some_iff {s : String} {bytes : Bytes} :
    decode? s = some bytes ↔ s = encode bytes := by
  constructor
  · intro h
    rw [encode, (of_decodeChars? h).2, String.ofList_toList]
  · rintro rfl
    exact decode?_encode bytes

/-- The canonical texts are those that are read. -/
theorem isSome_decode?_iff {s : String} : (decode? s).isSome ↔ Canonical s.toList := by
  constructor
  · intro h
    obtain ⟨bytes, hbytes⟩ := Option.isSome_iff_exists.mp h
    exact (of_decodeChars? hbytes).1
  · exact Canonical.isSome

/-- The canonical texts are those of byte sequences. -/
theorem canonical_iff_exists {s : String} : Canonical s.toList ↔ ∃ bytes, s = encode bytes := by
  rw [← isSome_decode?_iff, Option.isSome_iff_exists]
  exact exists_congr fun _ => decode?_eq_some_iff

end CatalogSync.Text.Base64
