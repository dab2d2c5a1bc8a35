/-!
# UTF-8

Bytes and characters. `encode` writes a text; `read` walks over bytes from left to right and gives
a character for every well-formed sequence and `none` for every longest piece that begins a
sequence and does not complete it, or begins none. `decode?` wants characters only, `decodeLossy`
puts U+FFFD for each `none`.

Reading what was written gives the text back (`decode?_encode`).
-/

namespace CatalogSync

abbrev Bytes := List UInt8

namespace Text.Utf8

/-! ## §1 Writing -/

/-- The continuation byte with six bits of a scalar value. -/
def tailByte (n : Nat) : UInt8 := UInt8.ofNat (0x80 + n % 64)

/-- The bytes of one character. -/
def encodeChar (c : Char) : Bytes :=
  let n := c.toNat
  if n < 0x80 then [UInt8.ofNat n]
  else if n < 0x800 then [UInt8.ofNat (0xC0 + n / 64), tailByte n]
  else if n < 0x10000 then [UInt8.ofNat (0xE0 + n / 4096), tailByte (n / 64), tailByte n]
  else [UInt8.ofNat (0xF0 + n / 262144), tailByte (n / 4096), tailByte (n / 64), tailByte n]

def encodeChars (l : List Char) : Bytes := l.flatMap encodeChar

def encode (s : String) : Bytes := encodeChars s.toList

/-! ## §2 Reading -/

/-- Where a reader stands between two bytes. -/
inductive State where
  | start
  -- Inside a character: how many bytes are owed, the bounds of the next one, and the bits read.
  | owed (tails low high value : Nat)
  deriving DecidableEq, Repr

/-- What a first byte begins: a character, a longer sequence, or nothing. -/
inductive Lead where
  | char (c : Char)
  -- A sequence of more bytes.
  | more (s : State)
  -- No sequence begins with this byte.
  | bad
  deriving DecidableEq, Repr

/-- What a first byte begins. The bounds of the second byte rule out overlong forms, surrogates and
values above U+10FFFF. -/
def lead (b : Nat) : Lead :=
  if b < 0x80 then .char (Char.ofNat b)
  else if b < 0xC2 then .bad
  else if b < 0xE0 then .more (.owed 1 0x80 0xBF (b - 0xC0))
  else if b = 0xE0 then .more (.owed 2 0xA0 0xBF 0)
  else if b = 0xED then .more (.owed 2 0x80 0x9F 0xD)
  else if b < 0xF0 then .more (.owed 2 0x80 0xBF (b - 0xE0))
  else if b = 0xF0 then .more (.owed 3 0x90 0xBF 0)
  else if b < 0xF4 then .more (.owed 3 0x80 0xBF (b - 0xF0))
  else if b = 0xF4 then .more (.owed 3 0x80 0x8F 4)
  else .bad

/-- Read bytes from a state: a character for each well-formed sequence, `none` for each longest
piece that is none. -/
def read : State → Bytes → List (Option Char)
  | .start, [] => []
  | .owed _ _ _ _, [] => [none]
  | .start, b :: rest =>
    match lead b.toNat with
    | .char c => some c :: read .start rest
    | .more s => read s rest
    | .bad => none :: read .start rest
  | .owed tails low high value, b :: rest =>
    if low ≤ b.toNat ∧ b.toNat ≤ high then
      if tails ≤ 1 then some (Char.ofNat (value * 64 + b.toNat % 64)) :: read .start rest
      else read (.owed (tails - 1) 0x80 0xBF (value * 64 + b.toNat % 64)) rest
    else
      none ::
        match lead b.toNat with
        | .char c => some c :: read .start rest
        | .more s => read s rest
        | .bad => none :: read .start rest

/-- The characters of well-formed bytes. -/
def decodeChars? (b : Bytes) : Option (List Char) := (read .start b).mapM id

def decode? (b : Bytes) : Option String := (decodeChars? b).map String.ofList

/-- The text of any bytes, with U+FFFD for each piece that is not well-formed. -/
def decodeLossy (b : Bytes) : String :=
  String.ofList ((read .start b).map fun c => c.getD (Char.ofNat 0xFFFD))

/-! ## §3 The round trip -/

theorem toNat_tailByte (n : Nat) : (tailByte n).toNat = 0x80 + n % 64 := by
  rw [tailByte, UInt8.toNat_ofNat_of_lt']
  simp only [UInt8.size]
  omega

theorem read_owed_last {low high value : Nat} {b : UInt8} (h : low ≤ b.toNat ∧ b.toNat ≤ high)
    (rest : Bytes) :
    read (.owed 1 low high value) (b :: rest) =
      some (Char.ofNat (value * 64 + b.toNat % 64)) :: read .start rest := by
  rw [read, if_pos h, if_pos (Nat.le_refl 1)]

theorem read_owed_more {tails low high value : Nat} {b : UInt8}
    (h : low ≤ b.toNat ∧ b.toNat ≤ high) (rest : Bytes) :
    read (.owed (tails + 2) low high value) (b :: rest) =
      read (.owed (tails + 1) 0x80 0xBF (value * 64 + b.toNat % 64)) rest := by
  rw [read, if_pos h, if_neg (by omega)]
  rfl

theorem read_start_more {b : UInt8} {s : State} (h : lead b.toNat = .more s) (rest : Bytes) :
    read .start (b :: rest) = read s rest := by
  rw [read, h]

theorem tailByte_bounds (n : Nat) : 0x80 ≤ (tailByte n).toNat ∧ (tailByte n).toNat ≤ 0xBF := by
  rw [toNat_tailByte]
  omega

theorem toNat_ofNat {n : Nat} (h : n < 256) : (UInt8.ofNat n).toNat = n := by
  rw [UInt8.toNat_ofNat_of_lt']
  simpa only [UInt8.size] using h

theorem lead_of_two {n : Nat} (h : 0x80 ≤ n) (h' : n < 0x800) :
    lead (0xC0 + n / 64) = .more (.owed 1 0x80 0xBF (n / 64)) := by
  rw [lead, if_neg (by omega), if_neg (by omega), if_pos (by omega), Nat.add_sub_cancel_left]

/-- The bounds that the first of three bytes sets hold for the second one. -/
theorem lead_of_three {n : Nat} (h : 0x800 ≤ n) (h' : n < 0x10000)
    (hscalar : n < 0xD800 ∨ 0xDFFF < n) :
    ∃ low high, lead (0xE0 + n / 4096) = .more (.owed 2 low high (n / 4096)) ∧
      low ≤ 0x80 + n / 64 % 64 ∧ 0x80 + n / 64 % 64 ≤ high := by
  rw [lead, if_neg (by omega), if_neg (by omega), if_neg (by omega)]
  by_cases hleast : n / 4096 = 0
  · exact ⟨0xA0, 0xBF, by rw [if_pos (by omega), hleast], by omega, by omega⟩
  · by_cases hsurrogate : n / 4096 = 0xD
    · -- The second byte of a surrogate would lie above these bounds.
      exact ⟨0x80, 0x9F, by rw [if_neg (by omega), if_pos (by omega), hsurrogate], by omega,
        by omega⟩
    · refine ⟨0x80, 0xBF, ?_, by omega, by omega⟩
      rw [if_neg (by omega), if_neg (by omega), if_pos (by omega), Nat.add_sub_cancel_left]

/-- The bounds that the first of four bytes sets hold for the second one. -/
theorem lead_of_four {n : Nat} (h : 0x10000 ≤ n) (h' : n < 0x110000) :
    ∃ low high, lead (0xF0 + n / 262144) = .more (.owed 3 low high (n / 262144)) ∧
      low ≤ 0x80 + n / 4096 % 64 ∧ 0x80 + n / 4096 % 64 ≤ high := by
  rw [lead, if_neg (by omega), if_neg (by omega), if_neg (by omega), if_neg (by omega),
    if_neg (by omega), if_neg (by omega)]
  by_cases hleast : n / 262144 = 0
  · exact ⟨0x90, 0xBF, by rw [if_pos (by omega), hleast], by omega, by omega⟩
  · by_cases hlast : n / 262144 = 4
    · exact ⟨0x80, 0x8F, by rw [if_neg (by omega), if_neg (by omega), if_pos (by omega), hlast],
        by omega, by omega⟩
    · refine ⟨0x80, 0xBF, ?_, by omega, by omega⟩
      rw [if_neg (by omega), if_pos (by omega), Nat.add_sub_cancel_left]

theorem read_encodeChar (c : Char) (rest : Bytes) :
    read .start (encodeChar c ++ rest) = some c :: read .start rest := by
  have hscalar : c.toNat < 0xD800 ∨ 0xDFFF < c.toNat ∧ c.toNat < 0x110000 := by
    have := c.valid
    simpa [UInt32.isValidChar, Nat.isValidChar] using this
  have hc : Char.ofNat c.toNat = c := Char.ofNat_toNat c
  simp only [encodeChar]
  -- One case for each number of bytes.
  by_cases h1 : c.toNat < 0x80
  · rw [if_pos h1]
    have hbyte : (UInt8.ofNat c.toNat).toNat = c.toNat := toNat_ofNat (by omega)
    simp only [List.cons_append, List.nil_append, read, hbyte, lead, if_pos h1, hc]
  · rw [if_neg h1]
    by_cases h2 : c.toNat < 0x800
    · rw [if_pos h2]
      have hlead := lead_of_two (by omega) h2
      rw [← toNat_ofNat (by omega : 0xC0 + c.toNat / 64 < 256)] at hlead
      have hvalue : c.toNat / 64 * 64 + (0x80 + c.toNat % 64) % 64 = c.toNat := by omega
      simp only [List.cons_append, List.nil_append]
      rw [read_start_more hlead, read_owed_last (tailByte_bounds _), toNat_tailByte, hvalue, hc]
    · rw [if_neg h2]
      by_cases h3 : c.toNat < 0x10000
      · rw [if_pos h3]
        obtain ⟨low, high, hlead, hlow, hhigh⟩ := lead_of_three (by omega) h3 (by omega)
        rw [← toNat_ofNat (by omega : 0xE0 + c.toNat / 4096 < 256)] at hlead
        rw [← toNat_tailByte] at hlow hhigh
        have hvalue : (c.toNat / 4096 * 64 + (0x80 + c.toNat / 64 % 64) % 64) * 64 +
            (0x80 + c.toNat % 64) % 64 = c.toNat := by omega
        simp only [List.cons_append, List.nil_append]
        rw [read_start_more hlead, read_owed_more ⟨hlow, hhigh⟩,
          read_owed_last (tailByte_bounds _), toNat_tailByte, toNat_tailByte, hvalue, hc]
      · rw [if_neg h3]
        obtain ⟨low, high, hlead, hlow, hhigh⟩ := lead_of_four (by omega : 0x10000 ≤ c.toNat)
          (by omega)
        rw [← toNat_ofNat (by omega : 0xF0 + c.toNat / 262144 < 256)] at hlead
        rw [← toNat_tailByte] at hlow hhigh
        have hvalue : ((c.toNat / 262144 * 64 + (0x80 + c.toNat / 4096 % 64) % 64) * 64 +
            (0x80 + c.toNat / 64 % 64) % 64) * 64 + (0x80 + c.toNat % 64) % 64 = c.toNat := by
          omega
        simp only [List.cons_append, List.nil_append]
        rw [read_start_more hlead, read_owed_more ⟨hlow, hhigh⟩,
          read_owed_more (tailByte_bounds _), read_owed_last (tailByte_bounds _), toNat_tailByte,
          toNat_tailByte, toNat_tailByte, hvalue, hc]

theorem read_encodeChars (l : List Char) : read .start (encodeChars l) = l.map some := by
  induction l with
  | nil => rfl
  | cons c rest ih =>
    have : encodeChars (c :: rest) = encodeChar c ++ encodeChars rest := rfl
    rw [this, read_encodeChar, ih, List.map_cons]

theorem decodeChars?_encodeChars (l : List Char) : decodeChars? (encodeChars l) = some l := by
  rw [decodeChars?, read_encodeChars]
  induction l with
  | nil => rfl
  | cons c rest ih => simp [List.mapM_cons, ih]

/-- Reading the bytes of a text gives the text back. -/
theorem decode?_encode (s : String) : decode? (encode s) = some s := by
  simp [decode?, encode, decodeChars?_encodeChars]

end Text.Utf8

end CatalogSync
