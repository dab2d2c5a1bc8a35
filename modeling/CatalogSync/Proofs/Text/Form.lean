import CatalogSync.Proofs.Text.Split
import CatalogSync.Text.Form
/-!
# Queries that were written

Reading a query that was written from named values gives these values back (`decode_encode`). What
is written for a name or a value holds none of the characters that divide a query or set it apart
from the rest of an address.
-/

namespace CatalogSync.Text.Form

/-- The characters that divide a query, or end the path or the query of an address. -/
def dividers : List Char := ['&', '=', '#', '?']

/-! ## §1 Bytes -/

/-- A byte that stands for itself is one character with no other meaning. -/
theorem char_of_isSafe : ∀ n < 256, isSafe (UInt8.ofNat n) = true →
    Char.ofNat n ≠ '+' ∧ Char.ofNat n ≠ '%' ∧ Char.ofNat n ∉ dividers ∧
      Utf8.encodeChar (Char.ofNat n) = [UInt8.ofNat n] := by
  decide +kernel

theorem hexValue?_hexDigit : ∀ n < 16, hexValue? (hexDigit n) = some n ∧ hexDigit n ∉ dividers := by
  decide +kernel

theorem componentBytes_cons {c : Char} (hplus : c ≠ '+') (hpercent : c ≠ '%') (rest : List Char) :
    componentBytes (c :: rest) = Utf8.encodeChar c ++ componentBytes rest := by
  rw [componentBytes]
  · exact hplus
  · intro a b more hc
    exact absurd hc hpercent

theorem componentBytes_encodeByte (b : UInt8) (rest : List Char) :
    componentBytes (encodeByte b ++ rest) = b :: componentBytes rest := by
  have hb : UInt8.ofNat b.toNat = b := UInt8.ofNat_toNat
  unfold encodeByte
  by_cases hsafe : isSafe b = true
  · rw [if_pos hsafe]
    obtain ⟨hplus, hpercent, -, hencode⟩ :=
      char_of_isSafe b.toNat b.toNat_lt (by rw [hb]; exact hsafe)
    rw [List.singleton_append, componentBytes_cons hplus hpercent, hencode, hb]
    rfl
  · rw [if_neg hsafe]
    by_cases hspace : b = 0x20
    · rw [if_pos hspace, hspace]
      rfl
    · rw [if_neg hspace]
      have hhigh := (hexValue?_hexDigit (b.toNat / 16) (by have := b.toNat_lt; omega)).1
      have hlow := (hexValue?_hexDigit (b.toNat % 16) (by omega)).1
      show componentBytes ('%' :: hexDigit _ :: hexDigit _ :: rest) = _
      rw [componentBytes, hhigh, hlow]
      simp only
      -- The two digits are the byte.
      have hvalue : b.toNat / 16 * 16 + b.toNat % 16 = b.toNat := by omega
      rw [hvalue, hb]

theorem notMem_dividers_of_encodeByte {b : UInt8} {c : Char} (hc : c ∈ encodeByte b) :
    c ∉ dividers := by
  unfold encodeByte at hc
  by_cases hsafe : isSafe b = true
  · rw [if_pos hsafe] at hc
    obtain rfl := List.mem_singleton.mp hc
    refine (char_of_isSafe b.toNat b.toNat_lt ?_).2.2.1
    rw [UInt8.ofNat_toNat]
    exact hsafe
  · rw [if_neg hsafe] at hc
    by_cases hspace : b = 0x20
    · rw [if_pos hspace] at hc
      obtain rfl := List.mem_singleton.mp hc
      decide
    · rw [if_neg hspace] at hc
      have hlt := b.toNat_lt
      rcases List.mem_cons.mp hc with rfl | hc
      · decide
      rcases List.mem_cons.mp hc with rfl | hc
      · exact (hexValue?_hexDigit _ (by omega)).2
      · obtain rfl := List.mem_singleton.mp hc
        exact (hexValue?_hexDigit _ (by omega)).2

/-! ## §2 Names and values -/

theorem decodeLossy_encode (s : String) : Utf8.decodeLossy (Utf8.encode s) = s := by
  rw [Utf8.decodeLossy, Utf8.encode, Utf8.read_encodeChars, List.map_map]
  have hid : ((fun c => c.getD (Char.ofNat 0xFFFD)) ∘ some) = (id : Char → Char) := rfl
  rw [hid, List.map_id, String.ofList_toList]

theorem decodeComponent_encodeComponent (s : String) :
    decodeComponent (encodeComponent s) = s := by
  have hbytes : ∀ bytes : Bytes, componentBytes (bytes.flatMap encodeByte) = bytes := by
    intro bytes
    induction bytes with
    | nil => rfl
    | cons b bytes ih => rw [List.flatMap_cons, componentBytes_encodeByte, ih]
  rw [decodeComponent, encodeComponent, hbytes, decodeLossy_encode]

theorem notMem_dividers_of_encodeComponent {s : String} {c : Char} (hc : c ∈ encodeComponent s) :
    c ∉ dividers := by
  obtain ⟨b, -, hc⟩ := List.mem_flatMap.mp hc
  exact notMem_dividers_of_encodeByte hc

/-- A divider does not occur in a name or a value. -/
theorem notMem_encodeComponent {c : Char} (hc : c ∈ dividers) (s : String) :
    c ∉ encodeComponent s := fun hmem => notMem_dividers_of_encodeComponent hmem hc

/-! ## §3 Queries -/

theorem decodePair_encode (name value : String) :
    decodePair (encodeComponent name ++ '=' :: encodeComponent value) = (name, value) := by
  unfold decodePair
  rw [cut_append (notMem_encodeComponent (by decide) name)]
  simp only [decodeComponent_encodeComponent]

/-- The characters of a written query. -/
theorem notMem_encode {c : Char} (hc : c = '#' ∨ c = '?') (pairs : List (String × String)) :
    c ∉ (encode pairs).toList := by
  have hdivider : c ∈ dividers := by rcases hc with rfl | rfl <;> decide
  have hjoin : ∀ parts : List (List Char), (∀ part ∈ parts, c ∉ part) →
      c ∉ joinChars ['&'] parts := by
    intro parts hparts
    induction parts with
    | nil => exact List.not_mem_nil
    | cons part parts ih =>
      have hpart := hparts part List.mem_cons_self
      cases parts with
      | nil => exact hpart
      | cons next parts =>
        rw [joinChars]
        simp only [List.mem_append, List.mem_singleton, not_or]
        refine ⟨⟨hpart, ?_⟩, ih fun p hp => hparts p (List.mem_cons_of_mem _ hp)⟩
        rcases hc with rfl | rfl <;> decide
  rw [encode, String.toList_ofList]
  refine hjoin _ fun part hpart => ?_
  obtain ⟨p, -, rfl⟩ := List.mem_map.mp hpart
  simp only [List.mem_append, List.mem_cons, not_or]
  refine ⟨notMem_encodeComponent hdivider _, ?_, notMem_encodeComponent hdivider _⟩
  rcases hc with rfl | rfl <;> decide

/-- Reading a written query gives the named values back. -/
theorem decode_encode (pairs : List (String × String)) : decode (encode pairs) = pairs := by
  cases pairs with
  | nil => rfl
  | cons p pairs =>
    have hnoDivider : ∀ part ∈ (p :: pairs).map fun p =>
        encodeComponent p.1 ++ '=' :: encodeComponent p.2, '&' ∉ part := by
      intro part hpart
      obtain ⟨q, -, rfl⟩ := List.mem_map.mp hpart
      simp only [List.mem_append, List.mem_cons, not_or]
      exact ⟨notMem_encodeComponent (by decide) _, by decide, notMem_encodeComponent (by decide) _⟩
    unfold decode encode
    have hne : (p :: pairs).map (fun p =>
        encodeComponent p.1 ++ '=' :: encodeComponent p.2) ≠ [] := by simp
    rw [String.toList_ofList, pieces_joinChars hne hnoDivider]
    -- No part is empty, since each holds an equality sign.
    rw [List.filter_eq_self.mpr, List.map_map]
    · refine List.map_id'' (fun q => ?_) _
      exact decodePair_encode q.1 q.2
    · intro part hpart
      obtain ⟨q, -, rfl⟩ := List.mem_map.mp hpart
      cases encodeComponent q.1 <;> rfl

end CatalogSync.Text.Form
