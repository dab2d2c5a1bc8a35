import CatalogSync.Order.SortedMap
/-!
# Members of sorted maps and sets

What the keys of a map and the members of a set are after the operations on them, and that both are
listed in strictly ascending order.
-/

namespace CatalogSync

universe u v

namespace SortedMap

variable {κ : Type u} {ν : Type v} [LT κ]

theorem pairwise_keys (m : SortedMap κ ν) : m.keys.Pairwise (· < ·) :=
  List.pairwise_map.mpr m.ascending

theorem keys_filterKeys (m : SortedMap κ ν) (p : κ → Bool) :
    (m.filterKeys p).keys = m.keys.filter p := by
  show (m.entries.filter _).map _ = (m.entries.map _).filter p
  rw [List.filter_map]
  rfl

variable [LE κ] [Std.LawfulOrderLT κ] [Std.IsLinearOrder κ] [DecidableEq κ]

/-- The keys are those that have a value. -/
theorem mem_keys_iff (m : SortedMap κ ν) (k : κ) : k ∈ m.keys ↔ (m.get? k).isSome = true := by
  rw [Option.isSome_iff_exists]
  constructor
  · intro hk
    obtain ⟨⟨k', v⟩, he, rfl⟩ := List.mem_map.mp hk
    exact ⟨v, (findEntry_eq_some_iff_mem m.ascending).mpr he⟩
  · rintro ⟨v, hv⟩
    exact List.mem_map.mpr ⟨(k, v), (findEntry_eq_some_iff_mem m.ascending).mp hv, rfl⟩

/-- Keeping the keys that pass a test, and of them those that pass another. -/
theorem filterKeys_filterKeys (m : SortedMap κ ν) (p q : κ → Bool) :
    (m.filterKeys p).filterKeys q = m.filterKeys fun k => p k && q k := by
  refine ext_get? fun k => ?_
  rw [get?_filterKeys, get?_filterKeys, get?_filterKeys]
  cases p k <;> cases q k <;> rfl

/-- A map depends only on which of its own keys pass the test. -/
theorem filterKeys_congr {m : SortedMap κ ν} {p q : κ → Bool} (h : ∀ k ∈ m.keys, p k = q k) :
    m.filterKeys p = m.filterKeys q := by
  refine ext_get? fun k => ?_
  rw [get?_filterKeys, get?_filterKeys]
  cases hk : m.get? k with
  | none => simp
  | some v => rw [h k ((mem_keys_iff m k).mpr (by rw [hk]; rfl))]

theorem filterKeys_eq_self {m : SortedMap κ ν} {p : κ → Bool} (h : ∀ k ∈ m.keys, p k = true) :
    m.filterKeys p = m := by
  refine ext_get? fun k => ?_
  rw [get?_filterKeys]
  cases hk : m.get? k with
  | none => simp
  | some v => rw [h k ((mem_keys_iff m k).mpr (by rw [hk]; rfl)), if_pos rfl]

variable [DecidableLT κ]

/-- Of two values under one key the later counts. -/
theorem insert_insert (m : SortedMap κ ν) (k : κ) (v w : ν) :
    (m.insert k v).insert k w = m.insert k w := by
  refine ext_get? fun k' => ?_
  rw [get?_insert, get?_insert, get?_insert]
  split <;> rfl

/-- Insertions of entries that all follow one function leave the values of that function. -/
theorem get?_foldl_insert (f : κ → Option ν) {l : List (κ × ν)} (hl : ∀ e ∈ l, f e.1 = some e.2)
    (m : SortedMap κ ν) (k : κ) :
    (l.foldl (fun m e => m.insert e.1 e.2) m).get? k =
      if k ∈ l.map (·.1) then f k else m.get? k := by
  induction l generalizing m with
  | nil => simp
  | cons e l ih =>
    rw [List.foldl_cons, ih (fun e' he' => hl e' (List.mem_cons_of_mem _ he')), get?_insert,
      List.map_cons]
    -- A later entry for the key decides; if there is none, the first entry or the map does.
    by_cases hk : k ∈ l.map (·.1)
    · rw [if_pos hk, if_pos (List.mem_cons_of_mem _ hk)]
    · rw [if_neg hk]
      by_cases hke : k = e.1
      · subst hke
        rw [if_pos rfl, if_pos List.mem_cons_self, hl e List.mem_cons_self]
      · rw [if_neg hke, if_neg]
        intro hmem
        rcases List.mem_cons.mp hmem with h | h
        · exact hke h
        · exact hk h

/-- The map of a list of keys with the values that a partial function has for them. -/
theorem get?_ofList_filterMap {α : Type v} (key : α → κ) (f : κ → Option ν) (l : List α) (k : κ) :
    (ofList (l.filterMap fun a => (f (key a)).map fun v => (key a, v))).get? k =
      if k ∈ l.map key then f k else none := by
  have hentries : ∀ e ∈ l.filterMap fun a => (f (key a)).map fun v => (key a, v),
      f e.1 = some e.2 := by
    intro e he
    obtain ⟨a, -, ha⟩ := List.mem_filterMap.mp he
    obtain ⟨v, hv, rfl⟩ := Option.map_eq_some_iff.mp ha
    exact hv
  rw [ofList, get?_foldl_insert f hentries]
  by_cases hk : k ∈ l.map key
  · rw [if_pos hk]
    obtain ⟨a, ha, rfl⟩ := List.mem_map.mp hk
    -- A key without a value has no entry, and then both sides are `none`.
    cases hv : f (key a) with
    | none => split <;> rfl
    | some v =>
      refine if_pos (List.mem_map.mpr ⟨(key a, v), List.mem_filterMap.mpr ⟨a, ha, ?_⟩, rfl⟩)
      rw [hv, Option.map_some]
  · rw [if_neg hk]
    refine if_neg fun hmem => hk ?_
    obtain ⟨e, he, rfl⟩ := List.mem_map.mp hmem
    obtain ⟨a, ha, hae⟩ := List.mem_filterMap.mp he
    obtain ⟨v, -, rfl⟩ := Option.map_eq_some_iff.mp hae
    exact List.mem_map.mpr ⟨a, ha, rfl⟩

/-- The map of the entries of a map. -/
theorem ofList_entries (m : SortedMap κ ν) : ofList m.entries = m := by
  have hentries : ∀ e ∈ m.entries, m.get? e.1 = some e.2 := fun e he =>
    (findEntry_eq_some_iff_mem m.ascending).mpr he
  refine ext_get? fun k => ?_
  rw [ofList, get?_foldl_insert m.get? hentries]
  split
  · rfl
  · next hk =>
    rw [← keys, mem_keys_iff, Bool.not_eq_true, Option.isSome_eq_false_iff,
      Option.isNone_iff_eq_none] at hk
    rw [hk]
    rfl

end SortedMap

namespace SortedSet

variable {κ : Type u} [LT κ]

theorem pairwise_toList (s : SortedSet κ) : s.toList.Pairwise (· < ·) := s.pairwise_keys

theorem toList_empty : toList (SortedMap.empty : SortedSet κ) = [] := rfl

variable [LE κ] [Std.LawfulOrderLT κ] [Std.IsLinearOrder κ] [DecidableLT κ] [DecidableEq κ]

theorem mem_toList_add (s : SortedSet κ) (a k : κ) :
    k ∈ (s.add a).toList ↔ k = a ∨ k ∈ s.toList := by
  show k ∈ (SortedMap.insert s a ()).keys ↔ k = a ∨ k ∈ SortedMap.keys s
  rw [SortedMap.mem_keys_iff, SortedMap.mem_keys_iff, SortedMap.get?_insert]
  by_cases h : k = a <;> simp [h]

theorem mem_toList_addAll (s : SortedSet κ) (l : List κ) (k : κ) :
    k ∈ (s.addAll l).toList ↔ k ∈ l ∨ k ∈ s.toList := by
  induction l generalizing s with
  | nil => simp [addAll]
  | cons a l ih =>
    show k ∈ ((s.add a).addAll l).toList ↔ _
    rw [ih, mem_toList_add, List.mem_cons, or_left_comm, or_assoc]

theorem mem_toList_ofList (l : List κ) (k : κ) : k ∈ (ofList l).toList ↔ k ∈ l := by
  rw [ofList, mem_toList_addAll, toList_empty]
  simp

/-- The set of the members of a set. -/
theorem ofList_toList (s : SortedSet κ) : ofList s.toList = s := by
  rw [ofList, addAll, toList, SortedMap.keys, List.foldl_map]
  exact SortedMap.ofList_entries s

/-- The set of a list holds the members of the list. -/
theorem contains_ofList (l : List κ) (k : κ) : (ofList l).contains k = decide (k ∈ l) := by
  show (SortedMap.get? (ofList l) k).isSome = decide (k ∈ l)
  rw [Bool.eq_iff_iff, ← SortedMap.mem_keys_iff, decide_eq_true_iff]
  exact mem_toList_ofList l k

end SortedSet

end CatalogSync
