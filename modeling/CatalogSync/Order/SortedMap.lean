/-!
# Maps kept in key order

`SortedMap κ ν` is a finite map held as the list of its entries, strictly ascending in the key.
The order is part of the type, so two maps with the same look-ups are equal (`ext_get?`) and every
listing of a map is in key order.

`SortedSet κ` is the map without values.
-/

namespace CatalogSync

universe u v w

/-- A finite map as the list of its entries, strictly ascending in the key. -/
structure SortedMap (κ : Type u) (ν : Type v) [LT κ] where
  entries : List (κ × ν)
  -- No key is repeated and every key is below the later ones.
  ascending : entries.Pairwise (fun a b => a.1 < b.1)

namespace SortedMap

variable {κ : Type u} {ν : Type v} [LT κ]

/-! ## §1 Operations on the entry list -/

/-- Put a value under a key into an ascending entry list, replacing the entry of that key. -/
def insertEntry [DecidableLT κ] [DecidableEq κ] (key : κ) (value : ν) : List (κ × ν) → List (κ × ν)
  | [] => [(key, value)]
  | (k, v) :: rest =>
    if key < k then (key, value) :: (k, v) :: rest
    else if key = k then (key, value) :: rest
    else (k, v) :: insertEntry key value rest

/-- The value of the first entry with the given key. -/
def findEntry [DecidableEq κ] (key : κ) : List (κ × ν) → Option ν
  | [] => none
  | (k, v) :: rest => if key = k then some v else findEntry key rest

theorem fst_mem_insertEntry [DecidableLT κ] [DecidableEq κ] {key : κ} {value : ν} {e : κ × ν}
    {l : List (κ × ν)} (h : e ∈ insertEntry key value l) : e = (key, value) ∨ e ∈ l := by
  induction l with
  | nil => simpa [insertEntry] using h
  | cons head rest ih =>
    obtain ⟨k, v⟩ := head
    rw [insertEntry] at h
    split at h
    · simpa using h
    · split at h
      · rcases List.mem_cons.1 h with h | h
        · exact .inl h
        · exact .inr (List.mem_cons_of_mem _ h)
      · rcases List.mem_cons.1 h with h | h
        · exact .inr (h ▸ List.mem_cons_self)
        · rcases ih h with h | h
          · exact .inl h
          · exact .inr (List.mem_cons_of_mem _ h)

section Ordered

variable [LE κ] [Std.LawfulOrderLT κ] [Std.IsLinearOrder κ]

theorem ascending_insertEntry [DecidableLT κ] [DecidableEq κ] (key : κ) (value : ν)
    {l : List (κ × ν)} (h : l.Pairwise (fun a b => a.1 < b.1)) :
    (insertEntry key value l).Pairwise (fun a b => a.1 < b.1) := by
  induction l with
  | nil => simp [insertEntry]
  | cons head rest ih =>
    obtain ⟨k, v⟩ := head
    have hrest := List.pairwise_cons.1 h
    rw [insertEntry]
    split
    · rename_i hlt
      refine List.pairwise_cons.2 ⟨fun e he => ?_, h⟩
      rcases List.mem_cons.1 he with rfl | he
      · exact hlt
      · exact Std.lt_trans hlt (hrest.1 e he)
    · split
      · rename_i heq
        exact List.pairwise_cons.2 ⟨fun e he => heq ▸ hrest.1 e he, hrest.2⟩
      · rename_i hnlt hne
        refine List.pairwise_cons.2 ⟨fun e he => ?_, ih hrest.2⟩
        rcases fst_mem_insertEntry he with rfl | he
        · rcases Std.lt_trichotomy key k with hlt | heq | hgt
          · exact absurd hlt hnlt
          · exact absurd heq hne
          · exact hgt
        · exact hrest.1 e he

/-! ## §2 Maps -/

def empty : SortedMap κ ν := ⟨[], .nil⟩

instance : Inhabited (SortedMap κ ν) := ⟨empty⟩

/-- The map with one more entry; the value of a key already present is replaced. -/
def insert [DecidableLT κ] [DecidableEq κ] (m : SortedMap κ ν) (key : κ) (value : ν) :
    SortedMap κ ν :=
  ⟨insertEntry key value m.entries, ascending_insertEntry key value m.ascending⟩

/-- The map of a list of entries; of two entries with one key the later counts. -/
def ofList [DecidableLT κ] [DecidableEq κ] (l : List (κ × ν)) : SortedMap κ ν :=
  l.foldl (fun m e => m.insert e.1 e.2) empty

end Ordered

def get? [DecidableEq κ] (m : SortedMap κ ν) (key : κ) : Option ν := findEntry key m.entries

def contains [DecidableEq κ] (m : SortedMap κ ν) (key : κ) : Bool := (m.get? key).isSome

/-- The map without the entries that a test on the keys refuses. -/
def filterKeys (m : SortedMap κ ν) (keep : κ → Bool) : SortedMap κ ν :=
  ⟨m.entries.filter (fun e => keep e.1), m.ascending.sublist List.filter_sublist⟩

/-- The map without a key. -/
def erase [DecidableEq κ] (m : SortedMap κ ν) (key : κ) : SortedMap κ ν :=
  m.filterKeys (fun k => k != key)

def keys (m : SortedMap κ ν) : List κ := m.entries.map (·.1)

def values (m : SortedMap κ ν) : List ν := m.entries.map (·.2)

def size (m : SortedMap κ ν) : Nat := m.entries.length

def isEmpty (m : SortedMap κ ν) : Bool := m.entries.isEmpty

/-- The map with every value replaced by a function of it. -/
def mapValues {ω : Type w} (f : ν → ω) (m : SortedMap κ ν) : SortedMap κ ω :=
  ⟨m.entries.map (fun e => (e.1, f e.2)), List.Pairwise.map _ (fun _ _ h => h) m.ascending⟩

instance [DecidableEq κ] [DecidableEq ν] : DecidableEq (SortedMap κ ν) := fun a b =>
  if h : a.entries = b.entries then
    isTrue (by cases a; cases b; cases h; rfl)
  else
    isFalse (fun e => h (e ▸ rfl))

/-! ## §3 Look-ups -/

theorem findEntry_insertEntry [DecidableLT κ] [DecidableEq κ] (key : κ) (value : ν) (k : κ)
    (l : List (κ × ν)) :
    findEntry k (insertEntry key value l) = if k = key then some value else findEntry k l := by
  induction l with
  | nil => simp [insertEntry, findEntry]
  | cons head rest ih =>
    obtain ⟨k', v'⟩ := head
    rw [insertEntry]
    split
    · simp [findEntry]
    · split
      · rename_i heq
        subst heq
        by_cases hk : k = key <;> simp [findEntry, hk]
      · rename_i hne
        by_cases hk : k = k'
        · subst hk
          simp [findEntry, Ne.symm hne]
        · simp [findEntry, hk, ih]

omit [LT κ] in
theorem findEntry_filter [DecidableEq κ] (keep : κ → Bool) (k : κ) (l : List (κ × ν)) :
    findEntry k (l.filter (fun e => keep e.1)) = if keep k then findEntry k l else none := by
  induction l with
  | nil => simp [findEntry]
  | cons head rest ih =>
    obtain ⟨k', v'⟩ := head
    by_cases hk : k = k'
    · subst hk
      by_cases h : keep k = true <;> simp_all [findEntry]
    · by_cases h : keep k' = true <;> simp [findEntry, hk, h, ih]

@[simp] theorem get?_empty [DecidableEq κ] (k : κ) :
    (⟨[], .nil⟩ : SortedMap κ ν).get? k = none := rfl

@[simp] theorem get?_insert [LE κ] [Std.LawfulOrderLT κ] [Std.IsLinearOrder κ] [DecidableLT κ]
    [DecidableEq κ] (m : SortedMap κ ν) (key : κ) (value : ν) (k : κ) :
    (m.insert key value).get? k = if k = key then some value else m.get? k :=
  findEntry_insertEntry key value k m.entries

@[simp] theorem get?_filterKeys [DecidableEq κ] (m : SortedMap κ ν) (keep : κ → Bool) (k : κ) :
    (m.filterKeys keep).get? k = if keep k then m.get? k else none :=
  findEntry_filter keep k m.entries

@[simp] theorem get?_erase [DecidableEq κ] (m : SortedMap κ ν) (key k : κ) :
    (m.erase key).get? k = if k = key then none else m.get? k := by
  by_cases h : k = key <;> simp [erase, h]

theorem findEntry_eq_some_iff_mem [LE κ] [Std.LawfulOrderLT κ] [Std.IsLinearOrder κ]
    [DecidableEq κ] {k : κ} {v : ν} {l : List (κ × ν)}
    (h : l.Pairwise (fun a b => a.1 < b.1)) : findEntry k l = some v ↔ (k, v) ∈ l := by
  induction l with
  | nil => simp [findEntry]
  | cons head rest ih =>
    obtain ⟨k', v'⟩ := head
    have hrest := List.pairwise_cons.1 h
    rw [findEntry]
    by_cases hk : k = k'
    · subst hk
      constructor
      · intro hv
        cases Option.some.inj (by simpa using hv)
        exact List.mem_cons_self
      · intro hm
        rcases List.mem_cons.1 hm with hm | hm
        · cases hm; simp
        · exact absurd (hrest.1 _ hm) Std.lt_irrefl
    · rw [if_neg hk, ih hrest.2]
      constructor
      · exact List.mem_cons_of_mem _
      · intro hm
        rcases List.mem_cons.1 hm with hm | hm
        · cases hm; exact absurd rfl hk
        · exact hm

/-- A map is determined by its look-ups. -/
theorem ext_get? [LE κ] [Std.LawfulOrderLT κ] [Std.IsLinearOrder κ] [DecidableEq κ]
    {a b : SortedMap κ ν} (h : ∀ k, a.get? k = b.get? k) : a = b := by
  have key : ∀ (l l' : List (κ × ν)), l.Pairwise (fun a b => a.1 < b.1) →
      l'.Pairwise (fun a b => a.1 < b.1) → (∀ k v, (k, v) ∈ l ↔ (k, v) ∈ l') → l = l' := by
    intro l
    induction l with
    | nil =>
      intro l' _ _ hm
      cases l' with
      | nil => rfl
      | cons head rest => exact absurd ((hm head.1 head.2).2 List.mem_cons_self) (by simp)
    | cons head rest ih =>
      intro l' hl hl' hm
      cases l' with
      | nil => exact absurd ((hm head.1 head.2).1 List.mem_cons_self) (by simp)
      | cons head' rest' =>
        have hr := List.pairwise_cons.1 hl
        have hr' := List.pairwise_cons.1 hl'
        have heq : head = head' := by
          rcases List.mem_cons.1 ((hm head.1 head.2).1 List.mem_cons_self) with e | e
          · exact e
          · rcases List.mem_cons.1 ((hm head'.1 head'.2).2 List.mem_cons_self) with e' | e'
            · exact e'.symm
            · exact absurd (Std.lt_trans (hr.1 _ e') (hr'.1 _ e)) Std.lt_irrefl
        subst heq
        congr 1
        refine ih rest' hr.2 hr'.2 fun k v => ⟨fun hk => ?_, fun hk => ?_⟩
        · rcases List.mem_cons.1 ((hm k v).1 (List.mem_cons_of_mem _ hk)) with e | e
          · exact absurd (e ▸ hr.1 _ hk) Std.lt_irrefl
          · exact e
        · rcases List.mem_cons.1 ((hm k v).2 (List.mem_cons_of_mem _ hk)) with e | e
          · exact absurd (e ▸ hr'.1 _ hk) Std.lt_irrefl
          · exact e
  obtain ⟨l, hl⟩ := a
  obtain ⟨l', hl'⟩ := b
  have : l = l' := key l l' hl hl' fun k v => by
    rw [← findEntry_eq_some_iff_mem hl, ← findEntry_eq_some_iff_mem hl']
    exact Iff.of_eq (congrArg (· = some v) (h k))
  subst this
  rfl

end SortedMap

/-! ## §4 Sets -/

/-- A finite set, listed in ascending order. -/
abbrev SortedSet (κ : Type u) [LT κ] := SortedMap κ Unit

namespace SortedSet

variable {κ : Type u} [LT κ] [LE κ] [Std.LawfulOrderLT κ] [Std.IsLinearOrder κ] [DecidableLT κ]
  [DecidableEq κ]

def add (s : SortedSet κ) (k : κ) : SortedSet κ := SortedMap.insert s k ()

/-- The set with the members of a list. -/
def addAll (s : SortedSet κ) (ks : List κ) : SortedSet κ := ks.foldl add s

def ofList (ks : List κ) : SortedSet κ := addAll SortedMap.empty ks

omit [LE κ] [Std.LawfulOrderLT κ] [Std.IsLinearOrder κ] [DecidableLT κ] [DecidableEq κ] in
def toList (s : SortedSet κ) : List κ := SortedMap.keys s

end SortedSet

end CatalogSync
