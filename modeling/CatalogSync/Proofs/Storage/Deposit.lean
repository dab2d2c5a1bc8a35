import CatalogSync.Proofs.Order.Membership
import CatalogSync.Storage.Backend
import Mathlib.Data.List.Induction
import Mathlib.Data.List.Pairwise
/-!
# Records that are offered to a store

A record that is offered under a key takes its place unless a newer one is there; one that is as old
gives way (`Deposit.into`). Of a list of records the last with the greatest marker is left, unless the
store started from a newer one (`outlasts_foldl_newer`). So offering the list once more changes
nothing (`intoAll_again`), and where markers differ the order is of no account (`intoAll_perm`).

A record is *heeded* when its key holds a newer one, or one of which the importer has been told.
Whatever is offered has been heeded from then on (`Heeded.into`), and a record that is heeded gives
no cause to tell the importer.
-/

namespace CatalogSync.Storage

/-! ## §1 One key -/

/-- The newer of two records for one key; of two that are as old, the one that is offered. -/
def newer (old : Option StoredRecord) (record : StoredRecord) : Option StoredRecord :=
  if old.any fun old => record.lastUpdate < old.lastUpdate then old else some record

/-- Whether the record for a key, if there is one, has at most a certain marker. -/
def AtMost (marker : Nat) (old : Option StoredRecord) : Prop :=
  ∀ record ∈ old, record.lastUpdate ≤ marker

theorem newer_of_atMost {old : Option StoredRecord} {record : StoredRecord}
    (hold : AtMost record.lastUpdate old) : newer old record = some record := by
  cases old with
  | none => rfl
  | some stored => exact if_neg (by simpa using hold stored rfl)

theorem newer_of_not_atMost {old : Option StoredRecord} {record : StoredRecord}
    (hold : ¬ AtMost record.lastUpdate old) : newer old record = old := by
  cases old with
  | none => exact absurd (fun stored hstored => nomatch hstored) hold
  | some stored => exact if_pos (by simpa [AtMost] using hold)

theorem atMost_newer_iff {marker : Nat} {old : Option StoredRecord} {record : StoredRecord} :
    AtMost marker (newer old record) ↔ AtMost marker old ∧ record.lastUpdate ≤ marker := by
  unfold newer
  cases old with
  | none => simp [AtMost]
  | some stored =>
    by_cases hnewer : record.lastUpdate < stored.lastUpdate
    · simp [AtMost, hnewer]
      omega
    · simp [AtMost, hnewer]
      omega

/-- What is left of a list of records is the newest of them and of what was there. -/
theorem atMost_foldl_newer_iff {marker : Nat} (old : Option StoredRecord)
    (records : List StoredRecord) :
    AtMost marker (records.foldl newer old) ↔
      AtMost marker old ∧ ∀ record ∈ records, record.lastUpdate ≤ marker := by
  induction records generalizing old with
  | nil => simp
  | cons record records ih =>
    rw [List.foldl_cons, ih, atMost_newer_iff, List.forall_mem_cons, and_assoc]

/-- Offering the same records once more changes nothing. The last record decides: it is as new as
all before it, or else it counts neither time. -/
theorem foldl_newer_again (old : Option StoredRecord) (records : List StoredRecord) :
    records.foldl newer (records.foldl newer old) = records.foldl newer old := by
  induction records using List.reverseRecOn with
  | nil => rfl
  | append_singleton records record ih =>
    simp only [List.foldl_append, List.foldl_cons, List.foldl_nil]
    by_cases hlast : AtMost record.lastUpdate (records.foldl newer old)
    · have hagain : AtMost record.lastUpdate (records.foldl newer (some record)) := by
        rw [atMost_foldl_newer_iff] at hlast ⊢
        exact ⟨fun r hr => Nat.le_of_eq (congrArg _ (Option.some.inj hr).symm), hlast.2⟩
      rw [newer_of_atMost hlast, newer_of_atMost hagain]
    · rw [newer_of_not_atMost hlast, ih, newer_of_not_atMost hlast]

/-- Of two records that are not as old as each other, either may be offered first. -/
theorem newer_comm {a b : StoredRecord} (hne : a.lastUpdate ≠ b.lastUpdate)
    (old : Option StoredRecord) : newer (newer old a) b = newer (newer old b) a := by
  have htwo : newer (some a) b = newer (some b) a := by
    rcases Nat.lt_or_gt_of_ne hne with hlt | hgt
    · simp [newer, hlt, Nat.not_lt_of_gt hlt]
    · simp [newer, hgt, Nat.not_lt_of_gt hgt]
  unfold newer at htwo ⊢
  cases old with
  | none => simpa using htwo
  | some stored =>
    by_cases ha : a.lastUpdate < stored.lastUpdate
    · by_cases hb : b.lastUpdate < stored.lastUpdate <;> simp [ha, hb]
      omega
    · by_cases hb : b.lastUpdate < stored.lastUpdate
      · simp [ha, hb]
        omega
      · simpa [ha, hb] using htwo

/-- What a key holds after records were offered: the newest of them, unless a newer one was there. -/
inductive Outlasts (old : Option StoredRecord) (records : List StoredRecord) :
    Option StoredRecord → Prop where
  | newest {record : StoredRecord} (hmem : record ∈ records)
      (hnewest : ∀ other ∈ records, other.lastUpdate ≤ record.lastUpdate)
      (hold : AtMost record.lastUpdate old) : Outlasts old records (some record)
  | former (hnewer : ∀ record ∈ records, ∃ stored ∈ old, record.lastUpdate < stored.lastUpdate) :
      Outlasts old records old

theorem outlasts_foldl_newer (old : Option StoredRecord) (records : List StoredRecord) :
    Outlasts old records (records.foldl newer old) := by
  induction records using List.reverseRecOn with
  | nil => exact .former fun record hrecord => nomatch hrecord
  | append_singleton records record ih =>
    simp only [List.foldl_append, List.foldl_cons, List.foldl_nil]
    by_cases hlast : AtMost record.lastUpdate (records.foldl newer old)
    · obtain ⟨hold, hrecords⟩ := (atMost_foldl_newer_iff old records).mp hlast
      rw [newer_of_atMost hlast]
      refine .newest (List.mem_append_right _ List.mem_cons_self) (fun other hother => ?_) hold
      rcases List.mem_append.mp hother with hother | hother
      · exact hrecords other hother
      · exact Nat.le_of_eq (congrArg _ (List.mem_singleton.mp hother))
    · -- The last record is older than what is left of those before it.
      rw [newer_of_not_atMost hlast]
      simp only [AtMost, not_forall, Nat.not_le] at hlast
      obtain ⟨left, hleft, holder⟩ := hlast
      generalize records.foldl newer old = result at ih hleft ⊢
      cases ih with
      | @newest newest hmem hnewest hold =>
        obtain rfl : newest = left := Option.some.inj hleft
        refine .newest (List.mem_append_left _ hmem) (fun other hother => ?_) hold
        rcases List.mem_append.mp hother with hother | hother
        · exact hnewest other hother
        · rw [List.mem_singleton.mp hother]
          exact Nat.le_of_lt holder
      | former hnewer =>
        refine .former fun other hother => ?_
        rcases List.mem_append.mp hother with hother | hother
        · exact hnewer other hother
        · rw [List.mem_singleton.mp hother]
          exact ⟨left, hleft, holder⟩

/-! ## §2 A store -/

/-- A record that is offered under a key. -/
structure Deposit where
  key : ImportKey
  record : StoredRecord

namespace Deposit

/-- The store after a record was offered. -/
def into (x : Deposit) (m : Store) : Store :=
  if (m.get? x.key).any fun old => x.record.lastUpdate < old.lastUpdate then m
  else m.insert x.key x.record

theorem get?_into (x : Deposit) (m : Store) (k : ImportKey) :
    (x.into m).get? k = if k = x.key then newer (m.get? k) x.record else m.get? k := by
  unfold into newer
  by_cases hk : k = x.key
  · subst hk
    rw [if_pos rfl]
    split
    · rfl
    · rw [SortedMap.get?_insert, if_pos rfl]
  · rw [if_neg hk]
    split
    · rfl
    · rw [SortedMap.get?_insert, if_neg hk]

/-- The store after several records were offered one after another. -/
def intoAll (xs : List Deposit) (m : Store) : Store := xs.foldl (fun m x => x.into m) m

/-- What is offered under one key decides what that key holds. -/
theorem get?_intoAll (xs : List Deposit) (m : Store) (k : ImportKey) :
    (intoAll xs m).get? k =
      ((xs.filter fun x => x.key = k).map (·.record)).foldl newer (m.get? k) := by
  unfold intoAll
  induction xs generalizing m with
  | nil => rfl
  | cons x xs ih =>
    rw [List.foldl_cons, ih, get?_into]
    by_cases hk : x.key = k
    · rw [List.filter_cons_of_pos (by simpa using hk), if_pos hk.symm]
      rfl
    · rw [List.filter_cons_of_neg (by simpa using hk), if_neg (Ne.symm hk)]

/-- Offering the same records once more changes nothing. -/
theorem intoAll_again (xs : List Deposit) (m : Store) :
    intoAll xs (intoAll xs m) = intoAll xs m := by
  refine SortedMap.ext_get? fun k => ?_
  rw [get?_intoAll, get?_intoAll, foldl_newer_again]

theorem into_comm {x y : Deposit}
    (hne : x.key = y.key → x.record.lastUpdate ≠ y.record.lastUpdate) (m : Store) :
    y.into (x.into m) = x.into (y.into m) := by
  refine SortedMap.ext_get? fun k => ?_
  simp only [get?_into]
  by_cases hx : k = x.key
  · by_cases hy : k = y.key
    · simp only [if_pos hx, if_pos hy]
      exact newer_comm (hne (hx.symm.trans hy)) _
    · simp only [if_pos hx, if_neg hy]
  · by_cases hy : k = y.key
    · simp only [if_neg hx, if_pos hy]
    · simp only [if_neg hx, if_neg hy]

/-- Where no two records for one key are as old as each other, they may be offered in any order. -/
theorem intoAll_perm {xs ys : List Deposit} (hperm : xs.Perm ys)
    (hdistinct : xs.Pairwise fun x y =>
      x.key = y.key → x.record.lastUpdate ≠ y.record.lastUpdate) (m : Store) :
    intoAll xs m = intoAll ys m := by
  have hsymm : Std.Symm fun x y : Deposit =>
      x.key = y.key → x.record.lastUpdate ≠ y.record.lastUpdate :=
    ⟨fun _ _ hxy hkey => (hxy hkey.symm).symm⟩
  refine hperm.foldl_eq' (fun x hx y hy m => ?_) m
  by_cases hxy : x = y
  · rw [hxy]
  · exact into_comm (hdistinct.forall hx hy hxy) m

/-- Removing records of other keys makes no difference to what is offered. -/
theorem intoAll_filterKeys {xs : List Deposit} {keep : ImportKey → Bool}
    (hxs : ∀ x ∈ xs, keep x.key = true) (m : Store) :
    intoAll xs (m.filterKeys keep) = (intoAll xs m).filterKeys keep := by
  refine SortedMap.ext_get? fun k => ?_
  rw [get?_intoAll, SortedMap.get?_filterKeys, SortedMap.get?_filterKeys, get?_intoAll]
  by_cases hk : keep k = true
  · rw [if_pos hk, if_pos hk]
  · rw [if_neg hk, if_neg hk]
    have hnone : xs.filter (fun x => x.key = k) = [] := by
      rw [List.filter_eq_nil_iff]
      intro x hx hkey
      exact hk (of_decide_eq_true hkey ▸ hxs x hx)
    rw [hnone]
    rfl

/-! ## §3 What the importer has been told -/

/-- A newer record is there, or one of which the importer has been told. -/
def Heeded (x : Deposit) (m : Store) : Prop :=
  ∃ old, m.get? x.key = some old ∧ (x.record.lastUpdate < old.lastUpdate ∨ old.imported = true)

theorem heeded_into {x : Deposit} (hx : x.record.imported = true) (m : Store) :
    x.Heeded (x.into m) := by
  rw [Heeded, get?_into, if_pos rfl]
  cases hold : m.get? x.key with
  | none => exact ⟨x.record, rfl, .inr hx⟩
  | some old =>
    by_cases hnewer : x.record.lastUpdate < old.lastUpdate
    · exact ⟨old, if_pos (by simpa using hnewer), .inl hnewer⟩
    · exact ⟨x.record, if_neg (by simpa using hnewer), .inr hx⟩

theorem Heeded.into {x y : Deposit} {m : Store} (hx : x.Heeded m) (hy : y.record.imported = true) :
    x.Heeded (y.into m) := by
  obtain ⟨old, hold, hheeded⟩ := hx
  rw [Heeded, get?_into]
  by_cases hkey : x.key = y.key
  · rw [if_pos hkey, hold]
    by_cases hnewer : y.record.lastUpdate < old.lastUpdate
    · exact ⟨old, if_pos (by simpa using hnewer), hheeded⟩
    · exact ⟨y.record, if_neg (by simpa using hnewer), .inr hy⟩
  · exact ⟨old, by rw [if_neg hkey, hold], hheeded⟩

theorem Heeded.intoAll {x : Deposit} {m : Store} (hx : x.Heeded m) {ys : List Deposit}
    (hys : ∀ y ∈ ys, y.record.imported = true) : x.Heeded (intoAll ys m) := by
  induction ys generalizing m with
  | nil => exact hx
  | cons y ys ih =>
    exact ih (hx.into (hys y List.mem_cons_self)) fun z hz => hys z (List.mem_cons_of_mem _ hz)

/-- Records that were offered are heeded. -/
theorem heeded_intoAll {xs : List Deposit} (hxs : ∀ x ∈ xs, x.record.imported = true) (m : Store) :
    ∀ x ∈ xs, x.Heeded (intoAll xs m) := by
  induction xs generalizing m with
  | nil => exact fun _ h => nomatch h
  | cons y xs ih =>
    intro x hx
    have hrest : ∀ z ∈ xs, z.record.imported = true := fun z hz => hxs z (List.mem_cons_of_mem _ hz)
    rcases List.mem_cons.mp hx with rfl | hx
    · exact (heeded_into (hxs x List.mem_cons_self) m).intoAll hrest
    · exact ih hrest (y.into m) x hx

/-- A key that stays keeps what it holds. -/
theorem Heeded.filterKeys {x : Deposit} {m : Store} (hx : x.Heeded m) {keep : ImportKey → Bool}
    (hkeep : keep x.key = true) : x.Heeded (m.filterKeys keep) := by
  obtain ⟨old, hold, hheeded⟩ := hx
  exact ⟨old, by rw [SortedMap.get?_filterKeys, if_pos hkeep, hold], hheeded⟩

/-- One of the records for a key is not heeded, so that the importer is yet to be told. -/
def Due (xs : List Deposit) (key : ImportKey) (m : Store) : Prop :=
  ∃ x ∈ xs, x.key = key ∧ ¬ x.Heeded m

theorem due_cons_iff {x : Deposit} {xs : List Deposit} {key : ImportKey} {m : Store} :
    Due (x :: xs) key m ↔ (x.key = key ∧ ¬ x.Heeded m) ∨ Due xs key m := by
  simp only [Due, List.mem_cons, exists_eq_or_imp]

theorem due_perm {xs ys : List Deposit} (hperm : xs.Perm ys) (key : ImportKey) (m : Store) :
    Due xs key m ↔ Due ys key m :=
  exists_congr fun _ => and_congr_left' hperm.mem_iff

/-- Offering a record has the records for its key heeded, and is of no account to the others. -/
theorem heeded_into_iff {x y : Deposit} (hy : y.record.imported = true) (m : Store) :
    x.Heeded (y.into m) ↔ x.Heeded m ∨ (y.key = x.key ∧ ¬ y.Heeded m) := by
  constructor
  · rintro ⟨old, hold, hheeded⟩
    rw [get?_into] at hold
    by_cases hkey : x.key = y.key
    · by_cases hheeded' : y.Heeded m
      · left
        obtain ⟨stored, hstored, hnewer | himported⟩ := hheeded'
        · rw [if_pos hkey, hkey, hstored, newer_of_not_atMost] at hold
          · exact ⟨old, by rw [hkey, hstored, hold], hheeded⟩
          · exact fun hmost => Nat.not_le.mpr hnewer (hmost stored rfl)
        · exact ⟨stored, by rw [hkey, hstored], .inr himported⟩
      · exact .inr ⟨hkey.symm, hheeded'⟩
    · rw [if_neg hkey] at hold
      exact .inl ⟨old, hold, hheeded⟩
  · rintro (hx | ⟨hkey, hunheeded⟩)
    · exact hx.into hy
    · refine ⟨y.record, ?_, .inr hy⟩
      rw [get?_into, if_pos hkey.symm, ← hkey]
      refine newer_of_atMost fun old hold => Nat.not_lt.mp fun hnewer => hunheeded ?_
      exact ⟨old, hold, .inl hnewer⟩

/-- What is due stays so until a record for the key is offered that is not heeded. -/
theorem due_into_iff {x : Deposit} (hx : x.record.imported = true) {xs : List Deposit}
    {key : ImportKey} {m : Store} :
    Due xs key (x.into m) ↔ Due xs key m ∧ ¬ (x.key = key ∧ ¬ x.Heeded m) := by
  simp only [Due, heeded_into_iff hx, not_or]
  constructor
  · rintro ⟨y, hy, rfl, hunheeded, hother⟩
    exact ⟨⟨y, hy, rfl, hunheeded⟩, hother⟩
  · rintro ⟨⟨y, hy, rfl, hunheeded⟩, hother⟩
    exact ⟨y, hy, rfl, hunheeded, hother⟩

end Deposit

end CatalogSync.Storage
