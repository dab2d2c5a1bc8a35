import CatalogSync.Catalog.Merge
import CatalogSync.Proofs.Time.Instant
/-!
# The parts of an entry

Sources with a key make one entry, which has its parts from them (`Sources.entry_eq_ok_iff`).
Whatever an entry is made from, the time of its last change fits into 64 bits.
-/

namespace CatalogSync.Catalog

theorem foldl_max_le {α : Type} {f : α → Nat} {bound : Nat} {l : List α}
    (hl : ∀ a ∈ l, f a ≤ bound) {start : Nat} (hstart : start ≤ bound) :
    l.foldl (fun latest a => max latest (f a)) start ≤ bound := by
  induction l generalizing start with
  | nil => exact hstart
  | cons a l ih =>
    exact ih (fun b hb => hl b (List.mem_cons_of_mem _ hb))
      (Nat.max_le.mpr ⟨hstart, hl a List.mem_cons_self⟩)

namespace Sources

theorem lastUpdate_le (s : Sources) : s.lastUpdate ≤ Natural.max64 := by
  unfold lastUpdate
  split
  · refine foldl_max_le (f := id) (fun n hn => ?_) ?_
    · obtain ⟨artifact, -, rfl⟩ := List.mem_map.mp hn
      exact Natural.millis_le _
    · exact Nat.max_le.mpr ⟨Natural.millis_le _, Natural.millis_le _⟩
  · refine foldl_max_le (fun n hn => ?_) (Nat.zero_le _)
    obtain ⟨text, -, hmillis⟩ := List.mem_filterMap.mp hn
    exact Instant.millis?_le hmillis
  · exact Nat.zero_le _

/-- The entry that sources make under their key. -/
def entryAt (sources : Sources) (key : ImportKey) : Entry where
  key
  provenance := sources.provenance
  lastUpdate := sources.lastUpdate
  model := sources.modelPart
  server := sources.serverPart?
  cardOrigin := sources.cardOrigin?

theorem entry_of_key {sources : Sources} {key : ImportKey} (hkey : sources.key = .ok key) :
    sources.entry = .ok (sources.entryAt key) := by
  rw [entry, hkey]
  rfl

/-- Sources make an entry when they have a key. -/
theorem entry_eq_ok_iff {s : Sources} {entry : Entry} :
    s.entry = .ok entry ↔ ∃ key, s.key = .ok key ∧ entry = s.entryAt key := by
  constructor
  · intro hentry
    cases hkey : s.key with
    | error f =>
      rw [Sources.entry, hkey] at hentry
      cases hentry
    | ok key =>
      rw [entry_of_key hkey] at hentry
      cases hentry
      exact ⟨key, rfl, rfl⟩
  · rintro ⟨key, hkey, rfl⟩
    exact entry_of_key hkey

/-- The parts of an entry. -/
theorem entry_facts {s : Sources} {entry : Entry} (hentry : s.entry = .ok entry) :
    entry.lastUpdate = s.lastUpdate ∧ entry.model = s.modelPart ∧
      entry.server = s.serverPart? := by
  obtain ⟨key, -, rfl⟩ := entry_eq_ok_iff.mp hentry
  exact ⟨rfl, rfl, rfl⟩

/-- The marker of an entry is one that the storage service can read. -/
theorem lastUpdate_entry_le {s : Sources} {entry : Entry} (hentry : s.entry = .ok entry) :
    entry.lastUpdate ≤ Natural.max64 := by
  rw [(entry_facts hentry).1]
  exact s.lastUpdate_le

end Sources

end CatalogSync.Catalog
