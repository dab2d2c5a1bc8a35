import CatalogSync.Proofs.Storage.Calls
/-!
# The service in memory

The service with its records in memory and an importer that takes every notice: the surroundings in
which nothing fails. What the importer has been told is kept in order.
-/

namespace CatalogSync.Storage

open Service (Backed Heard Notice Reliable notices)

/-- The records of the service, and what the importer has been told. -/
structure Depot where
  store : Store
  told : List Notice := []

namespace Depot

/-- Every call succeeds. -/
def handler : Proc.Handler Service.interface Depot
  | .acquire, d => ((), d)
  | .release, d => ((), d)
  | .storage c, d =>
    (.ok (Store.perform c d.store).1, { d with store := (Store.perform c d.store).2 })
  | .imported key, d => (.ok (), { d with told := d.told ++ [.imported key] })
  | .removed key, d => (.ok (), { d with told := d.told ++ [.removed key] })

theorem backed_handler : Backed handler store where
  acquire _ := rfl
  release _ := rfl
  imported _ _ := rfl
  removed _ _ := rfl
  storage _ _ := .inl ⟨rfl, rfl⟩

theorem reliable_handler : Reliable handler := fun _ _ _ h => nomatch h

theorem heard_handler : Heard handler := fun _ _ => rfl

/-- What the importer is told in a run is added to what it has been told. -/
theorem told_run {α : Type} (p : Proc Service.interface α) (d : Depot) :
    (p.run handler d).2.told = d.told ++ (notices (p.trace handler d)).map (·.1) := by
  induction p generalizing d with
  | done a => exact (List.append_nil _).symm
  | call c resume ih =>
    have hcall : (handler c d).2.told = d.told ++ (notices [⟨c, (handler c d).1⟩]).map (·.1) := by
      cases c <;> simp [handler, notices]
    rw [Proc.run_call, Proc.trace_call, ih, hcall, List.append_assoc, ← List.map_append,
      ← Service.notices_append, List.singleton_append]

end Depot

end CatalogSync.Storage
