import CatalogSync.Proofs.Sync.Calls
import Mathlib.Data.List.Pairwise
/-!
# The cluster and the registries at one moment

A `World` is what there is to be read: the deployments of the cluster, how they are reached, and the
content of every registry. Surroundings show a world when the listings that do not fail list what is
in it (`World.ShownBy`); what else they do is left open, so they may fail at any call and keep any
state of their own.

The keys that ought to be stored are the *current* ones (`World.Current`): those of the versions in
use that can have one, and those of the deployments that no registry manages and that serve none of
these versions. What a deployment serves is looked up by its namespace and name
(`World.Covered`), which is the same as looking at the deployment itself when no other deployment is
named like it (`World.covered_iff_serves`).

Surroundings are steady where they answer every call from a world, whatever their state is
(`World.AnsweredCluster`, `World.AnsweredAt`). The plainest ones do so everywhere
(`World.surroundings`).
-/

namespace CatalogSync

open Proc (Handler)
open Registry (RegisteredModel ModelVersion Directory)

/-! ## §1 Deployments by namespace and name -/

namespace Deployment

theorem isSame_iff {a b : Deployment} : a.isSame b = true ↔ a.ns = b.ns ∧ a.name = b.name := by
  simp [isSame]

theorem isSame_refl (d : Deployment) : d.isSame d = true := isSame_iff.mpr ⟨rfl, rfl⟩

theorem isSame_comm (a b : Deployment) : a.isSame b = b.isSame a := by
  rw [isSame, isSame, BEq.comm, BEq.comm (a := a.name)]

theorem isSame_trans {a b c : Deployment} (h : a.isSame b = true) (h' : b.isSame c = true) :
    a.isSame c = true := by
  obtain ⟨hns, hname⟩ := isSame_iff.mp h
  obtain ⟨hns', hname'⟩ := isSame_iff.mp h'
  exact isSame_iff.mpr ⟨hns.trans hns', hname.trans hname'⟩

end Deployment

namespace Sync

/-! ## §2 Worlds -/

/-- What there is to be read. -/
structure World where
  -- The deployments of the cluster, in the order in which they are listed.
  deployments : List Deployment
  details : Deployment → Except Fault ServingDetails
  registry : String → Registry.Replies

namespace World

/-- Listings of the cluster and of the registries of a directory show the world unless they fail. -/
structure ShownBy {σ : Type} (w : World) (directory : Directory) (h : Handler interface σ) :
    Prop where
  -- The deployments that are listed are those of the world.
  deployments : ∀ s listed, (h .deployments s).1 = .ok listed → listed = w.deployments
  -- The listings of a registry show its content.
  registry : ∀ endpoint ∈ directory.toList,
    (w.registry endpoint).ShownBy (registryAt h endpoint)

def Distinct (w : World) : Prop := w.deployments.Pairwise fun a b => a.isSame b = false

/-! ## §3 The keys that ought to be stored -/

variable (w : World) (directory : Directory)

/-- A version in use of one of the registries, with the key of its record. -/
structure Keyed (endpoint : String) (model : RegisteredModel) (version : ModelVersion)
    (key : ImportKey) : Prop where
  endpoint_mem : endpoint ∈ directory.toList
  live : (w.registry endpoint).Live model version
  key_eq : ImportKey.forModelVersion model.name version.name = .ok key

/-- There is evidence that a deployment serves a version that has a key. -/
def Serves (d : Deployment) : Prop :=
  ∃ endpoint model version key, w.Keyed directory endpoint model version key ∧
    ((w.registry endpoint).evidence.strategy? model version d).isSome = true

/-- A deployment with the same namespace and name serves a version that has a key. -/
def Covered (d : Deployment) : Prop :=
  ∃ other ∈ w.deployments, other.isSame d = true ∧ w.Serves directory other

/-- Another deployment with the same namespace and name serves a version that has a key. -/
def Shadowed (d : Deployment) : Prop :=
  ∃ other ∈ w.deployments, other ≠ d ∧ other.isSame d = true ∧ w.Serves directory other

/-- A key that ought to be stored. -/
inductive Current (key : ImportKey) : Prop where
  -- The key of a version in use.
  | version {endpoint : String} {model : RegisteredModel} {version : ModelVersion}
      (keyed : w.Keyed directory endpoint model version key)
  -- The key of a deployment that no registry manages and that serves no version.
  | deployment {d : Deployment} (mem : d ∈ w.deployments) (unmanaged : d.isRegistryManaged = false)
      (uncovered : ¬ w.Covered directory d)
      (key_eq : ImportKey.forDeployment d.ns d.name = .ok key)

/-! ## §4 Worlds without namesakes -/

variable {w directory}

/-- What is named like a listed deployment is that deployment. -/
theorem Distinct.eq_of_isSame (hw : w.Distinct) {a b : Deployment} (ha : a ∈ w.deployments)
    (hb : b ∈ w.deployments) (h : a.isSame b = true) : a = b := by
  by_contra hne
  -- `Distinct` speaks of pairs in the order of the list; being named alike is symmetric.
  have : Std.Symm fun a b : Deployment => a.isSame b = false :=
    ⟨fun a b hab => (b.isSame_comm a).trans hab⟩
  have hfalse : a.isSame b = false := hw.forall ha hb hne
  rw [h] at hfalse
  cases hfalse

/-- Without namesakes no deployment is shadowed. -/
theorem Distinct.not_shadowed (hw : w.Distinct) {d : Deployment} (hd : d ∈ w.deployments) :
    ¬ w.Shadowed directory d := by
  rintro ⟨other, hother, hne, hsame, -⟩
  exact hne (hw.eq_of_isSame hother hd hsame)

/-- A deployment is covered when it serves a version itself or is shadowed. -/
theorem covered_iff_serves_or_shadowed {d : Deployment} (hd : d ∈ w.deployments) :
    w.Covered directory d ↔ w.Serves directory d ∨ w.Shadowed directory d := by
  constructor
  · rintro ⟨other, hother, hsame, hserves⟩
    by_cases heq : other = d
    · exact .inl (heq ▸ hserves)
    · exact .inr ⟨other, hother, heq, hsame, hserves⟩
  · rintro (hserves | ⟨other, hother, -, hsame, hserves⟩)
    · exact ⟨d, hd, d.isSame_refl, hserves⟩
    · exact ⟨other, hother, hsame, hserves⟩

/-- Without namesakes, a deployment is covered when it serves a version itself. -/
theorem covered_iff_serves (hw : w.Distinct) {d : Deployment} (hd : d ∈ w.deployments) :
    w.Covered directory d ↔ w.Serves directory d := by
  rw [covered_iff_serves_or_shadowed hd, or_iff_left (hw.not_shadowed hd)]

/-- A listed deployment already stands in the list as it is. -/
theorem Distinct.update_eq (hw : w.Distinct) {d : Deployment} (hd : d ∈ w.deployments) :
    d.update w.deployments = w.deployments := by
  obtain ⟨deployments, _, _⟩ := w
  induction deployments with
  | nil => cases hd
  | cons other rest ih =>
    obtain ⟨hother, hrest⟩ := List.pairwise_cons.mp hw
    rw [Deployment.update]
    rcases List.mem_cons.mp hd with rfl | hd
    -- The deployment takes its own place.
    · rw [if_pos d.isSame_refl]
    · have hfalse : other.isSame d = false := hother d hd
      -- It cannot take the place of another, which is named differently.
      rw [hfalse, if_neg (by decide)]
      exact congrArg (other :: ·) (ih hrest hd)

/-! ## §5 Steady surroundings -/

section

variable {σ : Type} (w : World) (h : Handler interface σ)

/-- Deployments are always answered as they are in the world. -/
structure AnsweredCluster : Prop where
  -- One deployment is the first with its namespace and name.
  deployment : ∀ ns name s, (h (.deployment ns name) s).1 =
    .ok (w.deployments.find? fun d => d.ns == ns && d.name == name)
  deployments : ∀ s, (h .deployments s).1 = .ok w.deployments
  details : ∀ d s, (h (.details d) s).1 = w.details d

/-- The registry at an endpoint always answers as it does in the world. -/
def AnsweredAt (endpoint : String) : Prop :=
  ∀ q s, (h (.registry ⟨endpoint, q⟩) s).1 = w.registry endpoint q

end

/-- The answer of a world to a call. No route is known, and the storage service takes everything and
has nothing to remove. -/
def answer (w : World) : (c : Call) → c.Answer
  | .deployment ns name => .ok (w.deployments.find? fun d => d.ns == ns && d.name == name)
  | .deployments => .ok w.deployments
  | .details d => w.details d
  | .registry a => w.registry a.endpoint a.query
  | .route _ => .absent
  | .storage (.upsert _ _ _) => .ok .created
  | .storage (.keySet _) => .ok []
  | .storage .list => .ok []
  | .requestPass => ()

/-- The surroundings that answer every call from a world. -/
def surroundings (w : World) : Handler interface Unit := fun c s => (w.answer c, s)

theorem answeredCluster_surroundings (w : World) : w.AnsweredCluster w.surroundings where
  deployment _ _ _ := rfl
  deployments _ := rfl
  details _ _ := rfl

theorem answeredAt_surroundings (w : World) (endpoint : String) :
    w.AnsweredAt w.surroundings endpoint := fun _ _ => rfl

theorem shownBy_surroundings (w : World) (directory : Directory) :
    w.ShownBy directory w.surroundings where
  deployments _ listed hlisted := by
    have hok : (Except.ok w.deployments : Except Fault (List Deployment)) = .ok listed := hlisted
    rw [← Except.ok.inj hok]
  registry endpoint _ q s _ _ := rfl

end World

end Sync

end CatalogSync
