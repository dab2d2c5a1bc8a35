import CatalogSync.Proofs.Correlation.Matching
import Mathlib.Data.List.Pairwise
import Mathlib.Data.Prod.Lex
import Mathlib.Data.String.Basic
/-!
# The deployment that is published with a version

Of the deployments that match a version the least is published: the one with the strongest evidence,
of these the first by namespace, and of these the first by name (`standing`). This order is linear,
and deployments of different namespaces or names never stand alike in it. So one deployment is the
least, and it is chosen in whatever order the deployments are listed (`server?_least`).
-/

namespace CatalogSync.Correlation

open Registry (RegisteredModel ModelVersion)

/-! ## §1 The order of candidates -/

/-- Where a deployment with its evidence stands: by the strength of the evidence, then by namespace,
then by name. -/
def standing (s : Strategy) (d : Deployment) : Nat ×ₗ String ×ₗ String :=
  toLex (s.rank, toLex (d.ns, d.name))

theorem standing_ne {s t : Strategy} {d e : Deployment} (hne : (d.ns, d.name) ≠ (e.ns, e.name)) :
    standing s d ≠ standing t e := by
  intro h
  exact hne (toLex.injective (Prod.mk.inj (toLex.injective h)).2)

namespace Candidate

theorem precedes_iff (a b : Candidate) :
    a.precedes b = true ↔ standing a.strategy a.deployment < standing b.strategy b.deployment := by
  simp only [precedes, standing, Prod.Lex.toLex_lt_toLex, Bool.or_eq_true, Bool.and_eq_true,
    decide_eq_true_eq, beq_iff_eq]

theorem better_least {best : Option Candidate} {c b : Candidate} (h : better best c = some b) :
    standing b.strategy b.deployment ≤ standing c.strategy c.deployment ∧
      ∀ x ∈ best, standing b.strategy b.deployment ≤ standing x.strategy x.deployment := by
  unfold better at h
  cases best with
  | none =>
    obtain rfl : c = b := Option.some.inj h
    exact ⟨le_rfl, fun x hx => nomatch hx⟩
  | some first =>
    dsimp only at h
    by_cases hprecedes : c.precedes first = true
    · rw [if_pos hprecedes] at h
      obtain rfl : c = b := Option.some.inj h
      refine ⟨le_rfl, fun x hx => ?_⟩
      obtain rfl : first = x := Option.some.inj hx
      exact ((precedes_iff c first).mp hprecedes).le
    · rw [if_neg hprecedes] at h
      obtain rfl : first = b := Option.some.inj h
      refine ⟨not_lt.mp fun hlt => hprecedes ((precedes_iff c first).mpr hlt), fun x hx => ?_⟩
      obtain rfl : first = x := Option.some.inj hx
      exact le_rfl

/-- The best of some candidates stands before all of them, and before the one it started from. -/
theorem foldl_better_least {candidates : List Candidate} {best : Option Candidate} {b : Candidate}
    (h : candidates.foldl better best = some b) :
    (∀ x ∈ best, standing b.strategy b.deployment ≤ standing x.strategy x.deployment) ∧
      ∀ c ∈ candidates, standing b.strategy b.deployment ≤ standing c.strategy c.deployment := by
  induction candidates generalizing best with
  | nil =>
    refine ⟨fun x hx => ?_, fun c hc => nomatch hc⟩
    obtain rfl : b = x := Option.some.inj (h.symm.trans hx)
    exact le_rfl
  | cons c rest ih =>
    obtain ⟨hbest, hrest⟩ := ih h
    obtain ⟨next, hnext⟩ := Option.isSome_iff_exists.mp (better_isSome best c)
    obtain ⟨hc, hx⟩ := better_least hnext
    have hfirst := hbest next hnext
    exact ⟨fun x hx' => hfirst.trans (hx x hx'),
      List.forall_mem_cons.mpr ⟨hfirst.trans hc, hrest⟩⟩

end Candidate

/-! ## §2 The choice -/

/-- A deployment matches a version and stands before all others that do. -/
structure Least (r : Records) (model : RegisteredModel) (version : ModelVersion)
    (deployments : List Deployment) (d : Deployment) : Prop where
  mem : d ∈ deployments
  least : ∃ s, r.strategy? model version d = some s ∧
    ∀ e ∈ deployments, ∀ t, r.strategy? model version e = some t → e ≠ d →
      standing s d < standing t e

variable {r : Records} {model : RegisteredModel} {version : ModelVersion}
  {deployments : List Deployment} {d e : Deployment}

theorem Least.unique (hd : Least r model version deployments d)
    (he : Least r model version deployments e) : d = e := by
  obtain ⟨s, hs, hbefore⟩ := hd.least
  obtain ⟨t, ht, hbefore'⟩ := he.least
  by_contra hne
  exact lt_asymm (hbefore e he.mem t ht (Ne.symm hne)) (hbefore' d hd.mem s hs hne)

theorem Least.perm {others : List Deployment} (hperm : deployments.Perm others)
    (hd : Least r model version deployments d) : Least r model version others d where
  mem := hperm.mem_iff.mp hd.mem
  least := hd.least.imp fun _ hs =>
    ⟨hs.1, fun e he t ht hne => hs.2 e (hperm.mem_iff.mpr he) t ht hne⟩

theorem mem_candidates_iff {c : Candidate} : c ∈ r.candidates model version deployments ↔
    c.deployment ∈ deployments ∧ r.strategy? model version c.deployment = some c.strategy := by
  unfold Records.candidates
  simp only [List.mem_filterMap, Option.map_eq_some_iff]
  constructor
  · rintro ⟨d, hd, s, hs, rfl⟩
    exact ⟨hd, hs⟩
  · rintro ⟨hd, hs⟩
    exact ⟨c.deployment, hd, c.strategy, hs, rfl⟩

section

variable (hdistinct : deployments.Pairwise fun d e => (d.ns, d.name) ≠ (e.ns, e.name))
include hdistinct

theorem least_of_server? (h : r.server? model version deployments = some d) :
    Least r model version deployments d := by
  obtain ⟨⟨s, d⟩, hbest, rfl⟩ := Option.map_eq_some_iff.mp h
  obtain ⟨hd, hs⟩ := mem_candidates_iff.mp
    ((mem_of_foldl_better hbest).resolve_left fun h => nomatch h)
  refine ⟨hd, s, hs, fun e he t ht hne => ?_⟩
  have hle := (Candidate.foldl_better_least hbest).2 ⟨t, e⟩ (mem_candidates_iff.mpr ⟨he, ht⟩)
  have hsymm : Std.Symm fun d e : Deployment => (d.ns, d.name) ≠ (e.ns, e.name) :=
    ⟨fun _ _ => Ne.symm⟩
  exact lt_of_le_of_ne hle (standing_ne (hdistinct.forall hd he (Ne.symm hne)))

theorem server?_eq_some_iff : r.server? model version deployments = some d ↔
    Least r model version deployments d := by
  refine ⟨least_of_server? hdistinct, fun hd => ?_⟩
  obtain ⟨s, hs, -⟩ := hd.least
  obtain ⟨e, he⟩ := Option.isSome_iff_exists.mp
    ((server?_isSome_iff r model version deployments).mpr ⟨d, hd.mem, by rw [hs]; rfl⟩)
  rw [he, (least_of_server? hdistinct he).unique hd]

/-- A deployment is published with a version exactly if some deployment matches it. It is then the
one that stands before all others that do, in whatever order the deployments are listed. -/
theorem server?_least :
    (r.server? model version deployments = none ↔
        ∀ d ∈ deployments, r.strategy? model version d = none) ∧
      (∀ d, r.server? model version deployments = some d ↔
        Least r model version deployments d) ∧
      ∀ others, deployments.Perm others →
        r.server? model version others = r.server? model version deployments := by
  refine ⟨?_, fun d => server?_eq_some_iff hdistinct, fun others hperm => ?_⟩
  · rw [← Option.not_isSome_iff_eq_none, server?_isSome_iff]
    simp only [not_exists, not_and, Option.not_isSome_iff_eq_none]
  · have hothers : others.Pairwise fun d e => (d.ns, d.name) ≠ (e.ns, e.name) :=
      (hperm.pairwise_iff Ne.symm).mp hdistinct
    refine Option.ext fun d => ?_
    rw [server?_eq_some_iff hothers, server?_eq_some_iff hdistinct]
    exact ⟨Least.perm hperm.symm, Least.perm hperm⟩

end

/-! ### Three deployments of one version -/

def mnist : RegisteredModel where
  id := "1"
  name := "mnist"

def mnistFirst : ModelVersion where
  id := "2"
  name := "v1"
  modelId := "1"

/-- A deployment that claims to serve the first version of the model. -/
def claimant (ns name : String) : Deployment where
  ns := ns
  name := name
  labels := .ofList [(Deployment.modelLabel, "1"), (Deployment.versionLabel, "2")]

/-- A deployment that is named after the version. -/
def bearer : Deployment where
  ns := "alpha"
  name := "mnist-v1"

theorem server?_least_claimants :
    Least ⟨[], .empty⟩ mnist mnistFirst [claimant "gamma" "a", bearer, claimant "beta" "z"]
        (claimant "beta" "z") ∧
      Records.server? ⟨[], .empty⟩ mnist mnistFirst
        [claimant "beta" "z", claimant "gamma" "a", bearer] = some (claimant "beta" "z") := by
  have hdistinct : [claimant "gamma" "a", bearer, claimant "beta" "z"].Pairwise
      fun d e => (d.ns, d.name) ≠ (e.ns, e.name) := by decide
  have hserver : Records.server? ⟨[], .empty⟩ mnist mnistFirst
      [claimant "gamma" "a", bearer, claimant "beta" "z"] = some (claimant "beta" "z") := by
    decide +kernel
  exact ⟨((server?_least hdistinct).2.1 _).mp hserver,
    ((server?_least hdistinct).2.2 _ (by decide)).trans hserver⟩

end CatalogSync.Correlation
