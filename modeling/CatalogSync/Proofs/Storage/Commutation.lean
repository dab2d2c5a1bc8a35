import CatalogSync.Proofs.Storage.Deposit
import CatalogSync.Proofs.Storage.Serializability
/-!
# Writes in any order

Beside a backend that does not fail and an importer that takes every notice, a valid write offers
its record to the store, and the importer is told unless the record is heeded (`Deposit.of_wrote`).
So a series of writes offers records one after another, and the importer is told about a key once if
at all (`importNotices_eq`). Where the markers for one key differ, neither the records that are left nor
the numbers of notices depend on the order (`writes_commute`).
-/

namespace CatalogSync.Storage

open Proc (Handler)
open Service (Backed Heard Notice Reliable Rejection Wrote)

variable {σ : Type} {h : Handler Service.interface σ} {store : σ → Store} {s : σ}

/-! ## §1 One write -/

/-- A write offers its record to the store, and the importer is told unless the record is heeded. -/
theorem Deposit.of_wrote (reliable : Reliable h) (heard : Heard h) {key : ImportKey}
    {body : PostBody} {marker : Nat} {provenance : Provenance} {before after : Store}
    {r : Except Rejection WriteOutcome} {told : List (Notice × Bool)}
    (hw : Wrote h key (Service.recordOf body marker provenance) before r after told) :
    let x : Deposit := ⟨key, Service.recordOf body marker provenance true⟩
    after = x.into before ∧ (x.Heeded before → told = []) ∧
      (¬ x.Heeded before → told = [(.imported key, true)]) := by
  intro x
  have hannounced : ∀ {imported : Bool}, Service.Announced h key false imported told →
      imported = true ∧ told = [(.imported key, true)] := by
    intro imported htold
    cases htold with
    | told _ hreliable hheard =>
      rw [hreliable reliable, hheard heard]
      exact ⟨rfl, rfl⟩
  cases hw with
  | refused hfail => exact absurd reliable hfail
  | @ignored old hold holder =>
    refine ⟨(if_pos ?_).symm, fun _ => rfl, fun hunheeded => ?_⟩
    · rw [hold]
      exact decide_eq_true holder
    · exact absurd ⟨old, hold, .inl holder⟩ hunheeded
  | created hnew htold =>
    obtain ⟨rfl, honce⟩ := hannounced htold
    refine ⟨(if_neg ?_).symm, fun hheeded => ?_, fun _ => honce⟩
    · rw [hnew]
      exact Bool.false_ne_true
    · obtain ⟨old, hold, -⟩ := hheeded
      cases hnew.symm.trans hold
  | @updated old imported _ hold hnotOlder htold =>
    have hplace : ¬ ((before.get? key).any fun old => x.record.lastUpdate < old.lastUpdate) =
        true := by
      rw [hold]
      exact fun h => Nat.not_lt.mpr hnotOlder (of_decide_eq_true h)
    cases himported : old.imported with
    | true =>
      rw [himported] at htold
      cases htold with
      | known =>
        exact ⟨(if_neg hplace).symm, fun _ => rfl, fun h => absurd ⟨old, hold, .inr himported⟩ h⟩
    | false =>
      rw [himported] at htold
      obtain ⟨rfl, honce⟩ := hannounced htold
      refine ⟨(if_neg hplace).symm, fun hheeded => ?_, fun _ => honce⟩
      obtain ⟨old', hold', hnewer | himported'⟩ := hheeded
      · cases hold.symm.trans hold'
        exact absurd hnewer (Nat.not_lt.mpr hnotOlder)
      · cases hold.symm.trans hold'
        cases himported.symm.trans himported'

namespace Router

/-- The record that an incoming request offers if it is a valid write, as it is kept when the
importer knows it. -/
def offered? (r : Incoming) : Option Deposit :=
  match asked? r with
  | some (.upsert parameter type body) =>
    match Service.targetOf parameter body with
    | .ok (key, marker) => some ⟨key, Service.recordOf body marker (.ofParameter type) true⟩
    | .error _ => none
  | _ => none

theorem asked?_of_offered {r : Incoming} {x : Deposit} (hx : offered? r = some x) :
    ∃ parameter type body key marker, asked? r = some (.upsert parameter type body) ∧
      Service.targetOf parameter body = .ok (key, marker) ∧
      x = ⟨key, Service.recordOf body marker (.ofParameter type) true⟩ := by
  unfold offered? at hx
  split at hx
  next parameter type body hq =>
    split at hx
    next key marker htarget =>
      exact ⟨parameter, type, body, key, marker, hq, htarget, (Option.some.inj hx).symm⟩
    next => cases hx
  next => cases hx

theorem imported_of_offered {r : Incoming} {x : Deposit} (hx : offered? r = some x) :
    x.record.imported = true := by
  obtain ⟨_, _, _, _, _, -, -, rfl⟩ := asked?_of_offered hx
  rfl

section

variable (backed : Backed h store) (reliable : Reliable h) (heard : Heard h)
include backed reliable heard

theorem next_of_offered {r : Incoming} {x : Deposit} (hx : offered? r = some x) (s : σ) :
    store (next h r s) = x.into (store s) ∧ (x.Heeded (store s) → told h r s = []) ∧
      (¬ x.Heeded (store s) → told h r s = [(.imported x.key, true)]) := by
  obtain ⟨parameter, type, body, key, marker, hq, htarget, rfl⟩ := asked?_of_offered hx
  obtain ⟨w, -, hw⟩ := wrote_of_asked backed hq htarget s
  exact Deposit.of_wrote reliable heard hw

end

/-! ## §2 Series of writes -/

/-- How often the importer is told in a series of requests that a record is there. -/
def importNotices (h : Handler Service.interface σ) (requests : List Incoming) (s : σ)
    (key : ImportKey) : Nat := ((toldIn h requests s).map (·.1)).count (.imported key)

/-- The records that the valid writes among some requests offer. -/
def offers (requests : List Incoming) : List Deposit := requests.filterMap offered?

theorem offers_cons {r : Incoming} {x : Deposit} (hx : offered? r = some x)
    (requests : List Incoming) : offers (r :: requests) = x :: offers requests :=
  List.filterMap_cons_some hx

/-- The records that are offered for one key. -/
def offersFor (key : ImportKey) (requests : List Incoming) : List StoredRecord :=
  ((offers requests).filter fun x => x.key = key).map (·.record)

/-- All requests are valid writes. -/
def AllOffer (requests : List Incoming) : Prop := ∀ r ∈ requests, (offered? r).isSome = true

theorem AllOffer.head {r : Incoming} {requests : List Incoming} (hall : AllOffer (r :: requests)) :
    ∃ x, offered? r = some x := Option.isSome_iff_exists.mp (hall r List.mem_cons_self)

theorem AllOffer.tail {r : Incoming} {requests : List Incoming} (hall : AllOffer (r :: requests)) :
    AllOffer requests := fun r' hr' => hall r' (List.mem_cons_of_mem _ hr')

section

variable (backed : Backed h store) (reliable : Reliable h) (heard : Heard h)
include backed reliable heard

/-- Writes offer their records one after another. -/
theorem store_after {requests : List Incoming} (hall : AllOffer requests) (s : σ) :
    store (after h requests s) = Deposit.intoAll (offers requests) (store s) := by
  induction requests generalizing s with
  | nil => rfl
  | cons r requests ih =>
    obtain ⟨x, hx⟩ := hall.head
    rw [after_cons, ih hall.tail, (next_of_offered backed reliable heard hx s).1, offers_cons hx]
    rfl

/-- The importer is told about a key once if that is due in the beginning, and never otherwise. -/
theorem importNotices_eq {requests : List Incoming} (hall : AllOffer requests) (key : ImportKey)
    (s : σ) :
    (Deposit.Due (offers requests) key (store s) → importNotices h requests s key = 1) ∧
      (¬ Deposit.Due (offers requests) key (store s) → importNotices h requests s key = 0) := by
  induction requests generalizing s with
  | nil => exact ⟨fun hdue => absurd hdue.choose_spec.1 List.not_mem_nil, fun _ => rfl⟩
  | cons r requests ih =>
    obtain ⟨x, hx⟩ := hall.head
    obtain ⟨hnext, hheeded, hunheeded⟩ := next_of_offered backed reliable heard hx s
    obtain ⟨hdue, hnotDue⟩ := ih hall.tail (next h r s)
    have hcount : importNotices h (r :: requests) s key =
        ((told h r s).map (·.1)).count (.imported key) +
          importNotices h requests (next h r s) key := by
      unfold importNotices
      rw [toldIn, List.map_append, List.count_append]
    rw [hnext, Deposit.due_into_iff (imported_of_offered hx)] at hdue hnotDue
    rw [hcount, offers_cons hx, Deposit.due_cons_iff]
    by_cases hfirst : x.key = key ∧ ¬ x.Heeded (store s)
    · rw [hunheeded hfirst.2, hnotDue fun hrest => hrest.2 hfirst]
      refine ⟨fun _ => ?_, fun hnone => absurd (.inl hfirst) hnone⟩
      rw [hfirst.1]
      simp
    · -- The importer hears nothing about the key yet, and what is due stays so.
      have hsilent : ((told h r s).map (·.1)).count (.imported key) = 0 := by
        by_cases hknown : x.Heeded (store s)
        · rw [hheeded hknown]
          rfl
        · have hkey : x.key ≠ key := fun hkey => hfirst ⟨hkey, hknown⟩
          simp [hunheeded hknown, hkey]
      rw [hsilent, Nat.zero_add, or_iff_right hfirst]
      rw [and_iff_left hfirst] at hdue hnotDue
      exact ⟨hdue, hnotDue⟩

/-- Where the markers of writes for one key differ, their order is of no account: the same records
are left, for each key the newest that was sent unless a newer one was there, and the importer is
told as often about each key. -/
theorem writes_commute {requests others : List Incoming} (hperm : requests.Perm others)
    (hvalid : AllOffer requests)
    (hdistinct : (offers requests).Pairwise fun x y =>
      x.key = y.key → x.record.lastUpdate ≠ y.record.lastUpdate) (start : σ) :
    store (after h others start) = store (after h requests start) ∧
      (∀ key, Outlasts ((store start).get? key) (offersFor key requests)
        ((store (after h requests start)).get? key)) ∧
      ∀ key, importNotices h others start key = importNotices h requests start key := by
  have hothers : AllOffer others := fun r hr => hvalid r (hperm.mem_iff.mpr hr)
  have hoffers : (offers requests).Perm (offers others) := hperm.filterMap offered?
  have hstore := store_after backed reliable heard hvalid start
  refine ⟨?_, fun key => ?_, fun key => ?_⟩
  · rw [hstore, store_after backed reliable heard hothers start]
    exact (Deposit.intoAll_perm hoffers hdistinct (store start)).symm
  · rw [hstore, Deposit.get?_intoAll]
    exact outlasts_foldl_newer _ _
  · obtain ⟨hdue, hnotDue⟩ := importNotices_eq backed reliable heard hvalid key start
    obtain ⟨hdue', hnotDue'⟩ := importNotices_eq backed reliable heard hothers key start
    rw [← Deposit.due_perm hoffers] at hdue' hnotDue'
    by_cases hkey : Deposit.Due (offers requests) key (store start)
    · rw [hdue hkey, hdue' hkey]
    · rw [hnotDue hkey, hnotDue' hkey]

end

/-! ### Two writes for one key -/

/-- A write with marker 7, which is as old as the record that is there. -/
def evenWrite : Incoming where
  method := .post
  target := "/upsert?key=team_report"
  contentType := some "application/json"
  body := Text.Utf8.encode "\x7b\"body\":\"eg==\",\"lastUpdateTimeSinceEpoch\":\"7\"\x7d"

theorem offered?_olderWrite :
    offered? olderWrite =
      some ⟨reportKey, { body := [0x79], lastUpdate := 5, imported := true }⟩ := by
  unfold offered?
  rw [asked?_olderWrite]
  rfl

theorem offered?_evenWrite :
    offered? evenWrite =
      some ⟨reportKey, { body := [0x7a], lastUpdate := 7, imported := true }⟩ := by
  have hasked : asked? evenWrite =
      some (.upsert (some "team_report") none { body := [0x7a], lastUpdate := "7" }) := by
    decide +kernel
  unfold offered?
  rw [hasked]
  rfl

theorem writes_commute_tie :
    (after Depot.handler [evenWrite, olderWrite] stocked).store =
        (after Depot.handler [olderWrite, evenWrite] stocked).store ∧
      (after Depot.handler [olderWrite, evenWrite] stocked).store.get? reportKey =
        some { body := [0x7a], lastUpdate := 7, imported := true } ∧
      importNotices Depot.handler [evenWrite, olderWrite] stocked reportKey =
        importNotices Depot.handler [olderWrite, evenWrite] stocked reportKey := by
  have hoffers : offers [olderWrite, evenWrite] =
      [⟨reportKey, { body := [0x79], lastUpdate := 5, imported := true }⟩,
        ⟨reportKey, { body := [0x7a], lastUpdate := 7, imported := true }⟩] := by
    rw [offers_cons offered?_olderWrite, offers_cons offered?_evenWrite]
    rfl
  have hvalid : AllOffer [olderWrite, evenWrite] := by
    simp [AllOffer, offered?_olderWrite, offered?_evenWrite]
  obtain ⟨hsame, hleft, hnotices⟩ := writes_commute Depot.backed_handler Depot.reliable_handler
    Depot.heard_handler (List.Perm.swap evenWrite olderWrite []) hvalid
    (by rw [hoffers]; simp) stocked
  refine ⟨hsame, ?_, hnotices reportKey⟩
  have hstocked : stocked.store.get? reportKey = some { body := [0x78], lastUpdate := 7 } := by
    decide +kernel
  have hreport := hleft reportKey
  simp only [offersFor, hoffers, hstocked, List.filter_cons, decide_true, if_true, List.filter_nil,
    List.map_cons, List.map_nil] at hreport
  generalize (after Depot.handler [olderWrite, evenWrite] stocked).store.get? reportKey = left
    at hreport ⊢
  cases hreport with
  | newest hmem hnewest =>
    have h7 := hnewest _ (List.mem_cons_of_mem _ List.mem_cons_self)
    rcases List.mem_cons.mp hmem with rfl | hmem
    · exact absurd h7 (by decide)
    · rw [List.mem_singleton.mp hmem]
  | former hnewer =>
    obtain ⟨stored, hstored, hlt⟩ := hnewer _ (List.mem_cons_of_mem _ List.mem_cons_self)
    cases hstored
    exact absurd hlt (Nat.lt_irrefl 7)

end Router

end CatalogSync.Storage
