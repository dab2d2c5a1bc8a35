import CatalogSync.Proofs.Storage.Contention
import CatalogSync.Proofs.Storage.Serializability
import CatalogSync.Proofs.Storage.Wire
import Mathlib.Data.List.Sort
/-!
# Two backends that answer alike

The backend that keeps its records in a configuration map answers like the backend in memory, as
long as nobody else writes the map and no write meets more conflicts than it makes up for
(`SoleWriter`). What carries this is that the entries of the map are the records of the other
backend under the texts of their keys (`Holds`): each call keeps it, and gets the same answer
(`alike_inMap`).

The storage service calls its backend and the importer only. So a series of requests gets the same
responses with both backends, and the importer is told the same (`answers_as_in_memory`).
-/

namespace CatalogSync

open Proc (Handler)
open Storage (Store StoredRecord)

/-! ## §1 Markers of 64 bits -/

namespace Storage

/-- A record that is put has a marker of 64 bits. -/
def Backend.Call.Sized : Backend.Call → Prop
  | .put _ record => record.lastUpdate ≤ Natural.max64
  | _ => True

def Service.Call.Sized : Service.Call → Prop
  | .storage c => c.Sized
  | _ => True

theorem PostBody.marker_le {p : PostBody} {n : Nat} (hn : p.marker = .ok n) :
    n ≤ Natural.max64 := by
  rw [marker_eq_ok_iff] at hn
  split at hn
  · rw [hn]
    exact Nat.zero_le _
  · exact Natural.le_of_read64? hn

namespace Service

theorem marker_le_of_targetOf {parameter : Option String} {body : PostBody} {key : ImportKey}
    {marker : Nat} (htarget : targetOf parameter body = .ok (key, marker)) :
    marker ≤ Natural.max64 :=
  PostBody.marker_le (targetOf_eq_ok_iff.mp htarget).2.1

theorem Call.IsRemoval.sized {c : Call} (hc : c.IsRemoval) : c.Sized := by
  cases c with
  | storage c =>
    cases c with
    | put key record => cases hc
    | _ => trivial
  | _ => trivial

theorem makes_stored {key : ImportKey} : Makes Call.Sized (stored key) := by
  refine .bind (.storage trivial) fun found => ?_
  cases found with
  | some record => exact .pure _
  | none => exact .refuse _

/-- Whatever is asked for, the service only puts records with a marker of 64 bits. -/
theorem makes_perform (q : Request) : Makes Call.Sized (perform q) := by
  unfold perform
  cases q with
  | upsert parameter type body =>
    simp only [upsert_eq]
    cases htarget : targetOf parameter body with
    | error e => exact .refuse e
    | ok target =>
      have hmarker := marker_le_of_targetOf htarget
      refine .bind (.locked trivial ?_ trivial) fun outcome => .pure _
      exact .write trivial trivial fun _ => hmarker
  | remove parameter =>
    simp only [remove_eq]
    cases keyOf parameter with
    | error e => exact .refuse e
    | ok key =>
      refine .bind (.locked trivial ?_ trivial) fun _ => .pure _
      exact (makes_erase key).imp fun _ => Call.IsRemoval.sized
  | keySet parameter =>
    simp only [keySet_eq]
    cases keysOf parameter with
    | error e => exact .refuse e
    | ok keys =>
      refine .bind (.locked trivial ?_ trivial) fun _ => .pure _
      exact (makes_keep _).imp fun _ => Call.IsRemoval.sized
  | list => exact .bind (.storage trivial) fun _ => .pure _
  | fetch parameter =>
    simp only [fetch, requiredKey_eq]
    exact .bind (.liftExcept _) fun key => .bind makes_stored fun record => .pure _
  | card parameter =>
    simp only [card, requiredKey_eq]
    refine .bind (.liftExcept _) fun key => .bind makes_stored fun record => ?_
    cases record.modelCard with
    | some text => exact .pure _
    | none => exact .refuse _

end Service

-- The procedure is given by an equation, so that nothing that is proved of it looks into it.
theorem Router.calls_of_handle {r : Incoming} {p : Proc Service.interface Http.Response}
    (hp : handle r = p) : p.Calls Service.Call.Sized := by
  cases hq : asked? r with
  | none =>
    obtain ⟨answer, hhandle⟩ := handle_of_not_asked hq
    rw [← hp, hhandle]
    trivial
  | some q =>
    rw [← hp, handle_of_asked hq]
    exact Proc.Calls.bind (Service.makes_perform q) fun _ => trivial

end Storage

namespace ConfigMap

variable {κ : Type} {h : Handler interface κ} {object : κ → Option ConfigMap} {refusals : κ → Nat}
  {k : κ}

/-! ## §2 A map without other writers -/

/-- A cluster whose map nobody else writes. It may refuse to replace the map as if others had been
faster, but no more than twice in a row; `refusals` counts how often it has done so. -/
structure SoleWriter (h : Handler interface κ) (object : κ → Option ConfigMap)
    (refusals : κ → Nat) : Prop where
  read : ∀ k, (h .read k).1 = .ok (object k) ∧ object (h .read k).2 = object k ∧
    refusals (h .read k).2 = refusals k
  created : ∀ draft k, object k = none → ∃ m, (h (.create draft) k).1 = .ok m ∧
    object (h (.create draft) k).2 = some m ∧ m.entries = draft.entries ∧
      refusals (h (.create draft) k).2 = refusals k
  -- The current map is replaced, or a conflict is claimed and nothing is changed.
  replaced : ∀ m k current, object k = some current → m.version = current.version →
    ((h (.replace m) k).1 = .ok () ∧ refusals (h (.replace m) k).2 = 0 ∧
      ∃ stored, object (h (.replace m) k).2 = some stored ∧ stored.entries = m.entries) ∨
    ((h (.replace m) k).1 = .error (.cluster (some 409)) ∧ refusals k < 2 ∧
      refusals (h (.replace m) k).2 = refusals k + 1 ∧ object (h (.replace m) k).2 = object k)

/-- The entries of a map that may be missing. -/
def entriesOf (m : Option ConfigMap) : SortedMap String Bytes := (m.map (·.entries)).getD .empty

theorem run_ask (h : Handler interface κ) (c : Call) (k : κ) : (ask c).proc.run h k = h c k := rfl

namespace SoleWriter

variable (cluster : SoleWriter h object refusals)
include cluster

/-- Loading brings the map, and creates it without entries where there is none. -/
theorem run_load (k : κ) : ∃ m k', load.proc.run h k = (.ok m, k') ∧ object k' = some m ∧
    m.entries = entriesOf (object k) ∧ refusals k' = refusals k := by
  obtain ⟨hread, hkept, hrefusals⟩ := cluster.read k
  unfold load
  rw [Task.run_bind, run_ask, hread]
  cases hobject : object k with
  | some m => exact ⟨m, _, rfl, hkept.trans hobject, rfl, hrefusals⟩
  | none =>
    obtain ⟨m, hanswer, hcreated, hentries, hsame⟩ :=
      cluster.created fresh _ (hkept.trans hobject)
    refine ⟨m, (h (.create fresh) (h .read k).2).2, ?_, hcreated, hentries, hsame.trans hrefusals⟩
    show ((ask (.create fresh)).outcome >>= _).proc.run h _ = _
    rw [Task.run_outcome_bind, run_ask, hanswer]
    rfl

variable (change : SortedMap String Bytes → Option (SortedMap String Bytes))

/-- Where there is nothing to change, nothing is. -/
theorem run_modify_of_none (hchange : change (entriesOf (object k)) = none) (more : Nat) :
    ∃ k', (modify change more).proc.run h k = (.ok false, k') ∧
      entriesOf (object k') = entriesOf (object k) ∧ refusals k' = refusals k := by
  obtain ⟨m, k', hload, hobject, hentries, hrefusals⟩ := cluster.run_load k
  refine ⟨k', ?_, by rw [hobject]; exact hentries, hrefusals⟩
  cases more
  all_goals
    rw [modify, Task.run_bind, hload]
    simp only [Task.andThen, hentries, hchange]
    rfl

/-- A change is made as long as more attempts are left than conflicts can be claimed. -/
theorem run_modify_of_some {entries : SortedMap String Bytes} {more : Nat}
    (hchange : change (entriesOf (object k)) = some entries) (hmore : 2 ≤ refusals k + more) :
    ∃ k', (modify change more).proc.run h k = (.ok true, k') ∧
      entriesOf (object k') = entries ∧ refusals k' = 0 := by
  induction more generalizing k with
  | zero =>
    obtain ⟨m, k₁, hload, hobject, hentries, hrefusals⟩ := cluster.run_load k
    rw [modify, Task.run_bind, hload]
    simp only [Task.andThen, hentries, hchange]
    rw [Task.run_bind, run_ask]
    obtain ⟨hok, hnone, stored, hstored, hsame⟩ | ⟨-, hfew, -⟩ :=
      cluster.replaced { m with entries } k₁ m hobject rfl
    · rw [hok]
      exact ⟨_, rfl, by rw [hstored]; exact hsame, hnone⟩
    · omega
  | succ more ih =>
    obtain ⟨m, k₁, hload, hobject, hentries, hrefusals⟩ := cluster.run_load k
    rw [modify, Task.run_bind, hload]
    simp only [Task.andThen, hentries, hchange]
    rw [Task.run_outcome_bind, run_ask]
    obtain ⟨hok, hnone, stored, hstored, hsame⟩ | ⟨hrefused, -, hcount, hkept⟩ :=
      cluster.replaced { m with entries } k₁ m hobject rfl
    · rw [hok]
      exact ⟨_, rfl, by rw [hstored]; exact hsame, hnone⟩
    · -- The map is as it was, and one conflict less can be claimed.
      have hagain : entriesOf (object (h (.replace { m with entries }) k₁).2) =
          entriesOf (object k) := by
        rw [hkept, hobject]
        exact hentries
      rw [hrefused]
      exact ih (by rw [hagain]; exact hchange) (by omega)

end SoleWriter

/-! ## §3 Records as entries -/

/-- The entries are the records under the texts of their keys, and nothing else. -/
structure Holds (entries : SortedMap String Bytes) (s : Store) : Prop where
  get? : ∀ key : ImportKey, entries.get? key.text = (s.get? key).map StoredRecord.encode
  named : ∀ name ∈ entries.keys, ∃ key : ImportKey, key.text = name
  sized : ∀ key record, s.get? key = some record → record.lastUpdate ≤ Natural.max64

namespace Holds

variable {entries : SortedMap String Bytes} {s : Store} {key : ImportKey}

theorem empty : Holds .empty .empty where
  get? _ := rfl
  named _ hname := nomatch hname
  sized _ _ hrecord := nomatch hrecord

/-- A key gets another record, or loses the one it had. -/
theorem set (hs : Holds entries s) {entries' : SortedMap String Bytes} {s' : Store}
    {value : Option StoredRecord} (hvalue : ∀ r ∈ value, r.lastUpdate ≤ Natural.max64)
    (hentries : ∀ name, entries'.get? name =
      if name = key.text then value.map StoredRecord.encode else entries.get? name)
    (hstore : ∀ k, s'.get? k = if k = key then value else s.get? k) : Holds entries' s' where
  get? k := by
    rw [hentries, hstore]
    by_cases hk : k = key
    · rw [if_pos hk, if_pos (congrArg ImportKey.text hk)]
    · rw [if_neg hk, if_neg fun htext => hk (ImportKey.ext_text htext)]
      exact hs.get? k
  named name hname := by
    rw [SortedMap.mem_keys_iff, hentries] at hname
    by_cases hkey : name = key.text
    · exact ⟨key, hkey.symm⟩
    · rw [if_neg hkey] at hname
      exact hs.named name ((SortedMap.mem_keys_iff _ _).mpr hname)
  sized k r hr := by
    rw [hstore] at hr
    by_cases hk : k = key
    · rw [if_pos hk] at hr
      exact hvalue r hr
    · rw [if_neg hk] at hr
      exact hs.sized k r hr

theorem insert (hs : Holds entries s) {record : StoredRecord}
    (hrecord : record.lastUpdate ≤ Natural.max64) :
    Holds (entries.insert key.text record.encode) (s.insert key record) := by
  have hvalue : ∀ r ∈ some record, r.lastUpdate ≤ Natural.max64 := by
    intro r hr
    rw [← Option.some.inj hr]
    exact hrecord
  exact hs.set hvalue (SortedMap.get?_insert _ _ _) (SortedMap.get?_insert _ _ _)

theorem erase (hs : Holds entries s) : Holds (entries.erase key.text) (s.erase key) := by
  have hvalue : ∀ r ∈ (none : Option StoredRecord), r.lastUpdate ≤ Natural.max64 := nofun
  exact hs.set hvalue (SortedMap.get?_erase entries key.text) (SortedMap.get?_erase s key)

theorem contains_eq (hs : Holds entries s) (key : ImportKey) :
    entries.contains key.text = s.contains key := by
  rw [SortedMap.contains, SortedMap.contains, hs.get?, Option.isSome_map]

theorem mem_keys_iff (hs : Holds entries s) (key : ImportKey) :
    key.text ∈ entries.keys ↔ key ∈ s.keys := by
  rw [SortedMap.mem_keys_iff, SortedMap.mem_keys_iff, hs.get?, Option.isSome_map]

/-- The keys are listed in the order of their texts, which is that of the keys. -/
theorem keys_eq {m : ConfigMap} (hs : Holds m.entries s) : m.keys = s.keys := by
  have htext : ∀ {name : String} {key : ImportKey},
      (ImportKey.parse name).toOption = some key → name = key.text := by
    intro name key hparse
    unfold ImportKey.parse at hparse
    split at hparse
    · obtain rfl := Option.some.inj hparse
      rfl
    · cases hparse
  have hascending : m.keys.Pairwise (· < ·) := by
    refine List.Pairwise.filterMap _ (fun name name' hlt key hkey key' hkey' => ?_)
      m.entries.pairwise_keys
    rw [htext hkey, htext hkey'] at hlt
    exact hlt
  have hmem : ∀ key, key ∈ m.keys ↔ key ∈ s.keys := by
    intro key
    rw [← hs.mem_keys_iff key]
    unfold keys
    rw [List.mem_filterMap]
    constructor
    · intro ⟨name, hname, hparse⟩
      exact htext hparse ▸ hname
    · intro hkey
      exact ⟨key.text, hkey, by rw [ImportKey.parse_text]; rfl⟩
  have hirreflexive : Std.Irrefl (α := ImportKey) (· < ·) := ⟨fun _ => Std.lt_irrefl⟩
  have hantisymmetric : Std.Antisymm (α := ImportKey) (· < ·) :=
    ⟨fun _ _ hab hba => absurd (Std.lt_trans hab hba) Std.lt_irrefl⟩
  exact hascending.eq_of_mem_iff s.pairwise_keys hmem

end Holds

/-! ## §4 The backend -/

/-- The backend whose records are the entries of a map. -/
def inMap (h : Handler interface κ) : Handler Storage.Backend.interface κ :=
  fun c => (answer c).run h

/-- The map of the cluster holds the records, and no conflict was claimed since it was written. -/
def Mirrors (object : κ → Option ConfigMap) (refusals : κ → Nat) (k : κ) (s : Store) : Prop :=
  refusals k = 0 ∧ Holds (entriesOf (object k)) s

/-- Each call to the backend in the map is answered as in memory. -/
theorem SoleWriter.alike_inMap (cluster : SoleWriter h object refusals) :
    Proc.Alike Storage.Backend.Call.Sized (Mirrors object refusals) (inMap h) Store.handler := by
  intro c k s hc ⟨hnone, hholds⟩
  -- No attempt of the last write has been refused, so all are left.
  have hmore : 2 ≤ refusals k + (maxAttempts - 1) := Nat.le_add_left _ _
  cases c with
  | get key =>
    obtain ⟨m, k', hload, hobject, hentries, hrefusals⟩ := cluster.run_load k
    have hm : Holds m.entries s := hentries ▸ hholds
    have hkept : Mirrors object refusals k' s :=
      ⟨hrefusals.trans hnone, by rw [hobject]; exact hm⟩
    show ((get key).proc.run h k).1 = .ok (s.get? key) ∧
      Mirrors object refusals ((get key).proc.run h k).2 s
    have hget := hm.get? key
    rw [get, Task.run_bind, hload]
    simp only [Task.andThen, hget]
    cases hrecord : s.get? key with
    | none => exact ⟨rfl, hkept⟩
    | some record =>
      have hread := StoredRecord.read_encode (hm.sized key record hrecord) key.text
      simp only [Option.map_some]
      rw [Task.run_bind, hread]
      exact ⟨rfl, hkept⟩
  | put key record =>
    obtain ⟨k', hrun, hentries, hrefusals⟩ := cluster.run_modify_of_some (k := k)
      (fun entries => some (entries.insert key.text record.encode)) rfl hmore
    show ((put key record).proc.run h k).1 = .ok () ∧
      Mirrors object refusals ((put key record).proc.run h k).2 (s.insert key record)
    rw [put, Task.run_bind, hrun]
    exact ⟨rfl, hrefusals, hentries ▸ hholds.insert hc⟩
  | remove key =>
    show ((remove key).proc.run h k).1 = .ok (s.contains key) ∧
      Mirrors object refusals ((remove key).proc.run h k).2 (s.erase key)
    rw [remove, ← hholds.contains_eq key]
    cases hcontains : (entriesOf (object k)).contains key.text with
    | true =>
      obtain ⟨k', hrun, hentries, hrefusals⟩ := cluster.run_modify_of_some (k := k)
        (without key.text) (by rw [without, hcontains, if_pos rfl]) hmore
      rw [hrun]
      exact ⟨rfl, hrefusals, hentries ▸ hholds.erase⟩
    | false =>
      obtain ⟨k', hrun, hentries, hrefusals⟩ := cluster.run_modify_of_none (k := k)
        (without key.text) (by rw [without, hcontains]; rfl) (maxAttempts - 1)
      have hsame : s.erase key = s := by
        refine SortedMap.filterKeys_eq_self fun name hname => ?_
        rw [hholds.contains_eq, SortedMap.contains, Option.isSome_eq_false_iff] at hcontains
        rw [SortedMap.mem_keys_iff] at hname
        rw [bne_iff_ne]
        rintro rfl
        rw [Option.isNone_iff_eq_none.mp hcontains] at hname
        cases hname
      rw [hrun, hsame]
      exact ⟨rfl, hrefusals.trans hnone, hentries ▸ hholds⟩
  | list =>
    obtain ⟨m, k', hload, hobject, hentries, hrefusals⟩ := cluster.run_load k
    have hm : Holds m.entries s := hentries ▸ hholds
    have hkept : Mirrors object refusals k' s :=
      ⟨hrefusals.trans hnone, by rw [hobject]; exact hm⟩
    show (list.proc.run h k).1 = .ok s.keys ∧
      Mirrors object refusals (list.proc.run h k).2 s
    rw [list, Task.run_bind, hload, ← hm.keys_eq]
    exact ⟨rfl, hkept⟩

end ConfigMap

/-! ## §5 The service -/

namespace Storage

namespace Service

/-- What the importer is told, and its answer. -/
abbrev importing : Interface := ⟨Notice, fun _ => Except Fault Unit⟩

/-- The service with a backend and an importer. -/
def staffed {κ ν : Type} (backend : Handler Backend.interface κ) (importer : Handler importing ν) :
    Handler interface (κ × ν)
  | .acquire, s => ((), s)
  | .release, s => ((), s)
  | .storage c, (k, n) => ((backend c k).1, ((backend c k).2, n))
  | .imported key, (k, n) =>
    ((importer (.imported key) n).1, (k, (importer (.imported key) n).2))
  | .removed key, (k, n) => ((importer (.removed key) n).1, (k, (importer (.removed key) n).2))

/-- With backends that answer alike, so does the service. -/
theorem alike_staffed {κ τ ν : Type} {R : κ → τ → Prop} {backend : Handler Backend.interface κ}
    {backend' : Handler Backend.interface τ}
    (alike : Proc.Alike Backend.Call.Sized R backend backend') (importer : Handler importing ν) :
    Proc.Alike Call.Sized (fun s x => R s.1 x.1 ∧ s.2 = x.2) (staffed backend importer)
      (staffed backend' importer) := by
  rintro c ⟨k, n⟩ ⟨x, _⟩ hc ⟨hk, rfl⟩
  cases c with
  | acquire => exact ⟨rfl, hk, rfl⟩
  | release => exact ⟨rfl, hk, rfl⟩
  | imported key => exact ⟨rfl, hk, rfl⟩
  | removed key => exact ⟨rfl, hk, rfl⟩
  | storage c =>
    obtain ⟨hanswer, hnext⟩ := alike c k x hc hk
    exact ⟨hanswer, hnext, rfl⟩

end Service

namespace Router

open Service (Notice)

variable {σ τ : Type}

/-- What comes of requests one after another: each response, and what the importer was told. -/
def exchanges (h : Handler Service.interface σ) :
    List Incoming → σ → List (Http.Response × List (Notice × Bool))
  | [], _ => []
  | r :: requests, s => (reply h r s, told h r s) :: exchanges h requests (next h r s)

theorem exchanges_alike {R : σ → τ → Prop} {h : Handler Service.interface σ}
    {h' : Handler Service.interface τ} (alike : Proc.Alike Service.Call.Sized R h h')
    (requests : List Incoming) {s : σ} {x : τ} (hs : R s x) :
    exchanges h requests s = exchanges h' requests x := by
  induction requests generalizing s x with
  | nil => rfl
  | cons r requests ih =>
    rw [exchanges, exchanges]
    unfold reply told next
    generalize hp : handle r = p
    obtain ⟨hreply, htrace, hnext⟩ := (calls_of_handle hp).run_alike alike hs
    rw [hreply, htrace, ih hnext]

end Router

end Storage

namespace ConfigMap

open Storage Router in
/-- From a map that is not there yet, the backend in the map answers every series of calls as the
backend in memory does from no records. So every series of requests gets the same responses with
both, and the importer is told the same, whatever it answers. -/
theorem answers_as_in_memory {κ : Type} {h : Handler interface κ} {object : κ → Option ConfigMap}
    {refusals : κ → Nat} (cluster : SoleWriter h object refusals) {k : κ}
    (missing : object k = none) (unrefused : refusals k = 0) :
    (∀ calls : List Backend.Call, (∀ c ∈ calls, c.Sized) →
      Proc.answers (inMap h) calls k = Proc.answers Store.handler calls .empty) ∧
    ∀ {ν : Type} (importer : Handler Service.importing ν) (n : ν) (requests : List Incoming),
      exchanges (Service.staffed (inMap h) importer) requests (k, n) =
        exchanges (Service.staffed Store.handler importer) requests (.empty, n) := by
  have hmirrors : Mirrors object refusals k .empty := by
    refine ⟨unrefused, ?_⟩
    rw [missing]
    exact .empty
  constructor
  · intro calls hcalls
    exact Proc.answers_alike cluster.alike_inMap hcalls hmirrors
  · intro ν importer n requests
    exact exchanges_alike (Service.alike_staffed cluster.alike_inMap importer) requests
      ⟨hmirrors, rfl⟩

/-! ### A cluster that claims two conflicts each time -/

/-- A cluster that claims two conflicts before it replaces a map. -/
def reluctant : Handler interface (Numbered × Nat)
  | .read, (s, n) => ((Numbered.handler (.inl .read) s).1, (s, n))
  | .create draft, (s, n) =>
    ((Numbered.handler (.inl (.create draft)) s).1,
      ((Numbered.handler (.inl (.create draft)) s).2, n))
  | .replace m, (s, n) =>
    if n < 2 then (.error (.cluster (some 409)), (s, n + 1))
    else ((Numbered.handler (.inl (.replace m)) s).1,
      ((Numbered.handler (.inl (.replace m)) s).2, 0))

theorem soleWriter_reluctant : SoleWriter reluctant (·.1.object) (·.2) where
  read _ := ⟨rfl, rfl, rfl⟩
  created draft k hk := by
    obtain ⟨⟨_ | current, next⟩, n⟩ := k
    · exact ⟨_, rfl, rfl, rfl, rfl⟩
    · cases hk
  replaced m k current hcurrent hversion := by
    obtain ⟨⟨object, next⟩, n⟩ := k
    obtain rfl : object = some current := hcurrent
    by_cases hn : n < 2
    · have hrefused : reluctant (.replace m) (⟨some current, next⟩, n) =
          (.error (.cluster (some 409)), (⟨some current, next⟩, n + 1)) := if_pos hn
      rw [hrefused]
      exact .inr ⟨rfl, hn, rfl, rfl⟩
    · have hreplaced : reluctant (.replace m) (⟨some current, next⟩, n) =
          (.ok (), (Numbered.store next m, 0)) := by
        have hstored := Numbered.handler_replace_of_current hversion next
        unfold reluctant
        simp only [if_neg hn, hstored]
      rw [hreplaced]
      exact .inl ⟨rfl, rfl, _, rfl, rfl⟩

def putListRemove : List Storage.Backend.Call :=
  [.put firstKey { body := [0x78], lastUpdate := 5 }, .list, .remove firstKey, .remove firstKey]

open Storage Router in
theorem answers_as_in_memory_reluctant :
    Proc.answers (inMap reluctant) putListRemove ({}, 0) =
        [⟨.put firstKey { body := [0x78], lastUpdate := 5 }, .ok ()⟩, ⟨.list, .ok [firstKey]⟩,
          ⟨.remove firstKey, .ok true⟩, ⟨.remove firstKey, .ok false⟩] ∧
      exchanges (Service.staffed (inMap reluctant) fun _ n => (.ok (), n + 1))
          [olderWrite, removal] (({}, 0), 0) =
        exchanges (Service.staffed Store.handler fun _ n => (.ok (), n + 1))
          [olderWrite, removal] (.empty, 0) ∧
      attempts ((answer (.remove firstKey)).trace reluctant
        (inMap reluctant (.put firstKey { body := [0x78], lastUpdate := 5 }) ({}, 0)).2) = 3 := by
  have hsame := answers_as_in_memory soleWriter_reluctant (k := ({}, 0)) rfl rfl
  refine ⟨?_, hsame.2 _ 0 [olderWrite, removal], by rfl⟩
  have hsized : ∀ c ∈ putListRemove, c.Sized := by
    simp [putListRemove, Backend.Call.Sized, Natural.max64]
  exact hsame.1 putListRemove hsized

end ConfigMap

end CatalogSync
