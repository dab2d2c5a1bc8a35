import CatalogSync.Proofs.Json.RoundTrip
import CatalogSync.Proofs.Naming.ImportKey
import CatalogSync.Proofs.Number.Natural
import CatalogSync.Storage.Wire
/-!
# Documents between publisher and storage

The documents that publisher and storage service exchange are read as they were written: the body of
a write with its marker, and the answers to a write and to a key set. So are the records that the
service keeps in a configuration map.
-/

namespace CatalogSync.Storage

open Json (Decoded Decodable Readable decode outline)

/-! ## §1 Writes -/

theorem decode_payload (p : Payload) : (decode p.toJson : Decoded Payload) = .ok p := by
  unfold Payload.toJson
  simp only [decode, bind, Except.bind, Text.Base64.decode?_encode, pure, Except.pure]

namespace PostBody

theorem readable_toJson (p : PostBody) :
    Readable .compact (outline PostBody) Json.maxDepth p.toJson := by
  refine Readable.obj .compact fun m hm => ?_
  simp only [List.mem_cons, List.not_mem_nil, or_false] at hm
  rcases hm with rfl | rfl | rfl | rfl
  all_goals exact ⟨.whole, rfl, Json.readable_str _ _ _ _⟩

theorem decode_toJson (p : PostBody) : (decode p.toJson : Decoded PostBody) = .ok p := by
  have hbody := decode_payload ⟨p.body⟩
  have hgiven : readGiven p.toJson =
      (decode (Payload.toJson ⟨p.body⟩) : Decoded Payload).map fun payload =>
        ⟨some payload, some p.lastUpdate, some p.modelCardKey, some p.modelCard⟩ := by
    show ((decode (Payload.toJson ⟨p.body⟩) : Decoded Payload).map some >>= fun _ => _) = _
    rw [hbody]
    rfl
  show (readGiven p.toJson >>= ofGiven) = _
  rw [hgiven, hbody]
  rfl

/-- The body of a write is read as it was sent. -/
theorem ofBytes_toJson (p : PostBody) :
    ofBytes (Text.Utf8.encode p.toJson.compact) = .ok p := by
  rw [ofBytes, Json.documentChars_encode, Json.toList_compact,
    Json.readAs_written p.readable_toJson]
  simp only [decode_toJson]
  rfl

/-- The marker of a body is the number that was written. -/
theorem marker_of_render {p : PostBody} {n : Nat} (hp : p.lastUpdate = Natural.render n)
    (hn : n ≤ Natural.max64) : p.marker = .ok n := by
  have htrim : Text.trim (Natural.render n) = Natural.render n :=
    Text.trim_eq_self (Natural.isBlank_render n)
  unfold marker
  simp only [hp, htrim, Natural.isEmpty_render, Natural.toList_render,
    Natural.read64?_digitsOf hn]
  rfl

/-- A body without a marker has the marker 0. -/
theorem marker_eq_ok_iff {p : PostBody} {n : Nat} :
    p.marker = .ok n ↔ if Text.trim p.lastUpdate = "" then n = 0
      else Natural.read64? (Text.trim p.lastUpdate).toList = some n := by
  unfold marker
  simp only [String.isEmpty_iff]
  split
  · simp [eq_comm]
  · cases Natural.read64? (Text.trim p.lastUpdate).toList <;> simp

end PostBody

/-! ## §2 Answers -/

theorem decode_importKey (key : ImportKey) : (decode key.toJson : Decoded ImportKey) = .ok key := by
  unfold ImportKey.toJson
  simp only [decode, bind, Except.bind, ImportKey.parse_text]

theorem UpsertResponse.decode_written (r : UpsertResponse) :
    Json.ofBytes? UpsertResponse (Text.Utf8.encode r.toJson.compact) = some (.ok r) := by
  have hreadable : Readable .compact (outline UpsertResponse) Json.maxDepth r.toJson := by
    refine Readable.obj .compact fun m hm => ?_
    simp only [List.mem_cons, List.not_mem_nil, or_false] at hm
    rcases hm with rfl | rfl
    all_goals exact ⟨.whole, rfl, Json.readable_str _ _ _ _⟩
  have houtcome : (decode (.str r.outcome.name) : Decoded WriteOutcome) = .ok r.outcome := by
    cases r.outcome <;> rfl
  rw [Json.ofBytes?_compact hreadable]
  show some ((decode r.key.toJson : Decoded ImportKey) >>= fun key =>
    (decode (.str r.outcome.name) : Decoded WriteOutcome) >>= fun outcome =>
      (.ok ⟨key, outcome⟩ : Decoded UpsertResponse)) = _
  rw [decode_importKey, houtcome]
  rfl

theorem KeySetResponse.decode_written (r : KeySetResponse) :
    Json.ofBytes? KeySetResponse (Text.Utf8.encode r.toJson.compact) = some (.ok r) := by
  have hkeys : Readable .compact .whole 126 (.arr (r.removed.map ImportKey.toJson)) := by
    refine Readable.arr .compact rfl fun item hitem => ?_
    obtain ⟨key, -, rfl⟩ := List.mem_map.mp hitem
    exact Json.readable_str _ _ _ _
  have hreadable : Readable .compact (outline KeySetResponse) Json.maxDepth r.toJson := by
    refine Readable.obj .compact fun m hm => ?_
    obtain rfl := List.mem_singleton.mp hm
    exact ⟨.whole, rfl, hkeys⟩
  have hremoved : ∀ keys : List ImportKey,
      (keys.map ImportKey.toJson).mapM (decode : Json → Decoded ImportKey) = .ok keys := by
    intro keys
    induction keys with
    | nil => rfl
    | cons key keys ih =>
      rw [List.map_cons, List.mapM_cons, decode_importKey, ih]
      rfl
  rw [Json.ofBytes?_compact hreadable]
  show some ((r.removed.map ImportKey.toJson).mapM (decode : Json → Decoded ImportKey) >>=
    fun removed => (.ok ⟨removed⟩ : Decoded KeySetResponse)) = _
  rw [hremoved]
  rfl

/-! ## §3 Records -/

namespace StoredRecord

theorem readable_toJson {r : StoredRecord} (hr : r.lastUpdate ≤ Natural.max64) :
    Readable .compact (outline StoredRecord) Json.maxDepth r.toJson := by
  have hcard : ∀ m ∈ Json.optionalMember "modelCard" (r.modelCard.map .str),
      ∃ text, m = ("modelCard", .str text) := by
    intro m hm
    cases hcard : r.modelCard with
    | none =>
      rw [hcard] at hm
      cases hm
    | some text =>
      rw [hcard] at hm
      exact ⟨text, List.mem_singleton.mp hm⟩
  refine Readable.obj .compact fun m hm => ?_
  simp only [List.mem_append, List.mem_cons, List.not_mem_nil, or_false] at hm
  rcases hm with ((rfl | rfl | rfl) | hm) | rfl
  · exact ⟨.whole, rfl, Json.readable_str _ _ _ _⟩
  · exact ⟨.whole, rfl, Json.readable_nat _ _ _ hr⟩
  · exact ⟨.whole, rfl, Json.readable_str _ _ _ _⟩
  · obtain ⟨text, rfl⟩ := hcard m hm
    exact ⟨.whole, rfl, Json.readable_str _ _ _ _⟩
  · exact ⟨.whole, rfl, Json.readable_bool _ _ _ _⟩

theorem decode_toJson (r : StoredRecord) : (decode r.toJson : Decoded StoredRecord) = .ok r := by
  have hprovenance : (decode (.str r.provenance.name) : Decoded Provenance) = .ok r.provenance := by
    show Except.ok (Provenance.ofName r.provenance.name) = _
    rw [Provenance.ofName_name]
  have hread : (decode r.toJson : Decoded StoredRecord) =
      (decode (Payload.toJson ⟨r.body⟩) : Decoded Payload) >>= fun body =>
        (decode (.str r.provenance.name) : Decoded Provenance) >>= fun provenance =>
          .ok { r with body := body.bytes, provenance } := by
    obtain ⟨body, lastUpdate, provenance, modelCard, imported⟩ := r
    cases modelCard <;> rfl
  rw [hread, decode_payload, hprovenance]
  rfl

/-- A record is read from its entry as it was written. -/
theorem read_encode {r : StoredRecord} (hr : r.lastUpdate ≤ Natural.max64) (key : String) :
    read key r.encode = .ok r := by
  rw [read, encode, Json.ofBytes?_compact (readable_toJson hr), decode_toJson]

end StoredRecord

end CatalogSync.Storage
