import CatalogSync.Proofs.Storage.Wire
import CatalogSync.Proofs.Text.Base64
/-!
# Bytes inside documents

A record and the body of a write hold bytes as a text. Both are read as they were written, and the
text that is read is that of the bytes and of no others: a document whose text is not canonical
base64 is refused (`documents_round_trip`), even where it breaks off further on.
-/

namespace CatalogSync.Storage

open Json (Decoded Decodable decode outline)
open Text.Base64 (Canonical)

/-! ## §1 Texts of bytes -/

theorem exists_of_bind_eq_ok {ε α β : Type} {x : Except ε α} {f : α → Except ε β} {b : β}
    (h : x.bind f = .ok b) : ∃ a, x = .ok a ∧ f a = .ok b := by
  cases x with
  | error e => cases h
  | ok a => exact ⟨a, rfl, h⟩

theorem decode_payload_eq_ok_iff {v : Json} {p : Payload} :
    (decode v : Decoded Payload) = .ok p ↔ v = .str (Text.Base64.encode p.bytes) := by
  refine ⟨fun h => ?_, fun h => h ▸ decode_payload p⟩
  cases v with
  | str s =>
    simp only [decode, bind, Except.bind] at h
    cases hdecode : Text.Base64.decode? s with
    | none =>
      rw [hdecode] at h
      cases h
    | some bytes =>
      rw [hdecode] at h
      cases h
      rw [Text.Base64.decode?_eq_some_iff.mp hdecode]
  | _ => cases h

/-- The text in which a value gives its bytes, with the members that it may have. -/
def bodyText? (names : List String) (v : Json) : Option String :=
  match Json.record names v with
  | .error _ => none
  | .ok r =>
    match r.find? "body" with
    | some (.str s) => some s
    | _ => none

theorem bodyText?_eq_some_iff {names : List String} {v : Json} {s : String} :
    bodyText? names v = some s ↔
      ∃ r, Json.record names v = .ok r ∧ r.find? "body" = some (.str s) := by
  constructor
  · intro h
    unfold bodyText? at h
    split at h
    · cases h
    · next r hr =>
      split at h
      · next text hfind =>
        cases h
        exact ⟨r, hr, hfind⟩
      · cases h
  · rintro ⟨r, hr, hfind⟩
    simp only [bodyText?, hr, hfind]

theorem bodyText?_of_payload {names : List String} {v : Json} {members : Json.Record} {p : Payload}
    (hmembers : Json.record names v = .ok members)
    (hbody : (members.required "body" : Decoded Payload) = .ok p) :
    bodyText? names v = some (Text.Base64.encode p.bytes) := by
  refine bodyText?_eq_some_iff.mpr ⟨members, hmembers, ?_⟩
  unfold Json.Record.required at hbody
  split at hbody
  · next value hfind => rw [hfind, decode_payload_eq_ok_iff.mp hbody]
  · cases hbody

/-! ## §2 Documents with bytes -/

/-- The value at the front of a document, as far as it was read and a reader keeps it. -/
def partOf (α : Type) [Decodable α] (document : Bytes) : Option Json :=
  match Json.readAs (outline α) (Json.documentChars document) with
  | .whole v _ => some v
  | .broken part _ => part

theorem partOf_written {α : Type} [Decodable α] {v : Json}
    (hv : Json.Readable .compact (outline α) Json.maxDepth v) :
    partOf α (Text.Utf8.encode v.compact) = some v := by
  rw [partOf, Json.documentChars_encode, Json.toList_compact, Json.readAs_written hv]

/-- What a reader accepts shows its bytes as they are written. -/
def ShowsBytes {α ε : Type} [Decodable α] (names : List String) (bytes : α → Bytes)
    (read : Bytes → Except ε α) : Prop :=
  ∀ document a, read document = .ok a →
    ∃ v, partOf α document = some v ∧ bodyText? names v = some (Text.Base64.encode (bytes a))

/-- Such a reader refuses every document whose text is not canonical, whatever else it holds. -/
theorem ShowsBytes.refuses {α ε : Type} [Decodable α] {names : List String} {bytes : α → Bytes}
    {read : Bytes → Except ε α} (h : ShowsBytes names bytes read) {document : Bytes} {v : Json}
    {s : String} (hpart : partOf α document = some v) (hbody : bodyText? names v = some s)
    (hs : ¬ Canonical s.toList) : ∃ e, read document = .error e := by
  cases hread : read document with
  | error e => exact ⟨e, rfl⟩
  | ok a =>
    obtain ⟨w, hw, hshown⟩ := h document a hread
    cases hpart.symm.trans hw
    cases hbody.symm.trans hshown
    exact absurd (Text.Base64.canonical_iff_exists.mpr ⟨_, rfl⟩) hs

/-! ## §3 Records -/

namespace StoredRecord

def memberNames : List String := ["body", "lastUpdate", "provenance", "modelCard", "imported"]

/-- The bytes are the first that is read of a record. -/
theorem decode_eq_bind (v : Json) :
    (decode v : Decoded StoredRecord) = (Json.record memberNames v).bind fun members =>
      (members.required "body" : Decoded Payload).bind fun body =>
        (members.required "lastUpdate").bind fun lastUpdate =>
          (members.withDefault "provenance" .unknown).bind fun provenance =>
            (members.optional "modelCard").bind fun modelCard =>
              (members.withDefault "imported" false).bind fun imported =>
                .ok ⟨body.bytes, lastUpdate, provenance, modelCard, imported⟩ := rfl

/-- A record that was read shows its bytes as they are written. -/
theorem bodyText?_of_decode {v : Json} {r : StoredRecord}
    (h : (decode v : Decoded StoredRecord) = .ok r) :
    bodyText? memberNames v = some (Text.Base64.encode r.body) := by
  rw [decode_eq_bind] at h
  obtain ⟨members, hmembers, h⟩ := exists_of_bind_eq_ok h
  obtain ⟨body, hbody, h⟩ := exists_of_bind_eq_ok h
  obtain ⟨lastUpdate, -, h⟩ := exists_of_bind_eq_ok h
  obtain ⟨provenance, -, h⟩ := exists_of_bind_eq_ok h
  obtain ⟨modelCard, -, h⟩ := exists_of_bind_eq_ok h
  obtain ⟨imported, -, h⟩ := exists_of_bind_eq_ok h
  cases h
  exact bodyText?_of_payload hmembers hbody

theorem showsBytes_read (key : String) : ShowsBytes memberNames body (read key) := by
  intro document r h
  unfold read Json.ofBytes? Json.ofChars? Json.parseAs? at h
  unfold partOf
  generalize Json.readAs (outline StoredRecord) (Json.documentChars document) = reading at h ⊢
  cases reading with
  | broken part pending => cases h
  | whole v rest =>
    refine ⟨v, rfl, bodyText?_of_decode ?_⟩
    cases hspace : (Json.skipSpace rest).isEmpty with
    | false => simp [hspace] at h
    | true =>
      cases hdecode : (decode v : Decoded StoredRecord) with
      | error e => simp [hspace, hdecode] at h
      | ok found =>
        simp only [hspace, hdecode, if_true, Option.map_some, Except.ok.injEq] at h
        rw [h]

end StoredRecord

/-! ## §4 Writes -/

namespace PostBody

/-- The members of a write are read in their order. -/
theorem readGiven_eq_bind (v : Json) :
    readGiven v = (Json.record memberNames v).bind fun members =>
      (given members "body").bind fun body =>
        (given members "lastUpdateTimeSinceEpoch").bind fun lastUpdate =>
          (given members "modelCardKey").bind fun modelCardKey =>
            (given members "modelCard").bind fun modelCard =>
              .ok ⟨body, lastUpdate, modelCardKey, modelCard⟩ := rfl

/-- The text of the bytes of a write that was read. -/
theorem bodyText?_of_decode {v : Json} {p : PostBody}
    (h : (decode v : Decoded PostBody) = .ok p) :
    bodyText? memberNames v = some (Text.Base64.encode p.body) := by
  obtain ⟨found, hfound, hp⟩ :=
    exists_of_bind_eq_ok (show (readGiven v).bind ofGiven = .ok p from h)
  rw [readGiven_eq_bind] at hfound
  obtain ⟨members, hmembers, hfound⟩ := exists_of_bind_eq_ok hfound
  obtain ⟨body, hbody, hfound⟩ := exists_of_bind_eq_ok hfound
  obtain ⟨lastUpdate, -, hfound⟩ := exists_of_bind_eq_ok hfound
  obtain ⟨modelCardKey, -, hfound⟩ := exists_of_bind_eq_ok hfound
  obtain ⟨modelCard, -, hfound⟩ := exists_of_bind_eq_ok hfound
  cases hfound
  cases body with
  | none => cases hp
  | some payload =>
    cases hp
    refine bodyText?_of_payload hmembers ?_
    cases hfind : members.find? "body" with
    | none =>
      simp only [given, hfind] at hbody
      cases hbody
    | some value =>
      simp only [given, hfind] at hbody
      simp only [Json.Record.required, hfind]
      cases hdecode : (decode value : Decoded Payload) with
      | error e =>
        rw [hdecode] at hbody
        cases hbody
      | ok found =>
        rw [hdecode] at hbody
        cases hbody
        rfl

theorem showsBytes_ofBytes : ShowsBytes memberNames body ofBytes := by
  intro document p h
  unfold ofBytes at h
  unfold partOf
  generalize Json.readAs (outline PostBody) (Json.documentChars document) = reading at h ⊢
  cases reading with
  | broken part pending => cases h
  | whole v rest =>
    refine ⟨v, rfl, bodyText?_of_decode ?_⟩
    cases hdecode : (decode v : Decoded PostBody) with
    | error e => simp [hdecode] at h
    | ok found =>
      simp only [hdecode] at h
      split at h
      · cases h
        rfl
      · cases h

end PostBody

/-! ## §5 Both documents -/

/-- Records and writes are read as they were written. A document whose text for its bytes is not
canonical base64 is refused, and one that is accepted shows the text of the very bytes that it is
read with. -/
theorem documents_round_trip (key : String) :
    (∀ r : StoredRecord, r.lastUpdate ≤ Natural.max64 → StoredRecord.read key r.encode = .ok r) ∧
    (∀ p : PostBody, PostBody.ofBytes (Text.Utf8.encode p.toJson.compact) = .ok p) ∧
    (∀ document v s, partOf StoredRecord document = some v →
      bodyText? StoredRecord.memberNames v = some s → ¬ Canonical s.toList →
      ∃ e, StoredRecord.read key document = .error e) ∧
    (∀ document v s, partOf PostBody document = some v →
      bodyText? PostBody.memberNames v = some s → ¬ Canonical s.toList →
      ∃ e, PostBody.ofBytes document = .error e) ∧
    ShowsBytes StoredRecord.memberNames StoredRecord.body (StoredRecord.read key) ∧
    ShowsBytes PostBody.memberNames PostBody.body PostBody.ofBytes :=
  ⟨fun _ hr => StoredRecord.read_encode hr key, PostBody.ofBytes_toJson,
    fun _ _ _ => (StoredRecord.showsBytes_read key).refuses,
    fun _ _ _ => PostBody.showsBytes_ofBytes.refuses, StoredRecord.showsBytes_read key,
    PostBody.showsBytes_ofBytes⟩

/-- A record with the largest marker is read back. One whose text has a bit that belongs to no byte
is refused. -/
theorem documents_round_trip_stray_bit :
    StoredRecord.read "model" (StoredRecord.encode ⟨[1], Natural.max64, .clusterOnly, some "", true⟩) =
      .ok ⟨[1], Natural.max64, .clusterOnly, some "", true⟩ ∧
    ∃ e, StoredRecord.read "model" (Text.Utf8.encode
      (Json.obj [("body", .str "AR=="), ("lastUpdate", .nat 1)]).compact) = .error e := by
  have hreadable : Json.Readable .compact (outline StoredRecord) Json.maxDepth
      (.obj [("body", .str "AR=="), ("lastUpdate", .nat 1)]) := by
    refine Json.Readable.obj .compact fun m hm => ?_
    simp only [List.mem_cons, List.not_mem_nil, or_false] at hm
    rcases hm with rfl | rfl
    · exact ⟨.whole, rfl, Json.readable_str _ _ _ _⟩
    · exact ⟨.whole, rfl, Json.readable_nat _ _ _ (by decide)⟩
  exact ⟨(documents_round_trip "model").1 _ (by decide),
    (documents_round_trip "model").2.2.1 _ _ "AR==" (partOf_written hreadable) rfl
      (mt Text.Base64.isSome_decode?_iff.mpr (by decide))⟩

end CatalogSync.Storage
