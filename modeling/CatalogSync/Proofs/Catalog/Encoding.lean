import CatalogSync.Catalog.Encoding
import CatalogSync.Storage.Record
/-!
# How published documents begin

The storage tier judges the type of a document by its first byte that is no blank. A document in
JSON begins with a brace and one in YAML with the name of its first member, so the type that is
judged is the format in which the entry was written (`contentType_encode`).
-/

namespace CatalogSync

theorem Text.Utf8.encode_ofList_cons {c : Char} (hc : c.toNat < 0x80) (l : List Char) :
    encode (String.ofList (c :: l)) = UInt8.ofNat c.toNat :: encodeChars l := by
  have hchar : encodeChar c = [UInt8.ofNat c.toNat] := if_pos hc
  unfold encode encodeChars
  rw [String.toList_ofList, List.flatMap_cons, hchar]
  rfl

/-- The first byte that is no blank decides the type of a document. -/
theorem Storage.StoredRecord.contentType_of_body {r : StoredRecord} {b : UInt8} {rest : Bytes}
    (hbody : r.body = b :: rest) (hb : isBlank b = false) :
    r.contentType = if b = 0x7B ∨ b = 0x5B then "application/json" else "application/yaml" := by
  unfold contentType
  rw [hbody, List.find?_cons_of_pos (by rw [hb]; rfl)]

namespace Catalog

/-- The type of the documents in a format. -/
def mediaTypeOf : OutputFormat → String
  | .jsonArray => "application/json"
  | .catalogInfoYaml => "application/yaml"

/-- A document in JSON is an object. -/
theorem exists_encode_jsonArray (e : Entry) :
    ∃ rest, e.encode .jsonArray = 0x7B :: rest := by
  unfold Entry.encode encodeParts ModelDocument.ofParts Json.pretty
  simp only [List.cons_append, Json.printValue]
  exact ⟨_, Text.Utf8.encode_ofList_cons (by decide) _⟩

/-- A document in YAML begins with the name of the member that says its version. -/
theorem exists_document_header (kind : String) (m : InfoDocuments.Metadata)
    (members : List (String × Yaml)) :
    ∃ rest, (Yaml.document (InfoDocuments.header kind m ++ members)).toList = 'a' :: rest := by
  have hkey : Yaml.keyPart 0 "apiVersion" = "apiVersion:".toList := by decide +kernel
  unfold Yaml.document InfoDocuments.header
  rw [String.toList_ofList, List.cons_append, Yaml.mapLines, hkey]
  exact ⟨_, rfl⟩

/-- The component stands first. -/
theorem exists_encode_catalogInfoYaml (e : Entry) :
    ∃ rest, e.encode .catalogInfoYaml = 0x61 :: rest := by
  obtain ⟨first, hfirst⟩ : ∃ first,
      (Yaml.document (InfoDocuments.component e.model e.server)).toList = 'a' :: first :=
    exists_document_header _ _ _
  unfold Entry.encode encodeParts InfoDocuments.ofParts InfoDocuments.render Text.join
  simp only [List.cons_append, List.map_cons, Text.joinChars, hfirst]
  exact ⟨_, Text.Utf8.encode_ofList_cons (by decide) _⟩

/-- A stored document has the type of the format in which it was written. -/
theorem contentType_encode (e : Entry) (format : OutputFormat) {r : Storage.StoredRecord}
    (hbody : r.body = e.encode format) : r.contentType = mediaTypeOf format := by
  cases format with
  | jsonArray =>
    obtain ⟨rest, hrest⟩ := exists_encode_jsonArray e
    rw [Storage.StoredRecord.contentType_of_body (hbody.trans hrest) (by decide)]
    rfl
  | catalogInfoYaml =>
    obtain ⟨rest, hrest⟩ := exists_encode_catalogInfoYaml e
    rw [Storage.StoredRecord.contentType_of_body (hbody.trans hrest) (by decide)]
    rfl

end Catalog

end CatalogSync
