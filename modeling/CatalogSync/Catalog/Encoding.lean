import CatalogSync.Catalog.InfoDocuments
import CatalogSync.Catalog.ModelDocument
import CatalogSync.Settings.Choice
import CatalogSync.Text.Utf8
/-!
# Published documents

An entry in the format that the settings ask for.
-/

namespace CatalogSync.Catalog

/-- The text of a model and its server in a format. -/
def encodeParts (format : OutputFormat) (m : Model) (s : Option Server) : String :=
  match format with
  | .jsonArray => (ModelDocument.ofParts m s).pretty
  | .catalogInfoYaml => InfoDocuments.render (InfoDocuments.ofParts m s)

/-- The document of an entry in a format. -/
def Entry.encode (e : Entry) (format : OutputFormat) : Bytes :=
  Text.Utf8.encode (encodeParts format e.model e.server)

end CatalogSync.Catalog
