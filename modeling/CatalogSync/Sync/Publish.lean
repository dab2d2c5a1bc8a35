import CatalogSync.Catalog.Encoding
import CatalogSync.Catalog.Merge
import CatalogSync.Sync.Surroundings
/-!
# Publishing one entry

An entry is built from its sources, written in the format of the settings, given its model card when
a registry has one, and sent to the storage service. A card that cannot be read is left out.
-/

namespace CatalogSync.Sync

/-- How entries are made. -/
structure Style where
  format : OutputFormat
  -- What stands in when no source says it.
  defaults : Catalog.Defaults := {}
  deriving DecidableEq, Repr

/-- What is sent for an entry with the given model card. -/
def bodyOf (style : Style) (entry : Catalog.Entry) (card : Option String) : Storage.PostBody where
  body := entry.encode style.format
  lastUpdate := Natural.render entry.lastUpdate
  -- Without a card no key for one is sent.
  modelCardKey := if card.isSome then entry.key.text else ""
  modelCard := card.getD ""

/-- The model card of an entry that comes from the registry at an endpoint. -/
def cardOf (entry : Catalog.Entry) (endpoint : Option String) : Action (Option String) :=
  match entry.cardOrigin, endpoint with
  | some origin, some endpoint =>
    -- An entry without its card is better than none.
    (inquire endpoint (Registry.question (.card origin))).orElse none
  | _, _ => return none

/-- Publish the entry that the sources make, and say under which key. -/
def publish (style : Style) (sources : Catalog.Sources) (endpoint : Option String) :
    Action ImportKey := do
  let entry ← Task.ofExcept sources.entry
  let card ← cardOf entry endpoint
  let _ ← storage (.upsert entry.key entry.provenance (bodyOf style entry card))
  return entry.key

end CatalogSync.Sync
