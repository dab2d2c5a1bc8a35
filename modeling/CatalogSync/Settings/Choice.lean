import CatalogSync.Fault
import CatalogSync.Text.Class
/-!
# Settings with a fixed set of values

The format of published documents, the place where records are stored, and the form of log lines.
Each is read from text; the reader says what is wrong with a text that names no choice.
-/

namespace CatalogSync

/-! ## §1 Document formats -/

/-- The format in which records are published. -/
inductive OutputFormat where
  -- Catalog-info entity documents in YAML.
  | catalogInfoYaml
  -- One model catalog document in JSON.
  | jsonArray
  deriving DecidableEq, Repr

namespace OutputFormat

def name : OutputFormat → String
  | catalogInfoYaml => "CatalogInfoYamlFormat"
  | jsonArray => "JsonArrayFormat"

/-- The format that a text names; blanks around the name do not count. -/
def parse (raw : String) : Except Fault OutputFormat :=
  let s := Text.trim raw
  if s = catalogInfoYaml.name then .ok catalogInfoYaml
  else if s = jsonArray.name then .ok jsonArray
  else .error (.validation s "unknown normalizer format")

/-- The format that a text names, or catalog-info documents. -/
def ofSetting (raw : String) : OutputFormat := (parse raw).toOption.getD catalogInfoYaml

end OutputFormat

/-! ## §2 Storage -/

inductive StorageKind where
  -- In the process, lost when it ends.
  | memory
  -- In one configuration map of the cluster.
  | configMap
  deriving DecidableEq, Repr

namespace StorageKind

def name : StorageKind → String
  | memory => "Memory"
  | configMap => "ConfigMap"

/-- The place that a text names in any case; no text means memory. -/
def parse (raw : String) : Except Fault StorageKind :=
  let s := Text.lower (Text.trim raw)
  if s = "memory" ∨ s = "" then .ok memory
  else if s = "configmap" then .ok configMap
  else .error (.validation s "unknown storage type")

end StorageKind

/-! ## §3 Log lines -/

inductive LogFormat where
  -- One JSON object a line.
  | json
  -- Text for people.
  | text
  deriving DecidableEq, Repr

namespace LogFormat

def name : LogFormat → String
  | json => "Json"
  | text => "Text"

/-- A text that names no form of log lines, in lower case. -/
structure Unknown where
  text : String

def Unknown.message (e : Unknown) : String :=
  "unknown log format '" ++ e.text ++ "' (expected json or text)"

/-- The form that a text names in any case. -/
def parse (raw : String) : Except Unknown LogFormat :=
  let s := Text.lower raw
  if s = "json" then .ok json
  else if s = "text" ∨ s = "pretty" then .ok text
  else .error ⟨s⟩

end LogFormat

end CatalogSync
