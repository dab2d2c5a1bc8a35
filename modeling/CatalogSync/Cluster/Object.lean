import CatalogSync.Cluster.Kind
/-!
# Objects of the cluster

The metadata that every object carries, services, accounts, and lists of objects. An absent text
counts as empty and a null list or map as absent.
-/

namespace CatalogSync.Cluster

open Json (Decoded Decodable decode outline)

/-! ## §1 Metadata -/

structure OwnerReference where
  kind : String
  name : String
  deriving DecidableEq, Repr

def OwnerReference.shape : Kind :=
  .object [("apiVersion", .text), ("blockOwnerDeletion", .flag), ("controller", .flag),
    ("kind", .text), ("name", .text), ("uid", .text)]

instance : Decodable OwnerReference where
  outline := OwnerReference.shape.outline
  decode v := do
    let r ← OwnerReference.shape.read v
    return { kind := ← r.orElse "kind" "", name := ← r.orElse "name" "" }

/-- The metadata of an object. -/
structure ObjectMeta where
  name : Option String := none
  -- The beginning of a name that the cluster is to complete.
  generateName : Option String := none
  ns : Option String := none
  labels : SortedMap String String := .empty
  annotations : SortedMap String String := .empty
  owners : List OwnerReference := []
  deriving DecidableEq

namespace ObjectMeta

def shape : Kind :=
  .object [("annotations", .map .text), ("creationTimestamp", .time),
    ("deletionGracePeriodSeconds", .integer), ("deletionTimestamp", .time),
    ("finalizers", .list .text), ("generateName", .text), ("generation", .integer),
    ("labels", .map .text),
    ("managedFields", .list (.object [("apiVersion", .text), ("fieldsType", .text),
      ("fieldsV1", .any), ("manager", .text), ("operation", .text), ("subresource", .text),
      ("time", .time)])),
    ("name", .text), ("namespace", .text), ("ownerReferences", .list OwnerReference.shape),
    ("resourceVersion", .text), ("selfLink", .text), ("uid", .text)]

instance : Decodable ObjectMeta where
  outline := shape.outline
  decode v := do
    let r ← shape.read v
    return {
      name := ← r.optional "name"
      generateName := ← r.optional "generateName"
      ns := ← r.optional "namespace"
      labels := ← r.orElse "labels" .empty
      annotations := ← r.orElse "annotations" .empty
      owners := ← r.orElse "ownerReferences" [] }

/-- The name, or the beginning of one that is still to be completed. -/
def anyName (m : ObjectMeta) : String := (m.name <|> m.generateName).getD ""

/-- The kind of the owners that the bridge looks for. -/
def ownerKind : String := "InferenceService"

/-- Whether the named deployment owns the object. -/
def ownedBy (m : ObjectMeta) (deployment : String) : Bool :=
  m.owners.any fun o => o.kind == ownerKind && o.name == deployment

end ObjectMeta

/-! ## §2 Services -/

/-- A port number, or the name of a port. -/
inductive TargetPort where
  | number (n : Int)
  | name (s : String)
  deriving DecidableEq, Repr

instance : Decodable TargetPort where
  decode
    | .str s => .ok (.name s)
    | v => match Kind.int32? v with
      | some n => .ok (.number n)
      | none => .error (.kind "a port")

/-- A whole number of 32 bits. -/
structure Number32 where
  value : Int
  deriving DecidableEq, Repr

instance : Decodable Number32 where
  decode v := match Kind.int32? v with
    | some n => .ok ⟨n⟩
    | none => .error (.kind "a number of 32 bits")

/-- A port of a service. -/
structure ServicePort where
  port : Int
  -- The port behind it.
  target : Option TargetPort
  deriving DecidableEq, Repr

def ServicePort.shape : Kind :=
  .object [("appProtocol", .text), ("name", .text), ("nodePort", .number), ("port", .number),
    ("protocol", .text), ("targetPort", .port)]

instance : Decodable ServicePort where
  outline := ServicePort.shape.outline
  decode v := do
    let r ← ServicePort.shape.read v
    let port : Number32 ← r.orElse "port" ⟨0⟩
    return { port := port.value, target := ← r.optional "targetPort" }

/-- A service of the cluster. -/
structure Service where
  metadata : ObjectMeta
  ports : List ServicePort
  deriving DecidableEq

namespace Service

def specShape : Kind :=
  .object [("allocateLoadBalancerNodePorts", .flag), ("clusterIP", .text),
    ("clusterIPs", .list .text), ("externalIPs", .list .text), ("externalName", .text),
    ("externalTrafficPolicy", .text), ("healthCheckNodePort", .number),
    ("internalTrafficPolicy", .text), ("ipFamilies", .list .text), ("ipFamilyPolicy", .text),
    ("loadBalancerClass", .text), ("loadBalancerIP", .text),
    ("loadBalancerSourceRanges", .list .text), ("ports", .list ServicePort.shape),
    ("publishNotReadyAddresses", .flag), ("selector", .map .text), ("sessionAffinity", .text),
    ("sessionAffinityConfig", .object [("clientIP", .object [("timeoutSeconds", .number)])]),
    ("trafficDistribution", .text), ("type", .text)]

def statusShape : Kind :=
  .object [
    ("conditions", .list (.requiring "lastTransitionTime" (.object [("lastTransitionTime", .time),
      ("message", .text), ("observedGeneration", .integer), ("reason", .text), ("status", .text),
      ("type", .text)]))),
    ("loadBalancer", .object [("ingress", .list (.object [("hostname", .text), ("ip", .text),
      ("ipMode", .text),
      ("ports", .list (.object [("error", .text), ("port", .number), ("protocol", .text)]))]))])]

def shape : Kind :=
  .core "Service" [("metadata", ObjectMeta.shape), ("spec", specShape),
    ("status", statusShape)]

/-- The ports of the description of a service. -/
def ports? (spec : Option Json) : Decoded (List ServicePort) :=
  match spec with
  | none => .ok []
  | some v => do (← Json.object v).orElse "ports" []

instance : Decodable Service where
  outline := shape.outline
  decode v := do
    let r ← shape.read v
    return { metadata := ← r.orElse "metadata" {}, ports := ← ports? (← r.optional "spec") }

end Service

/-! ## §3 Accounts -/

/-- An account under which a deployment runs. -/
structure ServiceAccount where
  metadata : ObjectMeta
  deriving DecidableEq

def ServiceAccount.shape : Kind :=
  .core "ServiceAccount" [("automountServiceAccountToken", .flag),
    ("imagePullSecrets", .list (.object [("name", .text)])), ("metadata", ObjectMeta.shape),
    ("secrets", .list (.object [("apiVersion", .text), ("fieldPath", .text), ("kind", .text),
      ("name", .text), ("namespace", .text), ("resourceVersion", .text), ("uid", .text)]))]

instance : Decodable ServiceAccount where
  outline := ServiceAccount.shape.outline
  decode v := do
    let r ← ServiceAccount.shape.read v
    return { metadata := ← r.orElse "metadata" {} }

/-! ## §4 Lists -/

/-- The objects of a list. -/
structure Listing (α : Type) where
  items : List α

def listMeta : Kind :=
  .object [("continue", .text), ("remainingItemCount", .integer), ("resourceVersion", .text),
    ("selfLink", .text)]

/-- A list gives its metadata and its items once each. The other members are kept, so that they
must stand for something. -/
instance {α : Type} [Decodable α] : Decodable (Listing α) where
  outline := .parts [("metadata", listMeta.outline), ("items", outline (List α))] (some .whole)
  decode v := do
    let r ← Json.knownMembers ["metadata", "items"] [] (← Json.members v)
    let metadata : Json ← r.withDefault "metadata" (.obj [])
    if listMeta.accepts metadata then
      let items : Option (List α) ← r.required "items"
      return { items := items.getD [] }
    else throw (.kind "the metadata of a list")

end CatalogSync.Cluster
