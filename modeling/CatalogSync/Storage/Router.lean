import CatalogSync.Http.MediaType
import CatalogSync.Http.Target
import CatalogSync.Storage.Service
/-!
# The storage service over HTTP

Which request a method, an address and a body stand for, and what the answer looks like. The query
is judged before the body, and the body before the service does anything. A query that gives the
key or the type twice is refused, other parameters are ignored.
-/

namespace CatalogSync.Storage

namespace Router

open Service (Request Reply Rejection)

/-! ## §1 Incoming requests -/

/-- A request as it comes in. -/
structure Incoming where
  method : Http.Method
  -- The address within the service: a path and perhaps a query.
  target : String
  contentType : Option String := none
  body : Bytes := []

/-- What the service offers. -/
inductive Endpoint where
  | upsert
  | keySet
  | list
  | fetch
  | card
  | remove
  | health
  deriving DecidableEq, Repr

namespace Endpoint

def all : List Endpoint := [upsert, keySet, list, fetch, card, remove, health]

def path : Endpoint → String
  | upsert => upsertPath
  | keySet => keySetPath
  | list => listPath
  | fetch => fetchPath
  | card => cardPath
  | remove => removePath
  | health => healthPath

def method : Endpoint → Http.Method
  | upsert => .post
  | keySet => .post
  | remove => .delete
  | list => .get
  | fetch => .get
  | card => .get
  | health => .get

def takes (e : Endpoint) (m : Http.Method) : Bool :=
  m == e.method || (m == .head && e.method == .get)

end Endpoint

/-! ## §2 Parameters and bodies -/

/-- The parameters of a request. -/
structure Parameters where
  -- The key, or a list of keys.
  key : Option String
  type : Option String

/-- The value of a parameter that may be given once. -/
def single (name : String) (pairs : List (String × String)) : Except Rejection (Option String) :=
  match pairs.filter fun p => p.1 == name with
  | [] => .ok none
  | [p] => .ok (some p.2)
  | _ => .error ⟨400, "Failed to deserialize query string"⟩

/-- The parameters of a query. -/
def parameters (query : String) : Except Rejection Parameters := do
  let pairs := Text.Form.decode query
  return { key := ← single keyParameter pairs, type := ← single typeParameter pairs }

/-- Whether a body is said to be JSON. -/
def isJson (contentType : Option String) : Bool :=
  (contentType.bind Http.MediaType.parse?).any (·.isJson)

def bodyLimit : Nat := 2097152

def malformed : PostBody.Malformed → Rejection
  | .notJson => ⟨400, "Failed to parse the request body as JSON"⟩
  | .wrongShape => ⟨422, "Failed to deserialize the JSON body into the target type"⟩

def postBody (r : Incoming) : Except Rejection PostBody :=
  if !isJson r.contentType then
    .error ⟨415, "Expected request with `Content-Type: application/json`"⟩
  else if bodyLimit < r.body.length then
    .error ⟨413, "Failed to buffer the request body: length limit exceeded"⟩
  else (PostBody.ofBytes r.body).mapError malformed

/-! ## §3 Outgoing responses -/

def textResponse (status : Nat) (text : String) : Http.Response :=
  { status, contentType := some "text/plain; charset=utf-8", body := Text.Utf8.encode text }

def jsonResponse (status : Nat) (v : Json) : Http.Response :=
  { status, contentType := some "application/json", body := Text.Utf8.encode v.compact }

/-- The response that an answer of the service makes. -/
def response : Except Rejection Reply → Http.Response
  | .error r => textResponse r.status r.text
  -- A record that replaces another is not created.
  | .ok (.written key outcome) =>
    jsonResponse (if outcome = .created then 201 else 200) (UpsertResponse.toJson ⟨key, outcome⟩)
  | .ok (.pruned keys) => jsonResponse 200 (KeySetResponse.toJson ⟨keys⟩)
  | .ok (.keys keys) => jsonResponse 200 (ListResponse.toJson ⟨keys.map (·.text)⟩)
  | .ok (.document contentType body) => { status := 200, contentType := some contentType, body }
  | .ok (.card text) =>
    { status := 200, contentType := some "text/markdown", body := Text.Utf8.encode text }
  | .ok .removed => { status := 200 }

/-! ## §4 Routing -/

/-- The request that reaches an endpoint. -/
def request (e : Endpoint) (query : String) (r : Incoming) : Except Rejection (Option Request) :=
  match e with
  | .health => .ok none
  | .list => .ok (some .list)
  | .upsert => do
    let p ← parameters query
    -- The parameters are judged before the body.
    let body ← postBody r
    return some (.upsert p.key p.type body)
  | .keySet => do return some (.keySet (← parameters query).key)
  | .fetch => do return some (.fetch (← parameters query).key)
  | .card => do return some (.card (← parameters query).key)
  | .remove => do return some (.remove (← parameters query).key)

/-- The response of an endpoint. -/
def serve (e : Endpoint) (query : String) (r : Incoming) : Proc Service.interface Http.Response :=
  match request e query r with
  | .error rejection => return response (.error rejection)
  | .ok none => return textResponse 200 "ok"
  | .ok (some request) => do return response (← Service.answer request)

/-- The response to a request. -/
def handle (r : Incoming) : Proc Service.interface Http.Response := do
  let target := Http.Target.split r.target
  match Endpoint.all.find? fun e => e.path == target.path with
  | none => return { status := 404 }
  | some e =>
    if e.takes r.method then
      let answer ← serve e target.query r
      return if r.method = .head then { answer with body := [] } else answer
    else return { status := 405 }

end Router

end CatalogSync.Storage
