import CatalogSync.Effect.Proc
import CatalogSync.Http.Status
import CatalogSync.Json.Decoder
import CatalogSync.Json.Printer
import CatalogSync.Json.Reader
import CatalogSync.Text.Form
/-!
# Requests and responses

What the bridge sends to a peer and what it gets back. An exchange either brings a response or
fails on the way; which of the two is up to the surroundings.
-/

namespace CatalogSync.Http

/-- What a request asks for. -/
inductive Method where
  | get
  | head
  | post
  | put
  | delete
  | other (name : String)
  deriving DecidableEq, Repr

namespace Method

def name : Method → String
  | get => "GET"
  | head => "HEAD"
  | post => "POST"
  | put => "PUT"
  | delete => "DELETE"
  | other name => name

def ofName (name : String) : Method :=
  match [get, head, post, put, delete].find? fun m => m.name == name with
  | some m => m
  | none => other name

end Method

/-- A request to a peer. -/
structure Request where
  method : Method
  -- The address, without its query.
  url : String
  query : List (String × String) := []
  token : Option String := none
  body : Option Json := none

/-- A response of a peer. -/
structure Response where
  status : Nat
  -- The type of the body, where it is given.
  contentType : Option String := none
  body : Bytes := []
  deriving DecidableEq, Repr

namespace Response

def text (r : Response) : String := Text.Utf8.decodeLossy r.body

def json? (r : Response) : Option Json := (Text.Utf8.decode? r.body).bind Json.parse?

/-- The value that the body describes. -/
def decode? (α : Type) [Json.Decodable α] (r : Response) : Option α :=
  (Json.ofBytes? α r.body).bind Except.toOption

end Response

/-- Exchanges with peers; there is no response when the exchange fails on the way. -/
abbrev interface : Interface := ⟨Request, fun _ => Option Response⟩

def send (r : Request) : Task interface (Option Response) :=
  .ofProc (.call r fun answer => .done (.ok answer))

end CatalogSync.Http
