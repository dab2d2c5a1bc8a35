import CatalogSync.Http.Message
import CatalogSync.Storage.Router
/-!
# Publisher and storage service in one exchange

How a request of the publisher reaches the storage service: its address without the base is the
path, its parameters are the form-encoded query, and a document travels as JSON. When nothing fails
on the way, the response of the service is what the publisher gets.
-/

namespace CatalogSync.Storage.Exchange

/-- What a request to the service at a base address asks for there. -/
def target (base : String) (r : Http.Request) : String :=
  let path := String.ofList (r.url.toList.drop base.toList.length)
  if r.query.isEmpty then path else path ++ "?" ++ Text.Form.encode r.query

/-- A request as it comes in at the service with a base address. -/
def incoming (base : String) (r : Http.Request) : Router.Incoming where
  method := r.method
  target := target base r
  contentType := r.body.map fun _ => "application/json"
  body := (r.body.map fun v => Text.Utf8.encode v.compact).getD []

/-- The exchange of a request for the response of the service. -/
def perform (base : String) (r : Http.Request) : Proc Service.interface (Option Http.Response) := do
  return some (← Router.handle (incoming base r))

end CatalogSync.Storage.Exchange
