import ShardedLedger.Http.Message
import ShardedLedger.Service.Basic

namespace ShardedLedger

namespace RouteError

-- What a client is told. It sees the reason only of what it could have done better.
def render : RouteError → Http.Response
  | .noRoute _ _ => .bare 404
  | .handler (.notFound _) => .bare 404
  | .handler (.validation message) =>
      .json 500 (.text (Json.obj [("message", .str message)]).print)
  | .handler (.internal _) => .bare 500

end RouteError

namespace Service

def render : Except RouteError String → Http.Response
  | .ok body => if body.isEmpty then .bare 204 else .json 200 (.text body)
  | .error error => error.render

-- Headers by name, those whose value is not plain text left out. Of several values of a name
-- the last stays.
def headerMap (headers : Http.Headers) : SortedMap String String :=
  .ofList (headers.filter fun header => Http.isHeaderText header.2)

def unreadableBody (bytes : List UInt8) : String :=
  "Request body didn't contain valid UTF-8" ++
    match Utf8.flaw? bytes with
    | some (offset, flaw) => ": " ++ flaw.message offset
    | none => ""

-- A body that is no text is refused before anything else is looked at.
def respond (service : Service) (request : Http.Request) :
    Service × Except Overflow Http.Response :=
  match request.body with
  | .binary bytes => (service, .ok (.plainText 400 (unreadableBody bytes)))
  | .text body =>
      match Method.ofName? request.method with
      | none => (service, .ok (.bare 404))
      | some method =>
          match service.route method request.target.path request.target.query
              (headerMap request.headers) body with
          | (service, .ok body) => (service, .ok (render (.ok body)))
          | (service, .error (.refused error)) => (service, .ok error.render)
          | (service, .error (.overflow overflow)) => (service, .error overflow)

end Service

end ShardedLedger
