import ShardedLedger.Http.Message
import ShardedLedger.Ledger.Key
import ShardedLedger.Routing.Table

namespace ShardedLedger

-- A request that is to be handed on to a shard, with its query already taken apart.
structure RelayRequest extends Http.Request where
  query : SortedMap String String
  deriving DecidableEq

inductive RelayError where
  | unresolved (method path : String)
  | unavailable (endpoint : String)
  | noReplies (method target : String)
  deriving DecidableEq

def RelayError.message : RelayError → String
  | .unresolved method path => "cannot resolve parent account for " ++ method ++ " " ++ path
  | .unavailable endpoint => "upstream " ++ endpoint ++ " unavailable"
  | .noReplies method target => "no shard replied to " ++ method ++ " " ++ target

namespace RelayRequest

def ofHttp (request : Http.Request) : RelayRequest :=
  { request with query := request.target.query }

-- A creation is decided by the name in its query.
def listingParent? (paths : Paths) (path : String) (query : SortedMap String String) :
    Method → Option String
  | .get => some allAccounts
  | .post =>
      if path = paths.accounts then do
        let root := Key.rootOf (← query.get? "accountName")
        if root.isEmpty then none else some root
      else none
  | .put => none

def isRoutable (action : String) : Method → Bool
  | .get => action = Action.none || Action.reads.contains action
  | .post => Action.writes.contains action
  | .put => Action.writes.contains action

def accountParent? (destination : Destination) (method : Method) : Option String :=
  let root := Key.rootOf destination.account
  if isRoutable destination.action method && !root.isEmpty &&
      destination.account ≠ allAccounts then some root
  else none

-- The root account that a request belongs to, or the placeholder for all of them.
def parent? (paths : Paths) (request : RelayRequest) : Option String := do
  let method ← Method.ofName? request.method
  let path := request.target.path
  if paths.isGlobal path then listingParent? paths path request.query method
  else accountParent? (← paths.resolve path) method

def parent (paths : Paths) (request : RelayRequest) : Except RelayError String :=
  match request.parent? paths with
  | some parent => .ok parent
  | none => .error (.unresolved request.method request.target.path)

-- Headers that concern only the connection on which the request came in.
def connectionHeaders : List String :=
  ["host", "connection", "content-length", "transfer-encoding", "te", "upgrade"]

-- The request as it goes to a shard, on a connection of its own.
def forwarded (request : RelayRequest) (connection : String) : Http.Request :=
  { request.toRequest with
    headers :=
      ("connection", connection) ::
        request.headers.filter fun header => !connectionHeaders.contains header.1 }

end RelayRequest

end ShardedLedger
