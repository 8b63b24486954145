import ShardedLedger.Ledger.Operations
import ShardedLedger.Routing.Table

namespace ShardedLedger

-- What can be asked of the ledger of a shard.
inductive Endpoint where
  | create
  | read
  | activeAccounts
  | summary
  | children
  | subtree
  | close
  | setBudget
  | setBalance
  | reportSpend
  | addAdjustment
  deriving DecidableEq

namespace Endpoint

-- Every pair of a method and an action that is answered.
def bindings : List ((Method × String) × Endpoint) :=
  [((.post, Action.none), .create),
    ((.get, Action.none), .read),
    ((.get, Action.activeAccounts), .activeAccounts),
    ((.get, Action.summary), .summary),
    ((.get, Action.children), .children),
    ((.get, Action.subtree), .subtree),
    ((.get, Action.close), .close),
    ((.post, Action.budget), .setBudget),
    ((.post, Action.balance), .setBalance),
    ((.post, Action.shadow), .reportSpend),
    ((.post, Action.adjustment), .addAdjustment),
    ((.put, Action.budget), .setBudget),
    ((.put, Action.balance), .setBalance),
    ((.put, Action.shadow), .reportSpend),
    ((.put, Action.adjustment), .addAdjustment)]

def table (apiPrefix : String) : RouteTable Endpoint :=
  bindings.foldl (fun table binding => table.bind binding.1.1 binding.1.2 binding.2)
    (.empty apiPrefix)

end Endpoint

-- The ledger as a request leaves it, and the body of the answer.
abbrev Reply (ε : Type) := Ledger × Except (Failure ε) String

namespace HandlerError

-- A missing account is reported by its key. A ledger that cannot be read is nothing the client
-- could mend.
def ofLedgerError : LedgerError → HandlerError
  | .notFound key => .notFound key.text
  | .notAnObject => .internal LedgerError.notAnObject.message
  | .badRecord name error => .internal (LedgerError.badRecord name error).message
  | .misnamed key name => .internal (LedgerError.misnamed key name).message
  | error => .validation error.message

end HandlerError

namespace RouteRequest

def parameter (request : RouteRequest) (name : String) : Except HandlerError String :=
  match request.query.get? name with
  | some value => .ok value
  | none => .error (.validation ("missing query parameter " ++ name))

def key (request : RouteRequest) : Except HandlerError Key :=
  (Key.parse request.account).mapError .ofLedgerError

def pool (request : RouteRequest) : Except HandlerError Pool :=
  (Pool.form.parse request.body).mapError fun error =>
    .validation ("invalid currency pool: " ++ error.message)

def isForAll (request : RouteRequest) : Bool := request.account = allAccounts

end RouteRequest

namespace Endpoint

def nameParameter : String := "accountName"

def typeParameter : String := "accountType"

def refused {α : Type} : Except HandlerError α → Except (Failure HandlerError) α :=
  (·.mapError .refused)

def failed {α : Type} : Except (Failure LedgerError) α → Except (Failure HandlerError) α :=
  (·.mapError (.map .ofLedgerError))

def keyList (keys : List Key) : String := (Json.strings (keys.map (·.text))).print

def records (entries : List (Key × Account)) : Json :=
  .obj (entries.map fun (key, account) => (key.text, account.record))

-- An operation that answers with the account it has changed.
def answered : Ledger.Outcome Account → Reply HandlerError
  | (ledger, outcome) => (ledger, (failed outcome).map (·.text))

-- A new account is named by the query, so no account may stand in the path.
def creation (request : RouteRequest) : Except HandlerError (Key × AccountType) := do
  if !request.isForAll then throw (.notFound request.path)
  let key ← (Key.parse (← request.parameter nameParameter)).mapError .ofLedgerError
  let type ← (AccountType.parse (← request.parameter typeParameter)).mapError .ofLedgerError
  return (key, type)

def created (ledger : Ledger) (request : RouteRequest) : Reply HandlerError :=
  match creation request with
  | .error error => (ledger, .error (.refused error))
  | .ok (key, type) => answered (ledger.create key type)

-- The key comes before the pool, so of two faults that of the key is reported.
def changed (operation : Ledger → Key → Pool → Ledger.Outcome Account) (ledger : Ledger)
    (request : RouteRequest) : Reply HandlerError :=
  match (do return (← request.key, ← request.pool) : Except HandlerError (Key × Pool)) with
  | .error error => (ledger, .error (.refused error))
  | .ok (key, pool) => answered (operation ledger key pool)

def closed (ledger : Ledger) (request : RouteRequest) : Reply HandlerError :=
  match request.key with
  | .error error => (ledger, .error (.refused error))
  | .ok key => answered (ledger.close key)

def account (ledger : Ledger) (request : RouteRequest) : Except HandlerError String :=
  if request.isForAll then .ok (keyList ledger.keys)
  else do
    let key ← request.key
    match ledger.get? key with
    | some account => .ok account.text
    | none => .error (.notFound key.text)

def summaryText (ledger : Ledger) (request : RouteRequest) :
    Except (Failure HandlerError) String :=
  if request.isForAll then do
    let summaries ← ledger.globalSummary.mapError .overflow
    return (Json.ofMap Summary.toJson summaries).print
  else do return (← failed (ledger.summary (← refused request.key))).toJson.print

def childList (ledger : Ledger) (request : RouteRequest) : Except HandlerError String := do
  return keyList (← (ledger.children (← request.key)).mapError .ofLedgerError)

def subtreeText (ledger : Ledger) (request : RouteRequest) : Except HandlerError String := do
  return (records (← (ledger.subtree (← request.key)).mapError .ofLedgerError)).print

def answer (ledger : Ledger) (request : RouteRequest) : Endpoint → Reply HandlerError
  | .create => created ledger request
  | .read => (ledger, refused (account ledger request))
  | .activeAccounts => (ledger, .ok (keyList ledger.activeKeys))
  | .summary => (ledger, summaryText ledger request)
  | .children => (ledger, refused (childList ledger request))
  | .subtree => (ledger, refused (subtreeText ledger request))
  | .close => closed ledger request
  | .setBudget => changed Ledger.setBudget ledger request
  | .setBalance => changed Ledger.setBalance ledger request
  | .reportSpend => changed Ledger.reportSpend ledger request
  | .addAdjustment => changed Ledger.addAdjustment ledger request

end Endpoint

end ShardedLedger
