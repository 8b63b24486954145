import ShardedLedger.Persistence.Load
import ShardedLedger.Persistence.Save
import ShardedLedger.Service.Endpoint
import ShardedLedger.Settings.Service
import ShardedLedger.Settings.StoreAddress

namespace ShardedLedger

-- A ledger shard: the ledger that is served, and the store it is saved to.
structure Service where
  settings : ServiceSettings
  ledger : Ledger
  backend : Backend
  turnstile : Turnstile

namespace Service

def new (settings : ServiceSettings) (backend : Backend) : Service :=
  ⟨settings, .empty, backend, .free⟩

-- Opens the store that the settings name. There is no client for a server here, so nothing is
-- served even where an address is good.
def connect (settings : ServiceSettings) : Except StoreError Service :=
  match settings.store with
  | .memory => .ok (new settings .empty)
  | .redis url =>
      match StoreAddress.parse url with
      | .error error => .error (.failed error.message)
      | .ok address => .error (.failed address.place.failure.message)

-- A new start on what is stored.
def restart (service : Service) : Service := new service.settings service.backend

def layout (service : Service) : Layout := ⟨service.settings.keyPrefix⟩

def table (service : Service) : RouteTable Endpoint := Endpoint.table service.settings.apiPrefix

end Service

-- The ledger after a request, and the body of the answer.
def Ledger.route (ledger : Ledger) (table : RouteTable Endpoint) (method : Method) (path : String)
    (query headers : SortedMap String String) (body : String) : Reply RouteError :=
  match table.resolve method path with
  | .error error => (ledger, .error (.refused error))
  | .ok (endpoint, account) =>
      let (ledger, outcome) := endpoint.answer ledger { path, query, headers, account, body }
      (ledger, outcome.mapError (.map .handler))

namespace Service

def route (service : Service) (method : Method) (path : String)
    (query headers : SortedMap String String) (body : String) :
    Service × Except (Failure RouteError) String :=
  let (ledger, outcome) := service.ledger.route service.table method path query headers body
  ({ service with ledger }, outcome)

end Service

end ShardedLedger
