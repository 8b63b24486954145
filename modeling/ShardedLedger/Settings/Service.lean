import ShardedLedger.Routing.Paths
import ShardedLedger.Settings.Flags
import ShardedLedger.Store.Basic

namespace ShardedLedger

-- Where accounts are kept: in memory, lost at the end, or on a server.
inductive StoreChoice where
  | memory
  | redis (url : String)
  deriving DecidableEq

-- What a ledger shard runs with. Times are in milliseconds.
structure ServiceSettings where
  bind : SocketAddress
  apiPrefix : String
  keyPrefix : String
  store : StoreChoice
  saveInterval : Nat
  saveTimeout : Nat
  deriving DecidableEq

namespace ServiceSettings

def defaultStoreUrl : String := "redis://127.0.0.1:6379/1"

def default : ServiceSettings :=
  { bind := .anywhere 7001, apiPrefix := defaultApiPrefix, keyPrefix := defaultKeyPrefix,
    store := .redis defaultStoreUrl, saveInterval := 1000, saveTimeout := 10000 }

-- Settings while the command line is read. The store's name counts only at its end, and its
-- address only with a store that has one.
structure Draft where
  settings : ServiceSettings
  storeName : String
  storeUrl : String

def Draft.start : Draft := ⟨default, "redis", defaultStoreUrl⟩

def flags : List (Flag Draft) :=
  [.address "--bind" fun draft bind => { draft with settings.bind := bind },
    .text "--api-prefix" fun draft text => { draft with settings.apiPrefix := text },
    .text "--store" fun draft storeName => { draft with storeName },
    .text "--redis-url" fun draft storeUrl => { draft with storeUrl },
    .text "--key-prefix" fun draft text => { draft with settings.keyPrefix := text },
    .positive "--save-interval-ms" greatestWord
      fun draft time => { draft with settings.saveInterval := time },
    .positive "--save-timeout-ms" greatestWord
      fun draft time => { draft with settings.saveTimeout := time }]

def Draft.finish (draft : Draft) : Except SettingsError ServiceSettings :=
  if draft.storeName = "memory" then .ok { draft.settings with store := .memory }
  else if draft.storeName = "redis" then
    .ok { draft.settings with store := .redis draft.storeUrl }
  else .error (.unknownStore draft.storeName)

def ofArguments (arguments : List String) : Except SettingsError ServiceSettings := do
  (← Flag.scan flags arguments .start).finish

end ServiceSettings

end ShardedLedger
