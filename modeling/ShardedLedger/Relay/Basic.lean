import ShardedLedger.Relay.ConnectionPool
import ShardedLedger.Relay.Merge
import ShardedLedger.Relay.Request
import ShardedLedger.Relay.ShardTable

namespace ShardedLedger

-- What stands in front of the shards: one pool of connections for each slot.
structure Relay where
  paths : Paths
  table : ShardTable
  pools : List ConnectionPool
  length_pools : pools.length = table.size

-- How a request reaches the shard of a slot, whose state it may change. There is no reply if
-- the shard cannot be reached or keeps silent.
abbrev Transport (σ : Type) := Nat → Http.Request → σ → σ × Option ShardReply

namespace Relay

def ofSettings (settings : RelaySettings) : Except SettingsError Relay := do
  let table ← ShardTable.ofSpecs settings.shards
  return {
    paths := .below settings.apiPrefix
    table
    pools := table.entries.map fun entry => .new entry.endpoint settings.pool
    length_pools := by simp [ShardTable.size] }

variable {σ : Type}

-- One exchange on a connection of the pool. After a failure the connection is not used again.
def dispatch (transport : Transport σ) (request : RelayRequest) (slot : Nat)
    (pool : ConnectionPool) (shards : σ) : ConnectionPool × σ × Except RelayError ShardReply :=
  let (pool, connection) := pool.acquire
  match transport slot (request.forwarded (pool.connectionHeader connection)) shards with
  | (shards, some reply) => (pool.release connection, shards, .ok reply)
  | (shards, none) => (pool.discard, shards, .error (.unavailable pool.endpoint))

-- Asks the shard of one slot.
def single (transport : Transport σ) (relay : Relay) (request : RelayRequest)
    (slot : Fin relay.table.size) (shards : σ) : Relay × σ × Except RelayError ShardReply :=
  let pool := relay.pools.get (slot.cast relay.length_pools.symm)
  let (pool, shards, outcome) := dispatch transport request slot pool shards
  ({ relay with
      pools := relay.pools.set slot pool
      length_pools := by rw [List.length_set, relay.length_pools] }, shards, outcome)

-- Asks the shards from a slot on, each on its own pool, and gathers the replies there are.
def askEach (transport : Transport σ) (request : RelayRequest) :
    Nat → List ConnectionPool → σ → List ConnectionPool × σ × List ShardReply
  | _, [], shards => ([], shards, [])
  | slot, pool :: pools, shards =>
      let asked := dispatch transport request slot pool shards
      let others := askEach transport request (slot + 1) pools asked.2.1
      (asked.1 :: others.1, others.2.1, asked.2.2.toOption.toList ++ others.2.2)

theorem length_askEach (transport : Transport σ) (request : RelayRequest) (slot : Nat)
    (pools : List ConnectionPool) (shards : σ) :
    (askEach transport request slot pools shards).1.length = pools.length := by
  induction pools generalizing slot shards with
  | nil => rfl
  | cons pool pools ih => simp [askEach, ih]

-- Asks all shards and makes one reply of theirs.
def fanOut (transport : Transport σ) (relay : Relay) (request : RelayRequest) (shards : σ) :
    Relay × σ × Except RelayError ShardReply :=
  let asked := askEach transport request 0 relay.pools shards
  let relay := { relay with
    pools := asked.1
    length_pools := by rw [length_askEach, relay.length_pools] }
  match ShardReply.merge asked.2.2 with
  | some reply => (relay, asked.2.1, .ok reply)
  | none => (relay, asked.2.1, .error (.noReplies request.method request.target.print))

-- Hands a request on to the shard of its root account, or to all of them.
def relay (transport : Transport σ) (relay : Relay) (request : RelayRequest) (shards : σ) :
    Relay × σ × Except RelayError ShardReply :=
  match request.parent relay.paths with
  | .error error => (relay, shards, .error error)
  | .ok parent =>
      if parent = allAccounts then relay.fanOut transport request shards
      else relay.single transport request (relay.table.slotFor parent) shards

def render : Except RelayError ShardReply → Http.Response
  | .ok reply => if reply.body.isEmpty then .bare reply.status else .json reply.status reply.body
  | .error _ => .bare 500

end Relay

end ShardedLedger
