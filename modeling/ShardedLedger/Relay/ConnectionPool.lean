import ShardedLedger.Settings.Relay

namespace ShardedLedger

structure Connection where
  id : Nat
  useCount : Nat
  deriving DecidableEq

-- The connections to one shard. The free ones stand in the order in which they came back.
structure ConnectionPool where
  endpoint : String
  limits : PoolLimits
  free : List Connection
  live : Nat
  created : Nat
  recycled : Nat
  deriving DecidableEq

namespace ConnectionPool

def new (endpoint : String) (limits : PoolLimits) : ConnectionPool :=
  ⟨endpoint, limits, [], 0, 0, 0⟩

def openNew (pool : ConnectionPool) : ConnectionPool × Connection :=
  ({ pool with live := pool.live + 1, created := pool.created + 1 }, ⟨pool.created, 1⟩)

-- Never waits. Free connections are used again, the oldest first, once there are enough.
def acquire (pool : ConnectionPool) : ConnectionPool × Connection :=
  match pool.free with
  | [] => pool.openNew
  | connection :: free =>
      if pool.limits.minConnections ≤ pool.live then
        ({ pool with free }, { connection with useCount := connection.useCount + 1 })
      else pool.openNew

-- Whether the connection may be used again after this time.
def keepsAlive (pool : ConnectionPool) (connection : Connection) : Bool :=
  connection.useCount < pool.limits.maxUses.toNat

def connectionHeader (pool : ConnectionPool) (connection : Connection) : String :=
  if pool.keepsAlive connection then "keep-alive" else "close"

def discard (pool : ConnectionPool) : ConnectionPool := { pool with live := pool.live - 1 }

-- A connection that was used up is closed, any other is free again.
def release (pool : ConnectionPool) (connection : Connection) : ConnectionPool :=
  if pool.keepsAlive connection then { pool with free := pool.free ++ [connection] }
  else { pool.discard with recycled := pool.recycled + 1 }

def inUse (pool : ConnectionPool) : Nat := pool.live - pool.free.length

end ConnectionPool

end ShardedLedger
