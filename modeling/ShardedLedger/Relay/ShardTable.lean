import ShardedLedger.Settings.Relay

namespace ShardedLedger

-- Adds a byte to a hash: the hash times 65599 plus the byte, in 32 bits.
def hashByte (hash : UInt32) (byte : UInt8) : UInt32 :=
  byte.toUInt32 + (hash <<< 6) + (hash <<< 16) - hash

-- Decides for good where an account lives, so every relay has to compute it alike.
def sdbmHash (bytes : List UInt8) : UInt32 := bytes.foldl hashByte 0 &&& 0x7FFFFFFF

structure ShardEntry where
  shard : Int32
  endpoint : String
  deriving DecidableEq

-- The shards in the order of their slots. The number a shard is known by does not matter.
structure ShardTable where
  entries : List ShardEntry
  nonempty : entries ≠ []

namespace ShardTable

-- Ends without a slash and names its scheme, so that a path can follow.
def endpointOf (uri : String) : String :=
  let uri := Text.dropTrailing '/' uri
  if Text.occursIn [':', '/', '/'] uri.toList then uri else "http://" ++ uri

def entryOf (spec : ShardSpec) : ShardEntry := ⟨spec.shard, endpointOf spec.uri⟩

def ofSpecs (specs : List ShardSpec) : Except SettingsError ShardTable :=
  if h : specs.map entryOf ≠ [] then .ok ⟨specs.map entryOf, h⟩ else .error .noShards

def size (table : ShardTable) : Nat := table.entries.length

theorem size_pos (table : ShardTable) : 0 < table.size := List.length_pos_iff.mpr table.nonempty

def get? (table : ShardTable) (slot : Nat) : Option ShardEntry := table.entries[slot]?

-- The slot of everything below a root.
def slotFor (table : ShardTable) (root : String) : Fin table.size :=
  ⟨(sdbmHash (Utf8.encode root.toList)).toNat % table.size, Nat.mod_lt _ table.size_pos⟩

end ShardTable

end ShardedLedger
