import ShardedLedger.Json.Form
import ShardedLedger.Routing.Paths
import ShardedLedger.Settings.Flags
import ShardedLedger.Text.Utf8

namespace ShardedLedger

-- A shard as it is listed for the relay: the number it is known by, and where it answers.
structure ShardSpec where
  shard : Int32
  uri : String
  deriving DecidableEq

namespace ShardSpec

structure Draft where
  shard : Option Int := none
  uri : Option String := none

def fields : List (Form.Field Draft) :=
  [.of "shard" true (.integer "i32" (-0x80000000) 0x7FFFFFFF) (·.shard)
      ({ · with shard := some · }),
    .of "uri" true .text (·.uri) ({ · with uri := some · })]

def ofDraft (draft : Draft) : Except Json.Error ShardSpec := do
  return {
    shard := .ofInt (← Form.require "shard" draft.shard)
    uri := ← Form.require "uri" draft.uri }

def form : Form ShardSpec := .record "struct ShardConfig" fields {} ofDraft

end ShardSpec

-- How many connections to a shard are opened before one is used again, and how often each may
-- be used.
structure PoolLimits where
  minConnections : Nat
  maxUses : UInt32
  deriving DecidableEq

def PoolLimits.default : PoolLimits := ⟨2, 1000⟩

-- What a relay runs with. The time a shard has for its answer is in milliseconds, if it has
-- an end.
structure RelaySettings where
  bind : SocketAddress
  apiPrefix : String
  shards : List ShardSpec
  pool : PoolLimits
  answerTimeout : Option Nat
  deriving DecidableEq

namespace RelaySettings

def ofShards (shards : List ShardSpec) : RelaySettings :=
  { bind := .anywhere 8989, apiPrefix := defaultApiPrefix, shards, pool := .default,
    answerTimeout := some 30000 }

def defaultShardFile : String := "relay-config.json"

structure Draft where
  settings : RelaySettings
  shardFile : String

def Draft.start : Draft := ⟨ofShards [], defaultShardFile⟩

def flags : List (Flag Draft) :=
  [.address "--bind" fun draft bind => { draft with settings.bind := bind },
    .text "--relay-config" fun draft shardFile => { draft with shardFile },
    .text "--api-prefix" fun draft text => { draft with settings.apiPrefix := text },
    .number "--min-connections" greatestWord
      fun draft count => { draft with settings.pool.minConnections := count },
    .number "--max-uses" 0xFFFFFFFF
      fun draft count => { draft with settings.pool.maxUses := .ofNat count },
    .number "--upstream-timeout-ms" greatestWord
      fun draft time =>
        { draft with settings.answerTimeout := if time = 0 then none else some time }]

-- A path that no file can have is not looked up.
def readText (files : Files) (path : String) : Except SettingsError String :=
  if '\x00' ∈ path.toList then .error (.unreadable path .zeroInName)
  else
    match files path with
    | .error reason => .error (.unreadable path reason)
    | .ok bytes =>
        match Utf8.decode? bytes with
        | some text => .ok text
        | none => .error (.unreadable path .notText)

-- The list of shards; a relay without any has nobody to ask.
def readShards (files : Files) (path : String) : Except SettingsError (List ShardSpec) := do
  let text ← readText files path
  let shards ← ((Form.list ShardSpec.form).parse text).mapError (.malformed path)
  if shards.isEmpty then .error .noShards else .ok shards

def ofArguments (files : Files) (arguments : List String) :
    Except SettingsError RelaySettings := do
  let draft ← Flag.scan flags arguments .start
  return { draft.settings with shards := ← readShards files draft.shardFile }

end RelaySettings

end ShardedLedger
