import ShardedLedger.Relay.Basic
import ShardedLedger.Service.Http

namespace ShardedLedger

-- What may stand behind a slot: a ledger, something that gives always the same reply or repeats
-- what it was asked, or nothing that answers, silent or absent.
inductive Shard where
  | ledger (service : Service)
  | fixed (reply : ShardReply)
  | echo
  | silent
  | absent

namespace Shard

-- Headers that the connection adds of itself.
def unechoedHeaders : List String := ["host", "accept", "content-length"]

def headerValues (headers : Http.Headers) (name : String) : List String :=
  (headers.filter (·.1 = name)).map (·.2)

def echoText (request : Http.Request) : String :=
  let headers := request.headers.filter fun header => !unechoedHeaders.contains header.1
  let echoed := headers.map fun header =>
    (header.1, Json.strings (headerValues headers header.1))
  (Json.object [("body", .str request.body.shown), ("headers", Json.object echoed),
    ("method", .str request.method), ("uri", .str request.target.print)]).print

-- An overflow breaks the connection, so no reply comes.
def answer (request : Http.Request) : Shard → Shard × Option ShardReply
  | .ledger service =>
      match service.respond request with
      | (service, .ok response) => (.ledger service, some ⟨response.status, response.body⟩)
      | (service, .error _) => (.ledger service, none)
  | .fixed reply => (.fixed reply, some reply)
  | .echo => (.echo, some ⟨200, .text (echoText request)⟩)
  | .silent => (.silent, none)
  | .absent => (.absent, none)

-- The keys of a ledger; anything else has none to list.
def keys? : Shard → Option (List Key)
  | .ledger service => some service.ledger.keys
  | _ => none

end Shard

-- A relay with the shards behind it, and whether the network between them works.
structure Cluster where
  relay : Relay
  shards : List Shard
  connected : Bool

namespace Cluster

-- Every request reaches the shard of its slot once and unchanged, or none at all.
def transport (connected : Bool) : Transport (List Shard) := fun slot request shards =>
  match connected, shards[slot]? with
  | true, some shard =>
      let (shard, reply) := shard.answer request
      (shards.set slot shard, reply)
  | _, _ => (shards, none)

def request (cluster : Cluster) (request : RelayRequest) :
    Cluster × Except RelayError ShardReply :=
  let (relay, shards, outcome) :=
    cluster.relay.relay (transport cluster.connected) request cluster.shards
  ({ cluster with relay, shards }, outcome)

def respond (cluster : Cluster) (request : Http.Request) : Cluster × Http.Response :=
  let (cluster, outcome) := cluster.request (.ofHttp request)
  (cluster, Relay.render outcome)

end Cluster

end ShardedLedger
