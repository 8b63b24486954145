import ShardedLedger.Http.Message
import ShardedLedger.Json.Parser
import ShardedLedger.Json.Printer

namespace ShardedLedger

structure ShardReply where
  status : Nat
  body : Http.Body
  deriving DecidableEq

namespace ShardReply

def json? (reply : ShardReply) : Option Json := do Json.parse? (← reply.body.text?)

-- What the replies merged so far come to. The first of them decides on the shape.
inductive Merged where
  | nothing
  | items (status : Nat) (list : List Json)
  | members (status : Nat) (map : SortedMap String Json)

namespace Merged

-- A reply of another shape, or none that has a shape, is left out. Of two members with one
-- name that of the later reply stays.
def add (merged : Merged) (reply : ShardReply) : Merged :=
  match merged, reply.json? with
  | .nothing, some (.arr list) => .items reply.status list
  | .nothing, some (.obj list) => .members reply.status (.ofList list)
  | .items _ list, some (.arr more) => .items reply.status (list ++ more)
  | .members _ map, some (.obj list) => .members reply.status (map.insertAll list)
  | merged, _ => merged

end Merged

-- One reply for those of several shards. With nothing to merge only the last status is left.
def merge (replies : List ShardReply) : Option ShardReply := do
  let last ← replies.getLast?
  match replies.foldl Merged.add .nothing with
  | .nothing => return ⟨last.status, .empty⟩
  | .items status list => return ⟨status, .text (Json.arr list).print⟩
  | .members status map => return ⟨status, .text (Json.obj map.entries).print⟩

end ShardReply

end ShardedLedger
