import ShardedLedger.Relay.Request
import ShardedLedger.Relay.ShardTable
import ShardedLedger.Service.Http
import ShardedLedger.Service.Timing

namespace ShardedLedger.CommandLine

def usage : String := "\n".intercalate
  ["Usage: ledger shard [--bind <addr:port>] [--store redis|memory] [--redis-url <url>]",
    "       [--api-prefix </v1>] [--key-prefix <banker>]",
    "       [--save-interval-ms <1000>] [--save-timeout-ms <10000>]",
    "       ledger relay [--bind <addr:port>] [--relay-config <relay-config.json>]",
    "       [--api-prefix </v1>] [--min-connections <2>] [--max-uses <1000>]",
    "       [--upstream-timeout-ms <30000>]"]

def asksForHelp (arguments : List String) : Bool :=
  arguments.contains "--help" || arguments.contains "-h"

-- A request stands on a line: its method, its target, and whatever follows them as its body.
def readRequest (line : String) : Http.Request :=
  let (method, rest) := Text.splitFirst ' ' (line.toList.filter (· ≠ '\n'))
  let (target, body) := Text.splitFirst ' ' (rest.getD [])
  { method := .ofList method, target := .parse (.ofList target), headers := [],
    body := .text (.ofList (body.getD [])) }

def writeResponse (response : Http.Response) : String :=
  toString response.status ++ " " ++ response.body.shown

-- Where the relay sends a request.
def writeRoute (settings : RelaySettings) (table : ShardTable) (request : Http.Request) : String :=
  match (RelayRequest.ofHttp request).parent (.below settings.apiPrefix) with
  | .error error => error.message
  | .ok parent =>
      let slots :=
        if parent = allAccounts then List.range table.size else [(table.slotFor parent).val]
      " ".intercalate
        ((slots.filterMap table.get?).map fun entry => entry.endpoint ++ request.target.print)

partial def eachRequest {σ : Type} (answer : σ → Http.Request → σ × String) (state : σ) : IO σ := do
  let line ← (← IO.getStdin).getLine
  if line.isEmpty then return state
  let (state, text) := answer state (readRequest line)
  IO.println text
  eachRequest answer state

def fail (message : String) : IO UInt32 := do
  IO.eprintln ("Error: " ++ message)
  return 1

def answerRequest (service : Service) (request : Http.Request) : Service × String :=
  match service.respond request with
  | (service, .ok response) => (service, writeResponse response)
  | (service, .error overflow) => (service, overflow.message)

-- Loads, answers requests until there are no more, and saves.
def runShard (arguments : List String) : IO UInt32 := do
  match ServiceSettings.ofArguments arguments with
  | .error error => fail error.message
  | .ok settings =>
      match Service.connect settings with
      | .error error => fail error.message
      | .ok service =>
          let service ← eachRequest answerRequest service.load.1
          match service.save.2 with
          | some result => return if result.isSuccess then 0 else 1
          | none => return 1

def readFile (path : String) : IO (Except FileError (List UInt8)) := do
  try
    return .ok (← IO.FS.readBinFile path).toList
  catch error =>
    match error with
    | .noFileOrDirectory _ _ _ => return .error .missing
    | .inappropriateType _ 20 _ => return .error .notADirectory
    | .inappropriateType _ 21 _ => return .error .isADirectory
    | .invalidArgument _ 36 _ => return .error .nameTooLong
    | error => return .error (.failed (toString error))

def runRelay (arguments : List String) : IO UInt32 := do
  let content ←
    match Flag.scan RelaySettings.flags arguments .start with
    | .ok draft => readFile draft.shardFile
    | .error _ => pure (.error .missing)
  match RelaySettings.ofArguments (fun _ => content) arguments with
  | .error error => fail error.message
  | .ok settings =>
      match ShardTable.ofSpecs settings.shards with
      | .error error => fail error.message
      | .ok table =>
          eachRequest (fun _ request => ((), writeRoute settings table request)) ()
          return 0

def run (arguments : List String) : IO UInt32 := do
  if asksForHelp arguments then
    IO.eprintln usage
    return 1
  match arguments with
  | "shard" :: flags => runShard flags
  | "relay" :: flags => runRelay flags
  | _ =>
      IO.eprintln usage
      return 1

end ShardedLedger.CommandLine

def main (arguments : List String) : IO UInt32 := ShardedLedger.CommandLine.run arguments
