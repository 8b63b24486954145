import ShardedLedger.Json.Form
import ShardedLedger.Json.Printer
import ShardedLedger.Store.Backend

namespace ShardedLedger

inductive SaveStatus where
  | success
  | persistenceError
  | dataInconsistency
  deriving DecidableEq

namespace SaveStatus

def names : List (String × SaveStatus) :=
  [("SUCCESS", .success), ("PERSISTENCE_ERROR", .persistenceError),
    ("DATA_INCONSISTENCY", .dataInconsistency)]

def name : SaveStatus → String
  | .success => "SUCCESS"
  | .persistenceError => "PERSISTENCE_ERROR"
  | .dataInconsistency => "DATA_INCONSISTENCY"

end SaveStatus

namespace Latency

def readPhase : String := "phase1TimeElapsedMs"

def comparison : String := "inPhase1TimeElapsedMs"

def writePhase : String := "phase2TimeElapsedMs"

def total : String := "totalTimeElapsedMs"

end Latency

-- How a save or a load ended, with the names of the latencies that were measured.
structure SaveResult where
  status : SaveStatus
  info : String
  latencies : SortedSet String
  deriving DecidableEq

namespace SaveResult

def keyList (keys : List String) : String := (Json.strings keys).print

def of (status : SaveStatus) (info : String) : SaveResult := ⟨status, info, .empty⟩

def success : SaveResult := of .success ""

def archived (keys : List String) : SaveResult := of .success (keyList keys)

def dataInconsistency (keys : List String) : SaveResult := of .dataInconsistency (keyList keys)

def persistenceError (message : String) : SaveResult := of .persistenceError message

def backendFailed (error : StoreError) : SaveResult := persistenceError error.message

-- The deadline passed before the store had answered.
def timedOut : SaveResult := persistenceError "timeout"

def isSuccess (result : SaveResult) : Bool := result.status = .success

def record (result : SaveResult) (latency : String) : SaveResult :=
  { result with latencies := SortedSet.add result.latencies latency }

-- The keys that the info lists. An error text may look like a list and is none.
def keys (result : SaveResult) : List String :=
  match result.status with
  | .persistenceError => []
  | _ => ((Form.list Form.text).parse result.info).toOption.getD []

structure Draft where
  status : Option SaveStatus := none
  info : Option String := none
  latencies : Option (SortedMap String Unit) := none

def fields : List (Form.Field Draft) :=
  [.of "status" true (.choice SaveStatus.names) (·.status) ({ · with status := some · }),
    .of "info" true .text (·.info) ({ · with info := some · }),
    .of "latencies" true (.dict .number) (·.latencies) ({ · with latencies := some · })]

def ofDraft (draft : Draft) : Except Json.Error SaveResult := do
  return {
    status := ← Form.require "status" draft.status
    info := ← Form.require "info" draft.info
    latencies := ← Form.require "latencies" draft.latencies }

def form : Form SaveResult := .record "struct SaveResult" fields {} ofDraft

end SaveResult

end ShardedLedger
