import ShardedLedger.Persistence.Plan
import ShardedLedger.Persistence.Result

namespace ShardedLedger

-- What a save is at: reading what is stored, writing, or neither.
inductive SavePhase where
  | idle
  | inPhase1
  | inPhase2
  deriving DecidableEq

namespace SavePhase

def name : SavePhase → String
  | .idle => "Idle"
  | .inPhase1 => "InPhase1"
  | .inPhase2 => "InPhase2"

def ofCode : Nat → SavePhase
  | 1 => .inPhase1
  | 2 => .inPhase2
  | _ => .idle

end SavePhase

-- Lets one save at a time through and shows where it stands.
structure Turnstile where
  saving : Bool
  phase : SavePhase
  deriving DecidableEq

namespace Turnstile

def free : Turnstile := ⟨false, .idle⟩

def tryEnter (turnstile : Turnstile) : Option Turnstile :=
  if turnstile.saving then none else some { turnstile with saving := true }

def move (turnstile : Turnstile) (phase : SavePhase) : Turnstile := { turnstile with phase }

-- The phase is reset before the way is free for the next save.
def resetPhase (turnstile : Turnstile) : Turnstile := turnstile.move .idle

def leave (turnstile : Turnstile) : Turnstile := { turnstile.resetPhase with saving := false }

end Turnstile

-- Where a save stands while it waits for the store: for the stored values of its accounts, or
-- for the end of its transaction.
inductive Save where
  | reading (entries : List (Key × Account))
  | writing (plan : Plan)
  deriving DecidableEq

namespace Save

inductive Next where
  | done (result : SaveResult)
  | waiting (save : Save)
  deriving DecidableEq

-- Works on the ledger as it is now; later changes wait for the next save.
def start (ledger : Ledger) : Next :=
  if ledger.saved.isEmpty then .done .success else .waiting (.reading ledger.saved)

def valueKeys (layout : Layout) (entries : List (Key × Account)) : List String :=
  entries.map fun entry => layout.valueKey entry.1.text

def compared (result : SaveResult) : SaveResult :=
  (result.record Latency.readPhase).record Latency.comparison

-- One bad key keeps everything from being written.
def afterRead (layout : Layout) (entries : List (Key × Account)) :
    Except StoreError (List (Option String)) → Next
  | .error error => .done ((SaveResult.backendFailed error).record Latency.readPhase)
  | .ok values =>
      let plan := Plan.forAccounts layout entries values
      if !plan.badKeys.isEmpty then
        .done (compared (.dataInconsistency (plan.badKeys.map (·.text))))
      else if plan.commands.isEmpty then .done (compared .success)
      else .waiting (.writing plan)

def afterWrite (plan : Plan) (answer : Except StoreError Unit) : SaveResult :=
  let result :=
    match answer with
    | .ok () => SaveResult.archived (plan.archived.map (·.text))
    | .error error => SaveResult.backendFailed error
  (compared result).record Latency.writePhase

def phase : Save → SavePhase
  | .reading _ => .inPhase1
  | .writing _ => .inPhase2

-- Makes the call that the save waits for.
def call (backend : Backend) : Save → Backend
  | .reading _ => backend.countRead
  | .writing _ => backend.countCommit

-- What the save comes to with the answer that the store gives now. Only the transaction
-- changes what is stored.
def next (layout : Layout) (backend : Backend) : Save → Backend × Next
  | .reading entries =>
      (backend, afterRead layout entries (backend.values (valueKeys layout entries)))
  | .writing plan =>
      let (backend, answer) := backend.commit plan.commands
      (backend, .done (afterWrite plan answer))

end Save

end ShardedLedger
