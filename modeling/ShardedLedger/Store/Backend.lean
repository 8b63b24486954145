import ShardedLedger.Store.Basic

namespace ShardedLedger

inductive StoreError where
  | failed (detail : String)
  | unavailable
  deriving DecidableEq

def StoreError.message : StoreError → String
  | .failed detail => "backend error: " ++ detail
  | .unavailable => "backend unavailable"

-- A store behind calls that may fail and take their time, in milliseconds. It counts the reads
-- of values and the transactions that were tried.
structure Backend where
  store : Store
  unavailable : Bool
  latency : Option Nat
  reads : Nat
  commits : Nat
  deriving DecidableEq

namespace Backend

def empty : Backend := ⟨.empty, false, none, 0, 0⟩

def delay (backend : Backend) : Nat := backend.latency.getD 0

def answer {α : Type} (backend : Backend) (value : α) : Except StoreError α :=
  if backend.unavailable then .error .unavailable else .ok value

def members (backend : Backend) (set : String) : Except StoreError (List String) :=
  backend.answer (backend.store.members set)

def countRead (backend : Backend) : Backend := { backend with reads := backend.reads + 1 }

def values (backend : Backend) (keys : List String) :
    Except StoreError (List (Option String)) :=
  backend.answer (keys.map backend.store.value?)

def countCommit (backend : Backend) : Backend := { backend with commits := backend.commits + 1 }

-- All commands or none.
def commit (backend : Backend) (commands : List Command) : Backend × Except StoreError Unit :=
  match backend.answer () with
  | .ok () => ({ backend with store := backend.store.applyAll commands }, .ok ())
  | .error error => (backend, .error error)

end Backend

end ShardedLedger
