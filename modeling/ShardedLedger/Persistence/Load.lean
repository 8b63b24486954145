import ShardedLedger.Json.Parser
import ShardedLedger.Ledger.Basic
import ShardedLedger.Persistence.Result
import ShardedLedger.Store.Basic

namespace ShardedLedger

-- Where a load stands while it waits for the store: for the active set, for the archive, or
-- for the values of all members of the two.
inductive Load where
  | readingActive
  | readingArchive (active : List String)
  | readingValues (members : List String)
  deriving DecidableEq

namespace Load

-- Every account of the two index sets once, in order.
def members (active archived : List String) : List String :=
  (SortedSet.ofMembers (active ++ archived)).keys

def missing : List (String × Option String) → List String
  | [] => []
  | (member, none) :: rest => member :: missing rest
  | (_, some _) :: rest => missing rest

def unreadable : List (String × Option String) → List String
  | [] => []
  | (member, some text) :: rest =>
      if (Json.parse? text).isNone then member :: unreadable rest else unreadable rest
  | (_, none) :: rest => unreadable rest

def parsed : List (String × Option String) → List (String × Json)
  | [] => []
  | (_, none) :: rest => parsed rest
  | (member, some text) :: rest =>
      match Json.parse? text with
      | none => parsed rest
      | some value => (member, value) :: parsed rest

-- Missing values are reported alone, before unreadable ones, and these before records that do
-- not form a ledger.
def ofValues (members : List String) (values : List (Option String)) :
    Except SaveResult Ledger :=
  let found := members.zip values
  if missing found ≠ [] then .error (.dataInconsistency (missing found))
  else if unreadable found ≠ [] then .error (.dataInconsistency (unreadable found))
  else
    match Ledger.ofJson (.object (parsed found)) with
    | .error _ => .error (.dataInconsistency members)
    | .ok ledger => .ok ledger.repair.1

inductive Next where
  | done (outcome : Except SaveResult Ledger)
  | waiting (load : Load)

def failed (error : StoreError) : Next := .done (.error (.backendFailed error))

def afterActive : Except StoreError (List String) → Next
  | .error error => failed error
  | .ok active => .waiting (.readingArchive active)

-- Without any account there is nothing more to ask for.
def afterArchive (active : List String) : Except StoreError (List String) → Next
  | .error error => failed error
  | .ok archived =>
      if (members active archived).isEmpty then .done (.ok .empty)
      else .waiting (.readingValues (members active archived))

def afterValues (members : List String) : Except StoreError (List (Option String)) → Next
  | .error error => failed error
  | .ok values => .done (ofValues members values)

-- Makes the call that the load waits for.
def call (backend : Backend) : Load → Backend
  | .readingActive => backend
  | .readingArchive _ => backend
  | .readingValues _ => backend.countRead

-- What the load comes to with the answer that the store gives now.
def next (layout : Layout) (backend : Backend) : Load → Next
  | .readingActive => afterActive (backend.members layout.activeSet)
  | .readingArchive active => afterArchive active (backend.members layout.archiveSet)
  | .readingValues members =>
      afterValues members (backend.values (members.map layout.valueKey))

end Load

end ShardedLedger
