import ShardedLedger.Ledger.Error

namespace ShardedLedger

-- The account tree: every account under its key, in key order.
structure Ledger where
  accounts : SortedMap Key Account
  deriving DecidableEq

namespace Ledger

def empty : Ledger := ⟨.empty⟩

instance : Inhabited Ledger := ⟨empty⟩

def get? (ledger : Ledger) (key : Key) : Option Account := ledger.accounts.get? key

def contains (ledger : Ledger) (key : Key) : Bool := ledger.accounts.contains key

def set (ledger : Ledger) (key : Key) (account : Account) : Ledger :=
  ⟨ledger.accounts.insert key account⟩

def size (ledger : Ledger) : Nat := ledger.accounts.size

def keys (ledger : Ledger) : List Key := ledger.accounts.keys

def activeKeys (ledger : Ledger) : List Key :=
  (ledger.accounts.filter fun _ account => account.isActive).keys

def isActive (ledger : Ledger) (key : Key) : Bool := (ledger.get? key).any (·.isActive)

def isOutOfSync (ledger : Ledger) (key : Key) : Bool := (ledger.get? key).any (·.outOfSync)

section Tree

-- The keys that begin with the text of a key stand together from that key on. Between those
-- below it others may stand, such as `a-b` between `a` and `a:b`.
def subtreeEntries (ledger : Ledger) (key : Key) : List (Key × Account) :=
  ((ledger.accounts.entries.dropWhile fun entry => compare entry.1 key = .lt).takeWhile
    fun entry => entry.1.startsWith key).filter fun entry => key.contains entry.1

def subtree (ledger : Ledger) (key : Key) : Except LedgerError (List (Key × Account)) :=
  if ledger.contains key then .ok (ledger.subtreeEntries key) else .error (.notFound key)

def children (ledger : Ledger) (key : Key) : Except LedgerError (List Key) :=
  if ledger.contains key then .ok (ledger.keys.filter (·.isChildOf key))
  else .error (.notFound key)

def summary (ledger : Ledger) (key : Key) : Except (Failure LedgerError) Summary :=
  match ledger.subtree key with
  | .error error => .error (.refused error)
  | .ok entries => (Summary.ofAccounts (entries.map (·.2))).mapError .overflow

def addToRoot (summaries : SortedMap String Summary) (entry : Key × Account) :
    Except Overflow (SortedMap String Summary) := do
  let root := entry.1.root
  let summary ← ((summaries.get? root).getD .empty).add entry.2
  return summaries.insert root summary

-- One summary for each first segment.
def globalSummary (ledger : Ledger) : Except Overflow (SortedMap String Summary) :=
  ledger.accounts.entries.foldlM addToRoot .empty

end Tree

section Record

def toJson (ledger : Ledger) : Json :=
  .obj (ledger.accounts.entries.map fun (key, account) => (key.text, account.value))

def readEntry (ledger : Ledger) (member : String × Json) : Except LedgerError Ledger := do
  let key ← Key.parse member.1
  let account ← (Account.form.decode member.2).mapError (.badRecord member.1)
  if account.name = key then .ok (ledger.set key account)
  else .error (.misnamed key account.name)

-- Every record must stand under its own, valid name.
def ofJson : Json → Except LedgerError Ledger
  | .obj members => members.foldlM readEntry .empty
  | _ => .error .notAnObject

end Record

def missingAncestors (ledger : Ledger) : List Key :=
  (ledger.keys.flatMap Key.ancestors).filter fun key => !ledger.contains key

-- Adds what is missing above the accounts, closed; also whether nothing was missing.
def repair (ledger : Ledger) : Ledger × Bool :=
  let missing := ledger.missingAncestors
  (missing.foldl (fun ledger key => ledger.set key (.placeholder key)) ledger, missing.isEmpty)

end Ledger

end ShardedLedger
