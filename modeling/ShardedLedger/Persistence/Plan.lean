import ShardedLedger.Json.Parser
import ShardedLedger.Ledger.Basic
import ShardedLedger.Store.Basic

namespace ShardedLedger

-- What bringing the store up to date with some accounts takes: the writes, the keys whose
-- accounts move to the archive, and the keys that forbid it.
structure Plan where
  commands : List Command
  archived : List Key
  badKeys : List Key
  deriving DecidableEq

namespace Plan

def empty : Plan := ⟨[], [], []⟩

def append (a b : Plan) : Plan :=
  ⟨a.commands ++ b.commands, a.archived ++ b.archived, a.badKeys ++ b.badKeys⟩

instance : Append Plan := ⟨append⟩

-- A stored text as a value and as an account.
def readStored (text : String) : Option (Json × Account) := do
  let value ← Json.parse? text
  let account ← (Account.form.decode value).toOption
  return (value, account)

-- A new account is indexed as active, even if it is closed by now.
def insertion (layout : Layout) (key : Key) (account : Account) : Plan :=
  ⟨[.add layout.activeSet key.text, .set (layout.valueKey key.text) account.storedText], [], []⟩

def update (layout : Layout) (key : Key) (account : Account) (value : Json) (stored : Account) :
    Plan :=
  let write : List Command :=
    if account.value == value then []
    else [.set (layout.valueKey key.text) account.storedText]
  match account.status, stored.status with
  | .closed, .active =>
      ⟨write ++ [.move layout.activeSet layout.archiveSet key.text], [key], []⟩
  | .active, .closed =>
      ⟨write ++ [.move layout.archiveSet layout.activeSet key.text], [], []⟩
  | _, _ => ⟨write, [], []⟩

-- A stored text that is no account, or one of a later version, must not be overwritten.
def forAccount (layout : Layout) (key : Key) (account : Account) : Option String → Plan
  | none => insertion layout key account
  | some text =>
      match readStored text with
      | none => ⟨[], [], [key]⟩
      | some (value, stored) =>
          if account.isSameOrPast stored then update layout key account value stored
          else ⟨[], [], [key]⟩

def forAccounts (layout : Layout) : List (Key × Account) → List (Option String) → Plan
  | (key, account) :: entries, stored :: values =>
      forAccount layout key account stored ++ forAccounts layout entries values
  | _, _ => empty

end Plan

namespace Ledger

-- The accounts to save. One that is out of sync waits for funds.
def saved (ledger : Ledger) : List (Key × Account) :=
  ledger.accounts.entries.filter fun entry => !entry.2.outOfSync

end Ledger

end ShardedLedger
