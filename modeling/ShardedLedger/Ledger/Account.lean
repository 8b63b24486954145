import ShardedLedger.Json.Printer
import ShardedLedger.Ledger.Key
import ShardedLedger.Ledger.Pool

namespace ShardedLedger

-- A budget account hands budget on to those below it, a spend account records spend.
inductive AccountType where
  | budget
  | spend
  deriving DecidableEq

namespace AccountType

def names : List (String × AccountType) := [("budget", .budget), ("spend", .spend)]

def name : AccountType → String
  | .budget => "budget"
  | .spend => "spend"

def ofName? (name : String) : Option AccountType := names.lookup name

end AccountType

inductive AccountStatus where
  | active
  | closed
  deriving DecidableEq

namespace AccountStatus

def names : List (String × AccountStatus) := [("ACTIVE", .active), ("CLOSED", .closed)]

def name : AccountStatus → String
  | .active => "ACTIVE"
  | .closed => "CLOSED"

end AccountStatus

-- A node of the account tree. The version counts the changes made to it. The last field is
-- not written anywhere: it says that the spend last reported was more than the funds.
structure Account where
  name : Key
  type : AccountType
  status : AccountStatus
  version : UInt64
  budget : Pool
  balance : Pool
  spent : Pool
  adjustments : Pool
  outOfSync : Bool
  deriving DecidableEq

namespace Account

def new (name : Key) (type : AccountType) : Account :=
  { name, type, status := .active, version := 1, budget := .empty, balance := .empty,
    spent := .empty, adjustments := .empty, outOfSync := false }

-- What stands in for a missing ancestor of stored accounts.
def placeholder (name : Key) : Account := { new name .budget with status := .closed }

def isActive (account : Account) : Bool := account.status = .active

-- Everything written to the account, before spend.
def funds (account : Account) : Except Overflow Pool := do
  (← account.budget.plus account.balance).plus account.adjustments

def available (account : Account) : Except Overflow Pool := do
  (← account.funds).minus account.spent

section Changes

-- A change gives the account as it leaves it and the overflow, if any, that stopped it halfway.

def touch (account : Account) : Account × Option Overflow :=
  if account.version.toNat + 1 < 0x10000000000000000 then
    ({ account with version := account.version + 1 }, none)
  else (account, some .addition)

def setStatus (status : AccountStatus) (account : Account) : Account × Option Overflow :=
  { account with status }.touch

-- Compares the recorded spend with the funds once more. The flag stays as it was when the
-- funds cannot be added up.
def resync (account : Account) : Account × Option Overflow :=
  match account.funds with
  | .ok funds => { account with outOfSync := account.spent.exceeds funds }.touch
  | .error overflow => (account, some overflow)

def setBudget (budget : Pool) (account : Account) : Account × Option Overflow :=
  { account with budget }.resync

def setBalance (balance : Pool) (account : Account) : Account × Option Overflow :=
  { account with balance }.resync

def addAdjustment (adjustment : Pool) (account : Account) : Account × Option Overflow :=
  match account.adjustments.accumulate adjustment with
  | (adjustments, none) => { account with adjustments }.touch
  | (adjustments, some overflow) => ({ account with adjustments }, some overflow)

-- Unlike a new budget or balance, new spend is taken over only after the comparison.
def reportSpend (spent : Pool) (account : Account) : Account × Option Overflow :=
  match account.funds with
  | .ok funds => { account with outOfSync := spent.exceeds funds, spent }.touch
  | .error overflow => (account, some overflow)

end Changes

def isSameOrPast (account other : Account) : Bool := other.version ≤ account.version

section Record

def members (account : Account) : List (String × Json) :=
  [("name", .str account.name.text), ("type", .str account.type.name),
    ("status", .str account.status.name), ("version", .int account.version.toNat),
    ("budget", account.budget.toJson), ("balance", account.balance.toJson),
    ("spent", account.spent.toJson), ("adjustments", account.adjustments.toJson)]

-- The record as it is served, in the order of its declaration.
def record (account : Account) : Json := .obj account.members

-- The record as it is stored, its members in ascending order.
def value (account : Account) : Json := .object account.members

def text (account : Account) : String := account.record.print

def storedText (account : Account) : String := account.value.print

structure Draft where
  name : Option String := none
  type : Option AccountType := none
  status : Option AccountStatus := none
  version : Option Int := none
  budget : Option Pool := none
  balance : Option Pool := none
  spent : Option Pool := none
  adjustments : Option Pool := none

def fields : List (Form.Field Draft) :=
  [.of "name" true .text (·.name) ({ · with name := some · }),
    .of "type" true (.choice AccountType.names) (·.type) ({ · with type := some · }),
    .of "status" true (.choice AccountStatus.names) (·.status) ({ · with status := some · }),
    .of "version" true (.integer "u64" 0 0xFFFFFFFFFFFFFFFF) (·.version)
      ({ · with version := some · }),
    .of "budget" false Pool.form (·.budget) ({ · with budget := some · }),
    .of "balance" false Pool.form (·.balance) ({ · with balance := some · }),
    .of "spent" false Pool.form (·.spent) ({ · with spent := some · }),
    .of "adjustments" false Pool.form (·.adjustments) ({ · with adjustments := some · })]

def ofDraft (draft : Draft) : Except Json.Error Account := do
  return {
    name := ⟨← Form.require "name" draft.name⟩
    type := ← Form.require "type" draft.type
    status := ← Form.require "status" draft.status
    version := .ofNat (← Form.require "version" draft.version).toNat
    budget := draft.budget.getD .empty
    balance := draft.balance.getD .empty
    spent := draft.spent.getD .empty
    adjustments := draft.adjustments.getD .empty
    outOfSync := false }

-- The name inside a record need not be a valid key.
def form : Form Account := .record "struct Account" fields {} ofDraft

end Record

end Account

-- The sums over an account and everything below it.
structure Summary where
  accounts : UInt64
  budget : Pool
  balance : Pool
  spent : Pool
  adjustments : Pool
  available : Pool
  deriving DecidableEq

namespace Summary

def empty : Summary := ⟨0, .empty, .empty, .empty, .empty, .empty⟩

def countOne (accounts : UInt64) : Except Overflow UInt64 :=
  if accounts.toNat + 1 < 0x10000000000000000 then .ok (accounts + 1) else .error .addition

def add (summary : Summary) (account : Account) : Except Overflow Summary := do
  return {
    accounts := ← countOne summary.accounts
    budget := ← summary.budget.plus account.budget
    balance := ← summary.balance.plus account.balance
    spent := ← summary.spent.plus account.spent
    adjustments := ← summary.adjustments.plus account.adjustments
    available := ← summary.available.plus (← account.available) }

def ofAccounts (accounts : List Account) : Except Overflow Summary := accounts.foldlM add empty

def toJson (summary : Summary) : Json :=
  .obj [("accounts", .int summary.accounts.toNat), ("budget", summary.budget.toJson),
    ("balance", summary.balance.toJson), ("spent", summary.spent.toJson),
    ("adjustments", summary.adjustments.toJson), ("available", summary.available.toJson)]

end Summary

end ShardedLedger
