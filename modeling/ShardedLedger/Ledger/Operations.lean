import ShardedLedger.Ledger.Basic

namespace ShardedLedger.Ledger

-- An operation gives the ledger as it leaves it, whatever it answers.
abbrev Outcome (α : Type) := Ledger × Except (Failure LedgerError) α

def refuse {α : Type} (ledger : Ledger) (error : LedgerError) : Outcome α :=
  (ledger, .error (.refused error))

def stop {α : Type} (ledger : Ledger) (overflow : Overflow) : Outcome α :=
  (ledger, .error (.overflow overflow))

-- Puts a changed account back, also when an overflow stopped its change.
def settle (ledger : Ledger) (key : Key) : Account × Option Overflow → Outcome Account
  | (account, none) => (ledger.set key account, .ok account)
  | (account, some overflow) => (ledger.set key account).stop overflow

def changeActive (ledger : Ledger) (key : Key) (change : Account → Account × Option Overflow) :
    Outcome Account :=
  match ledger.get? key with
  | none => ledger.refuse (.notFound key)
  | some account =>
      if account.isActive then ledger.settle key (change account)
      else ledger.refuse (.closed key)

def setBudget (ledger : Ledger) (key : Key) (budget : Pool) : Outcome Account :=
  ledger.changeActive key (·.setBudget budget)

def setBalance (ledger : Ledger) (key : Key) (balance : Pool) : Outcome Account :=
  ledger.changeActive key (·.setBalance balance)

def addAdjustment (ledger : Ledger) (key : Key) (adjustment : Pool) : Outcome Account :=
  ledger.changeActive key (·.addAdjustment adjustment)

def reportSpend (ledger : Ledger) (key : Key) (spent : Pool) : Outcome Account :=
  ledger.changeActive key (·.reportSpend spent)

-- Opens the closed ones among the keys; those that are missing are created if asked for.
def openEach (create : Bool) : List Key → Ledger → Ledger × Option Overflow
  | [], ledger => (ledger, none)
  | key :: keys, ledger =>
      match ledger.get? key with
      | none =>
          if create then openEach create keys (ledger.set key (.new key .budget))
          else openEach create keys ledger
      | some account =>
          if account.isActive then openEach create keys ledger
          else
            match account.setStatus .active with
            | (account, none) => openEach create keys (ledger.set key account)
            | (account, some overflow) => (ledger.set key account, some overflow)

-- Opens the account and all above it. What is above it opens even if it is missing itself.
def reactivate (ledger : Ledger) (key : Key) : Outcome Account :=
  match openEach false key.ancestors ledger with
  | (ledger, some overflow) => ledger.stop overflow
  | (ledger, none) =>
      match ledger.get? key with
      | none => ledger.refuse (.notFound key)
      | some account =>
          if account.isActive then (ledger, .ok account)
          else ledger.settle key (account.setStatus .active)

def spendAncestor? (ledger : Ledger) (key : Key) : Option Key :=
  key.ancestors.find? fun ancestor => (ledger.get? ancestor).any (·.type = .spend)

-- A closed account opens again, whatever the type asked for. A new one comes with whatever is
-- missing above it.
def create (ledger : Ledger) (key : Key) (type : AccountType) : Outcome Account :=
  match ledger.get? key with
  | some account =>
      if !account.isActive then ledger.reactivate key
      else if account.type = type then (ledger, .ok account)
      else ledger.refuse (.typeMismatch key)
  | none =>
      match ledger.spendAncestor? key with
      | some parent => ledger.refuse (.underSpend parent key)
      | none =>
          match openEach true key.ancestors ledger with
          | (ledger, some overflow) => ledger.stop overflow
          | (ledger, none) => (ledger.set key (.new key type), .ok (.new key type))

def closeWithin (key : Key) (candidate : Key) (account : Account) : Account × Option Overflow :=
  if key.contains candidate && account.isActive then account.setStatus .closed
  else (account, none)

-- Closes the account and everything below it, in key order.
def close (ledger : Ledger) (key : Key) : Outcome Account :=
  if ledger.contains key then
    match ledger.accounts.visit (closeWithin key) with
    | (accounts, some overflow) => stop ⟨accounts⟩ overflow
    | (accounts, none) =>
        match accounts.get? key with
        | some account => (⟨accounts⟩, .ok account)
        | none => refuse ⟨accounts⟩ (.notFound key)
  else ledger.refuse (.notFound key)

end ShardedLedger.Ledger
