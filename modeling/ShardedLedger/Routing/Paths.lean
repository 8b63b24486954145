import ShardedLedger.Text.Split

namespace ShardedLedger

-- Where a path leads: the account it names, or the placeholder for all of them, and what to do
-- with it; no action is the account itself.
structure Destination where
  account : String
  action : String
  deriving DecidableEq

-- Stands for all accounts in place of a name.
def allAccounts : String := "*"

namespace Action

def none : String := ""

def adjustment : String := "adjustment"

def balance : String := "balance"

def shadow : String := "shadow"

def budget : String := "budget"

def children : String := "children"

def close : String := "close"

def subtree : String := "subtree"

def summary : String := "summary"

def activeAccounts : String := "activeaccounts"

def writes : List String := [adjustment, balance, shadow, budget]

def reads : List String := [children, close, subtree, summary]

end Action

-- The paths of the account interface below a prefix without slashes at its end.
structure Paths where
  prefixText : String
  deriving DecidableEq

namespace Paths

def below (apiPrefix : String) : Paths := ⟨Text.dropTrailing '/' apiPrefix⟩

def accounts (paths : Paths) : String := paths.prefixText ++ "/accounts"

def activeAccounts (paths : Paths) : String := paths.prefixText ++ "/activeaccounts"

def summary (paths : Paths) : String := paths.prefixText ++ "/summary"

def isGlobal (paths : Paths) (path : String) : Bool :=
  path = paths.accounts || path = paths.activeAccounts || path = paths.summary

def resolveListing (paths : Paths) (path : String) : Option Destination :=
  if path = paths.activeAccounts then some ⟨allAccounts, Action.activeAccounts⟩
  else if path = paths.summary then some ⟨allAccounts, Action.summary⟩
  else none

-- At most an account and an action follow the path of all accounts, each behind its slash.
def resolve (paths : Paths) (path : String) : Option Destination :=
  match Text.behind paths.accounts.toList path.toList with
  | some [] => some ⟨allAccounts, Action.none⟩
  | some ('/' :: rest) =>
      match Text.splitOn '/' rest with
      | [account] => some ⟨.ofList account, Action.none⟩
      | [account, action] => some ⟨.ofList account, .ofList action⟩
      | _ => none
  | _ => paths.resolveListing path

end Paths

def defaultApiPrefix : String := "/v1"

end ShardedLedger
