import ShardedLedger.SortedMap

namespace ShardedLedger

-- Texts by name and sets of texts by name. The two kinds of names do not meet.
structure Store where
  strings : SortedMap String String
  sets : SortedMap String (SortedSet String)
  deriving DecidableEq

-- One write of a transaction.
inductive Command where
  | set (key value : String)
  | add (set member : String)
  | move (source destination member : String)
  deriving DecidableEq

namespace Store

def empty : Store := ⟨.empty, .empty⟩

def value? (store : Store) (key : String) : Option String := store.strings.get? key

def memberSet (store : Store) (set : String) : SortedSet String :=
  (store.sets.get? set).getD .empty

def members (store : Store) (set : String) : List String := (store.memberSet set).keys

def setValue (store : Store) (key value : String) : Store :=
  { store with strings := store.strings.insert key value }

def addMember (store : Store) (set member : String) : Store :=
  { store with sets := store.sets.insert set ((store.memberSet set).add member) }

def removeMember (store : Store) (set member : String) : Store :=
  { store with sets := store.sets.insert set ((store.memberSet set).erase member) }

-- What is not in the source does not get to the destination either.
def moveMember (store : Store) (source destination member : String) : Store :=
  if (store.memberSet source).contains member then
    (store.removeMember source member).addMember destination member
  else store

def apply (store : Store) : Command → Store
  | .set key value => store.setValue key value
  | .add set member => store.addMember set member
  | .move source destination member => store.moveMember source destination member

def applyAll (store : Store) (commands : List Command) : Store := commands.foldl apply store

end Store

-- Where a ledger's data lie in a store that several ledgers may share.
structure Layout where
  keyPrefix : String
  deriving DecidableEq

namespace Layout

def activeSet (layout : Layout) : String := layout.keyPrefix ++ ":accounts"

def archiveSet (layout : Layout) : String := layout.keyPrefix ++ ":archive"

def valueKey (layout : Layout) (account : String) : String := layout.keyPrefix ++ "-" ++ account

end Layout

def defaultKeyPrefix : String := "banker"

end ShardedLedger
