import ShardedLedger.Text.Split

namespace ShardedLedger

-- Why a file cannot be read as text.
inductive FileError where
  | missing
  | notADirectory
  | isADirectory
  | nameTooLong
  | zeroInName
  | notText
  | failed (reason : String)
  deriving DecidableEq

def FileError.message : FileError → String
  | .missing => "No such file or directory (os error 2)"
  | .notADirectory => "Not a directory (os error 20)"
  | .isADirectory => "Is a directory (os error 21)"
  | .nameTooLong => "File name too long (os error 36)"
  | .zeroInName => "file name contained an unexpected NUL byte"
  | .notText => "stream did not contain valid UTF-8"
  | .failed reason => reason

-- What a path holds, if it can be read.
abbrev Files := String → Except FileError (List UInt8)

-- The files of a machine and its directories, each by the names on the way to it from the
-- root. What such a way passes through is a directory too. Paths that do not begin at the root
-- begin at `home`.
structure FileTree where
  files : List (List String × List UInt8)
  directories : List (List String)
  home : List String

namespace FileTree

def longestName : Nat := 255

def longestPath : Nat := 4095

def content? (tree : FileTree) (place : List String) : Option (List UInt8) :=
  (tree.files.find? (·.1 = place)).map (·.2)

def isDirectory (tree : FileTree) (place : List String) : Bool :=
  (tree.home :: tree.directories).any place.isPrefixOf ||
    tree.files.any fun file => place.isPrefixOf file.1 && place ≠ file.1

-- Nothing lies below a file, not even the file itself.
def step (tree : FileTree) (place : List String) (name : String) :
    Except FileError (List String) :=
  if tree.isDirectory place then
    match name with
    | "" | "." => .ok place
    | ".." => .ok place.dropLast
    | name =>
        let next := place ++ [name]
        if longestName < name.utf8ByteSize then .error .nameTooLong
        else if tree.isDirectory next || (tree.content? next).isSome then .ok next
        else .error .missing
  else .error .notADirectory

def read (tree : FileTree) : Files := fun path =>
  if path.isEmpty then .error .missing
  else if longestPath < path.utf8ByteSize then .error .nameTooLong
  else do
    let start := if path.toList.head? = some '/' then [] else tree.home
    let place ← ((Text.splitOn '/' path.toList).map String.ofList).foldlM tree.step start
    match tree.content? place with
    | some bytes => .ok bytes
    | none => .error .isADirectory

end FileTree

end ShardedLedger
