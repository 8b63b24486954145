namespace ShardedLedger.Text

-- The pieces between the separators; always at least one, possibly empty.
def splitOn (separator : Char) : List Char → List (List Char)
  | [] => [[]]
  | c :: rest =>
      if c = separator then [] :: splitOn separator rest
      else
        match splitOn separator rest with
        | [] => [[c]]
        | piece :: pieces => (c :: piece) :: pieces

theorem splitOn_ne_nil (separator : Char) (text : List Char) : splitOn separator text ≠ [] := by
  cases text with
  | nil => simp [splitOn]
  | cons c rest => grind [splitOn]

-- The text before the first separator and, if there is one, the text behind it.
def splitFirst (separator : Char) : List Char → List Char × Option (List Char)
  | [] => ([], none)
  | c :: rest =>
      if c = separator then ([], some rest)
      else
        let (before, behind) := splitFirst separator rest
        (c :: before, behind)

-- The text before the last separator, if there is one.
def beforeLast (separator : Char) : List Char → Option (List Char)
  | [] => none
  | c :: rest =>
      match beforeLast separator rest with
      | some before => some (c :: before)
      | none => if c = separator then some [] else none

-- What follows the first text in the second, if the second begins with it.
def behind : List Char → List Char → Option (List Char)
  | [], text => some text
  | _ :: _, [] => none
  | a :: start, c :: text => if a = c then behind start text else none

-- Whether the first text stands anywhere in the second.
def occursIn (part : List Char) : List Char → Bool
  | [] => part.isEmpty
  | c :: text => (behind part (c :: text)).isSome || occursIn part text

def dropTrailing (c : Char) (s : String) : String :=
  .ofList (s.toList.reverse.dropWhile (· = c)).reverse

end ShardedLedger.Text
