namespace SignalBridge.Text

/-- The text after the last `sep`, or the whole text if there is none. -/
def afterLast (sep : Char) (text : List Char) : List Char :=
  (text.reverse.takeWhile (· ≠ sep)).reverse

/-- The pieces between the separators. There is always at least one. -/
def splitAt (sep : Char) : List Char → List (List Char)
  | [] => [[]]
  | c :: cs =>
    if c = sep then [] :: splitAt sep cs
    else
      match splitAt sep cs with
      | piece :: rest => (c :: piece) :: rest
      | [] => [[c]]

/-- What is left of `text` after `word`, if it starts with it. -/
def dropWord? : (word text : List Char) → Option (List Char)
  | [], text => some text
  | _ :: _, [] => none
  | w :: word, c :: text => if w = c then dropWord? word text else none

/-- Whether `word` stands anywhere in the text. -/
def occurs (word : List Char) : List Char → Bool
  | [] => word.isEmpty
  | c :: cs => (dropWord? word (c :: cs)).isSome || occurs word cs

end SignalBridge.Text
