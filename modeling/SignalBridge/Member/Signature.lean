import SignalBridge.NativeType

/-!
Signatures: the parameters and the result that a function type declares. The text is split at
commas and blanks outside all brackets, so the types of parameters stay whole.
-/

namespace SignalBridge

namespace Signature

def opens (c : Char) : Bool :=
  c = '(' || c = '[' || c = '{'

def closes (c : Char) : Bool :=
  c = ')' || c = ']' || c = '}'

/-- How many brackets are open after one more character. A bracket that closes nothing counts for
nothing. -/
def depthAfter (depth : Nat) (c : Char) : Nat :=
  if opens c then depth + 1 else if closes c then depth - 1 else depth

/-- Splits at the parenthesis that closes the list; without one the list runs to the end. -/
def splitList : (depth : Nat) → List Char → List Char × Option (List Char)
  | _, [] => ([], none)
  | depth, c :: cs =>
    if c = ')' && depth = 0 then ([], some cs)
    else
      let (list, after) := splitList (depthAfter depth c) cs
      (c :: list, after)

/-- The pieces between the separators outside all brackets. There is always at least one. -/
def pieces (separates : Char → Bool) : (depth : Nat) → List Char → List (List Char)
  | _, [] => [[]]
  | depth, c :: cs =>
    if depth = 0 && separates c then [] :: pieces separates 0 cs
    else
      match pieces separates (depthAfter depth c) cs with
      | piece :: rest => (c :: piece) :: rest
      | [] => [[c]]

/-- Splits at the first blank outside all brackets. -/
def splitBlank? : (depth : Nat) → List Char → Option (List Char × List Char)
  | _, [] => none
  | depth, c :: cs =>
    if depth = 0 && Text.isBlank c then some ([], cs)
    else (splitBlank? (depthAfter depth c) cs).map fun (before, after) => (c :: before, after)

/-- One entry of a parameter list as it is written. -/
inductive Entry where
  | named (name type : String)
  /-- A word alone: a type, or a name that shares the type of a later entry. -/
  | single (word : String)
deriving DecidableEq, Repr

/-- Reads an entry without blanks at its ends. -/
def Entry.ofText (text : List Char) : Entry :=
  match splitBlank? 0 text with
  | some (name, type) => .named (String.ofList name) (String.ofList (Text.trim type))
  | none => .single (String.ofList text)

/-- The entries between commas; empty ones are left out. -/
def Entry.readList (list : List Char) : List Entry :=
  (((pieces (· = ',') 0 list).map Text.trim).filter (!·.isEmpty)).map Entry.ofText

end Signature

structure Signature where
  entries : List Signature.Entry
  /-- What follows the parameter list. -/
  result : Option String
deriving DecidableEq, Repr

namespace Signature

/-- Leaves out the keyword `func` at the front, if it is there. -/
def dropFunc (text : List Char) : List Char :=
  (Text.dropWord? "func".toList text).getD text

/-- Reads a function type; `none` if there is no parameter list. -/
def ofType? (typeText : String) : Option Signature :=
  match Text.trimStart (dropFunc (Text.trim typeText.toList)) with
  | '(' :: inner =>
    let (list, after) := splitList 0 inner
    let result := Text.trim (after.getD [])
    some ⟨Entry.readList list, if result.isEmpty then none else some (String.ofList result)⟩
  | _ => none

/-- The parameters of the entries from position `i` on, and the type an entry before them shares.
A single word shares the type of the next named entry, unless it is itself a type or nothing
named follows; then it is a type, and its position names the parameter. -/
def resolveFrom (r : Registry) (i : Nat) : List Entry → List Parameter × Option String
  | [] => ([], none)
  | .named name type :: es =>
    (⟨name, type, ""⟩ :: (resolveFrom r (i + 1) es).1, some type)
  | .single word :: es =>
    let (parameters, shared) := resolveFrom r (i + 1) es
    match shared with
    | some type =>
      if (r.nativeType word).isKnown then (⟨s!"v{i}", word, ""⟩ :: parameters, shared)
      else (⟨word, type, ""⟩ :: parameters, shared)
    | none => (⟨s!"v{i}", word, ""⟩ :: parameters, none)

def resolve (r : Registry) (es : List Entry) : List Parameter :=
  (resolveFrom r 0 es).1

end Signature

end SignalBridge
