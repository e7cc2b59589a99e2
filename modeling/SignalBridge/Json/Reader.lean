import SignalBridge.Json.Token
import SignalBridge.Json.Value

/-!
Reading a JSON value from its tokens. The reader is a machine that takes one token at a time and
keeps the open arrays and objects on a stack, so values may nest to any depth.
-/

namespace SignalBridge.Json

/-- An array or object part way through, its finished parts in reverse. -/
inductive Frame where
  | array (done : List Json)
  /-- An object that waits for the value of `key`. -/
  | object (done : List (Option String × Json)) (key : Option String)

/-- What the machine waits for, inside the given frames. -/
inductive State where
  | value (frames : List Frame)
  /-- The first item of an array, or its end. -/
  | itemOrEnd (frames : List Frame)
  /-- The first key of an object, or its end. -/
  | keyOrEnd (frames : List Frame)
  | key (done : List (Option String × Json)) (frames : List Frame)
  | colon (done : List (Option String × Json)) (key : Option String) (frames : List Frame)
  /-- What follows a finished value. -/
  | after (v : Json) (frames : List Frame)

namespace State

/-- A token where a value has to start. -/
def startValue (frames : List Frame) : Token → Option State
  | .null => some (after .null frames)
  | .bool b => some (after (.bool b) frames)
  | .number literal => some (after (.number literal) frames)
  | .string content => some (after (.string content) frames)
  | .beginArray => some (itemOrEnd frames)
  | .beginObject => some (keyOrEnd frames)
  | _ => none

def step : State → Token → Option State
  | value frames, t => startValue frames t
  | itemOrEnd frames, .endArray => some (after (.array []) frames)
  | itemOrEnd frames, t => startValue (.array [] :: frames) t
  | keyOrEnd frames, .endObject => some (after (.object []) frames)
  | keyOrEnd frames, .string k => some (colon [] k frames)
  | key done frames, .string k => some (colon done k frames)
  | colon done k frames, .colon => some (value (.object done k :: frames))
  | after v (.array done :: frames), .comma => some (value (.array (v :: done) :: frames))
  | after v (.array done :: frames), .endArray => some (after (.array (v :: done).reverse) frames)
  | after v (.object done k :: frames), .comma => some (key ((k, v) :: done) frames)
  | after v (.object done k :: frames), .endObject =>
    some (after (.object ((k, v) :: done).reverse) frames)
  | _, _ => none

/-- The value read, if nothing is left open. -/
def result? : State → Option Json
  | after v [] => some v
  | _ => none

end State

/-- The value that the tokens write. -/
def ofTokens? (ts : List Token) : Option Json :=
  (ts.foldlM State.step (.value [])).bind State.result?

/-- Reads a text that holds one value and nothing else. -/
def ofText? (text : String) : Option Json :=
  (tokens? text.toList).bind ofTokens?

end SignalBridge.Json
