/-!
JSON values. Objects keep their entries in order and may repeat a key. A string can be written
with half of a surrogate pair; such a string is no text, and `none` stands for it.
-/

namespace SignalBridge

inductive Json where
  | null
  | bool (b : Bool)
  /-- A number as it is written; nothing here computes with it. -/
  | number (literal : String)
  | string (content : Option String)
  | array (items : List Json)
  | object (entries : List (Option String × Json))

end SignalBridge
