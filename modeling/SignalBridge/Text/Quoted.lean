import SignalBridge.Text.Combining
import SignalBridge.Text.Printable

/-!
A character between single quotes, for messages. What would not show as itself is escaped:
combining characters would sit on the opening quote, unprintable ones would not be seen.
-/

namespace SignalBridge.Text

/-- Lower-case hexadecimal digits without leading zeros. -/
def hexDigits (n : Nat) : List Char :=
  Nat.toDigits 16 n

def quotedBody (c : Char) : List Char :=
  match c with
  | '\x00' => ['\\', '0']
  | '\t' => ['\\', 't']
  | '\r' => ['\\', 'r']
  | '\n' => ['\\', 'n']
  | '\'' => ['\\', '\'']
  | '\\' => ['\\', '\\']
  | c =>
    if isCombining c || !isPrintable c then ['\\', 'u', '{'] ++ hexDigits c.toNat ++ ['}'] else [c]

def quoteChar (c : Char) : String :=
  String.ofList ('\'' :: quotedBody c ++ ['\''])

end SignalBridge.Text
