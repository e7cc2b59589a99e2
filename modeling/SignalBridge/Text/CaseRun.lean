namespace SignalBridge.Text

/-- The code points `first`, `first + step`, … up to `last` map to `target`, `target + step`, …
in the same order. Alphabets that alternate capital and small letters have step 2. -/
structure CaseRun where
  first : Nat
  last : Nat
  step : Nat
  target : Nat
deriving DecidableEq, Repr

namespace CaseRun

def covers (run : CaseRun) (n : Nat) : Bool :=
  run.first ≤ n && n ≤ run.last && (n - run.first) % run.step == 0

/-- The mapping of the first run that covers `c`; a character outside all runs is kept. -/
def apply (runs : List CaseRun) (c : Char) : Char :=
  match runs.find? (covers · c.toNat) with
  | some run => Char.ofNat (run.target + (c.toNat - run.first))
  | none => c

end CaseRun

end SignalBridge.Text
