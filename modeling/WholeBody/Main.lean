import WholeBody.Demo.Standing

/-!
# The demo program

Runs the standing robot and prints the report, without the lines of single ticks.
-/

open WholeBody

def main : IO UInt32 := do
  match Standing.run Standing.numSteps with
  | .ok entries =>
    for e in entries do
      if e.level ≠ "DEBUG" then IO.println e.line
    return 0
  | .error (.error e) =>
    IO.eprintln e.message
    return 1
  | .error .nonconforming => return 1
