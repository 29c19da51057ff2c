import Caseload.CommandLine
import Std.Time.DateTime.Timestamp
import Std.Time.Date.PlainDate

/-!
# The program

Runs the command line on the environment, the files and the clock of this machine.
-/

namespace Caseload

/-- The variables of the environment that the program looks at. -/
def readEnvironment : IO Environment := do
  let values ← Settings.variableNames.mapM fun name => do return (name, ← IO.getEnv name)
  return fun name => (values.lookup name).getD none

/-- The text of a file, if it is there and is text. -/
def readText (path : String) : IO (Option String) := do
  try
    return String.fromUTF8? (← IO.FS.readBinFile path)
  catch _ =>
    return none

/-- What the clock of this machine shows; the start of the year 1970 if that is no date. -/
def readClock : IO (Option Instant) := do
  let time ← Std.Time.Timestamp.now
  let seconds : Int := time.toSecondsSinceUnixEpoch.val
  let day := Std.Time.PlainDate.ofEpochDay (.ofInt (seconds / 86400))
  return do
    let date ← Date.ofParts? day.year day.month.val.toNat day.day.val.toNat
    Instant.ofParts? date (seconds % 86400).toNat time.val.nano.val.toNat

end Caseload

/-- Runs the program.  What it finds it prints; what is wrong it says on the error stream, in words
for people that are no part of what a run leaves. -/
def main (arguments : List String) : IO UInt32 := do
  let some now ← Caseload.readClock
    | IO.eprintln "the clock shows no date"
      return 1
  let env ← Caseload.readEnvironment
  let outcome ← (Caseload.CommandLine.run env Caseload.readText now arguments).run
  if let .error e := outcome then
    IO.eprintln e.message
  let exit := Caseload.CommandLine.exit outcome
  IO.print exit.output
  return exit.code
