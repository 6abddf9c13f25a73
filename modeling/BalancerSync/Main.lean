import BalancerSync.CommandLine

namespace BalancerSync.CommandLine

/-- A file that is there but cannot be read is another matter than one that cannot be found. -/
def readContent (path : String) : IO FileContent := do
  let file ←
    try IO.FS.Handle.mk path .read
    catch
    | .permissionDenied .. => return .unreadable
    | _ => return .missing
  try return .text (← file.readToEnd)
  catch _ => return .unreadable

def readFiles (o : Options) : IO Files := do
  return {
    service := ← readContent o.service
    config := ← match o.config with
      | none => pure .missing
      | some path => readContent path
    state := ← readContent o.state }

def freshIdentifiers : IO (Nat → Identifier) := do
  let start ← IO.rand 0 (UInt64.size / 4)
  return fun n => .scattered (start + n)

/-- Saves the inventory. What goes wrong then comes before what went wrong earlier. -/
def save (o : Options) (e : Execution) : IO (Option Mishap) := do
  match e.inventory with
  | none => return e.mishap
  | some inventory =>
    try
      IO.FS.writeFile o.state (writeState inventory)
      return e.mishap
    catch _ => return some (.unwritableState o.state)

def report (mishap : Mishap) : IO Unit := do
  IO.eprintln ("Error: " ++ mishap.message)
  for cause in mishap.causes?.getD [] do
    IO.eprintln ("  caused by: " ++ cause.message)

def perform (o : Options) : IO UInt32 := do
  let e := execute (← freshIdentifiers) o (← readFiles o)
  e.lines.forM IO.println
  match ← save o e with
  | none => return 0
  | some mishap =>
    report mishap
    return 1

def invoke : Invocation → IO UInt32
  | .execute o => perform o
  | .showVersion => do
    IO.println versionLine
    return 0
  | .showHelp => do
    usage.forM IO.println
    return 0
  | .misuse => do
    usage.forM IO.eprintln
    return 2

end BalancerSync.CommandLine

def main (args : List String) : IO UInt32 :=
  BalancerSync.CommandLine.invoke (.ofArguments args)
