import BalancerSync.CommandLine

namespace BalancerSync.Scenario

/-- A directory that holds files and no directories: their texts by their names. -/
abbrev Directory := OrderedMap String String

namespace Directory

open CommandLine

inductive Place
  | file (name : String)
  | directory
  /-- Nothing can be there. -/
  | nowhere
  deriving DecidableEq

def pathLimit : Nat := 4095

def nameLimit : Nat := 255

/-- The bytes of the path to the directory. Nothing but the limit of a path makes them count. -/
def rootLength : Nat := 16

def parts (path : String) : List String := path.splitOn "/"

def movesOf (path : String) : List String := (parts path).filter fun part => part ≠ "" ∧ part ≠ "."

def isName (name : String) : Bool :=
  name.utf8ByteSize ≤ nameLimit && !name.toList.contains (.ofNat 0)

/-- Where a path leads that has at most so many bytes. The directory holds no other directory, so
a path that ends in a name has no other part that leads somewhere. -/
def place (limit : Nat) (path : String) : Place :=
  if path = "" ∨ limit < path.utf8ByteSize then .nowhere
  else if (movesOf path).all (· = "..") then .directory
  else
    match movesOf path with
    | [name] =>
      if isName name ∧ (parts path).getLast? = some name ∧ (parts path).head? ≠ some "" then
        .file name
      else .nowhere
    | _ => .nowhere

def readWithin (limit : Nat) (d : Directory) (path : String) : FileContent :=
  match place limit path with
  | .nowhere => .missing
  | .directory => .unreadable
  | .file name =>
    match d.get? name with
    | none => .missing
    | some text => .text text

def writeWithin? (limit : Nat) (d : Directory) (path text : String) : Option Directory :=
  match place limit path with
  | .file name => some (d.insert name text)
  | _ => none

def read (d : Directory) (path : String) : FileContent := d.readWithin pathLimit path

/-- Nothing if the file cannot be written. -/
def write? (d : Directory) (path text : String) : Option Directory :=
  d.writeWithin? pathLimit path text

/-- Reads a file from outside, by a path that begins with the path to the directory. -/
def look? (d : Directory) (path : String) : Option String :=
  (d.readWithin (pathLimit - rootLength) path).text?

/-- Puts files into the directory from outside. One that cannot be written is left out. -/
def put (d : Directory) (files : OrderedMap String String) : Directory :=
  files.entries.foldl
    (fun d e => (d.writeWithin? (pathLimit - rootLength) e.1 e.2).getD d) d

/-- A line ends with a newline, or with a carriage return and a newline. -/
def dropReturn (line : List Char) : List Char :=
  match line.reverse with
  | '\r' :: rest => rest.reverse
  | _ => line

/-- The lines of the output. What is written as one line may hold newlines. -/
def outputLines (written : List String) : List String :=
  (written.flatMap (·.splitOn "\n")).map fun line => String.ofList (dropReturn line.toList)

structure Outcome where
  exit : Nat
  lines : List String
  mishap : Option Mishap

/-- Where the inventory cannot be saved, that is what the run ends with. -/
def save (d : Directory) (o : Options) (e : Execution) : Outcome × Directory :=
  let outcome (mishap : Option Mishap) : Outcome :=
    ⟨if mishap.isSome then 1 else 0, outputLines e.lines, mishap⟩
  match e.inventory with
  | none => (outcome e.mishap, d)
  | some inventory =>
    match d.write? o.state (writeState inventory) with
    | none => (outcome (some (.unwritableState o.state)), d)
    | some d => (outcome e.mishap, d)

def filesOf (d : Directory) (o : Options) : Files where
  service := d.read o.service
  config := (o.config.map d.read).getD .missing
  state := d.read o.state

def run (d : Directory) (fresh : Nat → Identifier) (args : List String)
    (order : Campaign.Order Memory := Campaign.atOnce (Memory.provider fresh)) : Outcome × Directory :=
  match Invocation.ofArguments args with
  | .misuse => (⟨2, [], none⟩, d)
  | .showHelp => (⟨0, usage, none⟩, d)
  | .showVersion => (⟨0, [versionLine], none⟩, d)
  | .execute o => d.save o (execute fresh o (d.filesOf o) order)

end Directory

end BalancerSync.Scenario
