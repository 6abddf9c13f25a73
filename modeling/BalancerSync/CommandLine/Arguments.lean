import BalancerSync.Text.Digits

namespace BalancerSync.CommandLine

inductive Command
  | check
  | reconcile (delete : Bool)
  | status
  deriving DecidableEq

structure Options where
  state : String
  service : String
  loadBalancers : List String
  config : Option String
  readyAfter : Nat
  backoffSteps : Option Nat
  backoffInitialMs : Option Nat
  maxCycles : Option Nat
  command : Command
  deriving DecidableEq

structure Given where
  state : Option String
  service : Option String
  loadBalancers : List String
  config : Option String
  readyAfter : Option Nat
  backoffSteps : Option Nat
  backoffInitialMs : Option Nat
  maxCycles : Option Nat

namespace Given

def none : Given := ⟨.none, .none, [], .none, .none, .none, .none, .none⟩

end Given

inductive Invocation
  | execute (options : Options)
  | showVersion
  | showHelp
  | misuse
  deriving DecidableEq

def path? (value : String) : Option String := if value = "" then none else some value

/-- A number of at most thirty-two bits. A sign may stand before it, a minus only before zero. -/
def word32? (value : String) : Option Nat :=
  match value.toList with
  | '+' :: digits => (Text.readNumber? 10 digits).filter (· < UInt32.size)
  | '-' :: digits => (Text.readNumber? 10 digits).filter (· = 0)
  | digits => (Text.readNumber? 10 digits).filter (· < UInt32.size)

/-- A number of at most sixty-four bits. A plus sign may stand before it. -/
def word64? (value : String) : Option Nat :=
  match value.toList with
  | '+' :: digits => (Text.readNumber? 10 digits).filter (· < UInt64.size)
  | digits => (Text.readNumber? 10 digits).filter (· < UInt64.size)

/-- The value of an option that may be given once. -/
def once? {α : Type} (read : String → Option α) (given : Option α) (value : String) :
    Option (Option α) :=
  if given.isSome then none else (read value).map some

def looksLikeOption (arg : String) : Bool := arg.startsWith "-" && arg ≠ "-"

def Given.set? (g : Given) (option value : String) : Option Given :=
  match option with
  | "--state" => do return { g with state := ← once? path? g.state value }
  | "--service" => do return { g with service := ← once? path? g.service value }
  | "--load-balancer" => some { g with loadBalancers := g.loadBalancers ++ [value] }
  | "--config" => do return { g with config := ← once? path? g.config value }
  | "--ready-after" => do return { g with readyAfter := ← once? word32? g.readyAfter value }
  | "--backoff-steps" => do return { g with backoffSteps := ← once? word32? g.backoffSteps value }
  | "--backoff-initial-ms" => do
    return { g with backoffInitialMs := ← once? word64? g.backoffInitialMs value }
  | "--max-cycles" => do return { g with maxCycles := ← once? word32? g.maxCycles value }
  | _ => none

/-- The name of an option and the value after the first equals sign. -/
def splitOption (arg : String) : String × Option String :=
  let cs := arg.toList
  let name := cs.takeWhile (· ≠ '=')
  match cs.drop name.length with
  | [] => (arg, none)
  | _ :: value => (String.ofList name, some (String.ofList value))

def isHelp (arg : String) : Bool := arg = "--help" || arg.startsWith "-h"

def isVersion (arg : String) : Bool := arg = "--version" || arg.startsWith "-V"

def Given.complete (g : Given) (command : Command) : Invocation :=
  match g.service, g.loadBalancers with
  | some service, lb :: rest =>
    .execute
      { state := g.state.getD "lbaas-state.json"
        service
        loadBalancers := lb :: rest
        config := g.config
        readyAfter := g.readyAfter.getD 0
        backoffSteps := g.backoffSteps
        backoffInitialMs := g.backoffInitialMs
        maxCycles := g.maxCycles
        command }
  | _, _ => .misuse

/-- Help can be asked for on one command, and it is a command itself. -/
def helpTopics : List String := ["check", "reconcile", "status", "help"]

def readHelp : List String → Invocation
  | [] => .showHelp
  | [topic] => if topic ∈ helpTopics then .showHelp else .misuse
  | _ => .misuse

/-- Reads what follows a command that has no options. Two hyphens may end the arguments. -/
def readPlain (g : Given) (command : Command) : List String → Invocation
  | [] | ["--"] => g.complete command
  | arg :: _ => if isHelp arg then .showHelp else .misuse

def readReconcile (g : Given) : List String → Invocation
  | "--delete" :: rest => readPlain g (.reconcile true) rest
  | args => readPlain g (.reconcile false) args

def readCommand (g : Given) (command : String) (args : List String) : Invocation :=
  match command with
  | "check" => readPlain g .check args
  | "reconcile" => readReconcile g args
  | "status" => readPlain g .status args
  | "help" => readHelp args
  | _ => .misuse

def readOptions (g : Given) : List String → Invocation
  | [] => .misuse
  | arg :: rest =>
    if isHelp arg then .showHelp
    else if isVersion arg then .showVersion
    else if !looksLikeOption arg then readCommand g arg rest
    else
      match splitOption arg, rest with
      | (option, some value), rest =>
        match g.set? option value with
        | none => .misuse
        | some g => readOptions g rest
      | (_, none), [] => .misuse
      | (option, none), value :: rest =>
        if looksLikeOption value then .misuse
        else
          match g.set? option value with
          | none => .misuse
          | some g => readOptions g rest

def Invocation.ofArguments (args : List String) : Invocation := readOptions .none args

end BalancerSync.CommandLine
