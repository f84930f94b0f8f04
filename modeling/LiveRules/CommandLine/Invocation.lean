/-!
# Invocations

The arguments of the program: options of its own, the name of a command, then the
options and operands of that command. `--config` may stand on either side of the
name. Arguments are read from left to right, and reading stops at the first one
that asks for help, asks for the version, or cannot be understood.
-/
namespace LiveRules.CommandLine

inductive CommandName where
  | init
  | config
  | check
  | collect
  | watch
  deriving DecidableEq, Repr

namespace CommandName

def text : CommandName → String
  | init => "init"
  | config => "config"
  | check => "check"
  | collect => "collect"
  | watch => "watch"

def all : List CommandName := [init, config, check, collect, watch]

def ofText? (s : String) : Option CommandName := all.find? (·.text = s)

/-- The names of the operands, all of which are required. -/
def operands : CommandName → List String
  | check => ["TAG", "KEY"]
  | collect => ["TAG", "NAME"]
  | init | config | watch => []

end CommandName

/-- A command with everything it needs. -/
inductive Command where
  | init (force : Bool)
  | config
  | check (tag key : String) (json : Bool)
  | collect (tag name : String)
  | watch
  deriving DecidableEq, Repr

structure Invocation where
  /-- The configuration file that is asked for. -/
  config : Option String := none
  command : Command
  deriving DecidableEq, Repr

/-- The options with a name. -/
inductive Switch where
  | help
  | version
  | config
  | force
  | json
  deriving DecidableEq, Repr

namespace Switch

def text : Switch → String
  | help => "--help"
  | version => "--version"
  | config => "--config <CONFIG>"
  | force => "--force"
  | json => "--json"

/-- The options that are known before a command, or to one. -/
def known : Option CommandName → List Switch
  | none => [help, version, config]
  | some .init => [help, config, force]
  | some .check => [help, config, json]
  | some _ => [help, config]

def long : Switch → String
  | help => "help"
  | version => "version"
  | config => "config"
  | force => "force"
  | json => "json"

def short? : Switch → Option Char
  | help => some 'h'
  | version => some 'V'
  | config => some 'c'
  | force => some 'f'
  | json => none

def ofLong? (c : Option CommandName) (name : String) : Option Switch :=
  (known c).find? (·.long = name)

def ofShort? (c : Option CommandName) (letter : Char) : Option Switch :=
  (known c).find? (·.short? = some letter)

end Switch

inductive UsageError where
  | unexpected (arg : String)
  | unknownCommand (name : String)
  | missingValue (s : Switch)
  | unwantedValue (value : String) (s : Switch)
  | repeated (s : Switch)
  | missingOperands (names : List String)
  | missingCommand
  deriving DecidableEq, Repr

namespace UsageError

def message : UsageError → String
  | unexpected arg => "unexpected argument '" ++ arg ++ "' found"
  | unknownCommand name => "unrecognized subcommand '" ++ name ++ "'"
  | missingValue s => "a value is required for '" ++ s.text ++ "' but none was supplied"
  | unwantedValue value s =>
      "unexpected value '" ++ value ++ "' for '" ++ s.text ++ "' found; no more were expected"
  | repeated s => "the argument '" ++ s.text ++ "' cannot be used multiple times"
  | missingOperands names => "the following required arguments were not provided:" ++
      String.join (names.map fun n => "\n  <" ++ n ++ ">")
  | missingCommand => "'rulewatch' requires a subcommand but one was not provided"

end UsageError

/-- Why there is no command to run. -/
inductive Stop where
  /-- Help is asked for, with all commands or with one. -/
  | help (topic : Option CommandName)
  | version
  | usage (e : UsageError)
  deriving DecidableEq, Repr

/-- What the arguments up to some point have said. -/
structure Reading where
  command : Option CommandName := none
  /-- The configuration file named before the command. -/
  outer : Option String := none
  /-- The configuration file named among the present arguments. -/
  config : Option String := none
  /-- Whether `--config` still waits for its value. -/
  waiting : Bool := false
  /-- Whether all that follows are operands. -/
  literal : Bool := false
  force : Bool := false
  json : Bool := false
  operands : List String := []
  deriving DecidableEq, Repr

namespace Reading

def giveConfig (r : Reading) (value : String) : Except Stop Reading :=
  if value.isEmpty then .error (.usage (.missingValue .config))
  else if r.config.isSome then .error (.usage (.repeated .config))
  else .ok { r with config := some value, waiting := false }

/-- Takes an option that stands without a value. -/
def turnOn (r : Reading) : Switch → Except Stop Reading
  | .help => .error (.help r.command)
  | .version => .error .version
  | .config => .ok { r with waiting := true }
  | .force =>
      if r.force then .error (.usage (.repeated .force)) else .ok { r with force := true }
  | .json =>
      if r.json then .error (.usage (.repeated .json)) else .ok { r with json := true }

/-- Takes an option by its long name, with what follows an equals sign. -/
def takeLong (r : Reading) (name : String) (value : Option String) : Except Stop Reading :=
  match Switch.ofLong? r.command name, value with
  | none, _ => .error (.usage (.unexpected ("--" ++ name)))
  | some .config, some value => r.giveConfig value
  | some s, some value => .error (.usage (.unwantedValue value s))
  | some s, none => r.turnOn s

/-- Takes options by their letters. The rest after the letter of `--config` is
its value, with or without an equals sign. -/
def takeShort (r : Reading) : List Char → Except Stop Reading
  | [] => .ok r
  | letter :: rest =>
      match Switch.ofShort? r.command letter, rest with
      | none, _ => .error (.usage (.unexpected (.ofList ['-', letter])))
      | some .config, [] => r.turnOn .config
      | some .config, '=' :: value => r.giveConfig (.ofList value)
      | some .config, value => r.giveConfig (.ofList value)
      | some s, _ => do (← r.turnOn s).takeShort rest

def takeOperand (r : Reading) (arg : String) : Except Stop Reading :=
  match r.command with
  | none => .error (.usage (if r.literal then .unexpected arg else .unknownCommand arg))
  | some c =>
      if r.operands.length < c.operands.length then
        .ok { r with operands := r.operands ++ [arg] }
      else .error (.usage (.unexpected arg))

/-- Begins the arguments of a command. -/
def enter (r : Reading) (c : CommandName) : Reading :=
  { r with command := some c, outer := r.config, config := none }

/-- Takes one argument. -/
def take (r : Reading) (arg : String) : Except Stop Reading :=
  if r.literal then r.takeOperand arg
  else
    let entered := if r.command.isNone && !r.waiting then CommandName.ofText? arg else none
    match entered, arg.toList with
    | some c, _ => .ok (r.enter c)
    | none, '-' :: c :: cs =>
        if r.waiting then .error (.usage (.missingValue .config))
        else match c, cs with
          | '-', [] => .ok { r with literal := true }
          | '-', cs =>
              let name := cs.takeWhile (· ≠ '=')
              let value := match cs.dropWhile (· ≠ '=') with
                | _ :: value => some (String.ofList value)
                | [] => none
              r.takeLong (.ofList name) value
          | c, cs => r.takeShort (c :: cs)
    | none, _ => if r.waiting then r.giveConfig arg else r.takeOperand arg

/-- The configuration file: the one named with the command, or before it, or in
the environment. An empty name in the environment is refused where it counts. -/
def chosenConfig (r : Reading) (fromEnvironment : Option String) :
    Except Stop (Option String) :=
  if fromEnvironment = some "" && (r.config.isNone || r.outer.isNone) then
    .error (.usage (.missingValue .config))
  else .ok (r.config <|> r.outer <|> fromEnvironment)

/-- The invocation after the last argument. -/
def finish (r : Reading) (fromEnvironment : Option String) : Except Stop Invocation := do
  if r.waiting then throw (.usage (.missingValue .config))
  let some c := r.command | throw (.usage .missingCommand)
  let config ← r.chosenConfig fromEnvironment
  match c, r.operands with
  | .init, _ => return ⟨config, .init r.force⟩
  | .config, _ => return ⟨config, .config⟩
  | .check, [tag, key] => return ⟨config, .check tag key r.json⟩
  | .collect, [tag, name] => return ⟨config, .collect tag name⟩
  | .watch, _ => return ⟨config, .watch⟩
  | c, given => throw (.usage (.missingOperands (c.operands.drop given.length)))

end Reading

/-- What `help` shows: everything, or the command it is followed by. -/
def helpTopic : List String → Stop
  | [] => .help none
  | name :: rest =>
      match CommandName.ofText? name, rest with
      | none, [] => if name = "help" then .help none else .usage (.unknownCommand name)
      | some c, [] => .help (some c)
      | none, next :: _ =>
          .usage (.unknownCommand (if name = "help" then next else name))
      | some _, next :: _ => .usage (.unknownCommand next)

/-- Takes the arguments in turn; `help` in the place of a command takes the rest. -/
def readFrom (r : Reading) : List String → Except Stop Reading
  | [] => .ok r
  | arg :: rest =>
      if arg = "help" && r.command.isNone && !r.waiting && !r.literal then
        .error (helpTopic rest)
      else do readFrom (← r.take arg) rest

namespace Invocation

/-- The variable that names a configuration file. -/
def configVariable : String := "RULEWATCH_CONFIG"

def parse (args : List String) (env : List (String × String)) : Except Stop Invocation := do
  (← readFrom {} args).finish (env.lookup configVariable)

end Invocation
end LiveRules.CommandLine
