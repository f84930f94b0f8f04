/-!
# Journal

The program tells what it does in events. An event has a level, the part of the
program that speaks, and a text that starts with a component in brackets.
-/
namespace LiveRules

inductive LogLevel where
  | error
  | warn
  | info
  | debug
  | trace
  deriving DecidableEq, Repr

namespace LogLevel

def text : LogLevel → String
  | error => "ERROR"
  | warn => "WARN"
  | info => "INFO"
  | debug => "DEBUG"
  | trace => "TRACE"

/-- Higher levels are more talkative. -/
def rank : LogLevel → Nat
  | error => 1
  | warn => 2
  | info => 3
  | debug => 4
  | trace => 5

end LogLevel

/-- The parts of the program that speak. -/
inductive LogOrigin where
  | composite
  | providers
  | watcher
  | collectStore
  | collectRegistry
  | gate
  | host
  | watchCommand
  deriving DecidableEq, Repr

namespace LogOrigin

/-- The name that filters and log lines use. -/
def target : LogOrigin → String
  | composite => "rulewatch::rules::composite"
  | providers => "rulewatch::provider"
  | watcher => "rulewatch::watcher::reload"
  | collectStore => "rulewatch::collect::store"
  | collectRegistry => "rulewatch::collect::registry"
  | gate => "rulewatch::intel::gate"
  | host => "rulewatch::host"
  | watchCommand => "rulewatch::cli::commands::watch"

end LogOrigin

structure LogEvent where
  level : LogLevel
  origin : LogOrigin
  text : String
  /-- Whether it was raised while a caller waited, not by background work. -/
  foreground : Bool := true
  deriving DecidableEq, Repr

namespace LogEvent

/-- An event of a component, with details after a colon. -/
def note (level : LogLevel) (origin : LogOrigin) (component event details : String) :
    LogEvent :=
  { level, origin, text := "[" ++ component ++ "] " ++ event ++ ": " ++ details }

/-- An event of a component without details. -/
def bare (level : LogLevel) (origin : LogOrigin) (component event : String) : LogEvent :=
  { level, origin, text := "[" ++ component ++ "] " ++ event }

end LogEvent
end LiveRules
