import LiveRules.Host.Basic
import LiveRules.Settings.Load
import LiveRules.Text.Lines

/-!
# Failures of commands

A failed command reports a message and, below it, the messages of what caused
it. Several causes are numbered from zero, the outermost first.
-/
namespace LiveRules.CommandLine

/-- Why a command fails. -/
inductive Failure where
  /-- There is a configuration file already. -/
  | occupied (path : String)
  | unsaved (e : Settings.SaveError)
  | unloaded (path : String) (e : SettingsError)
  /-- A plugin cannot be built. -/
  | unbuilt (e : Fault)
  | unanswered (e : AskError)
  deriving Repr

namespace Failure

/-- The message about settings that cannot be loaded. -/
def unloadedMessage (path reason : String) : String :=
  "Failed to load configuration from " ++ path ++ ": " ++ reason

def message : Failure → String
  | occupied path => "Configuration file already exists at: " ++ path ++
      "\nUse --force to overwrite"
  | unsaved e => e.message
  | unloaded path e => unloadedMessage path e.message
  | unbuilt e => e.message
  | unanswered e => e.message

def causes : Failure → List String
  | unbuilt e => e.causes
  | unanswered e => e.causes
  | occupied _ | unsaved _ | unloaded _ _ => []

/-- A text after a mark, its later lines indented by `indent`. -/
def hanging (mark indent text : String) : String :=
  mark ++ ("\n" ++ indent).intercalate ((Text.pieces '\n' text.toList).map .ofList)

/-- The lines about causes, numbered from `n`. -/
def numbered (n : Nat) : List String → List String
  | [] => []
  | cause :: rest =>
      hanging ("    " ++ toString n ++ ": ") "       " cause :: numbered (n + 1) rest

def causeLines : List String → List String
  | [cause] => [hanging "    " "    " cause]
  | causes => numbered 0 causes

def report (message : String) (causes : List String) : String :=
  "Error: " ++ message ++
    if causes.isEmpty then "" else "\n\nCaused by:\n" ++ "\n".intercalate (causeLines causes)

def text (f : Failure) : String := report f.message f.causes

end Failure
end LiveRules.CommandLine
