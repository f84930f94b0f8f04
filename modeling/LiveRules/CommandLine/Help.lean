import LiveRules.CommandLine.Invocation

/-!
# Help texts
-/
namespace LiveRules.CommandLine

/-- The version line. -/
def versionLine : String := "rulewatch 0.3.2"

namespace Help

def summary : CommandName → String
  | .init => "Create rulewatch.toml with defaults and commented examples"
  | .config => "Display the merged settings (defaults, file, environment)"
  | .check => "Check a key against a domain set, ip set, hosts table or intel gate"
  | .collect => "Run a collect action for a query name"
  | .watch => "Watch rule files and answer \x60<tag> <key>\x60 lines from stdin"

/-- What stands below the options. -/
def closing : CommandName → List String
  | .check => ["", "Examples:", "  rulewatch check ads tracker.example.com",
      "  rulewatch check lan 192.168.1.20", "  rulewatch check static router.home"]
  | .watch => ["", "Input lines:",
      "  <tag> <key>    same as \x60rulewatch check\x60, or a collect action run", "",
      "End with EOF or Ctrl-C."]
  | .init | .config | .collect => []

def ofSwitch : Switch → String
  | .help => "Print help"
  | .version => "Print version"
  | .config => "Path to a custom rulewatch.toml [env: RULEWATCH_CONFIG]"
  | .force => "Force overwrite existing configuration"
  | .json => "Print a JSON object instead of plain text"

def switchLines (s : Switch) : List String :=
  let letter := match s.short? with
    | some c => "-" ++ String.singleton c ++ ", "
    | none => "    "
  ["  " ++ letter ++ s.text, "          " ++ ofSwitch s]

def options (c : Option CommandName) : List String :=
  "" :: "Options:" :: (Switch.known c).flatMap switchLines

/-- The line that shows how a command is called. -/
def usage : Option CommandName → String
  | none => "Usage: rulewatch [OPTIONS] <COMMAND>"
  | some c => "Usage: rulewatch " ++ c.text ++ " [OPTIONS]" ++
      String.join (c.operands.map fun o => " <" ++ o ++ ">")

def commandLines (c : CommandName) : List String :=
  ["  " ++ c.text, "          " ++ summary c]

def lines : Option CommandName → List String
  | none =>
      ["Hot-reloadable rule sets and collect stores", "", usage none, "", "Commands:"] ++
        CommandName.all.flatMap commandLines ++ options none
  | some c => [summary c, "", usage (some c)] ++ options (some c) ++ closing c

end Help

namespace UsageError

def report (e : UsageError) : String :=
  "error: " ++ e.message ++ "\n\nFor more information, try '--help'."

end UsageError
end LiveRules.CommandLine
