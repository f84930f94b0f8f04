import LiveRules.CommandLine.Help
import LiveRules.CommandLine.Session

/-!
# Runs of the program

A run takes arguments, the environment, the files and all input, and gives the
exit code, what was said and the files afterwards. The code is 0 after success,
1 after a failure and 2 after arguments that cannot be understood.
-/
namespace LiveRules.CommandLine
variable [PatternLanguage]

/-- What a run finds. -/
structure Surroundings where
  files : Files.Tree := {}
  env : List (String × String) := []
  input : String := ""
  /-- Whether the user interrupts after the last line of input. -/
  interrupted : Bool := false

structure Outcome where
  code : Nat
  said : List Saying
  files : Files.Tree

namespace Outcome

def output (o : Outcome) : String :=
  String.join ((o.said.filterMap Saying.output?).map (· ++ "\n"))

end Outcome

/-- The variable whose directives replace those of the settings. -/
def filterVariable : String := "RUST_LOG"

/-- The filter for log lines, with remarks about directives that cannot be read. -/
def chosenFilter (env : List (String × String)) (l : LoggingSettings) :
    LogFilter × List String :=
  LogFilter.parse ((env.lookup filterVariable).getD l.directives)

/-- The run of a session after which a host has been closed. -/
def Outcome.ofSession (r : Except Failure Unit) (s : Session) : Outcome :=
  match r with
  | .ok _ => ⟨0, s.said, s.engine.files⟩
  | .error f => ⟨1, s.said ++ [.failed f], s.engine.files⟩

/-- Builds the host, does something with it, and closes it. -/
def withHost (settings : Settings) (s : Session)
    (act : Session → Except AskError Unit × Session) : Outcome :=
  match s.start settings with
  | (.error e, s) => .ofSession (.error (.unbuilt e)) s
  | (.ok _, s) =>
      let (r, s) := act s
      .ofSession (r.mapError .unanswered) s.close

/-- Answers all lines of input. -/
def watchInput (p : Surroundings) (s : Session) : Session :=
  let s := (Text.lines p.input).foldl Session.takeLine s.beginWatch
  let s := if p.interrupted then s.say (.remark "Interrupted") else s
  s.endWatch

def createConfig (path : String) (force : Bool) (files : Files.Tree) : Outcome :=
  if !force && files.pathExists path then ⟨1, [.failed (.occupied path)], files⟩
  else match Settings.initFile files path force with
    | .error e => ⟨1, [.failed (.unsaved e)], files⟩
    | .ok (files, _) =>
        ⟨0, [.answer ("Created configuration file at: " ++ path),
          .answer "Edit this file to add rule sets, hosts tables and collect actions."], files⟩

/-- The lines that show settings. -/
def settingsLines (settings : Settings) : List Saying :=
  [.answer "Current Configuration:", .answer (String.ofList (List.replicate 50 '=')),
    .answer settings.render]

/-- The session before a host is built. -/
def preparedSession (p : Surroundings) (settings : Settings) : Session :=
  let (filter, remarks) := chosenFilter p.env settings.logging
  { engine := { files := p.files }, filter, said := remarks.map .remark }

/-- The configuration file of an invocation. -/
def Invocation.configPath (i : Invocation) : String := i.config.getD Settings.configFile

def Invocation.run (i : Invocation) (p : Surroundings) : Outcome :=
  let loaded (act : Settings → Session → Outcome) : Outcome :=
    match Settings.load p.files p.env i.configPath with
    | .error e => ⟨1, [.failed (.unloaded i.configPath e)], p.files⟩
    | .ok settings => act settings (preparedSession p settings)
  match i.command with
  | .init force => createConfig i.configPath force p.files
  | .config => loaded fun settings s => ⟨0, s.said ++ settingsLines settings, p.files⟩
  | .check tag key json => loaded fun settings s =>
      withHost settings s (·.check tag key json)
  | .collect tag name => loaded fun settings s => withHost settings s (·.collect tag name)
  | .watch => loaded fun settings s =>
      withHost settings s fun s => (.ok (), watchInput p s)

/-- What is said when there is no command to run. -/
def Stop.outcome (files : Files.Tree) : Stop → Outcome
  | .help topic => ⟨0, (Help.lines topic).map .answer, files⟩
  | .version => ⟨0, [.answer versionLine], files⟩
  | .usage e => ⟨2, [.remark e.report], files⟩

/-- The whole run. -/
def run (args : List String) (p : Surroundings) : Outcome :=
  match Invocation.parse args p.env with
  | .ok i => i.run p
  | .error stop => stop.outcome p.files

end LiveRules.CommandLine
