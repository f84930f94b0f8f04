import LiveRules.CommandLine.Failure
import LiveRules.Host.Line
import LiveRules.Journal.Filter
import LiveRules.Journal.Line
import LiveRules.Text.Json

/-!
# Sessions

A session asks a host and keeps what is said meanwhile, in order: answers go to
the output, everything else to the error output. Events of the journal are said
when the filter shows them.
-/
namespace LiveRules.CommandLine

inductive Saying where
  | answer (line : String)
  | remark (line : String)
  | log (e : LogEvent)
  | failed (f : Failure)
  deriving Repr

namespace Saying

/-- The line for the output. -/
def output? : Saying → Option String
  | answer line => some line
  | remark _ | log _ | failed _ => none

/-- The line for the error output, written at some time. -/
def complaint? (time : String) : Saying → Option String
  | answer _ => none
  | remark line => some line
  | log e => some (e.line time)
  | failed f => some f.text

end Saying

structure Session [PatternLanguage] where
  engine : Engine
  host : Host := {}
  filter : LogFilter := {}
  said : List Saying := []

namespace Session
variable [PatternLanguage]

/-- Says what the journal holds and empties it. -/
def hear (s : Session) : Session :=
  let shown := (s.engine.journal.filter s.filter.allows).map Saying.log
  { s with said := s.said ++ shown, engine := { s.engine with journal := [] } }

def say (s : Session) (saying : Saying) : Session := { s with said := s.said ++ [saying] }

/-- Works on the engine and says what the journal tells about it. -/
def work {α : Type} (s : Session) (act : Engine → α × Engine) : α × Session :=
  let (a, engine) := act s.engine
  (a, { s with engine }.hear)

/-- Builds the host. -/
def start (s : Session) (settings : Settings) : Except Fault Unit × Session :=
  match s.work (Host.build settings) with
  | (.ok host, s) => (.ok (), { s with host })
  | (.error e, s) => (.error e, s)

def close (s : Session) : Session := (s.work fun e => ((), s.host.close e)).2

def ask (s : Session) (tag key : String) : Except AskError String × Session :=
  s.work (s.host.ask [] tag key)

/-- The answer to one question as an object. -/
def answerObject (tag key result : String) : String :=
  Text.jsonObject [("key", key), ("result", result), ("tag", tag)]

def check (s : Session) (tag key : String) (json : Bool) : Except AskError Unit × Session :=
  match s.ask tag key with
  | (.ok result, s) =>
      (.ok (), s.say (.answer (if json then answerObject tag key result else result)))
  | (.error e, s) => (.error e, s)

def collect (s : Session) (tag name : String) : Except AskError Unit × Session :=
  match s.work (s.host.collect tag name) with
  | (.ok result, s) => (.ok (), s.say (.answer result))
  | (.error e, s) => (.error e, s)

/-- Announces that lines are answered from now on. -/
def beginWatch (s : Session) : Session :=
  let tags := s.engine.registry.tags
  let started := LogEvent.note .info .watchCommand "watch" "started" (", ".intercalate tags)
  (s.work fun e => ((), e.tell [started])).2.say (.remark
    ("Watching " ++ toString tags.length ++
      " plugins. Enter \x60<tag> <key>\x60 lines, Ctrl-C to stop."))

/-- Answers a line of input. -/
def takeLine (s : Session) (line : String) : Session :=
  match QueryLine.parse line with
  | .nothing => s
  | .malformed line => s.say (.remark (QueryLine.complaint line))
  | .ask tag key =>
      let about := tag ++ " " ++ key ++ ": "
      match s.ask tag key with
      | (.ok reply, s) => s.say (.answer (about ++ reply))
      | (.error e, s) => s.say (.remark (about ++ e.message))

def endWatch (s : Session) : Session :=
  (s.work fun e => ((), e.tell [.bare .info .watchCommand "watch" "stopped"])).2

end Session
end LiveRules.CommandLine
