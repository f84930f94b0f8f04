import LiveRules.CommandLine.Run
import LiveRules.Pattern.Parser
import Std.Time.DateTime.Timestamp

/-!
# The program

The shell around a run. It copies the files that a run can touch into a tree,
prints what is said, and writes back what has changed. While lines are answered,
the tree, the clock and the disk are brought in line before each of them.
-/
namespace LiveRules.Shell
open CommandLine
open scoped Pattern

/-- The environment as the system keeps it, with a NUL after each variable. -/
def environment : IO (List (String × String)) := do
  try
    let bytes ← IO.FS.readBinFile "/proc/self/environ"
    let some text := String.fromUTF8? bytes | return []
    return (Text.pieces (Char.ofNat 0) text.toList).filterMap fun entry =>
      (Text.cutAt '=' entry).map fun e => (String.ofList e.1, String.ofList e.2)
  catch _ => return []

def contentAt (path : String) : IO (Option Files.Content) := do
  try
    return some (.ofBytes (← IO.FS.readBinFile path).toList)
  catch _ => return none

def currentLocation : IO Files.Location := do
  return Files.cleanPath [] (← IO.currentDir).toString

/-- The tree, or the one after a change that works. -/
def changed (t : Files.Tree)
    (r : Except Files.ReadError (Files.Tree × List Files.Change)) : Files.Tree :=
  (r.toOption.map (·.1)).getD t

/-- Copies a file, or the directory that could hold it, into a tree. -/
def copyIn (t : Files.Tree) (path : String) : IO Files.Tree := do
  let here ← IO.currentDir
  let known := match Files.parentPath? path with
    | some dir => do
        if ← (here / dir).isDir then return changed t (t.makePath dir) else return t
    | none => return t
  let t ← known
  match ← contentAt path with
  | some content => return changed t (t.write path content)
  | none => return t

/-- The places where a configuration file is looked for. -/
def configPlaces (here : Files.Location) (path : String) : List String :=
  if Files.isAbsolute path then [path]
  else (List.range (here.length + 1)).map fun n =>
    Files.Location.text (here.take (here.length - n) ++ Files.steps path)

/-- What a run can find, and the files that it may change. -/
def surroundings (i : Invocation) (env : List (String × String)) :
    IO (Surroundings × List String) := do
  let here ← currentLocation
  let start : Files.Tree := { cwd := here }
  let start := changed start (start.makePath here.text)
  let files ← (configPlaces here i.configPath).foldlM copyIn start
  let named := match Settings.load files env i.configPath with
    | .ok settings => settings.namedFiles
    | .error _ => []
  let files ← named.foldlM copyIn files
  return ({ files, env }, i.configPath :: named)

/-- Writes back the files that differ from what they were before. -/
def copyOut (paths : List String) (before after : Files.Tree) : IO Unit :=
  for path in paths do
    match (after.readContent path).toOption with
    | some content =>
        if (before.readContent path).toOption ≠ some content then
          try IO.FS.writeBinFile path ⟨content.toBytes.toArray⟩
          catch e => IO.eprintln e
    | none => pure ()

def clock : IO String := do
  let now ← Std.Time.Timestamp.now
  return LogEvent.clockText now.toMillisecondsSinceUnixEpoch.val.toNat

def print (said : List Saying) : IO Unit := do
  let time ← clock
  for saying in said do
    if let some line := saying.output? then IO.println line
    if let some line := saying.complaint? time then IO.eprintln line
  (← IO.getStdout).flush

def finish (paths : List String) (before : Files.Tree) (o : Outcome) : IO UInt32 := do
  print o.said
  copyOut paths before o.files
  return o.code.toUInt32

/-- Prints what a session has said, and forgets it. -/
def speak (s : Session) : IO Session := do
  print s.said
  return { s with said := [] }

/-- Takes over what has changed on the disk and lets the time since the last look
pass. -/
def refresh (paths : List String) (started : Nat) (s : Session) : IO Session := do
  let mut s := s
  for path in paths do
    let content ← contentAt path
    if content ≠ (s.engine.files.readContent path).toOption then
      let change := fun t : Files.Tree => match content with
        | some c => t.write path c
        | none => t.unlink path
      s := (s.work fun e => e.changeFiles change).2
  let now := (← IO.monoMsNow) - started
  return (s.work fun e => ((), e.pass (now - e.now))).2

/-- Answers lines until there are no more. -/
partial def answerLines (input : IO.FS.Stream) (paths : List String) (started : Nat)
    (s : Session) : IO Session := do
  let line ← input.getLine
  if line.isEmpty then return s
  let s ← refresh paths started s
  let next := s.takeLine line
  copyOut paths s.engine.files next.engine.files
  answerLines input paths started (← speak next)

/-- Answers lines while the plugins live. -/
def watch (i : Invocation) (p : Surroundings) (paths : List String) : IO UInt32 := do
  match Settings.load p.files p.env i.configPath with
  | .error e => finish [] p.files ⟨1, [.failed (.unloaded i.configPath e)], p.files⟩
  | .ok settings =>
      match (preparedSession p settings).start settings with
      | (.error e, s) => finish [] p.files (.ofSession (.error (.unbuilt e)) s)
      | (.ok _, s) =>
          let started ← IO.monoMsNow
          let s ← speak s.beginWatch
          let s ← answerLines (← IO.getStdin) paths started s
          finish paths s.engine.files (.ofSession (.ok ()) s.endWatch.close)

end LiveRules.Shell

open LiveRules LiveRules.Shell LiveRules.CommandLine in
open scoped LiveRules.Pattern in
def main (args : List String) : IO UInt32 := do
  let env ← environment
  match Invocation.parse args env with
  | .error stop => finish [] {} (stop.outcome {})
  | .ok i =>
      let (p, paths) ← surroundings i env
      if i.command = .watch then watch i p paths
      else finish paths p.files (i.run p)
