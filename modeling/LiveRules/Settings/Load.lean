import LiveRules.Files.Tree
import LiveRules.Settings.Decode
import LiveRules.Settings.Environment
import LiveRules.Toml.Document

/-!
# Loading and saving settings

Settings come in layers: the defaults, the configuration file, and the
environment. Tables of one layer are merged into those of the layer below key by
key; any other value replaces what was there.
-/
namespace LiveRules.Settings
open Toml

def configFile : String := "rulewatch.toml"

/-- Binds a key to a value, or merges the value with the bound one. -/
def putWith (join : Value → Value → Value) (key : String) (v : Value) :
    List (String × Value) → List (String × Value)
  | [] => [(key, v)]
  | e :: es => if e.1 = key then (key, join e.2 v) :: es else e :: putWith join key v es

/-- Lays one value over another. -/
def overlay (below : Value) : (above : Value) → Value
  | .table upper =>
      match below with
      | .table lower => .table (overlayEntries lower upper)
      | _ => .table upper
  | above => above
where
  /-- Lays entries over others, one after another. -/
  overlayEntries (lower : List (String × Value)) : List (String × Value) → List (String × Value)
    | [] => lower
    | (key, v) :: rest =>
        let joined := match lower.lookup key with
          | some old => overlay old v
          | none => v
        overlayEntries (putWith (fun _ v => v) key joined lower) rest

/-- The file that a path names: a relative one is looked for in the current
directory and then in those above it. -/
def findFile (files : Files.Tree) (path : String) : Option Files.Location :=
  let isFile (p : String) : Option Files.Location :=
    match files.reach true p with
    | .found loc (.file _) => some loc
    | _ => none
  if Files.isAbsolute path then isFile path
  else
    let above (n : Nat) : String :=
      let dir := files.cwd.take (files.cwd.length - n)
      if dir.isEmpty then "/" ++ path else Files.Location.text dir ++ "/" ++ path
    (List.range (files.cwd.length + 1)).findSome? fun n => isFile (above n)

/-- The layer of the configuration file; a missing file has an empty one. -/
def fileLayer (files : Files.Tree) (path : String) : Except SettingsError Value :=
  match findFile files path with
  | none => .ok (.table [])
  | some loc =>
      match files.readText loc.text with
      | .error _ => .error ⟨.unreadable, []⟩
      | .ok content =>
          match Document.parse? content with
          | some v => .ok v
          | none => .error ⟨.unreadable, []⟩

/-- The layer of the environment; later variables are laid over earlier ones. -/
def environmentLayer (env : List (String × String)) : Value :=
  env.foldl (fun below e =>
    match Environment.path? e.1 with
    | some path => overlay below (Environment.nested path (Environment.parse e.2))
    | none => below) (.table [])

def load (files : Files.Tree) (env : List (String × String)) (path : String) :
    Except SettingsError Settings := do
  let file ← fileLayer files path
  let base : Settings := {}
  Decode.settings [] (overlay (overlay (.table base.entries) file) (environmentLayer env))

/-- Why settings cannot be saved. -/
inductive SaveError where
  | failed (cause : Files.ReadError)
  | exists
  deriving DecidableEq, Repr

def SaveError.message : SaveError → String
  | failed cause => cause.message
  | .exists => "Configuration file already exists. Use --force to overwrite"

def save (s : Settings) (files : Files.Tree) (path : String) :
    Except SaveError (Files.Tree × List Files.Change) := do
  let (files, before) ← (files.makeParents path).mapError .failed
  let (files, after) ← (files.write path (.text s.render)).mapError .failed
  return (files, before ++ after)

/-- Commented plugins for a new configuration file. -/
def examplePlugins : String := "
# Plugins are built in the order they appear; a set can only reference
# tags declared above it.
#
# [[domain_set]]
# tag = \"ads\"
# exps = [\"domain:doubleclick.net\"]
# files = [\"/etc/rulewatch/ads.txt\"]
# auto_reload = true
#
# [[domain_set]]
# tag = \"blocked\"
# sets = [\"ads\"]
# files = [\"/var/lib/rulewatch/collected.txt\"]
# auto_reload = true
#
# [[ip_set]]
# tag = \"private\"
# ips = [\"10.0.0.0/8\", \"192.168.0.0/16\"]
#
# [[hosts]]
# tag = \"lan\"
# entries = [\"router.lan 192.168.1.1\"]
#
# [[collect_action]]
# tag = \"collect_blocked\"
# file_path = \"/var/lib/rulewatch/collected.txt\"
# format = \"full\"
# operation = \"add\"
"

/-- Writes a new configuration file with the defaults. -/
def initFile (files : Files.Tree) (path : String) (force : Bool) :
    Except SaveError (Files.Tree × List Files.Change) :=
  if !force && files.pathExists path then .error .exists
  else
    let base : Settings := {}
    (files.write path (.text (base.render ++ examplePlugins))).mapError .failed

end LiveRules.Settings
