import LiveRules.Journal
import LiveRules.Watch.Debouncer
import LiveRules.Watch.Error
import LiveRules.Watch.PathSet

/-!
# Watchers

A watcher listens to the directories that hold its files. A file counts as
changed when it is made or written and, if asked for, when it is renamed; its
removal and changes of its attributes do not count. A directory is followed when
it moves, but what happens in it is still told under its first name.
-/
namespace LiveRules.Watch

/-- A directory that is listened to. -/
structure Listening where
  /-- The name under which it reports. -/
  name : String
  /-- Where it is now, if it still exists. -/
  place : Option Files.Location
  deriving DecidableEq, Repr

structure Watcher where
  name : String
  paths : PathSet
  includeRename : Bool := true
  debouncer : Debouncer
  listening : List Listening := []
  closed : Bool := false
  deriving DecidableEq, Repr

/-- What a new watcher is asked to do. -/
structure Request where
  name : String
  paths : List String
  debounce : Nat
  includeRename : Bool := true
  deriving DecidableEq, Repr

namespace Watcher

/-- Listens to directories in turn and tells of each; stops at the first that
fails. -/
def listen (files : Files.Tree) (name : String) :
    List String → List LogEvent × Except WatchError (List Listening)
  | [] => ([], .ok [])
  | dir :: dirs =>
      match files.resolve dir with
      | .error cause => ([], .error (.badDirectory dir cause))
      | .ok loc =>
          let event := LogEvent.note .debug .watcher name "watching" dir
          match listen files name dirs with
          | (events, .error e) => (event :: events, .error e)
          | (events, .ok ls) => (event :: events, .ok (⟨dir, some loc⟩ :: ls))

/-- A watcher of the files, or why there can be none, with what is told on the
way. -/
def start (files : Files.Tree) (request : Request) :
    List LogEvent × Except WatchError Watcher :=
  match PathSet.addAll files {} request.paths with
  | .error (path, cause) => ([], .error (.badPath path cause))
  | .ok paths =>
      if paths.paths.isEmpty then ([], .error (.noPaths request.name))
      else match listen files request.name paths.dirs with
        | (events, .error e) => (events, .error e)
        | (events, .ok listening) =>
            let told := LogEvent.note .info .watcher request.name "watching"
              (toString paths.paths.length ++ " files in "
                ++ toString paths.dirs.length ++ " directories")
            (events ++ [told],
              .ok { name := request.name, paths, includeRename := request.includeRename
                    debouncer := ⟨request.debounce, []⟩, listening })

/-- The paths under which something at a place is reported. -/
def reportsOf (w : Watcher) (loc : Files.Location) : List String :=
  match loc.getLast? with
  | none => []
  | some name =>
      (w.listening.filter fun l => l.place = some loc.dropLast).map fun l =>
        if l.name.endsWith "/" then l.name ++ name else l.name ++ "/" ++ name

/-- The paths that a change is about, if it is of a kind that counts. -/
def touched (w : Watcher) : Files.Change → List String
  | .created loc | .modified loc => w.reportsOf loc
  | .attributes _ | .removed _ => []
  | .moved source target =>
      if w.includeRename then w.reportsOf source ++ w.reportsOf target else []

/-- Where a place is after a change. -/
def placeAfter (change : Files.Change) (place : Files.Location) : Option Files.Location :=
  match change with
  | .removed loc => if place = loc then none else some place
  | .moved source target =>
      if !source.isEmpty && source.isPrefixOf place then
        some (target ++ place.drop source.length)
      else if place = target then none
      else some place
  | _ => some place

/-- Takes note of a change at a time. -/
def observe (w : Watcher) (now : Nat) (change : Files.Change) : Watcher :=
  if w.closed then w
  else
    let hits := (w.touched change).filter w.paths.contains
    { w with
      debouncer := hits.foldl (fun d p => d.record p now) w.debouncer
      listening := w.listening.map fun l =>
        { l with place := l.place.bind (placeAfter change) } }

/-- The changed paths that have settled; each of them asks for one reload. -/
def take (w : Watcher) (now : Nat) : List String × Watcher :=
  if w.closed then ([], w)
  else
    let (ready, debouncer) := w.debouncer.take now
    (ready, { w with debouncer })

/-- When the next change settles. -/
def deadline? (w : Watcher) : Option Nat :=
  if w.closed then none else w.debouncer.deadline?

/-- Stops for good. Only the first time is told. -/
def close (w : Watcher) : List LogEvent × Watcher :=
  if w.closed then ([], w)
  else ([.bare .debug .watcher w.name "watcher closed"],
    { w with closed := true, listening := [], debouncer := { w.debouncer with pending := [] } })

def inspect (w : Watcher) : String :=
  Text.record "ReloadWatcher" [("name", Text.quoted w.name),
    ("paths", Text.quotedList w.paths.paths), ("closed", toString w.closed)]

end Watcher
end LiveRules.Watch
