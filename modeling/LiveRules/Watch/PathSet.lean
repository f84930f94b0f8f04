import LiveRules.Files.Tree

/-!
# Watched paths

The paths that a watcher reports on, in the order they were added and in their
first spelling, with the directories that have to be watched for them.
-/
namespace LiveRules.Watch

/-- The first spelling of each path stays. -/
structure PathSet where
  paths : List String := []
  deriving DecidableEq, Repr

namespace PathSet

def contains (s : PathSet) (path : String) : Bool := s.paths.any (Files.samePath path)

def insert (s : PathSet) (path : String) : PathSet :=
  if s.contains path then s else ⟨s.paths ++ [path]⟩

/-- Inserts into a sorted list, unless the same path is in it. -/
def insertSorted (dir : String) : List String → List String
  | [] => [dir]
  | d :: ds =>
      if Files.samePath d dir then d :: ds
      else if Files.pathBefore dir d then dir :: d :: ds
      else d :: insertSorted dir ds

/-- The directories that hold the paths, sorted. -/
def dirs (s : PathSet) : List String :=
  (s.paths.filterMap Files.parentPath?).foldl (fun ds d => insertSorted d ds) []

/-- Adds the canonical places of paths; otherwise the path without one and why
it has none. -/
def addAll (files : Files.Tree) (s : PathSet) :
    List String → Except (String × Files.ReadError) PathSet
  | [] => .ok s
  | p :: ps =>
      match files.canonical p with
      | .ok loc => addAll files (s.insert loc.text) ps
      | .error cause => .error (p, cause)

end PathSet
end LiveRules.Watch
