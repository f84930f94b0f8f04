import LiveRules.Text.Lines

/-!
# Paths

A path is a text. Two paths are the same when they have the same components;
repeated slashes, a closing slash and dots after the first component make no
component. A location is the list of names that leads from the root to a place.
-/
namespace LiveRules.Files

abbrev Location := List String

namespace Location

def text (loc : Location) : String := "/" ++ "/".intercalate loc

/-- The directory that holds a place; the root holds itself. -/
def parent (loc : Location) : Location := loc.dropLast

end Location

inductive Component where
  | root
  | here
  | up
  | name (s : String)
  deriving DecidableEq, Repr

namespace Component

/-- The order of components; names are last and in code point order. -/
def rank : Component → Nat × String
  | root => (0, "")
  | here => (1, "")
  | up => (2, "")
  | name s => (3, s)

def before (a b : Component) : Bool :=
  a.rank.1 < b.rank.1 || (a.rank.1 = b.rank.1 && a.rank.2 < b.rank.2)

end Component

/-- The pieces between slashes. -/
def segments (path : String) : List String :=
  (Text.pieces '/' path.toList).map .ofList

def isAbsolute (path : String) : Bool := path.toList.head? = some '/'

/-- Components of the segments after the first. -/
def laterComponents (segs : List String) : List Component :=
  segs.filterMap fun s =>
    if s = "" || s = "." then none
    else if s = ".." then some .up
    else some (.name s)

def components (path : String) : List Component :=
  match segments path with
  | [] => []
  | first :: rest =>
      if isAbsolute path then .root :: laterComponents rest
      else if first = "." then .here :: laterComponents rest
      else laterComponents (first :: rest)

def samePath (a b : String) : Bool := components a = components b

/-- Lexicographic order of component lists. -/
def componentsBefore : List Component → List Component → Bool
  | [], [] => false
  | [], _ :: _ => true
  | _ :: _, [] => false
  | a :: as, b :: bs => a.before b || (a = b && componentsBefore as bs)

def pathBefore (a b : String) : Bool :=
  componentsBefore (components a) (components b)

/-- Drops what makes no component from the end of reversed segments. -/
def dropIdle : List String → List String :=
  List.dropWhile fun s => s = "" || s = "."

/-- The path of the holding directory, spelled as in `path`; the root and the
empty path have none. -/
def parentPath? (path : String) : Option String :=
  match components path with
  | [] => none
  | [.root] => none
  | [.here] => some ""
  | comps =>
      let lead := if comps.head? = some .root then "/" else
        if comps.head? = some .here then "./" else ""
      let body := (segments path).drop (if lead = "" then 0 else 1)
      let kept := dropIdle ((dropIdle body.reverse).drop 1)
      if kept.isEmpty then
        some (if lead = "./" then "." else lead)
      else some (lead ++ "/".intercalate kept.reverse)

/-- Removes the last name; the root stays. -/
def cleanFrom (loc : Location) : List Component → Location
  | [] => loc
  | .root :: cs => cleanFrom [] cs
  | .here :: cs => cleanFrom loc cs
  | .up :: cs => cleanFrom loc.dropLast cs
  | .name s :: cs => cleanFrom (loc ++ [s]) cs

/-- The location that a path spells, taken from `cwd` when it is relative; dots
are resolved by the text alone. -/
def cleanPath (cwd : Location) (path : String) : Location :=
  cleanFrom cwd (components path)

/-- The names to walk through; a closing slash asks for a directory. -/
def steps (path : String) : List String :=
  let names := (segments path).filter (· ≠ "")
  if path.endsWith "/" then names ++ ["."] else names

end LiveRules.Files
