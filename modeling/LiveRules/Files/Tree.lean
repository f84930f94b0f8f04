import LiveRules.Files.Error
import LiveRules.Files.Path

/-!
# A tree of files

Directories, files, symbolic links and named pipes by location. Walking a path
follows links, at most forty of them. Reading and changing the tree fail with
the causes an operating system gives; every change says what a watcher of the
directory would be told.
-/
namespace LiveRules.Files

/-- The bytes of a file: a text, or bytes that spell none. -/
inductive Content where
  | text (s : String)
  | bytes (bs : List UInt8)
  deriving DecidableEq, Repr

namespace Content

def ofBytes (bs : List UInt8) : Content :=
  match String.fromUTF8? ⟨bs.toArray⟩ with
  | some s => text s
  | none => bytes bs

def toBytes : Content → List UInt8
  | text s => s.toUTF8.toList
  | bytes bs => bs

/-- Bytes that spell no text spell none either when a text follows them. -/
def append (c : Content) (s : String) : Content :=
  match c with
  | text t => text (t ++ s)
  | bytes bs => bytes (bs ++ s.toUTF8.toList)

end Content

inductive Node where
  | directory
  | file (content : Content)
  | link (target : String)
  | pipe (id : Nat)
  deriving DecidableEq, Repr

/-- A named pipe: whether anyone reads it, and what has come through. -/
structure Pipe where
  reading : Bool := false
  received : String := ""
  deriving DecidableEq, Repr

/-- What the watcher of a directory is told about a place in it. -/
inductive Change where
  | created (loc : Location)
  | modified (loc : Location)
  | attributes (loc : Location)
  | removed (loc : Location)
  | moved (source target : Location)
  deriving DecidableEq, Repr

structure Tree where
  nodes : List (Location × Node) := []
  pipes : List Pipe := []
  /-- The current directory. -/
  cwd : Location := []
  deriving DecidableEq, Repr

/-- Where walking a path ends. -/
inductive Reached where
  | found (loc : Location) (node : Node)
  /-- Nothing is there, but the directory that would hold it exists. -/
  | missing (loc : Location)
  | failed (cause : ReadError)
  deriving DecidableEq, Repr

namespace Tree

/-- The root is a directory. -/
def get? (t : Tree) (loc : Location) : Option Node :=
  if loc.isEmpty then some .directory else t.nodes.lookup loc

def set (t : Tree) (loc : Location) (node : Node) : Tree :=
  { t with nodes := (loc, node) :: t.nodes.filter (·.1 ≠ loc) }

def erase (t : Tree) (loc : Location) : Tree :=
  { t with nodes := t.nodes.filter (·.1 ≠ loc) }

/-- How many links one walk may follow. -/
def linkLimit : Nat := 40

/-- Walks the names `todo` from the directory `here`. The last name is followed
through a link only if `follow` says so. -/
def walk (t : Tree) (follow : Bool) (budget : Nat) (here : Location) :
    (todo : List String) → Reached
  | [] => .found here .directory
  | "." :: rest => walk t follow budget here rest
  | ".." :: rest => walk t follow budget here.dropLast rest
  | name :: rest =>
      let loc := here ++ [name]
      match t.get? loc with
      | none => if rest.isEmpty then .missing loc else .failed .notFound
      | some .directory => walk t follow budget loc rest
      | some (.link target) =>
          if rest.isEmpty && !follow then .found loc (.link target)
          else match budget with
            | 0 => .failed .linkLoop
            | budget + 1 =>
                if target.isEmpty then .failed .notFound
                else
                  let start := if isAbsolute target then [] else here
                  walk t follow budget start (steps target ++ rest)
      | some node => if rest.isEmpty then .found loc node else .failed .notDirectory
  termination_by todo => (budget, todo.length)

def reach (t : Tree) (follow : Bool) (path : String) : Reached :=
  if path.isEmpty then .failed .notFound
  else if path.toList.contains (Char.ofNat 0) then .failed .nulByte
  else walk t follow linkLimit (if isAbsolute path then [] else t.cwd) (steps path)

/-- The place of an existing path, with all links followed. -/
def resolve (t : Tree) (path : String) : Except ReadError Location :=
  match t.reach true path with
  | .found loc _ => .ok loc
  | .missing _ => .error .notFound
  | .failed cause => .error cause

def pathExists (t : Tree) (path : String) : Bool := (t.resolve path).toOption.isSome

def readContent (t : Tree) (path : String) : Except ReadError Content :=
  match t.reach true path with
  | .found _ (.file content) => .ok content
  | .found _ .directory => .error .isDirectory
  | .found _ _ => .ok (.text "")
  | .missing _ => .error .notFound
  | .failed cause => .error cause

def readText (t : Tree) (path : String) : Except ReadError String :=
  match t.readContent path with
  | .ok (.text s) => .ok s
  | .ok (.bytes _) => .error .notUtf8
  | .error cause => .error cause

/-- Replaces the content of a file, or makes it. -/
def write (t : Tree) (path : String) (content : Content) :
    Except ReadError (Tree × List Change) :=
  match t.reach true path with
  | .found _ .directory => .error .isDirectory
  | .found loc _ => .ok (t.set loc (.file content), [.modified loc])
  | .missing loc => .ok (t.set loc (.file content), [.created loc, .modified loc])
  | .failed cause => .error cause

/-- Whether an append to the path waits for a reader. -/
def appendWaits (t : Tree) (path : String) : Bool :=
  match t.reach true path with
  | .found _ (.pipe id) => (t.pipes[id]?.map (!·.reading)).getD false
  | _ => false

/-- Adds text at the end of a file, or makes it. Into a pipe it goes to the
reader. -/
def append (t : Tree) (path text : String) : Except ReadError (Tree × List Change) :=
  match t.reach true path with
  | .found _ .directory => .error .isDirectory
  | .found loc (.file content) =>
      .ok (t.set loc (.file (content.append text)), [.modified loc])
  | .found _ (.pipe id) =>
      .ok ({ t with pipes := t.pipes.modify id fun p =>
        { p with received := p.received ++ text } }, [])
  | .found loc (.link _) => .ok (t, [.modified loc])
  | .missing loc =>
      .ok (t.set loc (.file (.text text)), [.created loc, .modified loc])
  | .failed cause => .error cause

/-- Puts a whole new file in place of whatever file or link has the path. -/
def replace (t : Tree) (path text : String) : Except ReadError (Tree × List Change) :=
  match t.reach false path with
  | .found _ .directory => .error .isDirectory
  | .found loc _ => .ok (t.set loc (.file (.text text)), [.moved [] loc])
  | .missing loc => .ok (t.set loc (.file (.text text)), [.moved [] loc])
  | .failed cause => .error cause

/-- Makes a directory and the ones above it that are missing. -/
def makeDirectories (t : Tree) (here : Location) :
    (names : List String) → Except ReadError (Tree × List Change)
  | [] => .ok (t, [])
  | name :: rest =>
      match t.walk true linkLimit here [name] with
      | .found loc .directory => makeDirectories t loc rest
      | .found _ _ => .error .inTheWay
      | .missing loc => do
          let (t, changes) ← makeDirectories (t.set loc .directory) loc rest
          .ok (t, .created loc :: changes)
      | .failed cause => .error cause

def makePath (t : Tree) (path : String) : Except ReadError (Tree × List Change) :=
  t.makeDirectories (if isAbsolute path then [] else t.cwd) (steps path)

/-- Makes the directories above a path. -/
def makeParents (t : Tree) (path : String) : Except ReadError (Tree × List Change) :=
  match parentPath? path with
  | some parent => if parent.isEmpty then .ok (t, []) else t.makePath parent
  | none => .ok (t, [])

def makeLink (t : Tree) (path target : String) : Except ReadError (Tree × List Change) :=
  match t.reach false path with
  | .missing loc => .ok (t.set loc (.link target), [.created loc])
  | .found _ _ => .error .inTheWay
  | .failed cause => .error cause

def unlink (t : Tree) (path : String) : Except ReadError (Tree × List Change) :=
  match t.reach false path with
  | .found _ .directory => .error .isDirectory
  | .found loc _ => .ok (t.erase loc, [.removed loc])
  | .missing _ => .error .notFound
  | .failed cause => .error cause

/-- Removes a directory with everything below it. -/
def removeTree (t : Tree) (path : String) : Except ReadError (Tree × List Change) :=
  match t.reach false path with
  | .found loc .directory =>
      .ok ({ t with nodes := t.nodes.filter fun n => !loc.isPrefixOf n.1 },
        (t.nodes.filter fun n => loc.isPrefixOf n.1).map fun n => .removed n.1)
  | .found loc (.link _) => .ok (t.erase loc, [.removed loc])
  | .found _ _ => .error .notDirectory
  | .missing _ => .error .notFound
  | .failed cause => .error cause

/-- The names in a directory. -/
def names (t : Tree) (loc : Location) : List String :=
  t.nodes.filterMap fun n =>
    if n.1.dropLast = loc then n.1.getLast? else none

/-- Moves everything at `source` to `target`. -/
def relocate (t : Tree) (source target : Location) : Tree :=
  { t with nodes := t.nodes.map fun n =>
      if source.isPrefixOf n.1 then (target ++ n.1.drop source.length, n.2) else n }

/-- Renames a place; a file takes the place of a file, a directory that of an
empty directory. -/
def rename (t : Tree) (source target : String) : Except ReadError (Tree × List Change) :=
  match t.reach false source, t.reach false target with
  | .found src node, .found dst old =>
      if src = dst then .ok (t, [])
      else match decide (node = .directory), decide (old = .directory) with
        | true, true =>
            if (t.names dst).isEmpty && !src.isPrefixOf dst then
              .ok ((t.erase dst).relocate src dst, [.moved src dst])
            else .error .inTheWay
        | false, true => .error .isDirectory
        | true, false => .error .notDirectory
        | false, false => .ok ((t.erase dst).relocate src dst, [.moved src dst])
  | .found src _, .missing dst =>
      if src.isPrefixOf dst then .error .inTheWay
      else .ok (t.relocate src dst, [.moved src dst])
  | .failed cause, _ => .error cause
  | _, .failed cause => .error cause
  | .missing _, _ => .error .notFound

def touchAttributes (t : Tree) (path : String) : Except ReadError (Tree × List Change) :=
  match t.resolve path with
  | .ok loc => .ok (t, [.attributes loc])
  | .error cause => .error cause

/-- Puts a pipe that nobody reads in place of a file. -/
def placePipe (t : Tree) (path : String) : Except ReadError (Tree × List Change) :=
  match t.reach false path with
  | .found _ .directory => .error .isDirectory
  | .found loc _ | .missing loc =>
      .ok ({ t.set loc (.pipe t.pipes.length) with pipes := t.pipes ++ [{}] },
        [.removed loc, .created loc])
  | .failed cause => .error cause

/-- Someone starts to read a pipe. -/
def readPipe (t : Tree) (id : Nat) : Tree :=
  { t with pipes := t.pipes.modify id fun p => { p with reading := true } }

/-- The absolute place of a path. An existing path is resolved through its
links. Of any other the directory is resolved if it exists, after the dots of
the path have been cleaned up by its text. -/
def canonical (t : Tree) (path : String) : Except ReadError Location :=
  match t.resolve path with
  | .ok loc => .ok loc
  | .error _ =>
      if path.isEmpty then .error .emptyPath
      else
        let clean := cleanPath t.cwd path
        match clean.getLast? with
        | none => .ok clean
        | some name =>
            match t.resolve (Location.text clean.dropLast) with
            | .ok dir => .ok (dir ++ [name])
            | .error _ => .ok clean

end Tree
end LiveRules.Files
