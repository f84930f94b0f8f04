/-!
# Groups of tables

A group publishes a list of members, each a table of its own or a live
reference to another group. Looking something up takes the first hit from the
left, where a reference stands for whatever its group publishes now. A snapshot
keeps one list of members, but its references stay live.
-/
namespace LiveRules

/-- A member of a group whose own tables are of type `L`. -/
inductive Member (L : Type) where
  | table (content : L)
  /-- A live reference to a group. -/
  | group (id : Nat)
  deriving DecidableEq, Repr

/-- What every group publishes now; a group's number is its place here. -/
structure Groups (L : Type) where
  published : List (List (Member L)) := []
  deriving Repr

namespace Groups
variable {L V : Type}

/-- A new group without members. -/
def create (gs : Groups L) : Groups L := ⟨gs.published ++ [[]]⟩

/-- The members published now. -/
def snapshot (gs : Groups L) (id : Nat) : List (Member L) := gs.published.getD id []

def publish (gs : Groups L) (id : Nat) (members : List (Member L)) : Groups L :=
  ⟨gs.published.set id members⟩

/-- The first hit among members, following references at most `depth` deep. -/
def findWithin (gs : Groups L) (probe : L → Option V) :
    (depth : Nat) → List (Member L) → Option V
  | _, [] => none
  | depth, .table content :: rest =>
      match probe content with
      | some v => some v
      | none => findWithin gs probe depth rest
  | 0, .group _ :: rest => findWithin gs probe 0 rest
  | depth + 1, .group id :: rest =>
      match findWithin gs probe depth (gs.snapshot id) with
      | some v => some v
      | none => findWithin gs probe (depth + 1) rest
  termination_by depth members => (depth, members.length)

/-- The first hit among members. References without a cycle are followed to
their end, because no chain of them is longer than the number of groups. -/
def findIn (gs : Groups L) (probe : L → Option V) (members : List (Member L)) : Option V :=
  gs.findWithin probe gs.published.length members

def find (gs : Groups L) (probe : L → Option V) (id : Nat) : Option V :=
  gs.findIn probe (gs.snapshot id)

end Groups
end LiveRules
