import LiveRules.Net.Subnet

/-!
# Sets of addresses

Subnets are nested or disjoint, so sorting them by their lowest address and
dropping those inside an earlier one leaves a sorted list of disjoint subnets
that covers the same addresses. Looking an address up then needs one subnet:
the last that starts at or before it.
-/
namespace LiveRules.Net

namespace Subnet
variable {w : Nat}

/-- Wider subnets come first among those that start together. -/
def precedes (m n : Subnet w) : Bool :=
  m.first < n.first || (m.first = n.first && m.length ≤ n.length)

/-- Keeps the subnets that do not lie in the one kept before; `last` is that
one. -/
def outermost : Option (Subnet w) → List (Subnet w) → List (Subnet w)
  | _, [] => []
  | none, n :: ns => n :: outermost (some n) ns
  | some last, n :: ns =>
      if last.covers n.base then outermost (some last) ns
      else n :: outermost (some n) ns

/-- Sorted disjoint subnets that cover what `ns` covers. -/
def aggregate (ns : List (Subnet w)) : List (Subnet w) :=
  outermost none (ns.mergeSort precedes)

/-- The last subnet that starts at or before an address. -/
def lastUpTo (a : BitVec w) (ns : List (Subnet w)) : Option (Subnet w) :=
  (ns.takeWhile fun n => n.first ≤ a.toNat).getLast?

def search (a : BitVec w) (ns : List (Subnet w)) : Bool :=
  (lastUpTo a ns).any (·.covers a)

end Subnet

/-- Sorted disjoint subnets of both versions, and how many there were before
they were aggregated. -/
structure AddressSet where
  v4 : List (Subnet 32) := []
  v6 : List (Subnet 128) := []
  size : Nat := 0
  deriving DecidableEq, Repr

namespace AddressSet

def v4Nets (ns : List Network) : List (Subnet 32) :=
  ns.filterMap fun n => match n with
    | .v4 n => some n
    | .v6 _ => none

def v6Nets (ns : List Network) : List (Subnet 128) :=
  ns.filterMap fun n => match n with
    | .v6 n => some n
    | .v4 _ => none

def ofList (ns : List Network) : AddressSet :=
  ⟨Subnet.aggregate (v4Nets ns), Subnet.aggregate (v6Nets ns), ns.length⟩

/-- A mapped version 4 address is looked up as the one it stands for. -/
def contains (s : AddressSet) : Address → Bool
  | .v4 a => Subnet.search a s.v4
  | .v6 a =>
      match Address.unmapped? a with
      | some mapped => Subnet.search mapped s.v4
      | none => Subnet.search a s.v6

end AddressSet
end LiveRules.Net
