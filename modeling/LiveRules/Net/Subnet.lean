import LiveRules.Net.Address.Text
import LiveRules.Text.Blank

/-!
# Subnets

A subnet fixes the first bits of an address. It keeps the bits after those as
they were written, but only the fixed ones decide which addresses it covers.
-/
namespace LiveRules.Net

/-- A subnet of addresses of `w` bits. -/
structure Subnet (w : Nat) where
  base : BitVec w
  length : Nat
  length_le : length ≤ w := by omega
  deriving DecidableEq, Repr

namespace Subnet
variable {w : Nat}

/-- How many bits of an address are free. -/
def free (n : Subnet w) : Nat := w - n.length

/-- The bits that every covered address starts with. -/
def fixed (n : Subnet w) (a : BitVec w) : Nat := a.toNat >>> n.free

def covers (n : Subnet w) (a : BitVec w) : Bool := n.fixed a = n.fixed n.base

/-- The lowest covered address, as a number. -/
def first (n : Subnet w) : Nat := n.fixed n.base <<< n.free

/-- The subnet of one address. -/
def single (a : BitVec w) : Subnet w := ⟨a, w, Nat.le_refl w⟩

end Subnet

/-- A subnet of either version. -/
inductive Network where
  | v4 (net : Subnet 32)
  | v6 (net : Subnet 128)
  deriving DecidableEq, Repr

namespace Network

def ofAddress : Address → Network
  | .v4 bits => v4 (.single bits)
  | .v6 bits => v6 (.single bits)

/-- The subnet of an address and a written length. -/
def ofParts? (address length : List Char) : Option Network := do
  match ← Address.parseWith .lenient address with
  | .v4 bits =>
      let n ← Address.boundedNumber 10 2 33 length
      if h : n ≤ 32 then return v4 ⟨bits, n, h⟩ else none
  | .v6 bits =>
      let n ← Address.boundedNumber 10 3 129 length
      if h : n ≤ 128 then return v6 ⟨bits, n, h⟩ else none

/-- An address with an optional length after a slash; alone it means the
subnet of that one address. -/
def parse? (s : String) : Option Network :=
  match Text.cutAt '/' s.toList with
  | some (address, length) => ofParts? address length
  | none => (Address.parse? s).map ofAddress

def render : Network → String
  | v4 n => Address.v4Text n.base ++ "/" ++ toString n.length
  | v6 n => Address.v6Text n.base ++ "/" ++ toString n.length

def covers : Network → Address → Bool
  | v4 n, .v4 a => n.covers a
  | v6 n, .v6 a => n.covers a
  | _, _ => false

end Network
end LiveRules.Net
