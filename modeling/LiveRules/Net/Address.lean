/-!
# Internet addresses

An address is the number that its bits spell. A version 6 address whose first
ten bytes are zero and whose next two are all ones stands for the version 4
address in its last four bytes.
-/
namespace LiveRules.Net

inductive Address where
  | v4 (bits : BitVec 32)
  | v6 (bits : BitVec 128)
  deriving DecidableEq, Repr

namespace Address

def isV4 : Address → Bool
  | v4 _ => true
  | v6 _ => false

/-- The version 4 address that a version 6 one stands for. -/
def unmapped? (bits : BitVec 128) : Option (BitVec 32) :=
  if bits >>> 32 = 0xffff#128 then some (bits.setWidth 32) else none

/-- The bytes of a version 4 address, first one first. -/
def octets (bits : BitVec 32) : List Nat :=
  [24, 16, 8, 0].map fun k => bits.toNat >>> k % 256

/-- The sixteen-bit groups of a version 6 address, first one first. -/
def groups (bits : BitVec 128) : List Nat :=
  [112, 96, 80, 64, 48, 32, 16, 0].map fun k => bits.toNat >>> k % 65536

def ofOctets (os : List Nat) : BitVec 32 :=
  BitVec.ofNat 32 (os.foldl (fun n o => n * 256 + o) 0)

def ofGroups (gs : List Nat) : BitVec 128 :=
  BitVec.ofNat 128 (gs.foldl (fun n g => n * 65536 + g) 0)

end Address
end LiveRules.Net
