import LiveRules.Net.Address
import LiveRules.Text.Lines
import LiveRules.Text.Inspect

/-!
# Written addresses

Version 4 addresses are four decimal numbers with dots between them. Version 6
addresses are groups of one to four hexadecimal digits with colons between
them; a double colon stands for the groups left out, and the last two groups
may be a version 4 address. Printing picks the shortest form: lower case, no
leading zeros, the first longest run of two or more zero groups left out, and
a mapped version 4 address with dots.
-/
namespace LiveRules.Net.Address

/-- How strictly a text has to spell an address. -/
structure Spelling where
  /-- Decimal numbers may start with zeros, up to three digits. -/
  leadingZeros : Bool
  /-- A double colon may stand between eight groups already there. -/
  emptyGap : Bool

/-- A lone address. -/
def Spelling.strict : Spelling := ⟨false, false⟩

/-- The address of a subnet. -/
def Spelling.lenient : Spelling := ⟨true, true⟩

/-- The number that digits spell in a base of at most sixteen. -/
def digitsValue (base : Nat) : List Char → Option Nat
  | cs => cs.foldl (fun n c => do
      let d ←
        if '0' ≤ c ∧ c ≤ '9' then some (c.toNat - '0'.toNat)
        else if 'a' ≤ c ∧ c ≤ 'f' then some (c.toNat - 'a'.toNat + 10)
        else if 'A' ≤ c ∧ c ≤ 'F' then some (c.toNat - 'A'.toNat + 10)
        else none
      if d < base then return (← n) * base + d else none) (some 0)

/-- A number of at most `width` digits that stays below `bound`. -/
def boundedNumber (base width bound : Nat) (cs : List Char) : Option Nat :=
  if cs.isEmpty || width < cs.length then none
  else (digitsValue base cs).filter (· < bound)

def octet? (how : Spelling) (cs : List Char) : Option Nat :=
  if !how.leadingZeros && 1 < cs.length && cs.head? = some '0' then none
  else boundedNumber 10 3 256 cs

def octets? (how : Spelling) (cs : List Char) : Option (List Nat) :=
  match (Text.pieces '.' cs).mapM (octet? how) with
  | some [a, b, c, d] => some [a, b, c, d]
  | _ => none

/-- The groups of the pieces between colons; the last piece may be dotted. -/
def groupPieces (how : Spelling) : List (List Char) → Option (List Nat)
  | [] => some []
  | [last] =>
      match boundedNumber 16 4 65536 last with
      | some g => some [g]
      | none => do
          match ← octets? how last with
          | [a, b, c, d] => some [a * 256 + b, c * 256 + d]
          | _ => none
  | piece :: rest => do
      let g ← boundedNumber 16 4 65536 piece
      return g :: (← groupPieces how rest)

/-- The groups of one side of a double colon. -/
def groups? (how : Spelling) (cs : List Char) : Option (List Nat) :=
  if cs.isEmpty then some [] else groupPieces how (Text.pieces ':' cs)

/-- The texts on either side of the first double colon. -/
def cutAtGap : List Char → Option (List Char × List Char)
  | ':' :: ':' :: cs => some ([], cs)
  | [] => none
  | c :: cs => (cutAtGap cs).map fun p => (c :: p.1, p.2)

def v6Groups? (how : Spelling) (cs : List Char) : Option (List Nat) :=
  match cutAtGap cs with
  | none => (groups? how cs).filter (·.length = 8)
  | some (before, after) => do
      if before.contains '.' then none
      let head ← groups? how before
      let tail ← groups? how after
      let used := head.length + tail.length
      if used < 8 || (used = 8 && how.emptyGap && head.length < 8) then
        return head ++ List.replicate (8 - used) 0 ++ tail
      else none

def parseWith (how : Spelling) (cs : List Char) : Option Address :=
  match octets? how cs with
  | some os => some (.v4 (ofOctets os))
  | none => (v6Groups? how cs).map fun gs => .v6 (ofGroups gs)

def parse? (s : String) : Option Address := parseWith .strict s.toList

/-- What is wrong with a text that is no address. -/
def syntaxMessage : String := "invalid IP address syntax"

def v4Text (bits : BitVec 32) : String :=
  ".".intercalate ((octets bits).map toString)

/-- How many zeros a list starts with. -/
def zeroRun (gs : List Nat) : Nat := (gs.takeWhile (· = 0)).length

/-- Start and length of the first longest run of zeros. -/
def longestZeros : List Nat → Nat × Nat
  | [] => (0, 0)
  | g :: gs =>
      let here := zeroRun (g :: gs)
      let later := longestZeros gs
      if later.2 ≤ here then (0, here) else (later.1 + 1, later.2)

def groupsText (gs : List Nat) : String := ":".intercalate (gs.map Text.hexDigits)

def v6Text (bits : BitVec 128) : String :=
  match unmapped? bits with
  | some mapped => "::ffff:" ++ v4Text mapped
  | none =>
      let gs := groups bits
      let run := longestZeros gs
      if 2 ≤ run.2 then
        groupsText (gs.take run.1) ++ "::" ++ groupsText (gs.drop (run.1 + run.2))
      else groupsText gs

def render : Address → String
  | v4 bits => v4Text bits
  | v6 bits => v6Text bits

end LiveRules.Net.Address
