import LiveRules.Pattern.Case
import LiveRules.Text.Blank
import LiveRules.Text.Printable

/-!
# Sets of characters

What one position of a pattern accepts: ranges, the classes of Unicode, and
their unions, differences and complements. A set can be closed under changes
of case.
-/
namespace LiveRules.Pattern

inductive CharSet where
  | range (first last : Nat)
  | word
  | digit
  | blank
  | none
  | union (a b : CharSet)
  | inter (a b : CharSet)
  | complement (a : CharSet)
  /-- Everything that differs from an element at most in case. -/
  | caseless (a : CharSet)
  deriving DecidableEq, Repr

namespace CharSet

def has : CharSet → Nat → Bool
  | range first last, c => first ≤ c && c ≤ last
  | word, c => Text.isWord (Char.ofNat c)
  | digit, c => Text.isDigit (Char.ofNat c)
  | blank, c => Text.isBlank (Char.ofNat c)
  | none, _ => false
  | union a b, c => a.has c || b.has c
  | inter a b, c => a.has c && b.has c
  | complement a, c => !a.has c
  | caseless a, c => (caseVariants c).any a.has

def ofChar (c : Char) : CharSet := range c.toNat c.toNat

def ofRanges (rs : List (Char × Char)) : CharSet :=
  rs.foldl (fun s r => union s (range r.1.toNat r.2.toNat)) none

def difference (a b : CharSet) : CharSet := inter a (complement b)

def symmetricDifference (a b : CharSet) : CharSet :=
  union (difference a b) (difference b a)

/-- The ASCII classes that have a name between colons. -/
def named? : String → Option CharSet
  | "alnum" => some (ofRanges [('0', '9'), ('A', 'Z'), ('a', 'z')])
  | "alpha" => some (ofRanges [('A', 'Z'), ('a', 'z')])
  | "ascii" => some (range 0 0x7F)
  | "blank" => some (ofRanges [('\t', '\t'), (' ', ' ')])
  | "cntrl" => some (union (range 0 0x1F) (range 0x7F 0x7F))
  | "digit" => some (ofRanges [('0', '9')])
  | "graph" => some (ofRanges [('!', '~')])
  | "lower" => some (ofRanges [('a', 'z')])
  | "print" => some (ofRanges [(' ', '~')])
  | "punct" => some (ofRanges [('!', '/'), (':', '@'), ('[', '\x60'), ('\x7b', '~')])
  | "space" => some (union (range 9 13) (ofChar ' '))
  | "upper" => some (ofRanges [('A', 'Z')])
  | "word" => some (ofRanges [('0', '9'), ('A', 'Z'), ('_', '_'), ('a', 'z')])
  | "xdigit" => some (ofRanges [('0', '9'), ('A', 'F'), ('a', 'f')])
  | _ => Option.none

/-- About how much room a compiled set takes. -/
def weight : CharSet → Nat
  | range _ _ => 32
  | word => 50000
  | digit => 5000
  | blank => 600
  | none => 0
  | union a b => a.weight + b.weight
  | inter a b => min a.weight b.weight
  | complement a => a.weight + 200
  | caseless a => 2 * a.weight

end CharSet
end LiveRules.Pattern
