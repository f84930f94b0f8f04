import LiveRules.Pattern.CharSet

/-!
# Patterns and where they match

A pattern is a regular expression without captures: which of several matches is
preferred makes no difference to whether there is one. Running a pattern over a
text turns the set of positions where it may start into the set of positions
where it may end; a set of positions is the number with those bits.
-/
namespace LiveRules

/-- A condition on a position between two characters. -/
inductive Pattern.Anchor where
  | textStart
  | textEnd
  | lineStart
  | lineEnd
  | wordEdge
  | notWordEdge
  | wordStart
  | wordEnd
  | wordStartHalf
  | wordEndHalf
  /-- The edges of words of ASCII characters only. -/
  | plainWordEdge
  | plainNotWordEdge
  deriving DecidableEq, Repr

/-- A regular expression. -/
inductive Pattern where
  | empty
  | chars (set : Pattern.CharSet)
  | anchor (a : Pattern.Anchor)
  | seq (p q : Pattern)
  | alt (p q : Pattern)
  /-- At least `min` and at most `max` matches in a row. -/
  | repeated (p : Pattern) (min : Nat) (max : Option Nat)
  deriving DecidableEq, Repr

namespace Pattern

/-- The number whose bits are the positions below `n` where `f` holds. -/
def bitsWhere (f : Nat → Bool) : Nat → Nat
  | 0 => 0
  | n + 1 => if f n then bitsWhere f n ||| 1 <<< n else bitsWhere f n

/-- Whether the character at a position is in a set. -/
def hasAt (text : Array Char) (set : CharSet) (i : Nat) : Bool :=
  text[i]?.any fun c => set.has c.toNat

/-- Whether the character before a position is in a set. -/
def hasBefore (text : Array Char) (set : CharSet) (i : Nat) : Bool :=
  0 < i && hasAt text set (i - 1)

def plainWord : CharSet := (CharSet.named? "word").getD .none

def Anchor.holds (text : Array Char) (i : Nat) : Anchor → Bool
  | textStart => i = 0
  | textEnd => i = text.size
  | lineStart => i = 0 || hasBefore text (.ofChar '\n') i
  | lineEnd => i = text.size || hasAt text (.ofChar '\n') i
  | wordEdge => hasBefore text .word i != hasAt text .word i
  | notWordEdge => hasBefore text .word i == hasAt text .word i
  | wordStart => !hasBefore text .word i && hasAt text .word i
  | wordEnd => hasBefore text .word i && !hasAt text .word i
  | wordStartHalf => !hasBefore text .word i
  | wordEndHalf => !hasAt text .word i
  | plainWordEdge => hasBefore text plainWord i != hasAt text plainWord i
  | plainNotWordEdge => hasBefore text plainWord i == hasAt text plainWord i

/-- `f` applied `n` times. -/
def times (f : Nat → Nat) : Nat → Nat → Nat
  | 0, r => r
  | n + 1, r => if r = 0 then 0 else times f n (f r)

/-- What `f` reaches when it is applied at most `n` times. -/
def within (f : Nat → Nat) : Nat → Nat → Nat
  | 0, r => r
  | n + 1, r =>
      let next := r ||| f r
      if next = r then r else within f n next

/-- The positions where a match that starts in `starts` may end. -/
def run (text : Array Char) : Pattern → Nat → Nat
  | empty, starts => starts
  | chars set, starts => (starts &&& bitsWhere (hasAt text set) text.size) <<< 1
  | anchor a, starts => starts &&& bitsWhere (fun i => a.holds text i) (text.size + 1)
  | seq p q, starts => run text q (run text p starts)
  | alt p q, starts => run text p starts ||| run text q starts
  | repeated p min max, starts =>
      let extra := match max with
        | some most => Nat.min (most - min) (text.size + 1)
        | none => text.size + 1
      within (run text p) extra (times (run text p) min starts)

/-- Whether the pattern matches anywhere in a text. -/
def isMatch (p : Pattern) (text : String) : Bool :=
  let cs := text.toList.toArray
  run cs p (1 <<< (cs.size + 1) - 1) ≠ 0

/-- About how much room the compiled pattern takes. -/
def weight : Pattern → Nat
  | empty => 16
  | chars set => 32 + set.weight
  | anchor _ => 32
  | seq p q => p.weight + q.weight
  | alt p q => 32 + p.weight + q.weight
  | repeated p min max =>
      32 + p.weight * match max with
        | some most => Nat.max 1 most
        | none => min + 1

end Pattern
end LiveRules
