import LiveRules.Text.Blank

/-!
# Lines and separators

A line ends at a line feed, which may follow one carriage return; a last line
without a line feed keeps whatever it ends with. Cutting a text at a separator
character is the other way in which texts are taken apart here.
-/
namespace LiveRules.Text

/-- Drops one carriage return at the end. -/
def dropReturn : List Char → List Char
  | [] => []
  | ['\r'] => []
  | c :: cs => c :: dropReturn cs

/-- The lines of a text; `line` holds the characters of the current one. -/
def linesFrom (line : List Char) : List Char → List (List Char)
  | [] => if line.isEmpty then [] else [line]
  | '\n' :: cs => dropReturn line :: linesFrom [] cs
  | c :: cs => linesFrom (line ++ [c]) cs

def lines (s : String) : List String := (linesFrom [] s.toList).map .ofList

/-- The parts before and after the first `sep`. -/
def cutAt (sep : Char) : List Char → Option (List Char × List Char)
  | [] => none
  | c :: cs =>
      if c = sep then some ([], cs)
      else (cutAt sep cs).map fun p => (c :: p.1, p.2)

/-- Every piece between separators; a text without one is a single piece. -/
def pieces (sep : Char) : List Char → List (List Char)
  | [] => [[]]
  | c :: cs =>
      if c = sep then [] :: pieces sep cs
      else match pieces sep cs with
        | [] => [[c]]
        | p :: ps => (c :: p) :: ps

/-- Whether `needle` occurs in the text without gaps. -/
def occurs (needle : List Char) : List Char → Bool
  | [] => needle.isEmpty
  | c :: cs => needle.isPrefixOf (c :: cs) || occurs needle cs

def contains (s needle : String) : Bool := occurs needle.toList s.toList

theorem pieces_ne_nil (sep : Char) (cs : List Char) : pieces sep cs ≠ [] := by
  induction cs with
  | nil => simp [pieces]
  | cons c cs ih =>
      simp only [pieces]
      split
      · simp
      · split <;> simp_all

end LiveRules.Text
