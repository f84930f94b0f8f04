/-!
# White space and words

White space is the Unicode property White_Space; the zero-width characters
U+200B and U+FEFF do not have it. Trimming removes it from both ends of a text
and splitting into words drops every run of it.
-/
namespace LiveRules.Text

/-- The ranges of the property White_Space, in order. -/
def blankRanges : List (Nat × Nat) :=
  [(0x09, 0x0D), (0x20, 0x20), (0x85, 0x85), (0xA0, 0xA0), (0x1680, 0x1680),
   (0x2000, 0x200A), (0x2028, 0x2029), (0x202F, 0x202F), (0x205F, 0x205F),
   (0x3000, 0x3000)]

def isBlank (c : Char) : Bool :=
  blankRanges.any fun r => r.1 ≤ c.toNat && c.toNat ≤ r.2

/-- The characters without the ones of `p` at the end. -/
def dropEndWhile (p : Char → Bool) : List Char → List Char
  | [] => []
  | c :: cs =>
      match dropEndWhile p cs with
      | [] => if p c then [] else [c]
      | rest => c :: rest

/-- The characters without white space at either end. -/
def trimmed (cs : List Char) : List Char :=
  dropEndWhile isBlank (cs.dropWhile isBlank)

def trim (s : String) : String := .ofList (trimmed s.toList)

def trimEnd (s : String) : String := .ofList (dropEndWhile isBlank s.toList)

/-- The maximal runs of characters that are not white space. `word` holds the
run being read. -/
def wordsFrom (word : List Char) : List Char → List (List Char)
  | [] => if word.isEmpty then [] else [word]
  | c :: cs =>
      if isBlank c then
        if word.isEmpty then wordsFrom [] cs else word :: wordsFrom [] cs
      else wordsFrom (word ++ [c]) cs

def words (s : String) : List String := (wordsFrom [] s.toList).map .ofList

/-- Only the twenty-six ASCII capitals have a lower form. -/
def lower (s : String) : String := .ofList (s.toList.map Char.toLower)

@[simp] theorem toList_trim (s : String) : (trim s).toList = trimmed s.toList :=
  String.toList_ofList

@[simp] theorem toList_lower (s : String) :
    (lower s).toList = s.toList.map Char.toLower := String.toList_ofList

end LiveRules.Text
