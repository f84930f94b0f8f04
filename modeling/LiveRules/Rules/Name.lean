import LiveRules.Text.Blank

/-!
# Query names in normal form

A name is compared without white space around it, without the dots that close
it and in lower case. The three happen in this order, so white space before a
closing dot survives.
-/
namespace LiveRules

/-- Characters of the normal form. -/
def normalChars (cs : List Char) : List Char :=
  (Text.dropEndWhile (· = '.') (Text.trimmed cs)).map Char.toLower

def normalize (name : String) : String := .ofList (normalChars name.toList)

@[simp] theorem toList_normalize (name : String) :
    (normalize name).toList = normalChars name.toList := String.toList_ofList

end LiveRules
