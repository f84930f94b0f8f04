import LiveRules.Text.Blank

/-!
# Query lines

A line of interactive input names a plugin by its tag and gives the key to ask
it about. Blank lines and lines that start with a number sign ask nothing.
-/
namespace LiveRules

/-- What a line of input asks for. -/
inductive QueryLine where
  | nothing
  | ask (tag key : String)
  /-- Neither empty nor exactly two words; holds the trimmed line. -/
  | malformed (line : String)
  deriving DecidableEq, Repr

namespace QueryLine

def parse (line : String) : QueryLine :=
  let line := Text.trim line
  if line.isEmpty || line.startsWith "#" then nothing
  else match Text.words line with
    | [tag, key] => ask tag key
    | _ => malformed line

/-- The complaint about a line of the wrong shape. -/
def complaint (line : String) : String :=
  "expected `<tag> <key>`, got '" ++ line ++ "'"

end QueryLine
end LiveRules
