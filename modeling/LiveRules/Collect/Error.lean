import LiveRules.Files.Error

/-!
# What can be wrong with collect files
-/
namespace LiveRules.Collect

/-- Why a store cannot be opened. -/
inductive CollectError where
  | load (path : String) (cause : Files.ReadError)
  | badPath (path : String) (cause : Files.ReadError)
  deriving DecidableEq, Repr

namespace CollectError

def message : CollectError → String
  | load path cause => "Failed to load collect file " ++ path ++ ": " ++ cause.message
  | badPath path cause => "Invalid collect path " ++ path ++ ": " ++ cause.message

/-- The messages of what an error wraps. -/
def causes : CollectError → List String
  | load _ cause => [cause.message]
  | badPath _ _ => []

end CollectError

end LiveRules.Collect
