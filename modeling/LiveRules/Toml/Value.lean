/-!
# Values of a configuration

Tables keep the order in which their keys were given. A moment in time counts as
a table with one reserved key.
-/
namespace LiveRules.Toml

inductive Value where
  | string (s : String)
  | integer (n : Int)
  /-- The number as it is spelled. -/
  | float (spelling : String)
  | boolean (b : Bool)
  | array (items : List Value)
  | table (entries : List (String × Value))
  deriving Repr

namespace Value

def textKey : String := "$__toml_private_datetime"

/-- A moment in time, given as text. -/
def moment (text : String) : Value := .table [(textKey, .string text)]

def texts (items : List String) : Value := .array (items.map .string)

def natural (n : Nat) : Value := .integer n

end Value
end LiveRules.Toml
