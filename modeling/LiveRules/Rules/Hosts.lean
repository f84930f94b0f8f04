import LiveRules.Net.AddressSet
import LiveRules.Rules.Source

/-!
# Hosts records

A record binds the addresses after its first word to the rule in that word.
-/
namespace LiveRules

/-- A domain rule with the addresses bound to it. -/
structure HostRecord where
  rule : String
  addresses : List Net.Address
  deriving DecidableEq, Repr

namespace HostRecord

/-- The addresses that words spell, or the first word that spells none. -/
def addresses? : List String → Except String (List Net.Address)
  | [] => .ok []
  | w :: ws =>
      match Net.Address.parse? w with
      | none => .error w
      | some a => (addresses? ws).map (a :: ·)

def parse (record : String) : Except RuleError HostRecord :=
  match Text.words record with
  | [] => .error (.invalid record .emptyRecord)
  | rule :: fields =>
      match addresses? fields with
      | .error field => .error (.invalid record (.badAddress field))
      | .ok [] => .error (.invalid record .noAddress)
      | .ok addresses => .ok ⟨rule, addresses⟩

end HostRecord
end LiveRules
