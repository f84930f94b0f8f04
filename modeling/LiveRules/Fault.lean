import LiveRules.Collect.Error
import LiveRules.Rules.Error
import LiveRules.Watch.Error

/-!
# Faults

Everything that can keep a rule set, a table, an action or a gate from being
built or brought up to date.
-/
namespace LiveRules

/-- Why a set that another one refers to cannot be used. -/
inductive ProviderError where
  | notFound (tag : String)
  /-- It has no rules of the wanted kind. -/
  | capability (tag wanted : String)
  | duplicate (tag : String)
  | registryClosed
  deriving DecidableEq, Repr

namespace ProviderError

def message : ProviderError → String
  | notFound tag => "Provider '" ++ tag ++ "' not found or not ready"
  | capability tag wanted => "Provider '" ++ tag ++ "' does not provide a " ++ wanted
  | duplicate tag => "Provider '" ++ tag ++ "' is already registered"
  | registryClosed => "Provider registry has been shut down"

end ProviderError

/-- What makes a configuration useless. -/
inductive ConfigFault where
  | noFilePath
  | emptyReload
  deriving DecidableEq, Repr

namespace ConfigFault

def message : ConfigFault → String
  | noFilePath => "file_path is required"
  | emptyReload => "reload produced an empty rule set, keeping previous rules"

end ConfigFault

/-- Why a whitelist file is refused. -/
inductive WhitelistFault where
  | unreadable (cause : Files.ReadError)
  | malformed (complaint : String)
  deriving DecidableEq, Repr

namespace WhitelistFault

def message : WhitelistFault → String
  | unreadable cause => cause.message
  | malformed complaint => complaint

end WhitelistFault

inductive Fault where
  | rule (e : RuleError)
  | provider (e : ProviderError)
  | watch (e : Watch.WatchError)
  | collect (e : Collect.CollectError)
  | config (tag : String) (fault : ConfigFault)
  | whitelist (path : String) (fault : WhitelistFault)
  deriving Repr

namespace Fault

def message : Fault → String
  | rule e => e.message
  | provider e => e.message
  | watch e => e.message
  | collect e => e.message
  | config tag fault => "Invalid configuration for '" ++ tag ++ "': " ++ fault.message
  | whitelist path fault => "Failed to load whitelist " ++ path ++ ": " ++ fault.message

/-- The messages of what a fault wraps, from the outside in. -/
def causes : Fault → List String
  | rule e => e.causes
  | collect e => e.causes
  | provider _ | watch _ | config _ _ | whitelist _ _ => []

end Fault
end LiveRules
