import LiveRules.Rules.Addresses
import LiveRules.Rules.DomainMatcher
import LiveRules.Rules.Hosts

/-!
# Dialects

A dialect is a kind of rule set: how its rules are compiled and looked up, and
what it lets other sets refer to. There are three: sets of domain rules, sets of
address rules, and tables of hosts, which bind addresses to domain rules.
-/
namespace LiveRules

structure Dialect where
  Key : Type
  Value : Type
  /-- The compiled rules of one set. -/
  Table : Type
  compile : RuleSource → Files.Tree → Except RuleError Table
  size : Table → Nat
  probe : Key → Table → Option Value
  /-- What a set of this kind needs of the sets it refers to. -/
  capability : String
  /-- Whether a reload may put these rules in place of others. -/
  acceptsReload : Table → Bool

namespace Dialect
variable [PatternLanguage]

/-- The rules of a domain set. -/
def compileDomains (source : RuleSource) (files : Files.Tree) :
    Except RuleError (DomainMatcher Unit) :=
  source.compile files (fun m rule => m.add rule ()) { default := .domain }

/-- The rules of an address set. -/
def compileAddresses (source : RuleSource) (files : Files.Tree) :
    Except RuleError Net.AddressSet :=
  (source.compile files AddressRules.add []).map .ofList

/-- Binds the addresses of a record to its rule. -/
def addHost (m : DomainMatcher (List Net.Address)) (record : String) :
    Except RuleError (DomainMatcher (List Net.Address)) := do
  let r ← HostRecord.parse record
  m.add r.rule r.addresses

/-- The bindings of a hosts table; an untagged rule means the full name. -/
def compileHosts (source : RuleSource) (files : Files.Tree) :
    Except RuleError (DomainMatcher (List Net.Address)) :=
  source.compile files addHost { default := .full }

@[reducible] def domains : Dialect where
  Key := String
  Value := Unit
  Table := DomainMatcher Unit
  compile := compileDomains
  size := DomainMatcher.size
  probe key m := m.find? key
  capability := "domain matcher"
  acceptsReload _ := true

@[reducible] def addresses : Dialect where
  Key := Net.Address
  Value := Unit
  Table := Net.AddressSet
  compile := compileAddresses
  size := Net.AddressSet.size
  probe a s := if s.contains a then some () else none
  capability := "ip matcher"
  acceptsReload _ := true

/-- A reload that leaves a table without records is taken for a mistake. -/
@[reducible] def hosts : Dialect where
  Key := String
  Value := List Net.Address
  Table := DomainMatcher (List Net.Address)
  compile := compileHosts
  size := DomainMatcher.size
  probe key m := m.find? key
  capability := "hosts table"
  acceptsReload m := m.size != 0

end Dialect
end LiveRules
