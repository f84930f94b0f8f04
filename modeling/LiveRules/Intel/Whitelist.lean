import LiveRules.Fault
import LiveRules.Files.Tree
import LiveRules.Rules.Addresses
import LiveRules.Rules.Name
import LiveRules.Yaml.Node

/-!
# Whitelists

Names and addresses that are never looked up. A whitelist file is a document
with the mappings `domain` and `ip`, each with a list `allow`. Whatever is left
out or empty counts as an empty list. A file takes effect as a whole or not at
all: its addresses have to be valid before its names are taken over.
-/
namespace LiveRules.Intel

/-- The lists in force: names in normal form, without repetitions. -/
structure Whitelist where
  names : List String := []
  addresses : Net.AddressSet := {}
  deriving DecidableEq, Repr

/-- What a whitelist file says. -/
structure WhitelistFile where
  domains : List String := []
  ips : List String := []
  deriving DecidableEq, Repr

namespace Whitelist

/-- The normal forms of names, without the root name. -/
def normalNames (names : List String) : List String :=
  ((names.map normalize).filter fun n => !n.isEmpty).eraseDups

def storeNames (w : Whitelist) (names : List String) : Whitelist :=
  { w with names := normalNames names }

def networks : List String → Except RuleError (List Net.Network)
  | [] => .ok []
  | ip :: ips =>
      match AddressRules.network ip with
      | .ok n => (networks ips).map (n :: ·)
      | .error e => .error e

def storeAddresses (w : Whitelist) (ips : List String) : Except RuleError Whitelist :=
  (networks ips).map fun ns => { w with addresses := .ofList ns }

def hasName (w : Whitelist) (name : String) : Bool := w.names.contains (normalize name)

/-- An indicator that is an address is looked up among addresses only. -/
def contains (w : Whitelist) (indicator : String) : Bool :=
  match Net.Address.parse? indicator with
  | some a => w.addresses.contains a
  | none => w.hasName indicator

/-- Takes over both lists of a file, or none. -/
def apply (w : Whitelist) (file : WhitelistFile) : Except RuleError Whitelist :=
  (w.storeAddresses file.ips).map (·.storeNames file.domains)

end Whitelist

namespace WhitelistFile
open Yaml

/-- A node that is empty in the place of a collection. -/
def isEmptyNode : Node → Bool
  | .text s plain => plain && s.isEmpty
  | _ => false

/-- The values of named fields. A mapping gives each at most once, other keys
are ignored; a sequence gives them in their order. -/
def fields (d : Document) (names : List String) (n : Node) : Option (List (Option Node)) :=
  match d.deref n with
  | .mapping entries => do
      let keyed ← entries.mapM fun e =>
        match d.deref e.1 with
        | .text key _ => some (key, e.2)
        | _ => none
      names.mapM fun name =>
        match keyed.filter (·.1 = name) with
        | [] => some none
        | [e] => some (some e.2)
        | _ => none
  | .sequence items =>
      if names.length < items.length then none
      else some ((List.range names.length).map fun i => items[i]?)
  | n => if isEmptyNode n then some (names.map fun _ => none) else none

/-- A list of texts. -/
def textList (d : Document) (n : Node) : Option (List String) :=
  match d.deref n with
  | .sequence items => items.mapM fun item =>
      match d.deref item with
      | .text s _ => some s
      | _ => none
  | n => if isEmptyNode n then some [] else none

/-- The list `allow` of one of the two mappings. -/
def allowed (d : Document) : Option Node → Option (List String)
  | none => some []
  | some n =>
      match fields d ["allow"] n with
      | some [none] => some []
      | some [some n] => textList d n
      | _ => none

def ofDocument? (d : Document) : Option WhitelistFile :=
  match fields d ["domain", "ip"] d.root with
  | some [domain, ip] => do
      let domains ← allowed d domain
      let ips ← allowed d ip
      return ⟨domains, ips⟩
  | _ => none

def parse (content : String) : Except WhitelistFault WhitelistFile :=
  if (Text.trim content).isEmpty then .ok {}
  else match Document.ofText content with
    | .error flaw => .error (.malformed flaw.message)
    | .ok d =>
        match ofDocument? d with
        | some file => .ok file
        | none => .error (.malformed "invalid type")

def load (files : Files.Tree) (path : String) : Except Fault WhitelistFile :=
  match files.readText path with
  | .error cause => .error (.whitelist path (.unreadable cause))
  | .ok content =>
      match parse content with
      | .ok file => .ok file
      | .error fault => .error (.whitelist path fault)

end WhitelistFile
end LiveRules.Intel
