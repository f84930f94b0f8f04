import LiveRules.Collect.Config
import LiveRules.Toml.Printer

/-!
# Settings

Everything that can be configured, with its defaults, and how it is written in a
configuration file.
-/
namespace LiveRules

structure LoggingSettings where
  default : String := "warn"
  /-- Levels of single parts of the program, sorted by part. -/
  modules : List (String × String) := []
  deriving DecidableEq, Repr

/-- The directives of the filter for log lines. -/
def LoggingSettings.directives (l : LoggingSettings) : String :=
  l.default ++ String.join (l.modules.map fun m => "," ++ m.1 ++ "=" ++ m.2)

structure ReloadSettings where
  /-- Milliseconds. -/
  debounce : Nat := 500
  includeRename : Bool := true
  deriving DecidableEq, Repr

/-- A set of domain rules. -/
structure DomainSetSettings where
  tag : String
  expressions : List String := []
  sets : List String := []
  files : List String := []
  autoReload : Bool := false
  /-- Overrides the general debounce time. -/
  debounce : Option Nat := none
  deriving DecidableEq, Repr

/-- A set of address rules. -/
structure AddressSetSettings where
  tag : String
  ips : List String := []
  sets : List String := []
  files : List String := []
  autoReload : Bool := false
  /-- Overrides the general debounce time. -/
  debounce : Option Nat := none
  deriving DecidableEq, Repr

structure HostsSettings where
  tag : String
  entries : List String := []
  files : List String := []
  autoReload : Bool := false
  deriving DecidableEq, Repr

structure ActionSettings where
  tag : String
  path : String
  format : String := ""
  operation : String := ""
  deriving DecidableEq, Repr

structure IntelSettings where
  tag : String
  whitelist : Option String := none
  /-- Seconds. -/
  ttl : Nat := 300
  autoReload : Bool := true
  deriving DecidableEq, Repr

structure Settings where
  logging : LoggingSettings := {}
  reload : ReloadSettings := {}
  collect : Collect.Config := {}
  domainSets : List DomainSetSettings := []
  addressSets : List AddressSetSettings := []
  hosts : List HostsSettings := []
  actions : List ActionSettings := []
  intel : List IntelSettings := []
  deriving DecidableEq, Repr

namespace ReloadSettings

/-- The debounce time, unless a set has its own. -/
def debounceFor (r : ReloadSettings) (own : Option Nat) : Nat := own.getD r.debounce

end ReloadSettings

namespace Settings
open Toml

/-- The files that the plugins read. -/
def namedFiles (s : Settings) : List String :=
  s.domainSets.flatMap (·.files) ++ s.addressSets.flatMap (·.files) ++
    s.hosts.flatMap (·.files) ++ s.actions.map (·.path) ++ s.intel.filterMap (·.whitelist)

abbrev Entries := List (String × Value)

/-- An option that is left out when it is absent. -/
def optional {α : Type} (key : String) (write : α → Value) : Option α → Entries
  | none => []
  | some a => [(key, write a)]

def loggingEntries (l : LoggingSettings) : Entries :=
  [("default", .string l.default), ("modules", .table (l.modules.map fun m => (m.1, .string m.2)))]

def reloadEntries (r : ReloadSettings) : Entries :=
  [("debounce_ms", .natural r.debounce), ("include_rename", .boolean r.includeRename)]

def retryEntries (p : Collect.RetryPolicy) : Entries :=
  [("attempts", .natural p.attempts), ("backoff_ms", .natural p.backoff)]

def collectEntries (c : Collect.Config) : Entries :=
  [("queue_capacity", .natural c.queueCapacity), ("add_retry", .table (retryEntries c.addRetry)),
   ("delete_retry", .table (retryEntries c.deleteRetry))]

def domainSetEntries (s : DomainSetSettings) : Entries :=
  [("tag", .string s.tag), ("exps", .texts s.expressions), ("sets", .texts s.sets),
   ("files", .texts s.files), ("auto_reload", .boolean s.autoReload)]
    ++ optional "debounce_ms" .natural s.debounce

def addressSetEntries (s : AddressSetSettings) : Entries :=
  [("tag", .string s.tag), ("ips", .texts s.ips), ("sets", .texts s.sets),
   ("files", .texts s.files), ("auto_reload", .boolean s.autoReload)]
    ++ optional "debounce_ms" .natural s.debounce

def hostsEntries (h : HostsSettings) : Entries :=
  [("tag", .string h.tag), ("entries", .texts h.entries), ("files", .texts h.files),
   ("auto_reload", .boolean h.autoReload)]

def actionEntries (a : ActionSettings) : Entries :=
  [("tag", .string a.tag), ("file_path", .string a.path), ("format", .string a.format),
   ("operation", .string a.operation)]

def intelEntries (i : IntelSettings) : Entries :=
  [("tag", .string i.tag)] ++ optional "whitelist_file" .string i.whitelist
    ++ [("cache_ttl_secs", .natural i.ttl), ("auto_reload", .boolean i.autoReload)]

def listOf {α : Type} (write : α → Entries) (items : List α) : Value :=
  .array (items.map fun a => .table (write a))

/-- The settings as they are written. -/
def entries (s : Settings) : Entries :=
  [("logging", .table (loggingEntries s.logging)), ("reload", .table (reloadEntries s.reload)),
   ("collect", .table (collectEntries s.collect)),
   ("domain_set", listOf domainSetEntries s.domainSets),
   ("ip_set", listOf addressSetEntries s.addressSets),
   ("hosts", listOf hostsEntries s.hosts),
   ("collect_action", listOf actionEntries s.actions),
   ("intel", listOf intelEntries s.intel)]

/-- The text of a configuration file with these settings. -/
def render (s : Settings) : String := Document.render s.entries

end Settings
end LiveRules
