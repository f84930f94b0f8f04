import LiveRules.Settings.Basic

/-!
# Reading settings from values

A record is read from a table or from a list that gives its fields in order.
Fields of other names are ignored. In a table the fields that are there are
looked at in the order of their names before any is missed.
-/
namespace LiveRules

/-- What is wrong with a configuration. -/
inductive SettingsFault where
  /-- A text that is no document, or a file that cannot be read. -/
  | unreadable
  | wrongType
  /-- A number out of range. -/
  | badValue
  | missingField
  /-- A list too short for its record. -/
  | shortList
  deriving DecidableEq, Repr

structure SettingsError where
  fault : SettingsFault
  /-- Keys and positions that lead to the value, or to the table of it. -/
  path : List String := []
  deriving DecidableEq, Repr

namespace SettingsError

def message (e : SettingsError) : String :=
  let place := if e.path.isEmpty then "" else " for key \x60" ++ ".".intercalate e.path ++ "\x60"
  match e.fault with
  | .unreadable => "the file is no valid document"
  | .wrongType => "invalid type" ++ place
  | .badValue => "invalid value" ++ place
  | .missingField => "missing field" ++ place
  | .shortList => "invalid length" ++ place

end SettingsError

namespace Settings.Decode
open Toml

/-- Reads a value that stands at a path. -/
abbrev Decoder (α : Type) := List String → Value → Except SettingsError α

def Decoder.check {α : Type} (d : Decoder α) : Decoder Unit := fun path v =>
  (d path v).map fun _ => ()

def refuse {α : Type} (fault : SettingsFault) (path : List String) : Except SettingsError α :=
  .error ⟨fault, path⟩

def text : Decoder String
  | _, .string s => .ok s
  | path, _ => refuse .wrongType path

def boolean : Decoder Bool
  | _, .boolean b => .ok b
  | path, _ => refuse .wrongType path

/-- A number below `limit` that is not negative. -/
def naturalBelow (limit : Nat) : Decoder Nat
  | path, .integer n =>
      if 0 ≤ n && n < limit then .ok n.toNat else refuse .badValue path
  | path, _ => refuse .wrongType path

def word32 : Decoder Nat := naturalBelow UInt32.size

def word64 : Decoder Nat := naturalBelow UInt64.size

def itemsFrom {α : Type} (item : Decoder α) (path : List String) (index : Nat) :
    List Value → Except SettingsError (List α)
  | [] => .ok []
  | v :: vs => do
      let a ← item (path ++ [toString index]) v
      return a :: (← itemsFrom item path (index + 1) vs)

def list {α : Type} (item : Decoder α) : Decoder (List α)
  | path, .array vs => itemsFrom item path 0 vs
  | path, _ => refuse .wrongType path

def texts : Decoder (List String) := list text

/-- The order of keys. -/
def sortedByKey {α : Type} (es : List (String × α)) : List (String × α) :=
  es.mergeSort fun a b => a.1 ≤ b.1

def textMap : Decoder (List (String × String))
  | path, .table es => (sortedByKey es).mapM fun e => do
      return (e.1, ← text (path ++ [e.1]) e.2)
  | path, _ => refuse .wrongType path

/-- The fields of a record that are there. -/
structure Found where
  path : List String
  /-- Name, path and value. -/
  fields : List (String × List String × Value)
  /-- Whether it was given as a list. -/
  positional : Bool

/-- Finds the fields of a record and checks each of them. -/
def record (checks : List (String × Decoder Unit)) : Decoder Found := fun path v => do
  let found ← match v with
    | .table es =>
        let known := (sortedByKey es).filter fun e => (checks.lookup e.1).isSome
        pure (⟨path, known.map fun e => (e.1, path ++ [e.1], e.2), false⟩ : Found)
    | .array vs =>
        let placed := (checks.map (·.1)).zip ((List.range vs.length).zip vs)
        pure ⟨path, placed.map fun e => (e.1, path ++ [toString e.2.1], e.2.2), true⟩
    | _ => refuse .wrongType path
  found.fields.forM fun (name, path, v) =>
    match checks.lookup name with
    | some check => check path v
    | none => .ok ()
  return found

namespace Found

def optional {α : Type} (r : Found) (name : String) (d : Decoder α) :
    Except SettingsError (Option α) :=
  match r.fields.lookup name with
  | none => .ok none
  | some (path, v) => (d path v).map some

def withDefault {α : Type} (r : Found) (name : String) (d : Decoder α) (default : α) :
    Except SettingsError α :=
  (r.optional name d).map (·.getD default)

def required {α : Type} (r : Found) (name : String) (d : Decoder α) :
    Except SettingsError α := do
  match ← r.optional name d with
  | some a => return a
  | none => refuse (if r.positional then .shortList else .missingField) r.path

end Found

def logging : Decoder LoggingSettings := fun path v => do
  let r ← record [("default", text.check), ("modules", textMap.check)] path v
  return { default := ← r.withDefault "default" text "warn"
           modules := ← r.withDefault "modules" textMap [] }

def reloading : Decoder ReloadSettings := fun path v => do
  let r ← record [("debounce_ms", word64.check), ("include_rename", boolean.check)] path v
  return { debounce := ← r.withDefault "debounce_ms" word64 500
           includeRename := ← r.withDefault "include_rename" boolean true }

def retryPolicy : Decoder Collect.RetryPolicy := fun path v => do
  let r ← record [("attempts", word32.check), ("backoff_ms", word64.check)] path v
  return ⟨← r.required "attempts" word32, ← r.required "backoff_ms" word64⟩

def collecting : Decoder Collect.Config := fun path v => do
  let r ← record [("queue_capacity", word64.check), ("add_retry", retryPolicy.check),
    ("delete_retry", retryPolicy.check)] path v
  let d : Collect.Config := {}
  return ⟨← r.withDefault "queue_capacity" word64 d.queueCapacity,
    ← r.withDefault "add_retry" retryPolicy d.addRetry,
    ← r.withDefault "delete_retry" retryPolicy d.deleteRetry⟩

def domainSet : Decoder DomainSetSettings := fun path v => do
  let r ← record [("tag", text.check), ("exps", texts.check), ("sets", texts.check),
    ("files", texts.check), ("auto_reload", boolean.check), ("debounce_ms", word64.check)] path v
  return { tag := ← r.required "tag" text
           expressions := ← r.withDefault "exps" texts []
           sets := ← r.withDefault "sets" texts []
           files := ← r.withDefault "files" texts []
           autoReload := ← r.withDefault "auto_reload" boolean false
           debounce := ← r.optional "debounce_ms" word64 }

def addressSet : Decoder AddressSetSettings := fun path v => do
  let r ← record [("tag", text.check), ("ips", texts.check), ("sets", texts.check),
    ("files", texts.check), ("auto_reload", boolean.check), ("debounce_ms", word64.check)] path v
  return { tag := ← r.required "tag" text
           ips := ← r.withDefault "ips" texts []
           sets := ← r.withDefault "sets" texts []
           files := ← r.withDefault "files" texts []
           autoReload := ← r.withDefault "auto_reload" boolean false
           debounce := ← r.optional "debounce_ms" word64 }

def hostsTable : Decoder HostsSettings := fun path v => do
  let r ← record [("tag", text.check), ("entries", texts.check), ("files", texts.check),
    ("auto_reload", boolean.check)] path v
  return { tag := ← r.required "tag" text
           entries := ← r.withDefault "entries" texts []
           files := ← r.withDefault "files" texts []
           autoReload := ← r.withDefault "auto_reload" boolean false }

def action : Decoder ActionSettings := fun path v => do
  let r ← record [("tag", text.check), ("file_path", text.check), ("format", text.check),
    ("operation", text.check)] path v
  return { tag := ← r.required "tag" text
           path := ← r.required "file_path" text
           format := ← r.withDefault "format" text ""
           operation := ← r.withDefault "operation" text "" }

def intelGate : Decoder IntelSettings := fun path v => do
  let r ← record [("tag", text.check), ("whitelist_file", text.check),
    ("cache_ttl_secs", word64.check), ("auto_reload", boolean.check)] path v
  return { tag := ← r.required "tag" text
           whitelist := ← r.optional "whitelist_file" text
           ttl := ← r.withDefault "cache_ttl_secs" word64 300
           autoReload := ← r.withDefault "auto_reload" boolean true }

/-- All settings. -/
def settings : Decoder Settings := fun path v => do
  let r ← record [("logging", logging.check), ("reload", reloading.check),
    ("collect", collecting.check), ("domain_set", (list domainSet).check),
    ("ip_set", (list addressSet).check), ("hosts", (list hostsTable).check),
    ("collect_action", (list action).check), ("intel", (list intelGate).check)] path v
  return { logging := ← r.withDefault "logging" logging {}
           reload := ← r.withDefault "reload" reloading {}
           collect := ← r.withDefault "collect" collecting {}
           domainSets := ← r.withDefault "domain_set" (list domainSet) []
           addressSets := ← r.withDefault "ip_set" (list addressSet) []
           hosts := ← r.withDefault "hosts" (list hostsTable) []
           actions := ← r.withDefault "collect_action" (list action) []
           intel := ← r.withDefault "intel" (list intelGate) [] }

end Settings.Decode
end LiveRules
