import LiveRules.Settings.Load
import Mathlib.Algebra.Group.Nat.Defs

/-!
# How large times in settings are

A decoder refuses numbers that do not fit into 64 bits, and the defaults fit. So whatever
files and environment say, all times of settings that are loaded are words.
-/
namespace LiveRules.Settings

/-- All times are words of 64 bits. -/
structure Words (c : Settings) : Prop where
  reload : c.reload.debounce < 2 ^ 64
  domainSets : ∀ d ∈ c.domainSets, ∀ own ∈ d.debounce, own < 2 ^ 64
  addressSets : ∀ a ∈ c.addressSets, ∀ own ∈ a.debounce, own < 2 ^ 64
  intel : ∀ i ∈ c.intel, i.ttl < 2 ^ 64

namespace Decode
open Toml
variable {α β : Type} {d : Decoder α} {P : α → Prop} {r : Found} {name : String}

/-- Whatever is read has a property. -/
def Gives (d : Decoder α) (P : α → Prop) : Prop := ∀ path v a, d path v = .ok a → P a

theorem ok_of_bind {ε : Type} {x : Except ε α} {f : α → Except ε β} {b : β}
    (ok : x >>= f = .ok b) : ∃ a, x = .ok a ∧ f a = .ok b := by
  cases x with
  | error e => cases ok
  | ok a => exact ⟨a, rfl, ok⟩

theorem ok_of_map {ε : Type} {x : Except ε α} {f : α → β} {b : β} (ok : x.map f = .ok b) :
    ∃ a, x = .ok a ∧ f a = b := by
  cases x with
  | error e => cases ok
  | ok a => exact ⟨a, rfl, Except.ok.inj ok⟩

theorem gives_naturalBelow (limit : Nat) : Gives (naturalBelow limit) (· < limit) := by
  intro path v n read
  unfold naturalBelow at read
  split at read
  · split at read
    · rename_i n fits
      obtain rfl := Except.ok.inj read
      simp only [Bool.and_eq_true, decide_eq_true_eq] at fits
      omega
    · cases read
  · cases read

theorem gives_word64 : Gives word64 (· < 2 ^ 64) := gives_naturalBelow UInt64.size

theorem gives_list (gives : Gives d P) : Gives (list d) fun items => ∀ a ∈ items, P a := by
  have items (path : List String) (vs : List Value) : ∀ index as,
      itemsFrom d path index vs = .ok as → ∀ a ∈ as, P a := by
    induction vs with
    | nil =>
        intro index as read
        cases read
        exact nofun
    | cons v vs ih =>
        intro index as read
        have ⟨first, head, read⟩ := ok_of_bind read
        have ⟨rest, tail, read⟩ := ok_of_bind read
        cases read
        exact List.forall_mem_cons.mpr ⟨gives _ _ _ head, ih _ _ tail⟩
  intro path v as read
  cases v with
  | array vs => exact items path vs 0 as read
  | _ => cases read

theorem gives_optional (gives : Gives d P) {found : Option α} (read : r.optional name d = .ok found) :
    ∀ a ∈ found, P a := by
  unfold Found.optional at read
  split at read
  · cases read
    exact nofun
  · obtain ⟨a, given, rfl⟩ := ok_of_map read
    intro b same
    obtain rfl := Option.mem_some.mp same
    exact gives _ _ _ given

theorem gives_withDefault (gives : Gives d P) {default : α} (usual : P default) {a : α}
    (read : r.withDefault name d default = .ok a) : P a := by
  obtain ⟨found, given, rfl⟩ := ok_of_map read
  cases found with
  | none => exact usual
  | some a => exact gives_optional gives given a rfl

theorem gives_reloading : Gives reloading fun s => s.debounce < 2 ^ 64 := by
  intro path v s read
  have ⟨r, _, read⟩ := ok_of_bind read
  have ⟨debounce, found, read⟩ := ok_of_bind read
  have ⟨includeRename, _, read⟩ := ok_of_bind read
  cases read
  exact gives_withDefault gives_word64 (by decide) found

theorem gives_domainSet : Gives domainSet fun s => ∀ own ∈ s.debounce, own < 2 ^ 64 := by
  intro path v s read
  have ⟨r, _, read⟩ := ok_of_bind read
  have ⟨tag, _, read⟩ := ok_of_bind read
  have ⟨expressions, _, read⟩ := ok_of_bind read
  have ⟨sets, _, read⟩ := ok_of_bind read
  have ⟨files, _, read⟩ := ok_of_bind read
  have ⟨autoReload, _, read⟩ := ok_of_bind read
  have ⟨debounce, found, read⟩ := ok_of_bind read
  cases read
  exact gives_optional gives_word64 found

theorem gives_addressSet : Gives addressSet fun s => ∀ own ∈ s.debounce, own < 2 ^ 64 := by
  intro path v s read
  have ⟨r, _, read⟩ := ok_of_bind read
  have ⟨tag, _, read⟩ := ok_of_bind read
  have ⟨ips, _, read⟩ := ok_of_bind read
  have ⟨sets, _, read⟩ := ok_of_bind read
  have ⟨files, _, read⟩ := ok_of_bind read
  have ⟨autoReload, _, read⟩ := ok_of_bind read
  have ⟨debounce, found, read⟩ := ok_of_bind read
  cases read
  exact gives_optional gives_word64 found

theorem gives_intelGate : Gives intelGate fun s => s.ttl < 2 ^ 64 := by
  intro path v s read
  have ⟨r, _, read⟩ := ok_of_bind read
  have ⟨tag, _, read⟩ := ok_of_bind read
  have ⟨whitelist, _, read⟩ := ok_of_bind read
  have ⟨ttl, found, read⟩ := ok_of_bind read
  have ⟨autoReload, _, read⟩ := ok_of_bind read
  cases read
  exact gives_withDefault gives_word64 (by decide) found

theorem gives_settings : Gives settings Words := by
  intro path v s read
  have ⟨r, _, read⟩ := ok_of_bind read
  have ⟨logging, _, read⟩ := ok_of_bind read
  have ⟨reload, reloads, read⟩ := ok_of_bind read
  have ⟨collect, _, read⟩ := ok_of_bind read
  have ⟨domainSets, domains, read⟩ := ok_of_bind read
  have ⟨addressSets, addresses, read⟩ := ok_of_bind read
  have ⟨hosts, _, read⟩ := ok_of_bind read
  have ⟨actions, _, read⟩ := ok_of_bind read
  have ⟨intel, gates, read⟩ := ok_of_bind read
  cases read
  exact {
    reload := gives_withDefault gives_reloading (by decide) reloads
    domainSets := gives_withDefault (gives_list gives_domainSet) (by simp) domains
    addressSets := gives_withDefault (gives_list gives_addressSet) (by simp) addresses
    intel := gives_withDefault (gives_list gives_intelGate) (by simp) gates }

end Decode

/-- Nothing larger comes from files and environment. -/
theorem words_of_load {files : Files.Tree} {env : List (String × String)} {path : String}
    {c : Settings} (loaded : load files env path = .ok c) : c.Words := by
  have ⟨file, _, read⟩ := Decode.ok_of_bind loaded
  exact Decode.gives_settings _ _ _ read

end LiveRules.Settings
