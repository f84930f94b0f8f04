import LiveRules.Proofs.Intel.Names
import LiveRules.Proofs.Intel.Reloads
import LiveRules.Proofs.Rules.AddressMatching
import LiveRules.Proofs.Rules.NameLookup

/-!
# The whitelist in force

A whitelist is loaded and applied again whenever its file has changed. Some of the contents
that it finds are of no use: there is no text, or the text says nothing, or one of the
addresses is not valid. Then both lists stay. So at any time both lists are those of the
last content that was of use, and they decide which indicators are whitelisted.
-/
namespace LiveRules.Intel
open Files (Tree)

/-! ## What files say -/

namespace WhitelistFile
variable {content path : String} {files : Tree} {file file' : WhitelistFile}

/-- What a text says as a whitelist. -/
inductive Says : String → WhitelistFile → Prop
  | blank {content : String} : (∀ c ∈ content.toList, Text.isBlank c = true) → Says content {}
  | decoded {content : String} {d : Yaml.Document} {file : WhitelistFile} :
      (∃ c ∈ content.toList, Text.isBlank c = false) → Yaml.Document.ofText content = .ok d →
      ofDocument? d = some file → Says content file

theorem parse_eq_ok : parse content = .ok file ↔ Says content file := by
  have blank : (Text.trim content).isEmpty = true ↔
      ∀ c ∈ content.toList, Text.isBlank c = true := by
    rw [String.isEmpty_iff, ← String.toList_eq_nil_iff, Text.toList_trim, Text.trimmed_eq_nil]
  unfold parse
  split
  · rename_i empty
    have all := blank.mp empty
    constructor
    · intro same
      cases same
      exact .blank all
    · rintro (_ | ⟨⟨c, inside, printed⟩, _, _⟩)
      · rfl
      · rw [all c inside] at printed
        cases printed
  · rename_i some
    have printed : ∃ c ∈ content.toList, Text.isBlank c = false := by
      by_contra none
      refine some (blank.mpr fun c inside => ?_)
      by_contra printed
      exact none ⟨c, inside, by simpa using printed⟩
    constructor
    · intro parsed
      split at parsed
      · cases parsed
      · rename_i d decoded
        split at parsed
        · rename_i file read
          cases parsed
          exact .decoded printed decoded read
        · cases parsed
    · rintro (all | ⟨_, decoded, read⟩)
      · exact absurd (blank.mpr all) some
      · simp only [decoded, read]

/-- What the file at a path says. -/
def SaidAt (path : String) (files : Tree) (file : WhitelistFile) : Prop :=
  ∃ content, files.readText path = .ok content ∧ Says content file

theorem load_eq_ok : load files path = .ok file ↔ SaidAt path files file := by
  unfold load SaidAt
  cases files.readText path with
  | error cause => simp
  | ok content =>
      simp only [Except.ok.injEq, exists_eq_left', ← parse_eq_ok]
      cases parse content <;> simp

theorem SaidAt.unique (said : SaidAt path files file) (said' : SaidAt path files file') :
    file = file' :=
  Except.ok.inj ((load_eq_ok.mpr said).symm.trans (load_eq_ok.mpr said'))

/-- All entries of the list of addresses are valid. -/
def Valid (file : WhitelistFile) : Prop :=
  ∀ ip ∈ file.ips, (AddressRules.network ip).isOk = true

/-- The file at a path can be read, says something, and has only valid addresses. -/
def Usable (path : String) (files : Tree) : Prop := ∃ file, SaidAt path files file ∧ file.Valid

end WhitelistFile

/-! ## What a whitelist takes from a file -/

/-- The whitelist has both lists of the file. -/
structure Whitelist.Enforces (w : Whitelist) (file : WhitelistFile) : Prop where
  valid : file.Valid
  names : ∀ name, name ∈ w.names ↔ name ≠ "" ∧ ∃ d ∈ file.domains, normalize d = name
  addresses : ∀ a, w.addresses.contains a = true ↔ ∃ ip ∈ file.ips, AddressRules.Hits ip a
  /-- An indicator that is an address is looked up among the addresses, any other one by its
  normal form among the names. -/
  contains : ∀ indicator, w.contains indicator = true ↔
    match Net.Address.parse? indicator with
    | some a => ∃ ip ∈ file.ips, AddressRules.Hits ip a
    | none => normalize indicator ≠ "" ∧ ∃ d ∈ file.domains, normalize d = normalize indicator

namespace Whitelist
variable {w w' : Whitelist} {file : WhitelistFile} {path : String} {files : Tree}

theorem isOk_apply (w : Whitelist) (file : WhitelistFile) :
    (w.apply file).isOk = true ↔ file.Valid := by
  rw [WhitelistFile.Valid, ← networks_isOk]
  unfold apply storeAddresses
  cases networks file.ips <;> rfl

/-- What is taken over does not depend on the lists before. -/
theorem apply_eq (w w' : Whitelist) (file : WhitelistFile) : w.apply file = w'.apply file := by
  unfold apply storeAddresses
  cases networks file.ips <;> rfl

theorem enforces_of_apply (applied : w.apply file = .ok w') : w'.Enforces file := by
  have valid : file.Valid := (isOk_apply w file).mp (by rw [applied]; rfl)
  obtain ⟨stored, addresses, rfl⟩ : ∃ stored, w.storeAddresses file.ips = .ok stored ∧
      stored.storeNames file.domains = w' := by
    unfold apply at applied
    cases addresses : w.storeAddresses file.ips with
    | error e => simp [addresses, Except.map] at applied
    | ok stored => exact ⟨stored, rfl, by simpa [addresses, Except.map] using applied⟩
  obtain ⟨ns, added, same⟩ := AddressRules.storeAddresses_ok addresses
  have listed (a : Net.Address) : stored.addresses.contains a = true ↔
      ∃ ip ∈ file.ips, AddressRules.Hits ip a := by
    rw [same]
    exact AddressRules.contains_adds .outermost added a
  refine ⟨valid, fun name => mem_normalNames, listed, fun indicator => ?_⟩
  cases parsed : Net.Address.parse? indicator with
  | some a =>
      simp only [contains, parsed]
      exact listed a
  | none =>
      simp only [contains_of_name parsed, List.contains_iff_mem]
      exact mem_normalNames

/-- A file that says nothing empties both lists. -/
theorem apply_start : ({} : Whitelist).apply {} = .ok {} := by
  have none : Net.AddressSet.ofList [] = {} := by decide +kernel
  simp [apply, storeAddresses, networks, Except.map, none, storeNames, normalNames]

/-- The whitelist after its file is loaded and applied once more. -/
def refresh (path : String) (w : Whitelist) (files : Tree) : Whitelist :=
  ((WhitelistFile.load files path).toOption.bind fun file => (w.apply file).toOption).getD w

/-- Both lists are taken over from a file of use, and both stay if it is of none. -/
theorem refresh_cases (path : String) (w : Whitelist) (files : Tree) :
    (∃ file, WhitelistFile.SaidAt path files file ∧ file.Valid ∧
      ({} : Whitelist).apply file = .ok (refresh path w files)) ∨
      ¬ WhitelistFile.Usable path files ∧ refresh path w files = w := by
  unfold refresh
  cases loaded : WhitelistFile.load files path with
  | error e =>
      refine .inr ⟨fun ⟨file, said, _⟩ => ?_, rfl⟩
      cases loaded.symm.trans (WhitelistFile.load_eq_ok.mpr said)
  | ok file =>
      have said := WhitelistFile.load_eq_ok.mp loaded
      have valid := isOk_apply w file
      cases applied : w.apply file with
      | error e =>
          rw [applied] at valid
          refine .inr ⟨fun ⟨file', said', fine⟩ => ?_, by simp [Except.toOption, applied]⟩
          obtain rfl := said.unique said'
          cases valid.mpr fine
      | ok w' =>
          rw [applied] at valid
          refine .inl ⟨file, said, valid.mp rfl, ?_⟩
          rw [apply_eq {} w, applied]
          simp [Except.toOption, applied]

end Whitelist

/-! ## Histories -/

/-- The file of which both lists are in force: the last one of use, or an empty one. -/
inductive InForce (path : String) (trees : List Tree) : WhitelistFile → Prop
  | never : (∀ files ∈ trees, ¬ WhitelistFile.Usable path files) → InForce path trees {}
  | last {files : Tree} {file : WhitelistFile} :
      LastOf (WhitelistFile.Usable path) trees files → WhitelistFile.SaidAt path files file →
      InForce path trees file

section Histories
variable {path : String} {trees : List Tree} {files : Tree} {file file' : WhitelistFile}

theorem InForce.unique (inForce : InForce path trees file) (inForce' : InForce path trees file') :
    file = file' := by
  cases inForce with
  | never none =>
      cases inForce' with
      | never => rfl
      | last last said =>
          have ⟨_, _, _, usable, _⟩ := last
          exact absurd usable (none _ last.mem)
  | last last said =>
      have ⟨_, _, _, usable, _⟩ := last
      cases inForce' with
      | never none => exact absurd usable (none _ last.mem)
      | last last' said' =>
          obtain rfl := last.unique last'
          exact said.unique said'

theorem InForce.concat (inForce : InForce path trees file)
    (useless : ¬ WhitelistFile.Usable path files) : InForce path (trees ++ [files]) file := by
  cases inForce with
  | never none => exact .never (Lists.forall_append none useless)
  | last last said =>
      obtain ⟨before, after, rfl, usable, unmet⟩ := last
      refine .last ⟨before, after ++ [files], ?_, usable, Lists.forall_append unmet useless⟩ said
      simp

/-- At any time both lists are those of the file in force. -/
theorem inForce_refresh (path : String) (trees : List Tree) : ∃ file,
    InForce path trees file ∧
      ({} : Whitelist).apply file = .ok (trees.foldl (Whitelist.refresh path) {}) := by
  induction trees using List.reverseRecOn with
  | nil => exact ⟨{}, .never nofun, Whitelist.apply_start⟩
  | append_singleton trees files ih =>
      rw [List.foldl_concat]
      rcases Whitelist.refresh_cases path (trees.foldl (Whitelist.refresh path) {}) files with
        ⟨file, said, valid, applied⟩ | ⟨useless, stays⟩
      · exact ⟨file, .last ⟨trees, [], rfl, ⟨file, said, valid⟩, nofun⟩ said, applied⟩
      · obtain ⟨file, inForce, applied⟩ := ih
        rw [stays]
        exact ⟨file, inForce.concat useless, applied⟩

end Histories

/-- The gate after its file is loaded and applied in each of some trees; it stays as it is
where that fails. -/
def Gate.reloads (g : Gate) (trees : List Tree) : Gate :=
  trees.foldl (fun g files => (g.reload files).toOption.getD g) g

theorem Gate.reload_refresh {g : Gate} {path : String} (file : g.file = some path)
    (files : Tree) : (g.reload files).toOption.getD g =
      { g with whitelist := g.whitelist.refresh path files } := by
  obtain ⟨tag, _, whitelist, cache⟩ := g
  cases file
  unfold reload Whitelist.refresh
  dsimp only
  cases WhitelistFile.load files path with
  | error e => rfl
  | ok loaded =>
      dsimp only [Except.toOption, Option.bind_some]
      cases whitelist.apply loaded <;> rfl

theorem Gate.whitelist_reloads {g : Gate} {path : String} (file : g.file = some path)
    (trees : List Tree) :
    (g.reloads trees).whitelist = trees.foldl (Whitelist.refresh path) g.whitelist := by
  induction trees generalizing g with
  | nil => rfl
  | cons files trees ih =>
      rw [reloads, List.foldl_cons, List.foldl_cons, reload_refresh file]
      exact ih (g := { g with whitelist := g.whitelist.refresh path files }) file

namespace Scene

/-- A callback reads and swaps, list by list, in each of some trees. -/
def oneByOne (i : Nat) : List Tree → List Move
  | [] => []
  | files :: trees =>
      .edit files :: .spawn :: .step i :: .step i :: .step i :: oneByOne (i + 1) trees

theorem play_once (path : String) {s : Scene} {i : Nat} (next : s.callbacks.length = i)
    (files : Tree) :
    let s' := s.play path [.edit files, .spawn, .step i, .step i, .step i]
    s'.whitelist = s.whitelist.refresh path files ∧ s'.callbacks.length = i + 1 := by
  have here (c : Callback) : (s.callbacks ++ [c])[i]? = some c := by
    rw [← next]
    exact List.getElem?_concat_length
  have put (c c' : Callback) : (s.callbacks ++ [c]).set i c' = s.callbacks ++ [c'] := by
    rw [← next, List.set_append_right _ _ (Nat.le_refl _), Nat.sub_self]
    rfl
  have length (c : Callback) : (s.callbacks ++ [c]).length = i + 1 := by
    rw [List.length_append, next]
    rfl
  simp only [play, List.foldl, move, here, Files.History.change]
  unfold Whitelist.refresh Whitelist.apply
  cases WhitelistFile.load files path with
  | error e =>
      simp only [become, put, here]
      exact ⟨rfl, length _⟩
  | ok file =>
      simp only [become, put, here, Except.toOption, Option.bind_some]
      cases s.whitelist.storeAddresses file.ips with
      | error e =>
          simp only [here]
          exact ⟨rfl, length _⟩
      | ok stored =>
          simp only [put, here]
          exact ⟨rfl, length _⟩

theorem whitelist_oneByOne {path : String} {s : Scene} {i : Nat} (next : s.callbacks.length = i)
    (trees : List Tree) : (s.play path (oneByOne i trees)).whitelist =
      trees.foldl (Whitelist.refresh path) s.whitelist := by
  induction trees generalizing s i with
  | nil => rfl
  | cons files trees ih =>
      obtain ⟨whitelist, more⟩ := play_once path next files
      rw [List.foldl_cons, ← whitelist, ← ih more, ← play_append]
      rfl

end Scene

/-- Whatever contents its file has had, both lists of a whitelist are those of the last one of
use, or empty if there was none: in a gate that is reloaded, and if callbacks swap the lists
one after the other. -/
theorem lists_in_force (path : String) (trees : List Tree) : ∃ file w,
    (∀ file', InForce path trees file' ↔ file' = file) ∧
    ({} : Whitelist).apply file = .ok w ∧ w.Enforces file ∧
    (∀ tag cache, (Gate.reloads { tag, file := some path, cache } trees).whitelist = w) ∧
    ∀ files, ((Scene.initial files {}).play path (Scene.oneByOne 0 trees)).whitelist = w := by
  obtain ⟨file, inForce, applied⟩ := inForce_refresh path trees
  refine ⟨file, _, fun file' => ⟨fun other => other.unique inForce, ?_⟩, applied,
    Whitelist.enforces_of_apply applied, fun tag cache => ?_, fun files => ?_⟩
  · rintro rfl
    exact inForce
  · exact Gate.whitelist_reloads rfl trees
  · exact Scene.whitelist_oneByOne rfl trees

theorem saidAt_listing {name address : String} {file : WhitelistFile}
    (parsed : (WhitelistFile.parse (listing name address)).toOption = some file) :
    WhitelistFile.SaidAt "/c" (listingFiles name address) file :=
  ⟨_, readText_listing name address, WhitelistFile.parse_eq_ok.mp (ok_of_toOption parsed)⟩

/-- Neither a file with a bad address behind a good one nor a missing file changes anything. -/
theorem lists_in_force_spoiled : ∃ w : Whitelist,
    (∀ cache, (Gate.reloads { tag := "mail", file := some "/c", cache }
      [listingFiles "old.test" "10.0.0.1", listingFiles "new.test" "10.0.0.2, 10.0.0.300",
        {}]).whitelist = w) ∧
    w.contains "Old.test." = true ∧ w.contains "10.0.0.1" = true ∧
    w.contains "new.test" = false ∧ w.contains "10.0.0.2" = false := by
  have good : WhitelistFile.SaidAt "/c" (listingFiles "old.test" "10.0.0.1")
      ⟨["old.test"], ["10.0.0.1"]⟩ := saidAt_listing (by decide +kernel)
  have bad : WhitelistFile.SaidAt "/c" (listingFiles "new.test" "10.0.0.2, 10.0.0.300")
      ⟨["new.test"], ["10.0.0.2", "10.0.0.300"]⟩ := saidAt_listing (by decide +kernel)
  have usable : WhitelistFile.Usable "/c" (listingFiles "old.test" "10.0.0.1") := by
    refine ⟨_, good, ?_⟩
    rw [WhitelistFile.Valid]
    decide +kernel
  have spoiled :
      ¬ WhitelistFile.Usable "/c" (listingFiles "new.test" "10.0.0.2, 10.0.0.300") := by
    intro ⟨file, said, valid⟩
    obtain rfl := said.unique bad
    exact absurd (valid "10.0.0.300" (by decide)) (by decide +kernel)
  have missing : ¬ WhitelistFile.Usable "/c" {} := by
    intro ⟨file, ⟨content, read, _⟩, _⟩
    cases Collect.missing_text.symm.trans read
  obtain ⟨file, w, inForce, applied, -, gate, -⟩ := lists_in_force "/c"
    [listingFiles "old.test" "10.0.0.1", listingFiles "new.test" "10.0.0.2, 10.0.0.300", {}]
  obtain rfl := (inForce _).mp (.last ⟨[], _, rfl, usable, by simp [spoiled, missing]⟩ good)
  have answers : (({} : Whitelist).apply ⟨["old.test"], ["10.0.0.1"]⟩).toOption.map (fun w =>
      (w.contains "Old.test.", w.contains "10.0.0.1", w.contains "new.test",
        w.contains "10.0.0.2")) = some (true, true, false, false) := by decide +kernel
  rw [applied] at answers
  simp only [Except.toOption, Option.map_some, Option.some.injEq, Prod.mk.injEq] at answers
  exact ⟨w, gate "mail", answers⟩

end LiveRules.Intel
