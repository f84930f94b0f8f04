import LiveRules.Intel.Gate
import LiveRules.Proofs.Files.History
import LiveRules.Proofs.Lists

/-!
# Callbacks that reload a whitelist

Each change of a whitelist file starts a callback of its own, and callbacks do not
wait for each other. A callback reads the file, then swaps the list of addresses,
then the list of names; between these steps the file may change and others may take
theirs. Whatever the order, each list is one that some callback has read.
-/
namespace LiveRules.Intel

/-- How far a callback is, with the version of the files that it read. -/
inductive Callback where
  | waiting
  | read (version : Nat) (file : WhitelistFile)
  /-- The addresses are swapped, the names not yet. -/
  | halfway (version : Nat) (file : WhitelistFile)
  | succeeded (version : Nat) (file : WhitelistFile)
  | failed (cause : Fault)

namespace Callback

def finished : Callback → Bool
  | succeeded _ _ | failed _ => true
  | _ => false

/-- What the callback works on after reading it. -/
def working : Callback → Option (Nat × WhitelistFile)
  | read v file | halfway v file => some (v, file)
  | _ => none

/-- What it has swapped in as addresses. -/
def halfDone : Callback → Option (Nat × WhitelistFile)
  | halfway v file | succeeded v file => some (v, file)
  | _ => none

/-- What it has swapped in as a whole. -/
def done : Callback → Option (Nat × WhitelistFile)
  | succeeded v file => some (v, file)
  | _ => none

theorem done_of_early (c : Callback) (early : c.halfDone = none) : c.done = none := by
  cases c with
  | succeeded => cases early
  | waiting | read | halfway | failed => rfl

theorem halfDone_of_done (c : Callback) {x : Nat × WhitelistFile} (done : c.done = some x) :
    c.halfDone = some x := by
  cases c with
  | succeeded => exact done
  | waiting | read | halfway | failed => cases done

end Callback

/-- A whitelist and the callbacks that reload it. -/
structure Scene where
  files : Files.History
  whitelist : Whitelist := {}
  callbacks : List Callback := []

inductive Move where
  | spawn
  | step (callback : Nat)
  | edit (files : Files.Tree)

namespace Scene

/-- Nothing has been called for yet. -/
def initial (files : Files.Tree) (whitelist : Whitelist) : Scene :=
  { files := { now := files }, whitelist }

def become (s : Scene) (i : Nat) (c : Callback) : Scene :=
  { s with callbacks := s.callbacks.set i c }

def move (path : String) (s : Scene) : Move → Scene
  | .spawn => { s with callbacks := s.callbacks ++ [.waiting] }
  | .edit files => { s with files := s.files.change files }
  | .step i =>
      match s.callbacks[i]? with
      | some .waiting =>
          match WhitelistFile.load s.files.now path with
          | .ok file => s.become i (.read s.files.version file)
          | .error e => s.become i (.failed e)
      | some (.read v file) =>
          match s.whitelist.storeAddresses file.ips with
          | .ok whitelist => { s.become i (.halfway v file) with whitelist }
          | .error e => s.become i (.failed (.rule e))
      | some (.halfway v file) =>
          { s.become i (.succeeded v file) with
            whitelist := s.whitelist.storeNames file.domains }
      | _ => s

def play (path : String) (s : Scene) (moves : List Move) : Scene := moves.foldl (move path) s

theorem play_append (path : String) (s : Scene) (moves moves' : List Move) :
    s.play path (moves ++ moves') = (s.play path moves).play path moves' := List.foldl_append

end Scene

/-- A callback that is not disturbed does what a reload does at once. -/
theorem reload_eq_play {g : Gate} {path : String} (file : g.file = some path)
    (files : Files.Tree) :
    let s := (Scene.initial files g.whitelist).play path [.spawn, .step 0, .step 0, .step 0]
    match g.reload files with
    | .ok g' => g' = { g with whitelist := s.whitelist } ∧ ∃ file, s.callbacks = [.succeeded 0 file]
    | .error e => s.whitelist = g.whitelist ∧ s.callbacks = [.failed e] := by
  simp only [Gate.reload, file, Scene.play, List.foldl, Scene.move,
    Scene.initial, List.nil_append,
    List.getElem?_cons_zero]
  cases loaded : WhitelistFile.load files path with
  | error e => simp [Scene.become]
  | ok file =>
      cases stored : g.whitelist.storeAddresses file.ips with
      | error e => simp [Scene.become, Whitelist.apply, stored, Except.map]
      | ok w => simp [Scene.become, Whitelist.apply, stored, Except.map, Files.History.version]

/-- The addresses of a list are taken if all of them are valid, wherever they stand. -/
theorem Whitelist.networks_isOk (ips : List String) : (networks ips).isOk = true ↔
    ∀ ip ∈ ips, (AddressRules.network ip).isOk = true := by
  induction ips with
  | nil => simp [networks, Except.isOk, Except.toBool]
  | cons ip ips ih =>
      rw [networks, List.forall_mem_cons, ← ih]
      cases AddressRules.network ip with
      | error e => simp [Except.isOk, Except.toBool]
      | ok n =>
          cases networks ips <;> simp [Except.isOk, Except.toBool, Except.map]

namespace WhitelistFile

/-- The addresses of a file, if they are valid. -/
def addresses? (file : WhitelistFile) : Option Net.AddressSet :=
  (Whitelist.networks file.ips).toOption.map .ofList

def names (file : WhitelistFile) : List String := Whitelist.normalNames file.domains

theorem addresses?_eq_some {file : WhitelistFile} {set : Net.AddressSet} (w : Whitelist) :
    file.addresses? = some set ↔
      w.storeAddresses file.ips = .ok { w with addresses := set } := by
  unfold addresses? Whitelist.storeAddresses
  cases Whitelist.networks file.ips <;> simp [Except.toOption, Except.map]

end WhitelistFile

/-- The file states just what the whitelist has. -/
def States (path : String) (files : Files.Tree) (w : Whitelist) : Prop :=
  ∃ file, WhitelistFile.load files path = .ok file ∧ ({} : Whitelist).apply file = .ok w

theorem states_iff {path : String} {files : Files.Tree} {w : Whitelist} :
    States path files w ↔ ∃ file, WhitelistFile.load files path = .ok file ∧
      file.addresses? = some w.addresses ∧ w.names = file.names := by
  unfold States Whitelist.apply WhitelistFile.addresses? Whitelist.storeAddresses
  refine exists_congr fun file => and_congr_right fun _ => ?_
  cases Whitelist.networks file.ips with
  | error e => simp [Except.map, Except.toOption]
  | ok nets =>
      obtain ⟨names, addresses⟩ := w
      simp [Except.map, Except.toOption, Whitelist.storeNames, WhitelistFile.names, and_comm,
        eq_comm]

namespace Scene
variable {path : String} {s s' : Scene}

/-- What a step of a callback can do. -/
inductive Takes (path : String) (s : Scene) (i : Nat) : Scene → Prop
  | idle : Takes path s i s
  | fails {c : Callback} {e : Fault} :
      s.callbacks[i]? = some c → c.halfDone = none → Takes path s i (s.become i (.failed e))
  | reads {file : WhitelistFile} :
      s.callbacks[i]? = some .waiting → WhitelistFile.load s.files.now path = .ok file →
      Takes path s i (s.become i (.read s.files.version file))
  | addresses {v : Nat} {file : WhitelistFile} {addresses : Net.AddressSet} :
      s.callbacks[i]? = some (.read v file) → file.addresses? = some addresses →
      Takes path s i { s.become i (.halfway v file) with
        whitelist := { s.whitelist with addresses } }
  | names {v : Nat} {file : WhitelistFile} :
      s.callbacks[i]? = some (.halfway v file) →
      Takes path s i { s.become i (.succeeded v file) with
        whitelist := { s.whitelist with names := file.names } }

theorem takes_step (path : String) (s : Scene) (i : Nat) :
    Takes path s i (s.move path (.step i)) := by
  unfold move
  dsimp only
  split
  · rename_i waiting
    split
    · rename_i file loaded
      exact .reads waiting loaded
    · exact .fails waiting rfl
  · rename_i v file read
    unfold Whitelist.storeAddresses
    cases nets : Whitelist.networks file.ips with
    | ok nets' => exact .addresses read (by simp [WhitelistFile.addresses?, nets, Except.toOption])
    | error e => exact .fails read rfl
  · rename_i v file halfway
    exact .names halfway
  · exact .idle

/-- The value is one that a callback has brought at some stage, or still the first. -/
def Drawn {α : Type} (callbacks : List Callback) (stage : Callback → Option (Nat × WhitelistFile))
    (of : WhitelistFile → Option α) (start value : α) : Prop :=
  (value = start ∧ ∀ c ∈ callbacks, stage c = none) ∨
    ∃ c ∈ callbacks, ∃ v file, stage c = some (v, file) ∧ of file = some value

namespace Drawn
variable {α : Type} {callbacks : List Callback} {stage : Callback → Option (Nat × WhitelistFile)}
  {of : WhitelistFile → Option α} {start value : α}

theorem spawn (drawn : Drawn callbacks stage of start value) (none : stage .waiting = none) :
    Drawn (callbacks ++ [.waiting]) stage of start value := by
  rcases drawn with ⟨first, untouched⟩ | ⟨c, member, rest⟩
  · exact .inl ⟨first, Lists.forall_append untouched none⟩
  · exact .inr ⟨c, List.mem_append_left _ member, rest⟩

/-- A callback that stays at its stage does not matter. -/
theorem keep (drawn : Drawn callbacks stage of start value) {i : Nat} {c c' : Callback}
    (here : callbacks[i]? = some c) (same : stage c' = stage c) :
    Drawn (callbacks.set i c') stage of start value := by
  rcases drawn with ⟨first, untouched⟩ | ⟨d, member, v, file, at_, rest⟩
  · exact .inl ⟨first, Lists.forall_set untouched
      (same.trans (untouched c (List.mem_of_getElem? here)))⟩
  · by_cases own : d = c
    · have inside := (List.getElem?_eq_some_iff.mp here).1
      exact .inr ⟨c', List.mem_set inside c', v, file, (own ▸ same).trans at_, rest⟩
    · exact .inr ⟨d, Lists.mem_set_of_ne here member own c', v, file, at_, rest⟩

theorem swap {i : Nat} {c c' : Callback} (here : callbacks[i]? = some c) {v : Nat}
    {file : WhitelistFile} (now : stage c' = some (v, file)) (brings : of file = some value) :
    Drawn (callbacks.set i c') stage of start value :=
  .inr ⟨c', List.mem_set (List.getElem?_eq_some_iff.mp here).1 c', v, file, now, brings⟩

end Drawn

/-- The file that the callback works with is that of the version it has read. -/
def Reads (path : String) (s : Scene) (c : Callback) : Prop :=
  ∀ {v file}, c.working = some (v, file) ∨ c.done = some (v, file) →
    ∃ files, s.files.at? v = some files ∧ WhitelistFile.load files path = .ok file

/-- Each list is one that a callback has read, or still the first one. -/
structure Sourced (path : String) (start : Whitelist) (s : Scene) : Prop where
  reads : ∀ c ∈ s.callbacks, s.Reads path c
  valid : ∀ c ∈ s.callbacks, ∀ {v file}, c.halfDone = some (v, file) →
    ∃ addresses, file.addresses? = some addresses
  addresses : Drawn s.callbacks Callback.halfDone WhitelistFile.addresses? start.addresses
    s.whitelist.addresses
  names : Drawn s.callbacks Callback.done (fun file => some file.names) start.names
    s.whitelist.names

namespace Sourced
variable {start : Whitelist}

theorem opened (path : String) (files : Files.Tree) (start : Whitelist) :
    Sourced path start (initial files start) where
  reads := nofun
  valid := nofun
  addresses := .inl ⟨rfl, nofun⟩
  names := .inl ⟨rfl, nofun⟩

theorem spawn (sourced : Sourced path start s) : Sourced path start (s.move path .spawn) where
  reads := by
    refine Lists.forall_append sourced.reads ?_
    rintro v file (working | done)
    · cases working
    · cases done
  valid := Lists.forall_append sourced.valid nofun
  addresses := sourced.addresses.spawn rfl
  names := sourced.names.spawn rfl

theorem edit (sourced : Sourced path start s) (files : Files.Tree) :
    Sourced path start (s.move path (.edit files)) := by
  refine ⟨fun c member v file holds => ?_, sourced.valid, sourced.addresses, sourced.names⟩
  obtain ⟨old, before, loaded⟩ := sourced.reads c member holds
  exact ⟨old, Files.History.at?_change before files, loaded⟩

theorem step (sourced : Sourced path start s) {i : Nat} (takes : Takes path s i s') :
    Sourced path start s' := by
  have before {c : Callback} (here : s.callbacks[i]? = some c) : s.Reads path c :=
    sourced.reads c (List.mem_of_getElem? here)
  cases takes with
  | idle => exact sourced
  | @fails c e here early =>
      have undone := c.done_of_early early
      refine ⟨Lists.forall_set sourced.reads ?_, Lists.forall_set sourced.valid nofun,
        sourced.addresses.keep here early.symm, sourced.names.keep here undone.symm⟩
      rintro v file (working | done)
      · cases working
      · cases done
  | @reads file here loaded =>
      refine ⟨Lists.forall_set sourced.reads ?_, Lists.forall_set sourced.valid nofun,
        sourced.addresses.keep here rfl, sourced.names.keep here rfl⟩
      rintro v file' (working | done)
      · cases working
        exact ⟨s.files.now, s.files.at?_version, loaded⟩
      · cases done
  | @addresses v file addresses here valid =>
      refine ⟨Lists.forall_set sourced.reads ?_, Lists.forall_set sourced.valid ?_,
        .swap here rfl valid, sourced.names.keep here rfl⟩
      · rintro v' file' (working | done)
        · exact before here (.inl working)
        · cases done
      · intro v' file' halfDone
        cases halfDone
        exact ⟨addresses, valid⟩
  | @names v file here =>
      refine ⟨Lists.forall_set sourced.reads ?_, Lists.forall_set sourced.valid ?_,
        sourced.addresses.keep here rfl, .swap here rfl rfl⟩
      · rintro v' file' (working | done)
        · cases working
        · exact before here (.inl done)
      · exact sourced.valid _ (List.mem_of_getElem? here)

theorem move (sourced : Sourced path start s) (m : Move) :
    Sourced path start (s.move path m) := by
  cases m with
  | spawn => exact sourced.spawn
  | step i => exact sourced.step (takes_step path s i)
  | edit files => exact sourced.edit files

theorem play (sourced : Sourced path start s) (moves : List Move) :
    Sourced path start (s.play path moves) := by
  induction moves generalizing s with
  | nil => exact sourced
  | cons m moves ih => exact ih (sourced.move m)

end Sourced

end Scene

end LiveRules.Intel
