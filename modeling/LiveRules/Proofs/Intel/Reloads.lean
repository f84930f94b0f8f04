import LiveRules.Proofs.Collect.Delivery
import LiveRules.Proofs.Intel.Callbacks

/-!
# Reloads of a whitelist that overlap

If every callback reads and swaps without another one in between, the whitelist ends
as the newest version that was read with success. But nothing sees to that. Two
callbacks that have both read before either of them swaps can end with the list of
names of either version, beside the list of addresses of either version.
-/
namespace LiveRules.Intel

namespace Scene
variable {path : String} {s s' : Scene}

/-- All callbacks have come to their end. -/
def Finished (s : Scene) : Prop := ∀ c ∈ s.callbacks, c.finished = true

/-- A callback has read the version and swapped in what it stands for. -/
def Succeeded (s : Scene) (v : Nat) : Prop := ∃ c ∈ s.callbacks, ∃ file, c.done = some (v, file)

def Newest (s : Scene) (v : Nat) : Prop := s.Succeeded v ∧ ∀ v', s.Succeeded v' → v' ≤ v

/-- No callback reads while another one works on what it has read. -/
def Exclusive (s : Scene) (m : Move) : Prop :=
  ∀ i, m = .step i → s.callbacks[i]? = some .waiting → ∀ c ∈ s.callbacks, c.working = none

/-- The moves are exclusive, one after the other. -/
def ExclusivePlay (path : String) : Scene → List Move → Prop
  | _, [] => True
  | s, m :: moves => Exclusive s m ∧ ExclusivePlay path (s.move path m) moves

/-- What holds while callbacks do not overlap. -/
structure Orderly (s : Scene) : Prop where
  alone : ∀ {i j : Nat} {c d : Callback}, s.callbacks[i]? = some c → s.callbacks[j]? = some d →
    c.working ≠ none → d.working ≠ none → i = j
  fresh : ∀ c ∈ s.callbacks, ∀ d ∈ s.callbacks, ∀ {v v' file file'}, c.done = some (v, file) →
    d.working = some (v', file') → v ≤ v'
  known : ∀ c ∈ s.callbacks, ∀ {v file}, c.done = some (v, file) ∨ c.working = some (v, file) →
    v ≤ s.files.version
  halfway : ∀ {v file}, .halfway v file ∈ s.callbacks →
    file.addresses? = some s.whitelist.addresses
  settled : (∀ v file, .halfway v file ∉ s.callbacks) →
    (∀ c ∈ s.callbacks, c.done = none) ∨ ∃ v file, .succeeded v file ∈ s.callbacks ∧ Newest s v ∧
      file.addresses? = some s.whitelist.addresses ∧ s.whitelist.names = file.names

namespace Orderly

theorem opened (files : Files.Tree) (start : Whitelist) :
    Orderly (initial files start) where
  alone := nofun
  fresh := nofun
  known := nofun
  halfway := nofun
  settled _ := .inl nofun

theorem spawn (orderly : Orderly s) : Orderly (s.move path .spawn) := by
  have here {i : Nat} {c : Callback} (there : (s.callbacks ++ [Callback.waiting])[i]? = some c)
      (working : c.working ≠ none) : s.callbacks[i]? = some c := by
    refine (Lists.getElem?_append_cases there).resolve_right ?_
    rintro rfl
    exact working rfl
  have waits {c : Callback} (member : c ∈ s.callbacks ++ [.waiting]) :
      c ∈ s.callbacks ∨ c = .waiting := by simpa using member
  refine ⟨fun ci dj hc hd => orderly.alone (here ci hc) (here dj hd) hc hd, ?_, ?_, ?_, ?_⟩
  · refine Lists.forall_append (fun c hc => ?_) fun d hd v v' file file' done => nomatch done
    exact Lists.forall_append (orderly.fresh c hc) fun _ working => nomatch working
  · refine Lists.forall_append orderly.known ?_
    rintro v file (done | working)
    · cases done
    · cases working
  · exact fun member => orderly.halfway ((waits member).resolve_right nofun)
  · intro none
    rcases orderly.settled fun v file member => none v file (List.mem_append_left _ member) with
      untouched | ⟨v, file, member, newest, rest⟩
    · exact .inl (Lists.forall_append untouched rfl)
    · refine .inr ⟨v, file, List.mem_append_left _ member, ⟨?_, ?_⟩, rest⟩
      · exact ⟨_, List.mem_append_left _ member, file, rfl⟩
      · rintro v' ⟨c, hc, file', done⟩
        rcases waits hc with hc | rfl
        · exact newest.2 v' ⟨c, hc, file', done⟩
        · cases done

theorem edit (orderly : Orderly s) (files : Files.Tree) :
    Orderly (s.move path (.edit files)) := by
  refine ⟨orderly.alone, orderly.fresh, fun c member v file held => ?_, orderly.halfway,
    orderly.settled⟩
  have before := orderly.known c member held
  have later := s.files.version_change files
  change v ≤ (s.files.change files).version
  omega

/-- A callback that is not at its end does not count among those that succeeded. -/
theorem newest_set {v i : Nat} {c c' : Callback} (newest : Newest s v)
    (here : s.callbacks[i]? = some c) (before : c.done = none) (now : c'.done = none) :
    Newest (s.become i c') v := by
  obtain ⟨⟨d, member, file, done⟩, all⟩ := newest
  have other : d ≠ c := by
    rintro rfl
    rw [before] at done
    cases done
  refine ⟨⟨d, Lists.mem_set_of_ne here member other c', file, done⟩, ?_⟩
  rintro v' ⟨e, member', file', done'⟩
  rcases List.mem_or_eq_of_mem_set member' with old | rfl
  · exact all v' ⟨e, old, file', done'⟩
  · rw [now] at done'
    cases done'

/-- A callback that works on what it read gets on, or gives up. -/
theorem become (orderly : Orderly s) {i : Nat} {c c' : Callback} (here : s.callbacks[i]? = some c)
    (whitelist : Whitelist) (before : c.done = none) (now : c'.done = none)
    (alone : ∀ j d, s.callbacks[j]? = some d → d.working ≠ none → c'.working ≠ none → j = i)
    (fresh : ∀ d ∈ s.callbacks, ∀ {v v' file file'}, d.done = some (v, file) →
      c'.working = some (v', file') → v ≤ v')
    (known : ∀ {v file}, c'.working = some (v, file) → v ≤ s.files.version)
    (halfway : ∀ {v file}, .halfway v file ∈ s.callbacks.set i c' →
      file.addresses? = some whitelist.addresses)
    (settled : (∀ v file, .halfway v file ∉ s.callbacks.set i c') →
      (∀ v file, .halfway v file ∉ s.callbacks) ∧ whitelist = s.whitelist) :
    Orderly { s.become i c' with whitelist } := by
  constructor
  · intro j k d e hd he working working'
    rcases Lists.getElem?_set_cases hd with ⟨own, rfl⟩ | ⟨-, old⟩ <;>
      rcases Lists.getElem?_set_cases he with ⟨own', rfl⟩ | ⟨-, old'⟩
    · rw [own, own']
    · rw [own, alone k e old' working' working]
    · rw [own', alone j d old working working']
    · exact orderly.alone old old' working working'
  · refine Lists.forall_set (fun d hd => ?_) fun d hd v v' file file' done => ?_
    · exact Lists.forall_set (orderly.fresh d hd) (fresh d hd)
    · rw [now] at done
      cases done
  · refine Lists.forall_set orderly.known fun held => ?_
    rcases held with done | working
    · rw [now] at done
      cases done
    · exact known working
  · exact halfway
  · intro none
    obtain ⟨before_none, rfl⟩ := settled none
    rcases orderly.settled before_none with untouched | ⟨v, file, member, newest, rest⟩
    · exact .inl (Lists.forall_set untouched now)
    · have other : Callback.succeeded v file ≠ c := by
        rintro rfl
        cases before
      have kept := Lists.mem_set_of_ne here member other c'
      exact .inr ⟨v, file, kept, newest_set newest here before now, rest⟩

theorem only (orderly : Orderly s) {i : Nat} {c d : Callback} (here : s.callbacks[i]? = some c)
    (working : c.working ≠ none) (member : d ∈ s.callbacks) (working' : d.working ≠ none) :
    d = c := by
  obtain ⟨j, there⟩ := List.mem_iff_getElem?.mp member
  obtain rfl := orderly.alone here there working working'
  exact Option.some.inj (there.symm.trans here)

/-- Once a callback has swapped both lists, they are what it has read. -/
theorem succeed (orderly : Orderly s) {i v : Nat} {file : WhitelistFile}
    (here : s.callbacks[i]? = some (.halfway v file)) :
    Orderly { s.become i (.succeeded v file) with
      whitelist := { s.whitelist with names := file.names } } := by
  have member := List.mem_of_getElem? here
  have inside := (List.getElem?_eq_some_iff.mp here).1
  -- The callback was alone at work, so now none is.
  have idle : ∀ d ∈ s.callbacks.set i (.succeeded v file), d.working = none := by
    intro d hd
    by_contra working
    obtain ⟨j, there⟩ := List.mem_iff_getElem?.mp hd
    rcases Lists.getElem?_set_cases there with ⟨-, rfl⟩ | ⟨other, there⟩
    · exact working rfl
    · exact other (orderly.alone there here working nofun)
  constructor
  · intro j k d e hd he working working'
    exact absurd (idle d (List.mem_of_getElem? hd)) working
  · intro c hc d hd v v' file file' done working
    rw [idle d hd] at working
    cases working
  · refine Lists.forall_set orderly.known fun held => ?_
    rcases held with done | working
    · cases done
      exact orderly.known _ member (.inr rfl)
    · cases working
  · intro v' file' halfway
    have working := idle _ halfway
    cases working
  · refine fun _ => .inr ⟨v, file, List.mem_set inside _, ⟨?_, ?_⟩, orderly.halfway member, rfl⟩
    · exact ⟨_, List.mem_set inside _, file, rfl⟩
    · rintro v' ⟨d, hd, file', done⟩
      rcases List.mem_or_eq_of_mem_set hd with old | rfl
      · exact orderly.fresh d old _ member done rfl
      · cases done
        exact Nat.le_refl _

theorem step (orderly : Orderly s) {i : Nat} (exclusive : Exclusive s (.step i))
    (takes : Takes path s i s') : Orderly s' := by
  cases takes with
  | idle => exact orderly
  | @fails c e here early =>
      have before := c.done_of_early early
      have others {v file} (none : .halfway v file ∉ s.callbacks.set i (.failed e)) :
          .halfway v file ∉ s.callbacks := by
        intro member
        refine none (Lists.mem_set_of_ne here member ?_ _)
        rintro rfl
        cases early
      refine orderly.become here s.whitelist before rfl (fun j d _ _ now => absurd rfl now)
        (fun d _ _ _ _ _ _ working => nomatch working) nofun ?_
        fun none => ⟨fun v file => others (none v file), rfl⟩
      intro v file member
      rcases List.mem_or_eq_of_mem_set member with old | new
      · exact orderly.halfway old
      · cases new
  | @reads file here loaded =>
      have idle := exclusive i rfl here
      have none_halfway (v file) : .halfway v file ∉ s.callbacks :=
        fun member => nomatch idle _ member
      refine orderly.become here s.whitelist rfl rfl ?_ ?_ ?_ ?_ fun _ => ⟨none_halfway, rfl⟩
      · exact fun j d there working _ => absurd (idle d (List.mem_of_getElem? there)) working
      · intro d hd v v' file file' done working
        cases working
        exact orderly.known d hd (.inl done)
      · intro v file working
        cases working
        exact Nat.le_refl _
      · intro v file member
        rcases List.mem_or_eq_of_mem_set member with old | new
        · exact absurd old (none_halfway v file)
        · cases new
  | @addresses v file addresses here valid =>
      have member := List.mem_of_getElem? here
      refine orderly.become here _ rfl rfl ?_ ?_ ?_ ?_ ?_
      · exact fun j d there working _ => orderly.alone there here working nofun
      · intro d hd v v' file file' done working
        exact orderly.fresh d hd _ member done working
      · exact fun working => orderly.known _ member (.inr working)
      · intro v' file' present
        rcases List.mem_or_eq_of_mem_set present with old | new
        · cases orderly.only here nofun old nofun
        · cases new
          exact valid
      · intro none
        exact absurd (List.mem_set (List.getElem?_eq_some_iff.mp here).1 _) (none v file)
  | @names v file here => exact orderly.succeed here

theorem play (orderly : Orderly s) {moves : List Move} (exclusive : ExclusivePlay path s moves) :
    Orderly (s.play path moves) := by
  induction moves generalizing s with
  | nil => exact orderly
  | cons m moves ih =>
      refine ih ?_ exclusive.2
      cases m with
      | spawn => exact orderly.spawn
      | step i => exact orderly.step exclusive.1 (takes_step path s i)
      | edit files => exact orderly.edit files

end Orderly

theorem Finished.done_of_halfDone (finished : s.Finished) {c : Callback} (member : c ∈ s.callbacks)
    {v : Nat} {file : WhitelistFile} (halfDone : c.halfDone = some (v, file)) :
    c.done = some (v, file) := by
  have ended := finished c member
  cases c with
  | halfway => cases ended
  | succeeded => exact halfDone
  | waiting | read | failed => cases halfDone

/-- What a callback that succeeded has read, the file said as a whole. -/
theorem Sourced.states {start : Whitelist} (sourced : Sourced path start s) {c : Callback}
    (member : c ∈ s.callbacks) {v : Nat} {file : WhitelistFile} (done : c.done = some (v, file)) :
    ∃ files w, s.files.at? v = some files ∧ States path files w ∧
      file.addresses? = some w.addresses ∧ w.names = file.names := by
  obtain ⟨files, at_, loaded⟩ := sourced.reads c member (.inr done)
  obtain ⟨addresses, valid⟩ := sourced.valid c member (c.halfDone_of_done done)
  exact ⟨files, ⟨file.names, addresses⟩, at_, states_iff.mpr ⟨file, loaded, valid, rfl⟩, valid, rfl⟩

/-- Two callbacks that have read two versions can end with any mixture of them. -/
theorem mixtures {older newer : Files.Tree} {w w' : Whitelist} (stated : States path older w)
    (stated' : States path newer w') (start : Whitelist) {names : List String}
    (hnames : names ∈ [w.names, w'.names]) {addresses : Net.AddressSet}
    (haddresses : addresses ∈ [w.addresses, w'.addresses]) : ∃ moves,
      let s := (initial older start).play path moves
      s.Finished ∧ s.files.now = newer ∧ Newest s 1 ∧ s.files.at? 1 = some newer ∧
        s.whitelist = ⟨names, addresses⟩ := by
  obtain ⟨file, loaded, valid, said⟩ := states_iff.mp stated
  obtain ⟨file', loaded', valid', said'⟩ := states_iff.mp stated'
  have swaps (w₀ : Whitelist) := (WhitelistFile.addresses?_eq_some w₀).mp valid
  have swaps' (w₀ : Whitelist) := (WhitelistFile.addresses?_eq_some w₀).mp valid'
  -- Both callbacks have read before any of them swaps.
  have both : play path (initial older start)
      [.spawn, .step 0, .edit newer, .spawn, .step 1] =
      ⟨⟨[older], newer⟩, start, [.read 0 file, .read 1 file']⟩ := by
    simp [play, move, become, initial, Files.History.change, Files.History.version, loaded, loaded']
  have ends {order : List Move} {whitelist : Whitelist}
      (ended : play path ⟨⟨[older], newer⟩, start, [.read 0 file, .read 1 file']⟩ order =
        ⟨⟨[older], newer⟩, whitelist, [.succeeded 0 file, .succeeded 1 file']⟩) : ∃ moves,
      let s := (initial older start).play path moves
      s.Finished ∧ s.files.now = newer ∧ Newest s 1 ∧ s.files.at? 1 = some newer ∧
        s.whitelist = whitelist := by
    refine ⟨[.spawn, .step 0, .edit newer, .spawn, .step 1] ++ order, ?_⟩
    rw [play_append, both, ended]
    have few : ∀ v, 0 = v ∨ 1 = v → v ≤ 1 := by omega
    simpa [Finished, Callback.finished, Newest, Succeeded, Callback.done, Files.History.at?]
      using few
  have hnames : names = w.names ∨ names = w'.names := by simpa using hnames
  have haddresses : addresses = w.addresses ∨ addresses = w'.addresses := by
    simpa using haddresses
  rcases hnames with rfl | rfl <;> rcases haddresses with rfl | rfl
  · refine @ends [.step 1, .step 1, .step 0, .step 0] _ ?_
    simp [play, move, become, swaps, swaps', said, Whitelist.storeNames, WhitelistFile.names]
  · refine @ends [.step 0, .step 1, .step 1, .step 0] _ ?_
    simp [play, move, become, swaps, swaps', said, Whitelist.storeNames, WhitelistFile.names]
  · refine @ends [.step 1, .step 0, .step 0, .step 1] _ ?_
    simp [play, move, become, swaps, swaps', said', Whitelist.storeNames, WhitelistFile.names]
  · refine @ends [.step 0, .step 0, .step 1, .step 1] _ ?_
    simp [play, move, become, swaps, swaps', said', Whitelist.storeNames, WhitelistFile.names]

end Scene

open Scene in
/-- What callbacks do to a whitelist that do not wait for each other. -/
structure Overlapping (path : String) : Prop where
  /-- A callback without others does what a reload of the gate does at once. -/
  alone : ∀ (g : Gate) (files : Files.Tree), g.file = some path →
    let s := (initial files g.whitelist).play path [.spawn, .step 0, .step 0, .step 0]
    match g.reload files with
    | .ok g' => g' = { g with whitelist := s.whitelist } ∧ ∃ file, s.callbacks = [.succeeded 0 file]
    | .error e => s.whitelist = g.whitelist ∧ s.callbacks = [.failed e]
  /-- Without a success the whitelist is what it was. -/
  untouched : ∀ files start moves, let s := (initial files start).play path moves
    s.Finished → (∀ v, ¬ s.Succeeded v) → s.whitelist = start
  /-- Each list is as a whole that of one version that was read with success. -/
  lists : ∀ files start moves, let s := (initial files start).play path moves
    s.Finished → (∃ v, s.Succeeded v) → ∃ v v' files files' w w', s.Succeeded v ∧ s.Succeeded v' ∧
      s.files.at? v = some files ∧ States path files w ∧ s.files.at? v' = some files' ∧
      States path files' w' ∧ s.whitelist = ⟨w.names, w'.addresses⟩
  /-- If callbacks read and swap without others in between, both lists are of the newest
  version that was read with success. -/
  exclusive : ∀ files start moves, let s := (initial files start).play path moves
    ExclusivePlay path (initial files start) moves → s.Finished → (∃ v, s.Succeeded v) →
    ∃ v files, Newest s v ∧ s.files.at? v = some files ∧ States path files s.whitelist
  /-- If they do not, two of them are enough to end with either list of either version. -/
  mixtures : ∀ start older newer w w', States path older w → States path newer w' →
    ∀ names ∈ [w.names, w'.names], ∀ addresses ∈ [w.addresses, w'.addresses], ∃ moves,
      let s := (initial older start).play path moves
      s.Finished ∧ s.files.now = newer ∧ Newest s 1 ∧ s.files.at? 1 = some newer ∧
        s.whitelist = ⟨names, addresses⟩

open Scene in
theorem overlapping_reloads (path : String) : Overlapping path := by
  constructor
  · intro g files file
    exact reload_eq_play file files
  · intro files start moves s finished none
    have sourced : Sourced path start s := (Sourced.opened path files start).play moves
    have addresses : s.whitelist.addresses = start.addresses := by
      rcases sourced.addresses with ⟨same, -⟩ | ⟨c, member, v, file, halfDone, -⟩
      · exact same
      · exact absurd ⟨c, member, file, finished.done_of_halfDone member halfDone⟩ (none v)
    have names : s.whitelist.names = start.names := by
      rcases sourced.names with ⟨same, -⟩ | ⟨c, member, v, file, done, -⟩
      · exact same
      · exact absurd ⟨c, member, file, done⟩ (none v)
    calc s.whitelist = ⟨s.whitelist.names, s.whitelist.addresses⟩ := rfl
      _ = start := by rw [addresses, names]
  · intro files start moves s finished success
    have sourced : Sourced path start s := (Sourced.opened path files start).play moves
    obtain ⟨v₀, c₀, member₀, file₀, done₀⟩ := success
    obtain ⟨v, c, member, file, done, named⟩ : ∃ v, ∃ c ∈ s.callbacks, ∃ file,
        c.done = some (v, file) ∧ file.names = s.whitelist.names := by
      rcases sourced.names with ⟨-, untouched⟩ | ⟨c, member, v, file, done, named⟩
      · rw [untouched c₀ member₀] at done₀
        cases done₀
      · exact ⟨v, c, member, file, done, Option.some.inj named⟩
    obtain ⟨v', c', member', file', done', addressed⟩ : ∃ v, ∃ c ∈ s.callbacks, ∃ file,
        c.done = some (v, file) ∧ file.addresses? = some s.whitelist.addresses := by
      rcases sourced.addresses with ⟨-, untouched⟩ | ⟨c, member, v, file, halfDone, addressed⟩
      · have none := untouched c₀ member₀
        rw [c₀.halfDone_of_done done₀] at none
        cases none
      · exact ⟨v, c, member, file, finished.done_of_halfDone member halfDone, addressed⟩
    obtain ⟨files, w, at_, stated, -, names⟩ := sourced.states member done
    obtain ⟨files', w', at_', stated', addresses', -⟩ := sourced.states member' done'
    refine ⟨v, v', files, files', w, w', ⟨c, member, file, done⟩, ⟨c', member', file', done'⟩,
      at_, stated, at_', stated', ?_⟩
    have same : s.whitelist.addresses = w'.addresses :=
      Option.some.inj (addressed.symm.trans addresses')
    rw [names, named, ← same]
  · intro files start moves s exclusive finished success
    have sourced : Sourced path start s := (Sourced.opened path files start).play moves
    have orderly : Orderly s := (Orderly.opened files start).play exclusive
    have none (v file) : .halfway v file ∉ s.callbacks := fun member => nomatch finished _ member
    rcases orderly.settled none with untouched | ⟨v, file, member, newest, addresses, names⟩
    · obtain ⟨v, c, member, file, done⟩ := success
      rw [untouched c member] at done
      cases done
    · obtain ⟨files, at_, loaded⟩ := sourced.reads _ member (.inr rfl)
      exact ⟨v, files, newest, at_, states_iff.mpr ⟨file, loaded, addresses, names⟩⟩
  · intro start older newer w w' stated stated' names hnames addresses haddresses
    exact mixtures stated stated' start hnames haddresses

/-- A whitelist file with one name and one address. -/
def listing (name address : String) : String :=
  "domain:\n  allow: [" ++ name ++ "]\nip:\n  allow: [" ++ address ++ "]\n"

def listingFiles (name address : String) : Files.Tree :=
  ⟨[(["c"], .file (.text (listing name address)))], [], []⟩

theorem ok_of_toOption {ε α : Type} {result : Except ε α} {a : α}
    (some : result.toOption = some a) : result = .ok a := by
  cases result with
  | error e => cases some
  | ok b => exact congrArg _ (Option.some.inj some)

theorem readText_listing (name address : String) :
    (listingFiles name address).readText "/c" = .ok (listing name address) := by
  rw [Files.Tree.readText, Files.Tree.readContent, Collect.found_name rfl]

theorem states_listing {name address : String} {w : Whitelist}
    (parsed : (WhitelistFile.parse (listing name address)).toOption.bind (fun file =>
      (({} : Whitelist).apply file).toOption) = some w) :
    States "/c" (listingFiles name address) w := by
  obtain ⟨file, parsed, applied⟩ := Option.bind_eq_some_iff.mp parsed
  refine ⟨file, ?_, ok_of_toOption applied⟩
  simp only [WhitelistFile.load, readText_listing, ok_of_toOption parsed]

/-- Two reloads of such files can end with the newer name and the older address. -/
theorem overlapping_mixed : ∃ moves,
    let s := (Scene.initial (listingFiles "old.test" "10.0.0.1") {}).play "/c" moves
    s.Finished ∧ s.files.now = listingFiles "new.test" "10.0.0.2" ∧ Scene.Newest s 1 ∧
      s.whitelist.hasName "new.test" = true ∧ s.whitelist.contains "10.0.0.2" = false := by
  have older : ((WhitelistFile.parse (listing "old.test" "10.0.0.1")).toOption.bind (fun file =>
      (({} : Whitelist).apply file).toOption)).map (fun w => w.contains "10.0.0.2") =
        some false := by decide +kernel
  have newer : ((WhitelistFile.parse (listing "new.test" "10.0.0.2")).toOption.bind (fun file =>
      (({} : Whitelist).apply file).toOption)).map (fun w => w.hasName "new.test") =
        some true := by decide +kernel
  have address : (Net.Address.parse? "10.0.0.2").isSome = true := by decide +kernel
  obtain ⟨w, parsed, outside⟩ := Option.map_eq_some_iff.mp older
  obtain ⟨w', parsed', named⟩ := Option.map_eq_some_iff.mp newer
  obtain ⟨moves, finished, files, newest, -, whitelist⟩ :=
    (overlapping_reloads "/c").mixtures {} _ _ w w' (states_listing parsed)
      (states_listing parsed') w'.names (by simp) w.addresses (by simp)
  refine ⟨moves, finished, files, newest, ?_⟩
  obtain ⟨a, parses⟩ := Option.isSome_iff_exists.mp address
  rw [whitelist]
  refine ⟨named, ?_⟩
  simpa [Whitelist.contains, parses] using outside

end LiveRules.Intel
