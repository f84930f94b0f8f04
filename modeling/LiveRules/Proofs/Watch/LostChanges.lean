import LiveRules.Pattern.Parser
import LiveRules.Proofs.Files.Walk
import LiveRules.Proofs.Watch.Following
import LiveRules.Proofs.Watch.Hearing

/-!
# Changes that are lost

Whoever changes a file of a set that follows its files can rely on the change only if the
set notices it. It notices nothing before it listens to the directory, though it may have
read the file long before, and later it goes by the places that the files had when it was
constructed: a link that is replaced by another file is read but not noticed.
-/
namespace LiveRules
variable {D : Dialect}

namespace Watch.Watcher

theorem pending_start {files : Files.Tree} {request : Request} {w : Watcher}
    (started : (start files request).2 = .ok w) : w.debouncer.pending = [] := by
  unfold start at started
  split at started
  · cases started
  · split at started
    · cases started
    · split at started
      · cases started
      · obtain rfl := Except.ok.inj started
        rfl

end Watch.Watcher

namespace Upkeep
open Watch (Watcher)
variable {R : Recipe D} {c : Composite} {u : Upkeep R}

theorem play_advances (c : Composite) (u : Upkeep R) (n i : Nat) :
    u.play c (List.replicate n (.advance i)) =
      { u with site := u.site.play c (List.replicate n (.advance i)) } := by
  induction n generalizing u with
  | zero => rfl
  | succ n ih =>
      rw [List.replicate_succ, List.replicate_succ]
      exact ih _

/-- The first rebuild, if nothing disturbs it. -/
theorem rebuilds_first (R : Recipe D) {files : Files.Tree}
    {tags : String → Except ProviderError Nat} {table : D.Table} {references : List Nat}
    (compiled : D.compile c.source files = .ok table)
    (resolved : Family.resolve tags c.sets = .ok references) :
    ∃ n summary,
      let s := (Site.initial R files tags).play c (.call false :: List.replicate n (.advance 0))
      s.attempts = [⟨false, 0, .finished (.ok summary)⟩] ∧
        s.members = Family.members table references := by
  let f : Family D := ⟨[c], ⟨[[]]⟩⟩
  have composite : f.composites[0]? = some c := rfl
  obtain ⟨n, -, built⟩ :=
    rebuild_eq_play composite (s := Site.initial R files tags) rfl false
  have accepted : Family.compile (D := D) c files false = .ok table := by
    rw [Family.compile, compiled]
    rfl
  have rebuilt : ∃ summary event, f.rebuild 0 files (fun _ => tags) false =
      .ok (summary, event, f.publish 0 ⟨table, references⟩) := by
    simp only [Family.rebuild, f, List.getElem?_cons_zero, accepted, resolved]
    exact ⟨_, _, rfl⟩
  obtain ⟨summary, event, rebuilt⟩ := rebuilt
  have built := rebuilt ▸ built
  obtain ⟨published, attempts⟩ := built
  exact ⟨n, summary, attempts, (congrArg (fun f => f.groups.snapshot 0) published).symm⟩

/-- After the first rebuild the watcher comes about, and the files may change before. -/
theorem starts_watching (changes : List Files.Change) {files : Files.Tree} {debounce : Nat}
    {includeRename : Bool} {watcher : Watcher} {summary : RebuildSummary}
    (building : u.stage = .rebuilding) (new : u.watcher = blank c debounce includeRename)
    (rebuilt : u.site.attempts = [⟨false, 0, .finished (.ok summary)⟩])
    (started : (Watcher.start files (request c debounce includeRename)).2 = .ok watcher) :
    ∃ n, u.play c (.construct :: .edit files changes :: List.replicate n .construct) =
      { u with site := u.site.move c (.edit files), watcher, stage := .watching } := by
  let placing : Upkeep R := { u with stage := .placing c.source.files }
  have placed : u.construct c = placing := by
    simp only [construct, building, rebuilt, placing]
  let edited : Upkeep R := { placing with site := u.site.move c (.edit files) }
  have changed : placing.edit c files changes = edited := by
    have deaf : u.watcher.listening = [] := by rw [new]; rfl
    rw [edit, Watcher.hear_deaf deaf, List.append_nil]
  have constructs := constructs_start (u := edited) (c := c) rfl new
  have now : edited.site.files.now = files := rfl
  rw [now, started] at constructs
  obtain ⟨n, played⟩ := constructs
  refine ⟨n, ?_⟩
  change ((u.construct c).edit c files changes).play c _ = _
  rw [placed, changed, played]

/-- The first rebuild and the watcher come about one after the other, and the files may
change in between. -/
theorem comes_about (R : Recipe D) (tags : String → Except ProviderError Nat)
    {files files' : Files.Tree} {table : D.Table} {references : List Nat}
    {debounce : Nat} {includeRename : Bool} {watcher : Watcher} (changes : List Files.Change)
    (compiled : D.compile c.source files = .ok table)
    (resolved : Family.resolve tags c.sets = .ok references)
    (started : (Watcher.start files' (request c debounce includeRename)).2 = .ok watcher) :
    ∃ before later,
      let u := (initial R c debounce includeRename files tags).play c
        (before ++ .edit files' changes :: later)
      u.stage = .watching ∧ u.watcher = watcher ∧ u.Idle ∧
        (∀ a ∈ u.site.attempts, a.reloading = false) ∧ u.site.files.now = files' ∧
        u.site.members = Family.members table references := by
  obtain ⟨n, summary, attempts, members⟩ := rebuilds_first R compiled resolved
  let new : Upkeep R := initial R c debounce includeRename files tags
  let u : Upkeep R := new.play c (List.replicate n (.advance 0))
  have advanced : u = { new with site := new.site.play c (List.replicate n (.advance 0)) } :=
    play_advances c new n 0
  have rebuilt : u.site.attempts = [⟨false, 0, .finished (.ok summary)⟩] := by
    rw [advanced]
    exact attempts
  obtain ⟨k, ended⟩ := starts_watching (u := u) changes (by rw [advanced]; rfl)
    (by rw [advanced]; rfl) rebuilt started
  refine ⟨List.replicate n (.advance 0) ++ [.construct], List.replicate k .construct, ?_⟩
  dsimp only
  have here : (initial R c debounce includeRename files tags).play c
      (List.replicate n (.advance 0)) = u := rfl
  rw [List.append_assoc, play_append, List.singleton_append, here, ended]
  have own (a : Attempt R) (member : a ∈ u.site.attempts) :
      a = ⟨false, 0, .finished (.ok summary)⟩ := List.mem_singleton.mp (rebuilt ▸ member)
  refine ⟨rfl, rfl, ⟨?_, Watcher.pending_start started, fun a member => ?_⟩, fun a member => ?_,
    rfl, ?_⟩
  · rw [advanced]
    exact nofun
  · exact ⟨_, congrArg Attempt.phase (own a member)⟩
  · exact congrArg Attempt.reloading (own a member)
  · rw [advanced]
    exact members

/-- What becomes of the changes of the files of a new set, from its first rebuild on. -/
structure Account (c : Composite) (new : Upkeep R) : Prop where
  /-- To take at once what is told of changes is to observe them. -/
  observed : ∀ moves now changes, let w := (new.play c moves).watcher
    w.closed = false →
      (w.hear changes).1.foldl (·.handle now) (w.hear changes).2 = changes.foldl (·.observe now) w
  /-- If each change is noticed or is one of texts that nobody has read, then the rules are
  those of the files whenever nothing is left to do, unless a reload has read these files
  and was refused. -/
  follows : ∀ moves, let u := new.play c moves
    new.Attended c moves → u.Idle → u.site.published ≠ [] → u.site.Follows c
  /-- A set that is there has published rules. -/
  published : ∀ moves, let u := new.play c moves
    u.stage = .watching → u.site.published ≠ []
  /-- Nothing is noticed before some directory is listened to. -/
  unheard : ∀ moves changes, let u := new.play c moves
    u.stage.deaf = true → ¬ u.watcher.Noticed changes
  /-- A set that is there listens to the directory of each of its files. While the directory
  is where its name says, whatever is made, written or renamed in the place of the file is
  noticed. -/
  heard : ∀ moves (loc : Files.Location), let u := new.play c moves
    u.stage = .watching → loc.Plain → loc ≠ [] → loc.text ∈ u.watcher.paths.paths →
      ∃ l ∈ u.watcher.listening,
        Files.samePath l.name (Files.Location.text loc.dropLast) = true ∧
          (l.place = some loc.dropLast → ∀ change later,
            Watch.Concerns new.watcher.includeRename loc change →
              u.watcher.Noticed (change :: later))
  /-- A change that is not noticed stays out of the rules, whatever the set does by itself. -/
  missed : ∀ moves files changes later, let u := new.play c moves
    let u' := u.play c (.edit files changes :: later)
    u.Idle → ¬ u.watcher.Noticed changes → (∀ m ∈ later, m.Quiet) →
      u'.Idle ∧ u'.site.files.now = files ∧ u'.site.members = u.site.members
  /-- What changes between the first rebuild and the watcher is lost, whatever it is. -/
  overtaken : ∀ table references files changes watcher,
    D.compile c.source new.site.files.now = .ok table →
    Family.resolve new.site.tags c.sets = .ok references →
    (Watcher.start files
      (request c new.watcher.debouncer.window new.watcher.includeRename)).2 = .ok watcher →
    ∃ before later, let u := new.play c (before ++ .edit files changes :: later)
      u.stage = .watching ∧ u.watcher = watcher ∧ u.Idle ∧ u.site.files.now = files ∧
        u.site.members = Family.members table references

theorem changes_accounted (R : Recipe D) (c : Composite) (debounce : Nat) (includeRename : Bool)
    (files : Files.Tree) (tags : String → Except ProviderError Nat) :
    Account c (initial R c debounce includeRename files tags) := by
  have opened := Orderly.opened (R := R) c debounce includeRename files tags
  constructor
  · intro moves now changes w unclosed
    exact Watcher.handle_heard unclosed now changes
  · intro moves u attended idle published
    have kept : (initial R c debounce includeRename files tags).Kept c :=
      .inl ((Site.Current.opened c files tags).call false)
    exact follows_of_idle (kept.play opened attended) (opened.play moves) idle published
  · intro moves u watching
    exact (opened.play moves).begun (by rw [show u.stage = .watching from watching]; rfl)
  · intro moves changes u deaf
    exact Watcher.not_noticed_deaf ((opened.play moves).deaf deaf).1 changes
  · intro moves loc u watching plain some watched
    have hearing := Hearing.play (c := c)
      (u := initial R c debounce includeRename files tags) nofun moves
    obtain ⟨l, listening, named⟩ := hearing.heard watching plain some watched
    refine ⟨l, listening, named, fun place change later concerns => ?_⟩
    rw [← includeRename_play c _ moves] at concerns
    exact Watcher.noticed_in_place plain some watched listening place named concerns later
  · intro moves files' changes later u u' idle missed quiet
    have orderly := opened.play moves
    obtain ⟨last, kept, published⟩ :=
      (idle.edit missed c files').play (orderly.move (.edit files' changes)) quiet
    refine ⟨last, congrArg Files.History.now kept, ?_⟩
    exact congrArg (fun all => (all.head?.map (·.members)).getD []) published
  · intro table references files' changes watcher compiled resolved started
    obtain ⟨before, later, watching, own, idle, -, now, shown⟩ :=
      comes_about R tags changes compiled resolved started
    exact ⟨before, later, watching, own, idle, now, shown⟩

/-- A set of one file, which is a link. -/
def followed : Composite where
  tag := "w"
  source := { files := ["link.txt"] }

def linked : Files.Tree where
  nodes := [(["real.txt"], .file (.text "a.com\n")), (["link.txt"], .link "real.txt"),
    (["new.txt"], .file (.text "b.com\n"))]

/-- The link is replaced by the new file. -/
def relinked : Files.Tree where
  nodes := [(["real.txt"], .file (.text "a.com\n")), (["link.txt"], .file (.text "b.com\n"))]

def replaced : List Files.Change := [.moved ["new.txt"] ["link.txt"]]

open scoped Pattern

/-- The rules of a file of one line. -/
def ruled (name : String) : DomainMatcher Unit := { default := .domain, domain := [(name, ())] }

/-- A name alone is a step from the root. -/
theorem reach_step {t : Files.Tree} {name : String} (root : t.cwd = [])
    (steps : Files.steps name = [name]) (relative : Files.isAbsolute name = false)
    (plain : ¬ name.isEmpty ∧ ¬ name.toList.contains (Char.ofNat 0)) (follow : Bool) :
    t.reach follow name = t.walk follow Files.Tree.linkLimit [] [name] := by
  rw [Files.Tree.reach, if_neg plain.1, if_neg plain.2, relative, steps, root]
  rfl

theorem linked_found : linked.reach true "link.txt" =
    .found ["real.txt"] (.file (.text "a.com\n")) := by
  have next : Files.steps "real.txt" = ["real.txt"] := by decide +kernel
  have relative : Files.isAbsolute "real.txt" = false := by decide +kernel
  have link : linked.get? ([] ++ ["link.txt"]) = some (.link "real.txt") := by decide +kernel
  have real : linked.get? ([] ++ ["real.txt"]) = some (.file (.text "a.com\n")) := by
    decide +kernel
  rw [reach_step rfl (by decide +kernel) (by decide +kernel) (by decide +kernel),
    Files.Tree.walk_link (by simp) (by simp) link]
  simp only [Files.Tree.linkLimit, relative, next]
  exact Files.Tree.walk_leaf (by simp) (by simp) real (by simp) (by simp)

theorem relinked_found : relinked.reach true "link.txt" =
    .found ["link.txt"] (.file (.text "b.com\n")) := by
  have file : relinked.get? ([] ++ ["link.txt"]) = some (.file (.text "b.com\n")) := by
    decide +kernel
  rw [reach_step rfl (by decide +kernel) (by decide +kernel) (by decide +kernel)]
  exact Files.Tree.walk_leaf (by simp) (by simp) file (by simp) (by simp)

/-- The new file gets the name of the link. -/
theorem linked_rename : linked.rename "new.txt" "link.txt" = .ok (relinked, replaced) := by
  have file : linked.get? ([] ++ ["new.txt"]) = some (.file (.text "b.com\n")) := by
    decide +kernel
  have link : linked.get? ([] ++ ["link.txt"]) = some (.link "real.txt") := by decide +kernel
  have source : linked.reach false "new.txt" = .found ["new.txt"] (.file (.text "b.com\n")) := by
    rw [reach_step rfl (by decide +kernel) (by decide +kernel) (by decide +kernel)]
    exact Files.Tree.walk_leaf (by simp) (by simp) file (by simp) (by simp)
  have target : linked.reach false "link.txt" = .found ["link.txt"] (.link "real.txt") := by
    rw [reach_step rfl (by decide +kernel) (by decide +kernel) (by decide +kernel)]
    exact Files.Tree.walk_link (by simp) (by simp) link
  rw [Files.Tree.rename, source, target]
  decide +kernel

theorem compile_followed {files : Files.Tree} {text : String} {loc : Files.Location}
    (found : files.reach true "link.txt" = .found loc (.file (.text text)))
    {table : DomainMatcher Unit}
    (taken : RuleSource.takeLines Recipe.domains.take Recipe.domains.start 1 (Text.lines text) =
      (table, none)) :
    Dialect.domains.compile followed.source files = .ok table := by
  have read : files.readText "link.txt" = .ok text := by
    rw [Files.Tree.readText, Files.Tree.readContent, found]
  have first : RuleSource.takeFile files Recipe.domains.take Recipe.domains.start "link.txt" =
      (table, none) := by
    rw [RuleSource.takeFile, read]
    exact taken
  rw [Recipe.compile_take Recipe.domains, RuleSource.load]
  simp only [followed, RuleSource.takeExpressions, RuleSource.takeFiles, first]
  rfl

/-- The watcher goes by the file behind the link. -/
def watching : Watcher :=
  { blank followed 10 true with
    paths := ⟨["/real.txt"]⟩
    listening := [⟨"/", some []⟩] }

theorem linked_start : (Watcher.start linked (request followed 10 true)).2 = .ok watching := by
  have place : linked.canonical "link.txt" = .ok ["real.txt"] := by
    rw [Files.Tree.canonical, Files.Tree.resolve, linked_found]
  have dirs : Watch.PathSet.dirs ⟨["/real.txt"]⟩ = ["/"] := by decide +kernel
  have text : Files.Location.text ["real.txt"] = "/real.txt" := by decide +kernel
  have paths : Watch.PathSet.addAll linked {} followed.source.files = .ok ⟨["/real.txt"]⟩ := by
    simp only [followed, Watch.PathSet.addAll, place, text]
    rfl
  have listen : (Watcher.listen linked followed.tag ["/"]).2 = .ok [⟨"/", some []⟩] := by
    simp [Watcher.listen, Files.Tree.resolve_root]
  unfold Watcher.start request
  simp only [paths, dirs]
  rcases heard : Watcher.listen linked followed.tag ["/"] with ⟨events, result⟩
  rw [heard] at listen
  obtain rfl : result = .ok [⟨"/", some []⟩] := listen
  rfl

theorem replaced_missed : ¬ watching.Noticed replaced := by
  have apart : ∀ q ∈ watching.touched (.moved ["new.txt"] ["link.txt"]),
      ¬ watching.paths.contains q = true := by decide +kernel
  rw [replaced, Watcher.noticed_cons]
  rintro (⟨q, touched, watched⟩ | later)
  · exact apart q touched watched
  · exact Watcher.not_noticed_nil _ later

/-- What is written to the file behind the link is noticed. -/
example : watching.Noticed [.modified ["real.txt"]] :=
  Watcher.noticed_cons.mpr (.inl ⟨"/real.txt", by decide +kernel, by decide +kernel⟩)

/-- The set does not follow its file to another one that takes the place of the link. -/
theorem changes_accounted_link : ∃ moves,
    let u := (initial Recipe.domains followed 10 true linked
      (fun _ => .error .registryClosed)).play followed moves
    let u' := u.play followed [.edit relinked replaced]
    u.stage = .watching ∧ u.Idle ∧ u.site.files.now = linked ∧ u.site.Follows followed ∧
      linked.rename "new.txt" "link.txt" = .ok (relinked, replaced) ∧
      u'.Idle ∧ u'.site.files.now = relinked ∧ ¬ u'.site.Follows followed := by
  have compiled : Dialect.domains.compile followed.source linked = .ok (ruled "a.com") :=
    compile_followed linked_found rfl
  have compiled' : Dialect.domains.compile followed.source relinked = .ok (ruled "b.com") :=
    compile_followed relinked_found rfl
  obtain ⟨before, later, stage, own, idle, first, now, shown⟩ :=
    comes_about Recipe.domains (fun _ => .error .registryClosed) [] compiled rfl linked_start
  obtain ⟨idle', now', same⟩ := (changes_accounted Recipe.domains followed 10 true linked
    (fun _ => .error .registryClosed)).missed (before ++ .edit linked [] :: later) relinked
      replaced [] idle (own ▸ replaced_missed) nofun
  refine ⟨before ++ .edit linked [] :: later, stage, idle, now, ?_, linked_rename, idle', now', ?_⟩
  · refine .inl ⟨ruled "a.com", [], ?_, shown⟩
    rw [now]
    exact compiled
  · rintro (⟨table, references, compiles, members⟩ | ⟨a, member, reloading, -⟩)
    · rw [now', compiled'] at compiles
      obtain rfl := Except.ok.inj compiles
      have alike := shown.symm.trans (same.symm.trans members)
      simp [Family.members, DomainMatcher.size, ruled] at alike
    · exact absurd reloading (by simp [first a member])

end Upkeep
end LiveRules
