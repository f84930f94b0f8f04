import LiveRules.Proofs.Files.Spelling
import LiveRules.Proofs.Watch.Upkeep

/-!
# What a watcher hears

The directories of a set of paths are those that hold the paths, each one once. As soon
as a set is there its watcher listens to all of them, and keeps the names under which it
does. So as long as a directory is where it was, whatever is made, written or renamed
there in the place of a watched file is told under a path that the watcher knows.
-/
namespace LiveRules
variable {D : Dialect}

namespace Watch
open Files (samePath components parentPath?)

namespace PathSet

theorem mem_insertSorted {dir d : String} {ds : List String} (member : d ∈ ds) :
    d ∈ insertSorted dir ds := by
  induction ds with
  | nil => cases member
  | cons first rest ih =>
      unfold insertSorted
      split
      · exact member
      · split
        · exact List.mem_cons_of_mem _ member
        · rcases List.mem_cons.mp member with rfl | later
          · exact List.mem_cons_self
          · exact List.mem_cons_of_mem _ (ih later)

/-- The directory is there, perhaps in another spelling. -/
theorem insertSorted_covers (dir : String) (ds : List String) :
    ∃ d ∈ insertSorted dir ds, samePath d dir = true := by
  induction ds with
  | nil => exact ⟨dir, List.mem_singleton_self dir, by simp [samePath]⟩
  | cons first rest ih =>
      unfold insertSorted
      split
      · rename_i same
        exact ⟨first, List.mem_cons_self, same⟩
      · split
        · exact ⟨dir, List.mem_cons_self, by simp [samePath]⟩
        · obtain ⟨d, member, same⟩ := ih
          exact ⟨d, List.mem_cons_of_mem _ member, same⟩

theorem dirs_cover {s : PathSet} {path dir : String} (listed : path ∈ s.paths)
    (parent : parentPath? path = some dir) : ∃ d ∈ s.dirs, samePath d dir = true := by
  -- What is in the list that is built up stays there.
  have keeps (new : List String) {d : String} {ds : List String} (member : d ∈ ds) :
      d ∈ new.foldl (fun ds d => insertSorted d ds) ds := by
    induction new generalizing ds with
    | nil => exact member
    | cons n new ih => exact ih (mem_insertSorted member)
  have covers (new : List String) (ds : List String) (member : dir ∈ new) :
      ∃ d ∈ new.foldl (fun ds d => insertSorted d ds) ds, samePath d dir = true := by
    induction new generalizing ds with
    | nil => cases member
    | cons n new ih =>
        rcases List.mem_cons.mp member with rfl | later
        · obtain ⟨d, there, same⟩ := insertSorted_covers dir ds
          exact ⟨d, keeps new there, same⟩
        · exact ih _ later
  exact covers _ [] (List.mem_filterMap.mpr ⟨path, listed, parent⟩)

end PathSet

/-- The change counts as one of the file at the place. -/
def Concerns (includeRename : Bool) (loc : Files.Location) : Files.Change → Prop
  | .created other | .modified other => other = loc
  | .moved source target => includeRename = true ∧ (source = loc ∨ target = loc)
  | .attributes _ | .removed _ => False

namespace Watcher
variable {w : Watcher}

theorem not_noticed_nil (w : Watcher) : ¬ w.Noticed [] := by
  rintro ⟨n, told, -⟩
  cases told

/-- A change is noticed if it touches what is watched. -/
theorem noticed_cons {change : Files.Change} {changes : List Files.Change} :
    w.Noticed (change :: changes) ↔
      (∃ q ∈ w.touched change, w.paths.contains q = true) ∨ (w.follow change).Noticed changes := by
  have first : (∃ n ∈ w.tellings change, w.hits n ≠ []) ↔
      ∃ q ∈ w.touched change, w.paths.contains q = true := by
    have hit : w.hits (.event (w.tells change)) ≠ [] ↔
        ∃ q ∈ w.touched change, w.paths.contains q = true := by
      rw [hits_tells, ne_eq, List.filter_eq_nil_iff]
      simp
    rw [← hit]
    unfold tellings
    split
    · rename_i none
      simp [hits, List.isEmpty_iff.mp none]
    · simp
  rw [← first]
  unfold Noticed
  simp only [hear, List.mem_append, or_and_right, exists_or]
  rfl

/-- The directory is listened to, perhaps under another spelling. -/
def Hears (w : Watcher) (dir : String) : Prop := ∃ name ∈ w.names, samePath name dir = true

theorem touched_of_concerns {loc : Files.Location} {change : Files.Change} {path : String}
    (concerns : Concerns w.includeRename loc change) (reported : path ∈ w.reportsOf loc) :
    path ∈ w.touched change := by
  cases change with
  | created other | modified other =>
      obtain rfl : other = loc := concerns
      exact reported
  | moved source target =>
      obtain ⟨counts, place⟩ := concerns
      rw [touched, if_pos counts]
      rcases place with rfl | rfl
      · exact List.mem_append_left _ reported
      · exact List.mem_append_right _ reported
  | attributes | removed => exact absurd concerns id

/-- A directory that leads where its name says tells of its files under paths that are
known. -/
theorem reports_path {loc : Files.Location} (plain : loc.Plain) (some : loc ≠ []) {l : Listening}
    (listening : l ∈ w.listening) (place : l.place = .some loc.dropLast)
    (named : samePath l.name (Files.Location.text loc.dropLast) = true) :
    ∃ path ∈ w.reportsOf loc, components path = components loc.text := by
  have plain' : Files.Location.Plain loc.dropLast := fun n member =>
    plain n (List.dropLast_subset loc member)
  have dir : components l.name = .root :: loc.dropLast.map .name :=
    (Debouncer.samePath_iff.mp named).trans (Files.components_text plain')
  have last := List.getLast?_eq_some_getLast some
  have entry := Files.components_entry (Files.isAbsolute_of_root dir)
    (plain _ (List.getLast_mem some))
  refine ⟨_, ?_, entry.trans ?_⟩
  · unfold reportsOf
    rw [last]
    exact List.mem_map.mpr ⟨l, List.mem_filter.mpr ⟨listening, by simp [place]⟩, rfl⟩
  · have names : loc.dropLast.map Files.Component.name ++ [.name (loc.getLast some)] =
        loc.map .name := by
      rw [← List.map_singleton, ← List.map_append, List.dropLast_append_getLast]
    rw [dir, Files.components_text plain, List.cons_append, names]

/-- A file that is written in its place is noticed while its directory is in its own. -/
theorem noticed_in_place {loc : Files.Location} (plain : loc.Plain) (some : loc ≠ [])
    (watched : loc.text ∈ w.paths.paths) {l : Listening} (listening : l ∈ w.listening)
    (place : l.place = .some loc.dropLast)
    (named : samePath l.name (Files.Location.text loc.dropLast) = true)
    {change : Files.Change} (concerns : Concerns w.includeRename loc change)
    (later : List Files.Change) : w.Noticed (change :: later) := by
  obtain ⟨path, reported, same⟩ := reports_path plain some listening place named
  refine noticed_cons.mpr (.inl ⟨path, touched_of_concerns concerns reported, ?_⟩)
  rw [PathSet.contains_congr same, PathSet.contains, List.any_eq_true]
  exact ⟨loc.text, watched, by simp [samePath]⟩

end Watcher
end Watch

/-- The directories that are still to be listened to, once they are known. -/
def Stage.remaining? : Stage → Option (List String)
  | .listening rest => some rest
  | .watching => some []
  | .rebuilding | .placing _ | .failed => none

namespace Upkeep
open Watch (Watcher PathSet)
open Files (samePath parentPath?)
variable {R : Recipe D} {c : Composite} {u u' : Upkeep R}

/-- The directory of each path is listened to, or it will be. -/
def Hearing (u : Upkeep R) : Prop :=
  ∀ rest, u.stage.remaining? = some rest → ∀ path ∈ u.watcher.paths.paths, ∀ dir,
    parentPath? path = some dir →
      u.watcher.Hears dir ∨ ∃ d ∈ rest, samePath d dir = true

theorem Hearing.construct (hearing : u.Hearing) : (u.construct c).Hearing := by
  unfold Upkeep.construct
  split
  · split
    · exact nofun
    · exact nofun
    · exact hearing
  · split <;> exact nofun
  · split
    · exact nofun
    · rintro rest known path listed dir parent
      obtain rfl := Option.some.inj known
      exact .inr (PathSet.dirs_cover listed parent)
  · rename_i next rest stage
    split
    · rintro rest' known path listed dir parent
      obtain rfl := Option.some.inj known
      rcases hearing (next :: rest) (by rw [stage]; rfl) path listed dir parent with
        ⟨name, member, same⟩ | ⟨d, member, same⟩
      · refine .inl ⟨name, ?_, same⟩
        rw [Watcher.names, List.map_append]
        exact List.mem_append_left _ member
      · rcases List.mem_cons.mp member with rfl | later
        · refine .inl ⟨d, ?_, same⟩
          simp [Watcher.names]
        · exact .inr ⟨d, later, same⟩
    · exact nofun
  · rename_i stage
    rintro rest known path listed dir parent
    obtain rfl := Option.some.inj known
    exact hearing [] (by rw [stage]; rfl) path listed dir parent
  · exact hearing
  · exact hearing

theorem Hearing.move (hearing : u.Hearing) (m : Move) : (u.move c m).Hearing := by
  by_cases other : m = .construct
  · rw [other]
    exact hearing.construct
  · obtain ⟨stage, paths, -, names⟩ := (does_move c u m).frame other
    rw [Hearing, stage, paths]
    unfold Watcher.Hears
    rw [names]
    exact hearing

theorem Hearing.play (hearing : u.Hearing) (moves : List Move) : (u.play c moves).Hearing := by
  induction moves generalizing u with
  | nil => exact hearing
  | cons m moves ih => exact ih (hearing.move m)

theorem includeRename_construct (c : Composite) (u : Upkeep R) :
    (u.construct c).watcher.includeRename = u.watcher.includeRename := by
  unfold construct
  repeat' split
  all_goals rfl

theorem includeRename_play (c : Composite) (u : Upkeep R) (moves : List Move) :
    (u.play c moves).watcher.includeRename = u.watcher.includeRename := by
  induction moves generalizing u with
  | nil => rfl
  | cons m moves ih =>
      refine (ih (u.move c m)).trans ?_
      by_cases other : m = .construct
      · rw [other]
        exact includeRename_construct c u
      · exact ((does_move c u m).frame other).2.2.1

/-- As soon as a set is there it listens to the directory of each of its files. -/
theorem Hearing.heard (hearing : u.Hearing) (watching : u.stage = .watching)
    {loc : Files.Location} (plain : loc.Plain) (some : loc ≠ [])
    (watched : loc.text ∈ u.watcher.paths.paths) :
    ∃ l ∈ u.watcher.listening,
      samePath l.name (Files.Location.text loc.dropLast) = true := by
  have parent := Files.parentPath?_text plain some
  rcases hearing [] (by rw [watching]; rfl) loc.text watched _ parent with
    ⟨name, member, same⟩ | ⟨d, member, -⟩
  · obtain ⟨l, listening, rfl⟩ := List.mem_map.mp member
    exact ⟨l, listening, same⟩
  · cases member

end Upkeep
end LiveRules
