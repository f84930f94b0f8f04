import LiveRules.Proofs.Watch.Debouncing
import LiveRules.Watch.Watcher

/-!
# Events of a notifier

A notifier tells a watcher of changes by events, or that it has failed. The watcher
takes them one by one and records those of its paths that have changed. What a
watcher does when it observes a change is to take the event of that change at once.
-/
namespace LiveRules.Watch
open Files (samePath components)

/-- What about a file was modified. -/
inductive Modified where
  | any
  | content
  | attributes
  | name
  | other
  deriving DecidableEq, Repr

inductive EventKind where
  | any
  | access
  | create
  | modify (what : Modified)
  | remove
  | other
  deriving DecidableEq, Repr

structure Event where
  kind : EventKind
  paths : List String
  deriving DecidableEq, Repr

/-- What arrives from a notifier. -/
inductive Notice where
  | event (e : Event)
  | failure
  deriving DecidableEq, Repr

/-- Whether a file has changed when this happens to it. -/
def EventKind.counts (includeRename : Bool) : EventKind → Bool
  | .create => true
  | .modify .name => includeRename
  | .modify .attributes => false
  | .modify _ => true
  | .any | .access | .remove | .other => false

/-- The notice is of a change of the path. -/
def Notice.Qualifies (includeRename : Bool) (path : String) : Notice → Prop
  | .event e => e.kind.counts includeRename = true ∧ ∃ q ∈ e.paths, samePath q path = true
  | .failure => False

instance (includeRename : Bool) (path : String) :
    DecidablePred (Notice.Qualifies includeRename path)
  | .event _ => inferInstanceAs (Decidable (_ ∧ _))
  | .failure => inferInstanceAs (Decidable False)

theorem Notice.qualifies_congr {includeRename : Bool} {path other : String} {n : Notice}
    (same : components path = components other) :
    n.Qualifies includeRename path ↔ n.Qualifies includeRename other := by
  cases n with
  | failure => rfl
  | event e => simp only [Qualifies, samePath, same]

theorem PathSet.contains_congr {s : PathSet} {path other : String}
    (same : components path = components other) : s.contains path = s.contains other := by
  have alike : samePath path = samePath other := by
    funext q
    simp only [samePath, same]
  rw [contains, contains, alike]

namespace Watcher
variable {w : Watcher} {n : Notice} {path : String}

/-- The watched paths that a notice says have changed. -/
def hits (w : Watcher) : Notice → List String
  | .event e => if e.kind.counts w.includeRename then e.paths.filter w.paths.contains else []
  | .failure => []

/-- Takes a notice at a time. -/
def handle (w : Watcher) (now : Nat) (n : Notice) : Watcher :=
  { w with debouncer := w.debouncer.recordAll (w.hits n) now }

theorem contains_of_mem_hits {q : String} (hit : q ∈ w.hits n) : w.paths.contains q = true := by
  cases n with
  | failure => cases hit
  | event e =>
      rw [hits] at hit
      split at hit
      · exact (List.mem_filter.mp hit).2
      · cases hit

theorem hit_iff (watched : w.paths.contains path = true) :
    (∃ q ∈ w.hits n, components q = components path) ↔ n.Qualifies w.includeRename path := by
  cases n with
  | failure => simp [hits, Notice.Qualifies]
  | event e =>
      rw [hits, Notice.Qualifies]
      split
      · rename_i counts
        constructor
        · rintro ⟨q, hit, same⟩
          exact ⟨counts, q, (List.mem_filter.mp hit).1, Debouncer.samePath_iff.mpr same⟩
        · rintro ⟨-, q, listed, same⟩
          have same := Debouncer.samePath_iff.mp same
          have known := (PathSet.contains_congr same).trans watched
          exact ⟨q, List.mem_filter.mpr ⟨listed, known⟩, same⟩
      · rename_i ignored
        simp [ignored]

theorem apart_handle (apart : w.debouncer.Apart) (now : Nat) (n : Notice) :
    (w.handle now n).debouncer.Apart := Debouncer.apart_recordAll apart _ now

@[simp] theorem window_handle (w : Watcher) (now : Nat) (n : Notice) :
    (w.handle now n).debouncer.window = w.debouncer.window := Debouncer.window_recordAll _ _ now

theorem changed?_handle_hit (watched : w.paths.contains path = true)
    (changed : n.Qualifies w.includeRename path) (now : Nat) :
    (w.handle now n).debouncer.changed? path = some now :=
  Debouncer.changed?_recordAll_hit ((hit_iff watched).mpr changed) w.debouncer now

theorem changed?_handle_miss (watched : w.paths.contains path = true)
    (same : ¬ n.Qualifies w.includeRename path) (now : Nat) :
    (w.handle now n).debouncer.changed? path = w.debouncer.changed? path :=
  Debouncer.changed?_recordAll_miss
    (fun q hit alike => same ((hit_iff watched).mp ⟨q, hit, alike⟩)) w.debouncer now

/-- Only watched paths are waited for. -/
def OnlyWatched (w : Watcher) : Prop :=
  ∀ p ∈ w.debouncer.pending, w.paths.contains p.1 = true

theorem onlyWatched_handle (only : w.OnlyWatched) (now : Nat) (n : Notice) :
    (w.handle now n).OnlyWatched := by
  intro p pending
  rcases Debouncer.mem_recordAll pending with listed | ⟨t, old⟩
  · exact contains_of_mem_hits listed
  · exact only (p.1, t) old

/-- The event by which a change is told. -/
def tells (w : Watcher) : Files.Change → Event
  | .created loc => ⟨.create, w.reportsOf loc⟩
  | .modified loc => ⟨.modify .content, w.reportsOf loc⟩
  | .attributes loc => ⟨.modify .attributes, w.reportsOf loc⟩
  | .removed loc => ⟨.remove, w.reportsOf loc⟩
  | .moved source target => ⟨.modify .name, w.reportsOf source ++ w.reportsOf target⟩

/-- Follows the directories that a change moves. -/
def follow (w : Watcher) (change : Files.Change) : Watcher :=
  { w with listening := w.listening.map fun l =>
      { l with place := l.place.bind (placeAfter change) } }

theorem hits_tells (w : Watcher) (change : Files.Change) :
    w.hits (.event (w.tells change)) = (w.touched change).filter w.paths.contains := by
  cases change with
  | created | modified | attributes | removed => rfl
  | moved source target =>
      simp only [tells, hits, touched, EventKind.counts]
      cases w.includeRename <;> rfl

theorem observe_eq (opened : w.closed = false) (now : Nat) (change : Files.Change) :
    w.observe now change = (w.handle now (.event (w.tells change))).follow change := by
  unfold observe handle follow
  rw [hits_tells, opened]
  rfl

end Watcher
end LiveRules.Watch
