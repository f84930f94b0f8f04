import LiveRules.Watch.Debouncer
import Mathlib.Data.List.Basic

/-!
# What a debouncer waits for

A debouncer is seen through the time of the last change of each path. Recording a
change sets that time for one path, taking forgets the paths that have settled, and
the next deadline is the earliest of those that are waited for.
-/
namespace LiveRules.Watch.Debouncer
open Files (samePath components)

theorem samePath_iff {a b : String} : samePath a b = true ↔ components a = components b := by
  simp [samePath]

theorem hasPath_iff {path : String} {p : String × Nat} :
    hasPath path p = true ↔ components p.1 = components path := samePath_iff

/-- The time of the last change of a path that is waited for. -/
def changed? (d : Debouncer) (path : String) : Option Nat :=
  (d.pending.find? (hasPath path)).map (·.2)

/-- No path is waited for twice. -/
def Apart (d : Debouncer) : Prop :=
  d.pending.Pairwise fun a b => components a.1 ≠ components b.1

variable {d : Debouncer} {path other : String} {now t : Nat}

theorem changed?_of_mem (apart : d.Apart) {p : String × Nat} (member : p ∈ d.pending)
    (same : components p.1 = components path) : d.changed? path = some p.2 := by
  unfold Apart at apart
  unfold changed?
  generalize d.pending = pending at apart member ⊢
  induction pending with
  | nil => cases member
  | cons first rest ih =>
      obtain ⟨away, others⟩ := List.pairwise_cons.mp apart
      rcases List.mem_cons.mp member with rfl | later
      · have here := hasPath_iff.mpr same
        simp [here]
      · have miss : hasPath path first = false := by
          have different := away p later
          rw [Bool.eq_false_iff, ne_eq, hasPath_iff, ← same]
          exact different
        rw [List.find?_cons, miss]
        exact ih others later

theorem mem_of_changed? (changed : d.changed? path = some t) :
    ∃ q, (q, t) ∈ d.pending ∧ components q = components path := by
  obtain ⟨p, found, rfl⟩ := Option.map_eq_some_iff.mp changed
  have has := List.find?_some found
  exact ⟨p.1, List.mem_of_find?_eq_some found, hasPath_iff.mp has⟩

@[simp] theorem window_record (d : Debouncer) (path : String) (now : Nat) :
    (d.record path now).window = d.window := by
  unfold record
  split <;> rfl

/-- The entry of a known path stays where it is, with a new time. -/
theorem pending_record_known (known : d.pending.any (hasPath path) = true) :
    (d.record path now).pending =
      d.pending.map fun p => (p.1, if hasPath path p then now else p.2) := by
  rw [record, if_pos known]
  refine List.map_congr_left fun p _ => ?_
  split <;> rfl

theorem pending_record_new (new : ∀ p ∈ d.pending, components p.1 ≠ components path) :
    (d.record path now).pending = d.pending ++ [(path, now)] := by
  have unknown : ¬ d.pending.any (hasPath path) = true := by
    simpa [hasPath_iff] using new
  rw [record, if_neg unknown]

theorem known_or_new (d : Debouncer) (path : String) :
    d.pending.any (hasPath path) = true ∨
      ∀ p ∈ d.pending, components p.1 ≠ components path := by
  by_cases known : d.pending.any (hasPath path) = true
  · exact .inl known
  · exact .inr (by simpa [hasPath_iff] using known)

theorem changed?_record (d : Debouncer) (path other : String) (now : Nat) :
    (d.record path now).changed? other =
      if components path = components other then some now else d.changed? other := by
  rcases known_or_new d path with known | new
  · have names : (hasPath other) ∘ (fun p : String × Nat =>
        (p.1, if hasPath path p then now else p.2)) = hasPath other := rfl
    rw [changed?, pending_record_known known, List.find?_map, names, Option.map_map]
    cases first : d.pending.find? (hasPath other) with
    | none =>
        have none : ∀ p ∈ d.pending, components p.1 ≠ components other := by
          simpa [hasPath_iff] using first
        obtain ⟨p, member, has⟩ := List.any_eq_true.mp known
        have different : components path ≠ components other := by
          rw [← hasPath_iff.mp has]
          exact none p member
        simp [different, changed?, first]
    | some x =>
        have there := hasPath_iff.mp (List.find?_some first)
        by_cases same : components path = components other
        · have hit : hasPath path x = true := hasPath_iff.mpr (there.trans same.symm)
          simp [same, hit]
        · have miss : ¬ hasPath path x = true := fun hit =>
            same ((hasPath_iff.mp hit).symm.trans there)
          simp [same, miss, changed?, first]
  · rw [changed?, pending_record_new new, List.find?_append, List.find?_singleton]
    by_cases same : components path = components other
    · have here : hasPath other (path, now) = true := hasPath_iff.mpr same
      have none : d.pending.find? (hasPath other) = none := by
        simpa [hasPath_iff, ← same] using new
      simp [same, here, none]
    · have away : ¬ hasPath other (path, now) = true := fun here => same (hasPath_iff.mp here)
      simp [same, away, changed?]

theorem apart_record (apart : d.Apart) (path : String) (now : Nat) :
    (d.record path now).Apart := by
  rcases known_or_new d path with known | new
  · rw [Apart, pending_record_known known, List.pairwise_map]
    exact apart
  · rw [Apart, pending_record_new new, List.pairwise_append]
    refine ⟨apart, List.pairwise_singleton _ _, fun p member q last => ?_⟩
    obtain rfl := List.mem_singleton.mp last
    exact new p member

/-- Only the recorded path can be new. -/
theorem mem_record {p : String × Nat} (member : p ∈ (d.record path now).pending) :
    p.1 = path ∨ ∃ t, (p.1, t) ∈ d.pending := by
  rcases known_or_new d path with known | new
  · rw [pending_record_known known] at member
    obtain ⟨old, listed, rfl⟩ := List.mem_map.mp member
    exact .inr ⟨old.2, listed⟩
  · rw [pending_record_new new] at member
    rcases List.mem_append.mp member with old | last
    · exact .inr ⟨p.2, old⟩
    · exact .inl (congrArg Prod.fst (List.mem_singleton.mp last))

theorem pending_record_ne_nil (d : Debouncer) (path : String) (now : Nat) :
    (d.record path now).pending ≠ [] := by
  rcases known_or_new d path with known | new
  · obtain ⟨p, member, -⟩ := List.any_eq_true.mp known
    rw [pending_record_known known, ne_eq, List.map_eq_nil_iff]
    exact List.ne_nil_of_mem member
  · rw [pending_record_new new]
    exact List.append_ne_nil_of_right_ne_nil _ (List.cons_ne_nil _ _)

/-- Records several changes at once. -/
def recordAll (d : Debouncer) (paths : List String) (now : Nat) : Debouncer :=
  paths.foldl (fun d p => d.record p now) d

@[simp] theorem window_recordAll (d : Debouncer) (paths : List String) (now : Nat) :
    (d.recordAll paths now).window = d.window := by
  induction paths generalizing d with
  | nil => rfl
  | cons p paths ih => exact (ih (d.record p now)).trans (window_record d p now)

theorem changed?_recordAll_hit {paths : List String}
    (hit : ∃ p ∈ paths, components p = components other) (d : Debouncer) (now : Nat) :
    (d.recordAll paths now).changed? other = some now := by
  -- Whatever is recorded after the hit keeps the time, which is the same for all.
  have keeps (d : Debouncer) (paths : List String) (set : d.changed? other = some now) :
      (d.recordAll paths now).changed? other = some now := by
    induction paths generalizing d with
    | nil => exact set
    | cons p paths ih =>
        refine ih (d.record p now) ?_
        rw [changed?_record, set, ite_self]
  induction paths generalizing d with
  | nil => obtain ⟨p, none, -⟩ := hit; cases none
  | cons p paths ih =>
      by_cases same : components p = components other
      · refine keeps (d.record p now) paths ?_
        rw [changed?_record, if_pos same]
      · obtain ⟨q, member, has⟩ := hit
        rcases List.mem_cons.mp member with rfl | later
        · exact absurd has same
        · exact ih ⟨q, later, has⟩ (d.record p now)

theorem changed?_recordAll_miss {paths : List String}
    (miss : ∀ p ∈ paths, components p ≠ components other) (d : Debouncer) (now : Nat) :
    (d.recordAll paths now).changed? other = d.changed? other := by
  induction paths generalizing d with
  | nil => rfl
  | cons p paths ih =>
      have first := miss p List.mem_cons_self
      have rest := ih (fun q member => miss q (List.mem_cons_of_mem _ member)) (d.record p now)
      rw [changed?_record, if_neg first] at rest
      exact rest

theorem apart_recordAll (apart : d.Apart) (paths : List String) (now : Nat) :
    (d.recordAll paths now).Apart := by
  induction paths generalizing d with
  | nil => exact apart
  | cons p paths ih => exact ih (apart_record apart p now)

theorem mem_recordAll {paths : List String} {p : String × Nat}
    (member : p ∈ (d.recordAll paths now).pending) :
    p.1 ∈ paths ∨ ∃ t, (p.1, t) ∈ d.pending := by
  induction paths generalizing d with
  | nil => exact .inr ⟨p.2, member⟩
  | cons path paths ih =>
      rcases ih (d := d.record path now) member with listed | ⟨t, before⟩
      · exact .inl (List.mem_cons_of_mem _ listed)
      · rcases mem_record before with same | old
        · have same : p.1 = path := same
          exact .inl (same ▸ List.mem_cons_self)
        · exact .inr old

/-- Nothing that is waited for is forgotten. -/
theorem pending_recordAll_ne_nil {paths : List String} (some : d.pending ≠ [] ∨ paths ≠ []) :
    (d.recordAll paths now).pending ≠ [] := by
  induction paths generalizing d with
  | nil => exact some.resolve_right fun none => none rfl
  | cons p paths ih => exact ih (.inl (pending_record_ne_nil d p now))

@[simp] theorem window_take (d : Debouncer) (now : Nat) : (d.take now).2.window = d.window := rfl

/-- What is still waited for after taking. -/
theorem pending_take (d : Debouncer) (now : Nat) :
    (d.take now).2.pending = d.pending.filter fun p => !d.settled now p.2 := by
  simp only [take, List.partition_eq_filter_filter]
  rfl

theorem mem_pending_take {p : String × Nat} :
    p ∈ (d.take now).2.pending ↔ p ∈ d.pending ∧ now < p.2 + d.window := by
  simp [pending_take, settled]

/-- The settled paths, in some order. -/
theorem perm_take (d : Debouncer) (now : Nat) :
    (d.take now).1.Perm ((d.pending.filter fun p => d.settled now p.2).map (·.1)) := by
  simp only [take, List.partition_eq_filter_filter]
  exact List.mergeSort_perm _ _

theorem mem_take : path ∈ (d.take now).1 ↔ ∃ t, (path, t) ∈ d.pending ∧ t + d.window ≤ now := by
  rw [(perm_take d now).mem_iff]
  simp [settled]

/-- Either a path is given up, or all are still waited for. -/
theorem take_or_pending (some : d.pending ≠ []) (now : Nat) :
    (d.take now).1 ≠ [] ∨ (d.take now).2.pending ≠ [] := by
  obtain ⟨p, pending⟩ := List.exists_mem_of_ne_nil _ some
  by_cases due : p.2 + d.window ≤ now
  · exact .inl (List.ne_nil_of_mem (mem_take.mpr ⟨p.2, pending, due⟩))
  · exact .inr (List.ne_nil_of_mem (mem_pending_take.mpr ⟨pending, by omega⟩))

theorem take_nil (none : d.pending = []) (now : Nat) : d.take now = ([], d) := by
  obtain ⟨window, pending⟩ := d
  obtain rfl : pending = [] := none
  simp [take]

theorem apart_take (apart : d.Apart) (now : Nat) : (d.take now).2.Apart := by
  rw [Apart, pending_take]
  exact apart.filter _

theorem pairwise_take (apart : d.Apart) (now : Nat) :
    (d.take now).1.Pairwise fun a b => components a ≠ components b := by
  rw [(perm_take d now).pairwise_iff Ne.symm]
  exact List.pairwise_map.mpr (apart.filter _)

theorem deadline?_eq_none : d.deadline? = none ↔ d.pending = [] := by
  simp [deadline?]

theorem deadline?_eq_some {deadline : Nat} (next : d.deadline? = some deadline) :
    (∃ p ∈ d.pending, deadline = p.2 + d.window) ∧
      ∀ p ∈ d.pending, deadline ≤ p.2 + d.window := by
  obtain ⟨first, least, rfl⟩ := Option.map_eq_some_iff.mp next
  obtain ⟨member, below⟩ := List.min?_eq_some_iff.mp least
  constructor
  · obtain ⟨p, pending, rfl⟩ := List.mem_map.mp member
    exact ⟨p, pending, rfl⟩
  · intro p pending
    have le := below p.2 (List.mem_map_of_mem pending)
    omega

/-- At its deadline a debouncer has something to give up. -/
theorem take_ne_nil {deadline : Nat} (next : d.deadline? = some deadline) :
    (d.take deadline).1 ≠ [] := by
  obtain ⟨⟨p, pending, due⟩, -⟩ := deadline?_eq_some next
  have ready : p.1 ∈ (d.take deadline).1 := mem_take.mpr ⟨p.2, pending, by omega⟩
  exact List.ne_nil_of_mem ready

end LiveRules.Watch.Debouncer
