import LiveRules.Files.Tree

/-!
# Files that change

The files as they are now, with what they were before each change. A version is the
number of changes before it, so what was read in some version can be looked up later.
-/
namespace LiveRules.Files

structure History where
  past : List Tree := []
  now : Tree

namespace History

/-- The present version. -/
def version (h : History) : Nat := h.past.length

def at? (h : History) (version : Nat) : Option Tree := (h.past ++ [h.now])[version]?

def change (h : History) (files : Tree) : History := ⟨h.past ++ [h.now], files⟩

variable {h : History} {m : Nat} {files : Tree}

theorem at?_version (h : History) : h.at? h.version = some h.now := by
  simp [at?, version]

theorem version_change (h : History) (files : Tree) : (h.change files).version = h.version + 1 := by
  simp [version, change]

/-- A change does not touch the versions before it. -/
theorem at?_change (before : h.at? m = some files) (files' : Tree) :
    (h.change files').at? m = some files := by
  have inside := (List.getElem?_eq_some_iff.mp before).1
  unfold at? change
  rw [List.getElem?_append_left inside]
  exact before

theorem exists_at? (known : m ≤ h.version) : ∃ files, h.at? m = some files := by
  have inside : m < (h.past ++ [h.now]).length := by
    rw [List.length_append, List.length_singleton]
    exact Nat.lt_succ_of_le known
  exact ⟨_, List.getElem?_eq_getElem inside⟩

theorem le_version (known : h.at? m = some files) : m ≤ h.version := by
  have inside := (List.getElem?_eq_some_iff.mp known).1
  rw [List.length_append, List.length_singleton] at inside
  exact Nat.le_of_lt_succ inside

/-- What can be looked up after a change is what was there before, or the new files. -/
theorem at?_change_cases {files' : Tree} (after : (h.change files').at? m = some files) :
    h.at? m = some files ∨ files = files' := by
  unfold at? change at after
  rw [List.getElem?_append] at after
  split at after
  · exact .inl after
  · exact .inr (List.mem_singleton.mp (List.mem_of_getElem? after))

/-- A file has had the text that it has now since some version. -/
def Steady (h : History) (path : String) (since : Nat) : Prop :=
  ∀ m files, since ≤ m → h.at? m = some files → h.now.readText path = files.readText path

variable {path : String} {since since' : Nat}

theorem Steady.mono (steady : h.Steady path since) (le : since ≤ since') :
    h.Steady path since' :=
  fun m files after at_ => steady m files (Nat.le_trans le after) at_

theorem steady_version (h : History) (path : String) : h.Steady path h.version := by
  intro m files after at_
  obtain rfl : m = h.version := Nat.le_antisymm (le_version at_) after
  rw [Option.some.inj (at_.symm.trans h.at?_version)]

theorem Steady.change (steady : h.Steady path since) {files' : Tree}
    (same : files'.readText path = h.now.readText path) : (h.change files').Steady path since := by
  intro m files after at_
  rcases at?_change_cases at_ with before | rfl
  · exact same.trans (steady m files after before)
  · rfl

end History
end LiveRules.Files
