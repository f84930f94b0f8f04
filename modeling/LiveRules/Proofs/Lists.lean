import Mathlib.Data.List.Forall2

/-!
# Lists that change in one place

Small facts about lists of which one element is replaced or to which one is added, about
lists of bindings, and about lists of which every element is judged by those before it.
-/
namespace LiveRules.Lists
variable {α β : Type} {l : List α} {i j : Nat} {a b c : α}

theorem getElem?_set_cases (there : (l.set i a)[j]? = some b) :
    j = i ∧ b = a ∨ j ≠ i ∧ l[j]? = some b := by
  rw [List.getElem?_set] at there
  split at there
  · rename_i same
    split at there
    · exact .inl ⟨same.symm, (Option.some.inj there).symm⟩
    · cases there
  · rename_i other
    exact .inr ⟨Ne.symm other, there⟩

theorem getElem?_concat_cases (there : (l ++ [a])[j]? = some b) :
    l[j]? = some b ∨ j = l.length ∧ b = a := by
  by_cases inside : j < l.length
  · rw [List.getElem?_append_left inside] at there
    exact .inl there
  · have bound := (List.getElem?_eq_some_iff.mp there).1
    rw [List.length_append, List.length_singleton] at bound
    obtain rfl : j = l.length := by omega
    rw [List.getElem?_append_right (Nat.le_refl _), Nat.sub_self] at there
    exact .inr ⟨rfl, (Option.some.inj there).symm⟩

theorem getElem?_append_cases (there : (l ++ [a])[j]? = some b) : l[j]? = some b ∨ b = a :=
  (getElem?_concat_cases there).imp_right And.right

theorem getElem?_append_of_some {l' : List α} (there : l[i]? = some a) :
    (l ++ l')[i]? = some a :=
  (List.getElem?_append_left (List.getElem?_eq_some_iff.mp there).1).trans there

/-- What holds of all elements still does if it holds of the one that is put in. -/
theorem forall_set {P : α → Prop} (all : ∀ b ∈ l, P b) (new : P a) : ∀ b ∈ l.set i a, P b := by
  intro b member
  rcases List.mem_or_eq_of_mem_set member with old | rfl
  · exact all b old
  · exact new

theorem forall_append {P : α → Prop} (all : ∀ b ∈ l, P b) (new : P a) :
    ∀ b ∈ l ++ [a], P b := by
  intro b member
  rcases List.mem_append.mp member with old | last
  · exact all b old
  · rwa [List.mem_singleton.mp last]

/-- Only the element goes that is replaced. -/
theorem mem_set_of_ne (here : l[i]? = some b) (member : c ∈ l) (other : c ≠ b) (a : α) :
    c ∈ l.set i a := by
  obtain ⟨j, there⟩ := List.mem_iff_getElem?.mp member
  have apart : i ≠ j := by
    rintro rfl
    exact other (Option.some.inj (there.symm.trans here))
  refine List.mem_iff_getElem?.mpr ⟨j, ?_⟩
  rw [List.getElem?_set_ne apart, there]

/-- A pair with the element that is added is a new one. -/
theorem mem_zip_append {l : List α} {r : List β} {y : β} {x : α × β}
    (member : x ∈ l.zip (r ++ [y])) : x ∈ l.zip r ∨ x.2 = y := by
  induction l generalizing r with
  | nil => cases member
  | cons a l ih =>
      cases r with
      | nil =>
          rw [List.nil_append, List.zip_cons_cons, List.zip_nil_right] at member
          obtain rfl := List.mem_singleton.mp member
          exact .inr rfl
      | cons b r =>
          rw [List.cons_append, List.zip_cons_cons] at member
          rcases List.mem_cons.mp member with rfl | later
          · exact .inl List.mem_cons_self
          · exact (ih later).imp_left (List.mem_cons_of_mem _)

theorem mem_take_of_mem_zip {l : List α} {r : List β} {x : α × β} (member : x ∈ l.zip r) :
    x.1 ∈ l.take r.length := by
  induction l generalizing r with
  | nil => cases member
  | cons a l ih =>
      cases r with
      | nil => cases member
      | cons b r =>
          rw [List.length_cons, List.take_succ_cons]
          rcases List.mem_cons.mp member with rfl | later
          · exact List.mem_cons_self
          · exact List.mem_cons_of_mem _ (ih later)

theorem exists_left {R : α → β → Prop} {l' : List β} (related : List.Forall₂ R l l') :
    ∀ b ∈ l', ∃ a ∈ l, R a b := by
  induction related with
  | nil => simp
  | cons here _ ih =>
      intro b listed
      rcases List.mem_cons.mp listed with rfl | listed
      · exact ⟨_, List.mem_cons_self, here⟩
      · obtain ⟨a, member, rest⟩ := ih b listed
        exact ⟨a, List.mem_cons_of_mem _ member, rest⟩

theorem forall₂_trans {R : α → α → Prop} (trans : ∀ {a b c}, R a b → R b c → R a c)
    {l l' l'' : List α} (first : List.Forall₂ R l l') (second : List.Forall₂ R l' l'') :
    List.Forall₂ R l l'' := by
  induction first generalizing l'' with
  | nil => exact second
  | cons here _ ih =>
      cases second with
      | cons next rest => exact .cons (trans here next) (ih rest)

/-! ## Bindings -/

section Bindings
variable [BEq α] [LawfulBEq α]

theorem lookup_filter_ne [DecidableEq α] (l : List (α × β)) {a b : α} (h : a ≠ b) :
    (l.filter (·.1 ≠ b)).lookup a = l.lookup a := by
  induction l with
  | nil => rfl
  | cons x xs ih =>
      by_cases hx : x.1 = b
      · have other : (a == x.1) = false := by simpa [hx] using h
        have gone : (x :: xs).filter (·.1 ≠ b) = xs.filter (·.1 ≠ b) := by simp [hx]
        rw [gone, ih, List.lookup_cons, other]
      · have kept : (x :: xs).filter (·.1 ≠ b) = x :: xs.filter (·.1 ≠ b) := by simp [hx]
        rw [kept, List.lookup_cons, List.lookup_cons, ih]

theorem lookup_eq_none_of_not_mem {l : List (α × β)} {a : α} (unbound : a ∉ l.map Prod.fst) :
    l.lookup a = none :=
  List.lookup_eq_none_iff.mpr fun x listed => bne_iff_ne.mpr fun same =>
    unbound (List.mem_map.mpr ⟨x, listed, same.symm⟩)

/-- If no key has two bindings, each binding is found. -/
theorem lookup_eq_some_iff_mem {l : List (α × β)} (distinct : (l.map Prod.fst).Nodup)
    {a : α} {b : β} : l.lookup a = some b ↔ (a, b) ∈ l := by
  induction l with
  | nil => simp
  | cons x xs ih =>
      obtain ⟨k, c⟩ := x
      obtain ⟨unbound, distinct⟩ := List.nodup_cons.mp distinct
      rw [List.lookup_cons, List.mem_cons, Prod.mk.injEq]
      by_cases here : a = k
      · subst here
        have absent : (a, b) ∉ xs := fun listed =>
          unbound (List.mem_map.mpr ⟨_, listed, rfl⟩)
        simp [absent, eq_comm]
      · simp [beq_false_of_ne here, here, ih distinct]

end Bindings

/-- Every element is related to those before it. -/
def Each (P : List α → α → Prop) (l : List α) : Prop :=
  ∀ before a after, l = before ++ a :: after → P before a

theorem each_nil {P : List α → α → Prop} : Each P [] := by
  intro before a after whole
  simp at whole

theorem each_cons {P : List α → α → Prop} :
    Each P (a :: l) ↔ P [] a ∧ Each (fun before => P (a :: before)) l := by
  constructor
  · intro each
    exact ⟨each [] a l rfl,
      fun before b after whole => each (a :: before) b after (by simp [whole])⟩
  · intro ⟨first, rest⟩ before b after whole
    cases before with
    | nil =>
        obtain ⟨rfl, -⟩ := List.cons.inj whole
        exact first
    | cons x before =>
        obtain ⟨rfl, tail⟩ := List.cons.inj whole
        exact rest before b after tail

theorem each_append {P : List α → α → Prop} {l l' : List α} :
    Each P (l ++ l') ↔ Each P l ∧ Each (fun before => P (l ++ before)) l' := by
  induction l generalizing P with
  | nil => simp [each_nil]
  | cons a l ih => simp only [List.cons_append, each_cons, ih, and_assoc]

theorem each_map {P : List β → β → Prop} {f : α → β} :
    Each P (l.map f) ↔ Each (fun before a => P (before.map f) (f a)) l := by
  induction l generalizing P with
  | nil => simp [each_nil]
  | cons a l ih => simp only [List.map_cons, each_cons, ih, List.map_nil]

theorem each_const {P : α → Prop} : Each (fun _ => P) l ↔ ∀ a ∈ l, P a := by
  induction l with
  | nil => simp [each_nil]
  | cons a l ih => rw [each_cons, ih, List.forall_mem_cons]

theorem each_congr {P Q : List α → α → Prop}
    (same : ∀ before a after, l = before ++ a :: after → (P before a ↔ Q before a)) :
    Each P l ↔ Each Q l := by
  constructor
  · intro each before a after whole
    exact (same before a after whole).mp (each before a after whole)
  · intro each before a after whole
    exact (same before a after whole).mpr (each before a after whole)

theorem each_iff_forall {P : List α → α → Prop} {Q : α → Prop}
    (same : ∀ before, ∀ a ∈ l, P before a ↔ Q a) : Each P l ↔ ∀ a ∈ l, Q a := by
  rw [← each_const]
  refine each_congr fun before a after whole => same before a ?_
  rw [whole]
  exact List.mem_append_right _ List.mem_cons_self

theorem each_and {P Q : List α → α → Prop} :
    Each (fun before a => P before a ∧ Q before a) l ↔ Each P l ∧ Each Q l := by
  constructor
  · intro each
    exact ⟨fun before a after whole => (each before a after whole).1,
      fun before a after whole => (each before a after whole).2⟩
  · intro ⟨first, second⟩ before a after whole
    exact ⟨first before a after whole, second before a after whole⟩

theorem nodup_iff_each : l.Nodup ↔ Each (fun before a => a ∉ before) l := by
  induction l with
  | nil => simp [each_nil]
  | cons x l ih =>
      have others : (∀ a ∈ l, ¬ a = x) ↔ x ∉ l :=
        ⟨fun all listed => all x listed rfl, fun gone a listed same => gone (same ▸ listed)⟩
      rw [List.nodup_cons, ih, each_cons]
      simp only [List.mem_cons, not_or, each_and, each_const, others]
      simp

end LiveRules.Lists
