import Mathlib.Data.String.Basic

/-!
# Texts in the order of their bytes

Texts are compared by code points. In UTF-8 a later code point is written with later
bytes, so comparing the bytes comes to the same.
-/
namespace LiveRules.Text

/-- The bytes of a text in UTF-8. -/
def bytes (s : String) : List UInt8 := s.toByteArray.data.toList

theorem bytes_eq (s : String) : bytes s = s.toList.flatMap String.utf8EncodeChar := by
  rw [bytes, ← String.utf8Encode_toList, List.utf8Encode, List.toList_data_toByteArray]

theorem digits_lt {m n : Nat} (less : m < n) :
    m / 64 < n / 64 ∨ m / 64 = n / 64 ∧ m % 64 < n % 64 := by omega

theorem toNat_byte {n : Nat} (small : n < 256) : (UInt8.ofNat n).toNat = n :=
  UInt8.toNat_ofNat_of_lt' small

/-- A longer form starts with a later byte, and two of one length spell their numbers
with digits of six bits. -/
theorem utf8EncodeChar_lt {c d : Char} (less : c < d) (xs ys : List UInt8) :
    String.utf8EncodeChar c ++ xs < String.utf8EncodeChar d ++ ys := by
  replace less : c.val.toNat < d.val.toNat := less
  have bound : d.val.toNat < 0x110000 := by rcases d.valid with low | high <;> omega
  rw [String.utf8EncodeChar, String.utf8EncodeChar]
  generalize c.val.toNat = m at *
  generalize d.val.toNat = n at *
  have last := digits_lt less
  have third := fun less => @digits_lt (m / 64) (n / 64) less
  have second := fun less => @digits_lt (m / 4096) (n / 4096) less
  simp only [Nat.div_div_eq_div_mul, Nat.reduceMul] at third second
  repeat' split
  all_goals first | omega | skip
  all_goals simp (disch := omega) only [List.cons_append, List.nil_append,
    List.cons_lt_cons_iff, UInt8.lt_iff_toNat_lt, ← UInt8.toNat_inj, toNat_byte, Nat.mod_eq_of_lt]
  all_goals omega

theorem flatMap_utf8EncodeChar_lt {cs ds : List Char} (less : cs < ds) :
    cs.flatMap String.utf8EncodeChar < ds.flatMap String.utf8EncodeChar := by
  induction cs generalizing ds with
  | nil =>
      cases ds with
      | nil => exact absurd less (List.lt_irrefl _)
      | cons d ds =>
          rw [List.flatMap_nil, List.flatMap_cons]
          cases form : String.utf8EncodeChar d with
          | nil => exact absurd form String.utf8EncodeChar_ne_nil
          | cons b bs => exact List.nil_lt_cons _ _
  | cons c cs ih =>
      cases ds with
      | nil => exact absurd less (List.not_lt_nil _)
      | cons d ds =>
          rw [List.flatMap_cons, List.flatMap_cons]
          rcases List.cons_lt_cons_iff.mp less with first | ⟨rfl, rest⟩
          · exact utf8EncodeChar_lt first _ _
          · exact List.append_left_lt (ih rest)

theorem bytes_lt_iff {s t : String} : bytes s < bytes t ↔ s < t := by
  have forward {s t : String} (less : s < t) : bytes s < bytes t := by
    rw [bytes_eq, bytes_eq]
    exact flatMap_utf8EncodeChar_lt (String.lt_iff.mp less)
  refine ⟨fun less => ?_, forward⟩
  rcases lt_trichotomy s t with before | rfl | after
  · exact before
  · exact absurd less (List.lt_irrefl _)
  · exact absurd (forward after) (List.lt_asymm less)

end LiveRules.Text
