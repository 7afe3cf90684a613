import Mathlib.Data.String.Basic

set_option autoImplicit false

/-! # Texts as bytes

A text is written in UTF-8 character by character (`bytes_eq`). Texts are compared character by
character too, and UTF-8 keeps that order (`bytes_lt`), since it writes the digits of a character to
the base 64, the highest one first, and a longer sequence starts with a higher byte
(`utf8EncodeChar_lt`). -/

namespace DataAccess.Text

/-- The bytes of a text in UTF-8. -/
def bytes (s : String) : List UInt8 := s.toUTF8.data.toList

theorem bytes_eq (s : String) : bytes s = s.toList.flatMap String.utf8EncodeChar := by
  have hencode := @String.toByteArray_ofList s.toList
  rw [String.ofList_toList] at hencode
  rw [bytes, String.toUTF8_eq_toByteArray, hencode, List.utf8Encode, List.data_toByteArray]

theorem ofNat_lt_ofNat {m n : Nat} (hm : m < 256) (hn : n < 256) :
    UInt8.ofNat m < UInt8.ofNat n ↔ m < n := by
  rw [UInt8.lt_iff_toNat_lt, UInt8.toNat_ofNat_of_lt' hm, UInt8.toNat_ofNat_of_lt' hn]

theorem ofNat_eq_ofNat {m n : Nat} (hm : m < 256) (hn : n < 256) :
    UInt8.ofNat m = UInt8.ofNat n ↔ m = n := by
  rw [← UInt8.toNat_inj, UInt8.toNat_ofNat_of_lt' hm, UInt8.toNat_ofNat_of_lt' hn]

theorem utf8EncodeChar_ne_nil (c : Char) : String.utf8EncodeChar c ≠ [] := by
  unfold String.utf8EncodeChar
  simp only
  split_ifs <;> exact List.cons_ne_nil _ _

/-- The bytes of a character come before those of every later one, whatever follows. -/
theorem utf8EncodeChar_lt {c d : Char} (h : c < d) (cs ds : List UInt8) :
    String.utf8EncodeChar c ++ cs < String.utf8EncodeChar d ++ ds := by
  have hlt : c.val.toNat < d.val.toNat := h
  have hd : d.val.toNat < 0x110000 := by
    rcases d.valid with hvalid | hvalid
    · exact Nat.lt_trans hvalid (by decide)
    · exact hvalid.2
  unfold String.utf8EncodeChar
  generalize c.val.toNat = m at hlt
  generalize d.val.toNat = n at hlt hd
  -- Dividing by 64 again and again shows how the digits go together.
  have hdigits : ∀ k, k / 4096 = k / 64 / 64 ∧ k / 262144 = k / 64 / 64 / 64 := by
    intro k
    simp only [Nat.div_div_eq_div_mul, Nat.reduceMul, and_self]
  simp only [hdigits]
  -- One goal for each pair of lengths; `omega` compares the digits, or the first bytes.
  split_ifs <;>
    simp (disch := omega) only [List.cons_append, List.nil_append, List.cons_lt_cons_iff,
      ofNat_lt_ofNat, ofNat_eq_ofNat] <;>
    omega

theorem flatMap_utf8EncodeChar_lt {cs ds : List Char} (h : cs < ds) :
    cs.flatMap String.utf8EncodeChar < ds.flatMap String.utf8EncodeChar := by
  induction h with
  | @nil d ds =>
      obtain ⟨x, xs, hxs⟩ := List.exists_cons_of_ne_nil (utf8EncodeChar_ne_nil d)
      rw [List.flatMap_cons, hxs]
      exact .nil
  | rel h => exact utf8EncodeChar_lt h _ _
  | cons _ ih =>
      rw [List.flatMap_cons, List.flatMap_cons]
      exact List.append_left_lt ih

/-- Texts are ordered as their bytes are. -/
theorem bytes_lt {s s' : String} (h : compare s s' = .lt) : bytes s < bytes s' := by
  have hlt : s < s' := compareOfLessAndEq_eq_lt.1 h
  rw [bytes_eq, bytes_eq]
  exact flatMap_utf8EncodeChar_lt (String.lt_iff_toList_lt.1 hlt)

end DataAccess.Text
