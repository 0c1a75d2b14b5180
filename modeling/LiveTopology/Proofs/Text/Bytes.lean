import LiveTopology.Text.Utf8
import Mathlib.Data.String.Basic

/-!
# The bytes of text

The bytes of a string are those of its characters in turn. They begin with the length of each
character's form, and the parts of a code point follow with the highest first, so strings in the
order of their code points are in the order of their bytes as well.
-/

namespace LiveTopology.Text

/-- The bytes of a text are those of its parts. -/
theorem bytes_append (a b : String) : bytes (a ++ b) = bytes a ++ bytes b := by
  simp [bytes, String.toByteArray_append]

/-- The bytes of a text are those of its characters. -/
theorem bytes_ofList (chars : List Char) :
    bytes (String.ofList chars) = chars.flatMap String.utf8EncodeChar := by
  rw [bytes, String.toByteArray_ofList, List.utf8Encode, List.data_toByteArray]

/-- The bytes of a text are those of its characters, in order. -/
theorem bytes_eq_flatMap (text : String) :
    bytes text = text.toList.flatMap String.utf8EncodeChar := by
  rw [← bytes_ofList, String.ofList_toList]

/-- A character of seven bits is one byte. -/
theorem utf8EncodeChar_of_le {c : Char} (h : c.toNat ≤ 127) :
    String.utf8EncodeChar c = [UInt8.ofNat c.toNat] :=
  if_pos h

/-- The bytes of a character beyond ASCII lie beyond ASCII. -/
theorem le_of_mem_utf8EncodeChar {c : Char} (h : ¬ c.toNat ≤ 127) {b : UInt8}
    (hb : b ∈ String.utf8EncodeChar c) : 0x80 ≤ b := by
  have hv : ¬ c.val.toNat ≤ 127 := h
  have hle {n : Nat} (hn : 0x80 ≤ n % 256) : 0x80 ≤ UInt8.ofNat n :=
    UInt8.le_iff_toNat_le.mpr (by rw [UInt8.toNat_ofNat']; exact hn)
  simp only [String.utf8EncodeChar, if_neg hv] at hb
  split_ifs at hb
  all_goals
    simp only [List.mem_cons, List.not_mem_nil, or_false] at hb
    rcases hb with rfl | rfl | rfl | rfl <;> exact hle (by omega)

/-! ## Order -/

/-- A byte that is not greater decides, or leaves the decision to what follows. -/
theorem ofNat_cons_lt {m n : ℕ} {s t : List UInt8} (hn : n < 256) (hle : m ≤ n)
    (hs : m = n → s < t) : UInt8.ofNat m :: s < UInt8.ofNat n :: t := by
  rw [List.cons_lt_cons_iff, UInt8.lt_iff_toNat_lt, UInt8.toNat_ofNat', UInt8.toNat_ofNat',
    Nat.mod_eq_of_lt hn, Nat.mod_eq_of_lt (hle.trans_lt hn)]
  rcases hle.lt_or_eq with hlt | heq
  · exact .inl hlt
  · exact .inr ⟨congrArg _ heq, hs heq⟩

/-- The bytes of a lower character come first, whatever follows. -/
theorem utf8EncodeChar_append_lt {c d : Char} (h : c < d) (s t : List UInt8) :
    String.utf8EncodeChar c ++ s < String.utf8EncodeChar d ++ t := by
  have hv : c.val.toNat < d.val.toNat := h
  have hd : d.val.toNat < 0x110000 :=
    d.valid.elim (fun hlow => hlow.trans (by decide)) fun hhigh => hhigh.2
  have hfour (n : ℕ) : n / 262144 = n / 4096 / 64 := (Nat.div_div_eq_div_mul n 4096 64).symm
  have hthree (n : ℕ) : n / 4096 = n / 64 / 64 := (Nat.div_div_eq_div_mul n 64 64).symm
  simp only [String.utf8EncodeChar, hfour, hthree]
  split_ifs
  -- Forms of different lengths differ in the first byte, others in one of as many as they have.
  all_goals refine ofNat_cons_lt (by omega) (by omega) fun _ => ?_
  all_goals try omega
  all_goals refine ofNat_cons_lt (by omega) (by omega) fun _ => ?_
  all_goals try omega
  all_goals refine ofNat_cons_lt (by omega) (by omega) fun _ => ?_
  all_goals try omega
  exact ofNat_cons_lt (by omega) (by omega) fun _ => by omega

/-- Encoding keeps the order of texts. -/
theorem flatMap_utf8EncodeChar_lt {a b : List Char} (h : a < b) :
    a.flatMap String.utf8EncodeChar < b.flatMap String.utf8EncodeChar := by
  induction a generalizing b with
  | nil =>
    cases b with
    | nil => cases h
    | cons d later =>
      obtain ⟨byte, bytes, hd⟩ := List.exists_cons_of_ne_nil (String.utf8EncodeChar_ne_nil (c := d))
      rw [List.flatMap_cons, hd]
      exact List.nil_lt_cons _ _
  | cons c rest ih =>
    cases b with
    | nil => cases h
    | cons d later =>
      rw [List.flatMap_cons, List.flatMap_cons]
      rcases List.cons_lt_cons_iff.mp h with hc | ⟨rfl, hr⟩
      · exact utf8EncodeChar_append_lt hc _ _
      · exact List.append_left_lt (ih hr)

/-- The order of strings is the order of their bytes. -/
theorem bytes_lt_bytes_iff {a b : String} : bytes a < bytes b ↔ a < b := by
  have hm {a b : String} (h : a < b) : bytes a < bytes b := by
    rw [bytes_eq_flatMap, bytes_eq_flatMap]
    exact flatMap_utf8EncodeChar_lt (String.lt_iff_toList_lt.mp h)
  refine ⟨fun h => ?_, hm⟩
  rcases lt_trichotomy a b with hl | rfl | hg
  · exact hl
  · exact absurd h (List.lt_irrefl _)
  · exact absurd h (List.lt_asymm (hm hg))

end LiveTopology.Text
