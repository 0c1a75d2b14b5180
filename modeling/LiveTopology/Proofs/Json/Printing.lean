import LiveTopology.Json.Printer
import LiveTopology.Proofs.Json.Values
import LiveTopology.Proofs.Text.Bytes

/-!
# Printed values denote themselves

The text of a value without doubles is a text of the grammar for that value, at every depth to which
the value nests. A printed string escapes what the grammar asks for, a printed integer has no
leading zero, and lists are separated by single commas without white space.
-/

namespace LiveTopology

namespace Json

open Text

/-! ## Strings -/

/-- Two insides of strings make one, which stands for the bytes of both. -/
theorem Inside.append {a b c d : List UInt8} (h : Inside a b) (hn : Inside c d) :
    Inside (a ++ c) (b ++ d) := by
  induction h with
  | empty => exact hn
  | piece hp _ ih =>
    rw [List.append_assoc, List.append_assoc]
    exact .piece hp ih

/-- A single piece is the inside of a string. -/
theorem Inside.of_piece {a b : List UInt8} (h : Piece a b) : Inside a b := by
  have hi := Inside.piece h .empty
  rwa [List.append_nil, List.append_nil] at hi

/-- Bytes that need no escape stand for themselves. -/
theorem inside_plain {bytes : List UInt8}
    (h : ∀ b ∈ bytes, b ≠ Byte.quote ∧ ¬ b < 0x20 ∧ b ≠ Byte.backslash) : Inside bytes bytes := by
  induction bytes with
  | nil => exact .empty
  | cons b rest ih =>
    obtain ⟨⟨hq, hc, hb⟩, hr⟩ := List.forall_mem_cons.mp h
    exact .piece (.plain hq hc hb) (ih hr)

/-- The code of a control character is written with two digits. -/
theorem codeUnit?_hexDigit : ∀ n < 32,
    codeUnit? 0x30 0x30 (UInt8.ofNat (hexDigit (n / 16)).toNat)
      (UInt8.ofNat (hexDigit (n % 16)).toNat) = some n := by
  decide

/-- Digits of base sixteen have seven bits. -/
theorem toNat_hexDigit_le : ∀ n < 16, (hexDigit n).toNat ≤ 127 := by
  decide

/-- The written form of a character stands for it. -/
theorem inside_escape (c : Char) :
    Inside ((escape c).flatMap String.utf8EncodeChar) (String.utf8EncodeChar c) := by
  unfold escape
  -- Seven characters have an escape of their own, other control characters are written as a code
  -- unit, and all others as themselves.
  split_ifs with h₁ h₂ h₃ h₄ h₅ h₆ h₇ h₈
  · subst h₁
    exact .of_piece (.escaped rfl)
  · subst h₂
    exact .of_piece (.escaped rfl)
  · subst h₃
    exact .of_piece (.escaped rfl)
  · subst h₄
    exact .of_piece (.escaped rfl)
  · subst h₅
    exact .of_piece (.escaped rfl)
  · subst h₆
    exact .of_piece (.escaped rfl)
  · subst h₇
    exact .of_piece (.escaped rfl)
  · have hu := codeUnit?_hexDigit c.toNat h₈
    have ht : isTrailing c.toNat = false := by simp [isTrailing]; omega
    have hl : isLeading c.toNat = false := by simp [isLeading]; omega
    have hp := Piece.unit hu (by rw [ht]; decide) (by rw [hl]; decide)
    rw [Char.ofNat_toNat] at hp
    simp only [List.flatMap_cons, List.flatMap_nil, List.append_nil]
    rw [utf8EncodeChar_of_le (toNat_hexDigit_le (c.toNat / 16) (by omega)),
      utf8EncodeChar_of_le (toNat_hexDigit_le (c.toNat % 16) (by omega))]
    exact .of_piece hp
  · rw [List.flatMap_singleton]
    refine inside_plain fun b hb => ?_
    by_cases ha : c.toNat ≤ 127
    · rw [utf8EncodeChar_of_le ha, List.mem_singleton] at hb
      have hn : b.toNat = c.toNat := by
        rw [hb, UInt8.toNat_ofNat']
        omega
      have hne (d : Char) (hd : c ≠ d) : b.toNat ≠ d.toNat := fun he =>
        hd (Char.toNat_inj.mp (hn.symm.trans he))
      refine ⟨?_, ?_, ?_⟩
      · rintro rfl
        exact hne '"' h₁ rfl
      · rw [UInt8.lt_iff_toNat_lt, hn]
        exact h₈
      · rintro rfl
        exact hne '\\' h₂ rfl
    · have hle := le_of_mem_utf8EncodeChar ha hb
      refine ⟨?_, ?_, ?_⟩
      · rintro rfl
        exact absurd hle (by decide)
      · exact UInt8.not_lt.mpr (UInt8.le_trans (by decide) hle)
      · rintro rfl
        exact absurd hle (by decide)

/-- A string in quotes is a text of the string. -/
theorem stringText_quote (text : String) : StringText (bytes (quote text)) text := by
  have hi (chars : List Char) :
      Inside ((chars.flatMap escape).flatMap String.utf8EncodeChar)
        (chars.flatMap String.utf8EncodeChar) := by
    induction chars with
    | nil => exact .empty
    | cons c rest ih =>
      rw [List.flatMap_cons, List.flatMap_append, List.flatMap_cons]
      exact (inside_escape c).append ih
  have hd : decode? (text.toList.flatMap String.utf8EncodeChar) = some text := by
    rw [← bytes_eq_flatMap, decode?_bytes]
  have hq : bytes "\"" = [Byte.quote] := rfl
  rw [quote, bytes_append, bytes_append, hq, bytes_ofList]
  exact .quoted (hi text.toList) hd

/-! ## Integers -/

/-- Only zero is written with a zero in front. -/
theorem toDigits_head {n : Nat} (h : (Nat.toDigits 10 n).head? = some '0') : n = 0 := by
  induction n using Nat.strongRecOn with
  | ind n ih =>
    rw [Nat.toDigits_eq_if (by decide)] at h
    split_ifs at h with hn
    · rw [List.head?_cons, Option.some_inj, Nat.digitChar_eq_zero] at h
      exact h
    · rw [List.head?_append_of_ne_nil _ Nat.toDigits_ne_nil] at h
      have := ih (n / 10) (by omega) h
      omega

/-- The byte of a decimal digit. -/
def digitByte (c : Char) : UInt8 := UInt8.ofNat c.toNat

/-- The codes of digits run from 48 to 57. -/
theorem toNat_of_isDigit {c : Char} (h : c.isDigit = true) : 48 ≤ c.toNat ∧ c.toNat ≤ 57 := by
  rw [Char.isDigit, Bool.and_eq_true, decide_eq_true_eq, decide_eq_true_eq, ge_iff_le,
    UInt32.le_iff_toNat_le, UInt32.le_iff_toNat_le] at h
  exact h

/-- The byte of a digit is its code. -/
theorem toNat_digitByte {c : Char} (h : c.isDigit = true) : (digitByte c).toNat = c.toNat := by
  have hc := toNat_of_isDigit h
  rw [digitByte, UInt8.toNat_ofNat']
  omega

/-- The byte of a digit is a digit. -/
theorem isDigit_digitByte {c : Char} (h : c.isDigit = true) : isDigit (digitByte c) = true := by
  have hc := toNat_of_isDigit h
  rw [isDigit, Bool.and_eq_true, decide_eq_true_eq, decide_eq_true_eq, UInt8.le_iff_toNat_le,
    UInt8.le_iff_toNat_le, toNat_digitByte h]
  exact hc

/-- Digits are encoded one byte each. -/
theorem flatMap_digits {digits : List Char} (h : ∀ c ∈ digits, c.isDigit = true) :
    digits.flatMap String.utf8EncodeChar = digits.map digitByte := by
  induction digits with
  | nil => rfl
  | cons c rest ih =>
    obtain ⟨hc, hr⟩ := List.forall_mem_cons.mp h
    have hle := toNat_of_isDigit hc
    rw [List.flatMap_cons, utf8EncodeChar_of_le (by omega), ih hr]
    rfl

/-- The bytes of digits have the value of the digits. -/
theorem foldl_digitByte {digits : List Char} (h : ∀ c ∈ digits, c.isDigit = true) (value : Nat) :
    (digits.map digitByte).foldl (fun value digit => value * 10 + digitValue digit) value =
      Nat.ofDigitChars 10 digits value := by
  induction digits generalizing value with
  | nil => rfl
  | cons c rest ih =>
    obtain ⟨hc, hr⟩ := List.forall_mem_cons.mp h
    rw [List.map_cons, List.foldl_cons, ih hr, digitValue, toNat_digitByte hc,
      Nat.ofDigitChars_cons, Nat.mul_comm]
    rfl

/-- Numbers are written with digits. -/
theorem isDigit_of_mem_toDigits {n : Nat} : ∀ c ∈ Nat.toDigits 10 n, c.isDigit = true :=
  fun _ hc => Nat.isDigit_of_mem_toDigits (by decide) (by decide) hc

/-- The text of a number is the bytes of its digits. -/
theorem bytes_repr (n : Nat) : bytes n.repr = (Nat.toDigits 10 n).map digitByte := by
  rw [Nat.repr_eq_ofList_toDigits, bytes_ofList, flatMap_digits isDigit_of_mem_toDigits]

/-- A natural number is printed without a leading zero. -/
theorem wholeText_repr (n : Nat) : WholeText (bytes n.repr) := by
  rw [bytes_repr]
  refine ⟨⟨fun h => Nat.toDigits_ne_nil (List.map_eq_nil_iff.mp h), fun d hd => ?_⟩,
    fun rest hz => ?_⟩
  · obtain ⟨c, hc, rfl⟩ := List.mem_map.mp hd
    exact isDigit_digitByte (isDigit_of_mem_toDigits c hc)
  · obtain ⟨c, later, hl, hc, rfl⟩ := List.map_eq_cons_iff.mp hz
    have hdigit : c.isDigit = true := isDigit_of_mem_toDigits c (hl ▸ List.mem_cons_self)
    have hzero : c = '0' := Char.toNat_inj.mp (by rw [← toNat_digitByte hdigit, hc]; rfl)
    have hn : n = 0 := toDigits_head (by rw [hl, hzero]; rfl)
    rw [hn, Nat.toDigits_zero] at hl
    cases hl
    rfl

/-- The text of a number has its value. -/
theorem decimalValue_repr (n : Nat) : decimalValue (bytes n.repr) = n := by
  rw [bytes_repr, decimalValue, foldl_digitByte isDigit_of_mem_toDigits,
    Nat.ofDigitChars_ten_toDigits]

/-- A sign and a natural number make up an integer, unless the sign stands before a zero. -/
theorem numberText_repr (negative : Bool) {n : Nat} (hz : negative = true → n ≠ 0) {value : Int}
    (hv : value = if negative then -(n : Int) else n)
    (fits : -0x8000000000000000 ≤ value ∧ value < 0x10000000000000000) :
    NumberText (signOf negative ++ bytes n.repr) (.integer value fits) := by
  have hl : LiteralText (signOf negative ++ bytes n.repr ++ [] ++ [])
      ⟨negative, bytes n.repr, none, none⟩ :=
    .parts (wholeText_repr n) .absent .absent
  rw [List.append_nil, List.append_nil] at hl
  refine .literal hl ?_
  have hs : (negative && value == 0) = false := by
    cases negative with
    | false => rfl
    | true =>
      have hn := hz rfl
      rw [Bool.true_and, beq_eq_false_iff_ne, hv, if_pos rfl]
      omega
  rw [Literal.number]
  simp only [decimalValue_repr, ← hv]
  rw [dif_pos fits, hs]
  rfl

/-- An integer is printed as a number that is this integer. -/
theorem numberText_integer (value : Int)
    (fits : -0x8000000000000000 ≤ value ∧ value < 0x10000000000000000) :
    NumberText (bytes (toString value)) (.integer value fits) := by
  cases value with
  | ofNat n =>
    exact numberText_repr false (fun h => absurd h Bool.false_ne_true) rfl fits
  | negSucc n =>
    have hs : toString (Int.negSucc n) = "-" ++ (n + 1).repr := rfl
    have hm : bytes "-" = signOf true := rfl
    rw [hs, bytes_append, hm]
    exact numberText_repr true (fun _ => Nat.succ_ne_zero n) (by rw [if_pos rfl]; rfl) fits

/-! ## Arrays and objects -/

section

variable {α : Type} {part : List UInt8 → α → Prop}

/-- A text behind a comma. -/
theorem Remaining.comma {text rest : String} {a : α} {later : List α} (hp : part (bytes text) a)
    (hr : Remaining part false (bytes rest) later) :
    Remaining part false (bytes ("," ++ (text ++ rest))) (a :: later) := by
  rw [bytes_append, bytes_append, ← List.append_assoc]
  exact .part (.later .nil .nil) hp hr

/-- A text before all others. -/
theorem Remaining.foremost {text rest : String} {a : α} {later : List α} (hp : part (bytes text) a)
    (hr : Remaining part false (bytes rest) later) :
    Remaining part true (bytes (text ++ rest)) (a :: later) := by
  rw [bytes_append]
  exact .part (.first .nil) hp hr

/-- An inside of items in brackets is an array. -/
theorem arrayText_bracketed {inside : String} {items : List α}
    (h : Remaining part true (bytes inside) items) :
    ArrayText part (bytes ("[" ++ inside ++ "]")) items := by
  rw [bytes_append, bytes_append]
  exact .bracketed (listing_iff_remaining.mpr h)

/-- An inside of members in braces is an object. -/
theorem objectText_braced {inside : String} {members : List (String × α)}
    (h : Remaining (MemberText part) true (bytes inside) members) :
    ObjectText part (bytes ("\x7b" ++ inside ++ "\x7d")) members := by
  rw [bytes_append, bytes_append]
  exact .braced (listing_iff_remaining.mpr h)

/-- A quoted key, a colon and the text of a value are a member. -/
theorem memberText_colon {key text : String} {a : α} (h : part (bytes text) a) :
    MemberText part (bytes (quote key ++ ":" ++ text)) (key, a) := by
  have hm := MemberText.keyed (stringText_quote key) .nil .nil h
  rw [List.append_nil, List.nil_append] at hm
  rw [bytes_append, bytes_append, List.append_assoc]
  exact hm

end

section

variable {part : List UInt8 → Value → Prop}

/-- The printed items after the first are what remains of an array behind it. -/
theorem remaining_furtherItems {items : List Value}
    (h : ∀ item ∈ items, part (bytes item.text) item) :
    Remaining part false (bytes (furtherItemsText items)) items := by
  induction items with
  | nil => exact .done .nil
  | cons item rest ih =>
    obtain ⟨hi, hr⟩ := List.forall_mem_cons.mp h
    exact .comma hi (ih hr)

/-- An array is printed as its items between brackets. -/
theorem arrayText_text {items : List Value} (h : ∀ item ∈ items, part (bytes item.text) item) :
    ArrayText part (bytes (Value.array items).text) items := by
  rw [Value.text]
  refine arrayText_bracketed ?_
  cases items with
  | nil => exact .done .nil
  | cons item rest =>
    obtain ⟨hi, hr⟩ := List.forall_mem_cons.mp h
    exact .foremost hi (remaining_furtherItems hr)

/-- The printed members after the first are what remains of an object behind it. -/
theorem remaining_furtherMembers {members : List (String × Value)}
    (h : ∀ member ∈ members, part (bytes member.2.text) member.2) :
    Remaining (MemberText part) false (bytes (furtherMembersText members)) members := by
  induction members with
  | nil => exact .done .nil
  | cons member rest ih =>
    obtain ⟨hm, hr⟩ := List.forall_mem_cons.mp h
    exact .comma (memberText_colon hm) (ih hr)

/-- An object is printed as its members between braces. -/
theorem objectText_text {members : List (String × Value)}
    (h : ∀ member ∈ members, part (bytes member.2.text) member.2) :
    ObjectText part (bytes (Value.object members).text) members := by
  rw [Value.text]
  refine objectText_braced ?_
  cases members with
  | nil => exact .done .nil
  | cons member rest =>
    obtain ⟨hm, hr⟩ := List.forall_mem_cons.mp h
    exact .foremost (memberText_colon hm) (remaining_furtherMembers hr)

end

/-- Values without inner structure are printed as words, strings and numbers. -/
theorem scalar_text {v : Value} (hn : v.nesting = 0) (hd : v.DoubleFree) :
    Scalar (bytes v.text) v := by
  cases v with
  | null => exact .nullWord
  | bool b =>
    cases b with
    | true => exact .trueWord
    | false => exact .falseWord
  | number n =>
    cases n with
    | integer value fits => exact .number (numberText_integer value fits)
    | double x => exact hd.elim
  | string text => exact .string (stringText_quote text)
  | array items => exact absurd hn (Nat.succ_ne_zero _)
  | object members => exact absurd hn (Nat.succ_ne_zero _)

/-- The text of a value without doubles denotes it, at every depth to which it nests. -/
theorem denotes_text {depth : Nat} {v : Value} (hn : v.nesting ≤ depth) (ho : v.Ordered)
    (hd : v.DoubleFree) : Denotes depth (bytes v.text) v := by
  induction depth generalizing v with
  | zero => exact scalar_text (Nat.le_zero.mp hn) hd
  | succ depth ih =>
    cases v with
    | array items =>
      have hitems := nestingOfItems_le.mp (Nat.le_of_succ_le_succ hn)
      exact .array (arrayText_text fun item hm => ih (hitems item hm)
        (itemsOrdered_iff.mp ho item hm) (itemsDoubleFree_iff.mp hd item hm))
    | object members =>
      have hmembers := nestingOfMembers_le.mp (Nat.le_of_succ_le_succ hn)
      have htext := objectText_text fun member hm => ih (hmembers member hm)
        (membersOrdered_iff.mp ho.2 member hm) (membersDoubleFree_iff.mp hd member hm)
      have h := Layer.object htext
      rwa [Fields.ofPairs_of_ascending ho.1] at h
    | _ => exact .of_scalar (scalar_text rfl hd) _

end Json

end LiveTopology
