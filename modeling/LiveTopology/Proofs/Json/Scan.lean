import LiveTopology.Proofs.Json.Grammar
import LiveTopology.Proofs.Steps

/-!
# Tokens are read exactly

Words, strings and numbers are taken off the front of a text exactly if a text of the grammar
stands there. What follows does not matter to words and strings; a number must not be followed by a
byte with which it would go on.
-/

namespace LiveTopology.Json

/-- A word is read exactly if it stands in front. -/
theorem readWord_eq_ok_iff {word input rest : List UInt8} :
    readWord word input = .ok rest ↔ input = word ++ rest := by
  fun_induction readWord word input with
  | case1 => simp [eq_comm]
  | case2 => simp
  | case3 word b tail ih => simp [ih]
  | case4 letter word b tail hb => simp [hb]

/-! ## Strings -/

/-- The first unit of a pair is no second one. -/
theorem not_isTrailing_of_isLeading {unit : Nat} (h : isLeading unit) : ¬ isTrailing unit := by
  simp only [isLeading, isTrailing, Bool.and_eq_true, decide_eq_true_eq] at h ⊢
  omega

theorem backslash_ne_quote : Byte.backslash ≠ Byte.quote := by decide

theorem not_backslash_lt : ¬ Byte.backslash < 0x20 := by decide

/-- The letter of a code unit escapes no single byte. -/
theorem escapedByte?_letterU : escapedByte? Byte.letterU = none := by decide

/-- A piece is read as the bytes for which it stands. -/
theorem scanString_piece {written bytes : List UInt8} (h : Piece written bytes)
    (decoded rest : List UInt8) :
    scanString decoded (written ++ rest) = scanString (bytes.reverse ++ decoded) rest := by
  cases h with
  | plain hq hc hb =>
    rw [scanString.eq_def]
    simp [hq, hc, hb]
  | escaped he =>
    rw [scanString.eq_def]
    simp [he, backslash_ne_quote, not_backslash_lt]
  | unit hu ht hl =>
    rw [scanString.eq_def]
    simp [escapedByte?_letterU, hu, ht, hl, backslash_ne_quote, not_backslash_lt]
  | pair hu hl hs ht =>
    have hn := not_isTrailing_of_isLeading hl
    rw [scanString.eq_def]
    simp [escapedByte?_letterU, hu, hn, hl, hs, ht, backslash_ne_quote, not_backslash_lt]

/-- The inside of a string is read as the bytes for which it stands, up to the closing quote. -/
theorem scanString_inside {inside bytes : List UInt8} (h : Inside inside bytes)
    (decoded rest : List UInt8) :
    scanString decoded (inside ++ Byte.quote :: rest) = .ok (decoded.reverse ++ bytes, rest) := by
  induction h generalizing decoded with
  | empty =>
    rw [List.nil_append, scanString.eq_def]
    simp
  | piece hp _ ih =>
    rw [List.append_assoc, scanString_piece hp, ih]
    simp

/-- A piece goes in front of the inside that is read behind it. -/
theorem exists_inside_of_piece {written bytes later decoded out rest : List UInt8}
    (hp : Piece written bytes)
    (h : ∃ inside more, Inside inside more ∧ later = inside ++ Byte.quote :: rest ∧
      out = (bytes.reverse ++ decoded).reverse ++ more) :
    ∃ inside more, Inside inside more ∧ written ++ later = inside ++ Byte.quote :: rest ∧
      out = decoded.reverse ++ more := by
  obtain ⟨inside, more, hi, rfl, rfl⟩ := h
  exact ⟨written ++ inside, bytes ++ more, .piece hp hi, by simp, by simp⟩

/-- What is read of a string is its inside and the closing quote. -/
theorem exists_inside_of_scanString {decoded input out rest : List UInt8}
    (h : scanString decoded input = .ok (out, rest)) :
    ∃ inside bytes, Inside inside bytes ∧ input = inside ++ Byte.quote :: rest ∧
      out = decoded.reverse ++ bytes := by
  fun_induction scanString decoded input with
  | case2 decoded tail =>
    cases h
    exact ⟨[], [], .empty, rfl, (List.append_nil _).symm⟩
  | case5 decoded e tail byte he _ _ ih => exact exists_inside_of_piece (.escaped he) (ih h)
  | case11 decoded h₁ h₂ h₃ h₄ unit hu ht hl k₁ k₂ k₃ k₄ tail second hs hp char _ _ _ ih =>
    exact exists_inside_of_piece (.pair hu hl hs hp) (ih h)
  | case16 decoded h₁ h₂ h₃ h₄ tail unit hu ht hl _ _ _ ih =>
    exact exists_inside_of_piece (.unit hu ht hl) (ih h)
  | case19 decoded b tail hq hc hb ih => exact exists_inside_of_piece (.plain hq hc hb) (ih h)
  | _ => cases h

/-- A string behind its opening quote is read exactly if one stands there. -/
theorem readString_eq_ok_iff {input rest : List UInt8} {text : String} :
    readString input = .ok (text, rest) ↔
      ∃ written, StringText (Byte.quote :: written) text ∧ input = written ++ rest := by
  rw [readString]
  constructor
  · intro h
    obtain ⟨⟨content, after⟩, hs, h⟩ := exists_of_bind_eq_ok h
    obtain ⟨inside, bytes, hi, rfl, rfl⟩ := exists_inside_of_scanString hs
    dsimp only at h
    split at h
    · rename_i found ht
      cases h
      exact ⟨inside ++ [Byte.quote], .quoted hi ht, by simp⟩
    · cases h
  · rintro ⟨written, ht, rfl⟩
    generalize hw : Byte.quote :: written = whole at ht
    cases ht with
    | quoted hi ht =>
      rename_i inside content
      rw [List.cons_append, List.cons.injEq] at hw
      obtain ⟨-, rfl⟩ := hw
      rw [List.append_assoc, List.singleton_append, scanString_inside hi, ok_bind]
      simp [ht]

/-! ## Numbers -/

/-- Text that does not start with a byte of a kind. -/
def Ends (kind : UInt8 → Bool) (rest : List UInt8) : Prop := ∀ b ∈ rest.head?, kind b = false

/-- Bytes of a kind end before a byte of another kind. -/
theorem ends_cons {kind : UInt8 → Bool} {b : UInt8} {rest : List UInt8} :
    Ends kind (b :: rest) ↔ kind b = false := by
  simp [Ends]

/-- Whether a fraction or an exponent may start with this byte, or digits go on with it. -/
def continuesNumber (b : UInt8) : Bool :=
  isDigit b || b = Byte.point || b = 0x65 || b = 0x45

/-- What does not go on a number does not go on any part of it. -/
theorem Ends.of_continuesNumber {kind : UInt8 → Bool} {rest : List UInt8}
    (h : Ends continuesNumber rest) (hk : ∀ b, kind b = true → continuesNumber b = true) :
    Ends kind rest := by
  intro b hb
  cases hn : kind b with
  | false => rfl
  | true => exact absurd (h b hb) (by rw [hk b hn]; decide)

/-- What does not go on a number is no digit. -/
theorem Ends.digit {rest : List UInt8} (h : Ends continuesNumber rest) : Ends isDigit rest :=
  h.of_continuesNumber fun b hb => by simp [continuesNumber, hb]

/-- What does not go on a number is no point. -/
theorem Ends.point {rest : List UInt8} (h : Ends continuesNumber rest) :
    Ends (· = Byte.point) rest :=
  h.of_continuesNumber fun b hb => by simp_all [continuesNumber]

/-- Digits are taken up to the first byte that is none. -/
theorem digits_append {digits rest : List UInt8} (hd : ∀ d ∈ digits, isDigit d = true)
    (he : Ends isDigit rest) :
    (digits ++ rest).takeWhile isDigit = digits ∧ (digits ++ rest).dropWhile isDigit = rest := by
  have hn : rest.takeWhile isDigit = [] ∧ rest.dropWhile isDigit = rest := by
    cases rest with
    | nil => exact ⟨rfl, rfl⟩
    | cons b rest =>
      have hb := ends_cons.mp he
      simp [hb]
  rw [List.takeWhile_append_of_pos hd, List.dropWhile_append_of_pos hd, hn.1, hn.2,
    List.append_nil]
  exact ⟨rfl, rfl⟩

/-- A digit and those that follow it are digits. -/
theorem digits_takeWhile {b : UInt8} (hb : isDigit b = true) (rest : List UInt8) :
    Digits (b :: rest.takeWhile isDigit) := by
  refine ⟨List.cons_ne_nil _ _, fun d hd => ?_⟩
  rcases List.mem_cons.mp hd with rfl | hd
  · exact hb
  · exact List.all_eq_true.mp List.all_takeWhile d hd

/-- The digits before the point are read up to the first byte that is no digit. -/
theorem scanWhole_append (atEnd : Cause) {whole rest : List UInt8} (hw : WholeText whole)
    (he : Ends isDigit rest) : scanWhole atEnd (whole ++ rest) = .ok (whole, rest) := by
  obtain ⟨⟨hn, hd⟩, hz⟩ := hw
  cases whole with
  | nil => exact absurd rfl hn
  | cons b digits =>
    obtain ⟨hb, hd⟩ := List.forall_mem_cons.mp hd
    rw [List.cons_append, scanWhole.eq_def]
    dsimp only
    by_cases hbz : b = Byte.zero
    · obtain rfl := hz digits (by rw [hbz])
      rw [if_pos hbz, List.nil_append]
      cases rest with
      | nil => rfl
      | cons c rest =>
        have hc := ends_cons.mp he
        simp [hc]
    · obtain ⟨ht, hr⟩ := digits_append hd he
      rw [if_neg hbz, if_pos hb, ht, hr]

/-- Nothing but digits is read before the point, and a zero only alone. -/
theorem wholeText_of_scanWhole {atEnd : Cause} {input whole rest : List UInt8}
    (h : scanWhole atEnd input = .ok (whole, rest)) : WholeText whole ∧ input = whole ++ rest := by
  cases input with
  | nil => cases h
  | cons b tail =>
    rw [scanWhole.eq_def] at h
    dsimp only at h
    -- Behind a zero no digit may follow, so the zero is all there is.
    by_cases hz : b = Byte.zero
    · have hb : WholeText [b] := by
        refine ⟨⟨List.cons_ne_nil _ _, ?_⟩, ?_⟩
        · intro d hd
          rw [List.mem_singleton.mp hd, hz]
          decide
        · intro later hl
          exact (List.cons.inj hl).2.symm
      rw [if_pos hz] at h
      split at h
      · cases h
        exact ⟨hb, rfl⟩
      · split at h
        · cases h
        · cases h
          exact ⟨hb, rfl⟩
    · rw [if_neg hz] at h
      by_cases hd : isDigit b = true
      · rw [if_pos hd] at h
        cases h
        refine ⟨⟨digits_takeWhile hd tail, ?_⟩, ?_⟩
        · intro later hl
          exact absurd (List.cons.inj hl).1 hz
        · rw [List.cons_append, List.takeWhile_append_dropWhile]
      · rw [if_neg hd] at h
        cases h

/-- Where neither of two texts goes on bytes of a kind, the two together do not. -/
theorem Ends.append {kind : UInt8 → Bool} {text rest : List UInt8} (ht : Ends kind text)
    (hr : Ends kind rest) : Ends kind (text ++ rest) := by
  cases text with
  | nil => exact hr
  | cons b text => exact ht

/-- A fraction is read up to the first byte that is no digit. -/
theorem scanFraction_append (atEnd : Cause) {text rest : List UInt8} {f : Option (List UInt8)}
    (hf : FractionText text f) (hd : Ends isDigit rest) (hp : Ends (· = Byte.point) rest) :
    scanFraction atEnd (text ++ rest) = .ok (f, rest) := by
  cases hf with
  | absent =>
    cases rest with
    | nil => rfl
    | cons b rest =>
      have hb := ends_cons.mp hp
      rw [decide_eq_false_iff_not] at hb
      rw [List.nil_append, scanFraction, if_neg hb]
  | present hs =>
    rename_i digits
    obtain ⟨ht, hr⟩ := digits_append hs.2 hd
    rw [List.cons_append, scanFraction, if_pos rfl, ht, hr]
    cases digits with
    | nil => exact absurd rfl hs.1
    | cons d digits => rfl

/-- Nothing but a fraction, or none, is read behind the whole digits. -/
theorem fractionText_of_scanFraction {atEnd : Cause} {input rest : List UInt8}
    {f : Option (List UInt8)} (h : scanFraction atEnd input = .ok (f, rest)) :
    ∃ text, FractionText text f ∧ input = text ++ rest := by
  cases input with
  | nil =>
    cases h
    exact ⟨[], .absent, rfl⟩
  | cons b tail =>
    rw [scanFraction] at h
    by_cases hb : b = Byte.point
    · rw [if_pos hb] at h
      split at h
      · cases h
      · cases h
      · rename_i hn _
        cases h
        refine ⟨b :: tail.takeWhile isDigit, hb ▸ .present ⟨hn, ?_⟩, ?_⟩
        · exact List.all_eq_true.mp List.all_takeWhile
        · rw [List.cons_append, List.takeWhile_append_dropWhile]
    · rw [if_neg hb] at h
      cases h
      exact ⟨[], .absent, rfl⟩

/-- The sign of an exponent is read before its digits. -/
theorem scanSign_append {text rest : List UInt8} {negative : Bool} (hs : SignText text negative)
    (hd : ∃ d later, rest = d :: later ∧ isDigit d = true) :
    scanSign (text ++ rest) = (negative, rest) := by
  obtain ⟨d, later, rfl, hd⟩ := hd
  cases hs with
  | absent =>
    have hp : d ≠ Byte.plus := by rintro rfl; cases hd
    have hm : d ≠ Byte.minus := by rintro rfl; cases hd
    rw [List.nil_append, scanSign, if_neg hp, if_neg hm]
  | plus => rfl
  | minus => rfl

/-- Nothing but a sign, or none, is read before the digits of an exponent. -/
theorem signText_of_scanSign {input rest : List UInt8} {negative : Bool}
    (h : scanSign input = (negative, rest)) :
    ∃ text, SignText text negative ∧ input = text ++ rest := by
  cases input with
  | nil =>
    cases h
    exact ⟨[], .absent, rfl⟩
  | cons b tail =>
    rw [scanSign] at h
    split at h
    · rename_i hb
      cases h
      exact ⟨[Byte.plus], .plus, by rw [hb, List.singleton_append]⟩
    · split at h
      · rename_i hb
        cases h
        exact ⟨[Byte.minus], .minus, by rw [hb, List.singleton_append]⟩
      · cases h
        exact ⟨[], .absent, rfl⟩

/-- An exponent is read up to what does not go on a number. -/
theorem scanExponent_append (atEnd : Cause) {text rest : List UInt8}
    {e : Option (Bool × List UInt8)} (he : ExponentText text e) (hr : Ends continuesNumber rest) :
    scanExponent atEnd (text ++ rest) = .ok (e, rest) := by
  cases he with
  | absent =>
    cases rest with
    | nil => rfl
    | cons b rest =>
      have hb := ends_cons.mp hr
      simp only [continuesNumber, Bool.or_eq_false_iff, decide_eq_false_iff_not] at hb
      simp [scanExponent, hb]
  | present he hs hd =>
    rename_i b sign digits negative
    obtain ⟨hn, hd⟩ := hd
    cases digits with
    | nil => exact absurd rfl hn
    | cons d digits =>
      obtain ⟨hf, hl⟩ := List.forall_mem_cons.mp hd
      obtain ⟨ht, hr⟩ := digits_append hl hr.digit
      have hsign : scanSign (sign ++ (d :: digits ++ rest)) = (negative, d :: digits ++ rest) :=
        scanSign_append hs ⟨d, digits ++ rest, rfl, hf⟩
      have hb : (decide (b = 0x65) || decide (b = 0x45)) = true := by simpa using he
      rw [List.append_assoc, List.cons_append, scanExponent, if_pos hb, hsign]
      simp only [List.cons_append, hf, if_true, ht, hr]

/-- Nothing but an exponent, or none, is read behind the fraction. -/
theorem exponentText_of_scanExponent {atEnd : Cause} {input rest : List UInt8}
    {e : Option (Bool × List UInt8)} (h : scanExponent atEnd input = .ok (e, rest)) :
    ∃ text, ExponentText text e ∧ input = text ++ rest := by
  cases input with
  | nil =>
    cases h
    exact ⟨[], .absent, rfl⟩
  | cons b tail =>
    rw [scanExponent] at h
    split at h
    · rename_i hb
      rw [Bool.or_eq_true, decide_eq_true_eq, decide_eq_true_eq] at hb
      split at h
      rename_i negative after hs
      obtain ⟨sign, ht, rfl⟩ := signText_of_scanSign hs
      split at h
      · cases h
      · rename_i d later
        split at h
        · rename_i hd
          cases h
          refine ⟨b :: sign ++ (d :: later.takeWhile isDigit), ?_, ?_⟩
          · exact .present hb ht (digits_takeWhile hd later)
          · simp [List.takeWhile_append_dropWhile]
        · cases h
    · cases h
      exact ⟨[], .absent, rfl⟩

/-- A fraction does not start with a digit. -/
theorem FractionText.ends {text : List UInt8} {f : Option (List UInt8)} (h : FractionText text f) :
    Ends isDigit text := by
  cases h with
  | absent => exact nofun
  | present _ => exact ends_cons.mpr rfl

/-- An exponent starts neither with a digit nor with a point. -/
theorem ExponentText.ends {text : List UInt8} {e : Option (Bool × List UInt8)}
    (h : ExponentText text e) : Ends isDigit text ∧ Ends (· = Byte.point) text := by
  cases h with
  | absent => exact ⟨nofun, nofun⟩
  | present he _ _ =>
    rw [List.cons_append, ends_cons, ends_cons]
    rcases he with rfl | rfl <;> exact ⟨rfl, rfl⟩

/-- The digits before the point start with a digit. -/
theorem WholeText.head {whole : List UInt8} (h : WholeText whole) :
    ∃ d later, whole = d :: later ∧ isDigit d = true := by
  obtain ⟨⟨hn, hd⟩, -⟩ := h
  cases whole with
  | nil => exact absurd rfl hn
  | cons d later => exact ⟨d, later, rfl, hd d List.mem_cons_self⟩

/-- Every text has a sign in front, which may be empty. -/
theorem exists_signOf (input : List UInt8) :
    ∃ negative unsigned, input = signOf negative ++ unsigned ∧
      (negative = false → Ends (· = Byte.minus) unsigned) := by
  cases input with
  | nil => exact ⟨false, [], rfl, fun _ => nofun⟩
  | cons b tail =>
    by_cases hb : b = Byte.minus
    · exact ⟨true, tail, by rw [hb]; rfl, nofun⟩
    · exact ⟨false, b :: tail, rfl, fun _ => ends_cons.mpr (decide_eq_false hb)⟩

/-- Behind the sign, a number is read in three parts. -/
theorem scanNumber_eq (atEnd : Cause) {negative : Bool} {unsigned : List UInt8}
    (h : negative = false → Ends (· = Byte.minus) unsigned) :
    scanNumber atEnd (signOf negative ++ unsigned) = (do
      let (whole, rest) ← scanWhole atEnd unsigned
      let (fraction, rest) ← scanFraction atEnd rest
      let (exponent, rest) ← scanExponent atEnd rest
      pure (⟨negative, whole, fraction, exponent⟩, rest)) := by
  cases negative with
  | true => rfl
  | false =>
    cases unsigned with
    | nil => rfl
    | cons b tail =>
      have hb := of_decide_eq_false (ends_cons.mp (h rfl))
      rw [signOf, if_neg Bool.false_ne_true, List.nil_append, scanNumber.eq_def]
      dsimp only
      rw [if_neg hb]

/-- A number is read part by part up to what does not go on it. -/
theorem scanNumber_append (atEnd : Cause) {text rest : List UInt8} {l : Literal}
    (hl : LiteralText text l) (hr : Ends continuesNumber rest) :
    scanNumber atEnd (text ++ rest) = .ok (l, rest) := by
  cases hl with
  | parts hw hf he =>
    rename_i whole fraction exponent negative f e
    obtain ⟨d, later, hd, hi⟩ := hw.head
    have hm : d ≠ Byte.minus := by rintro rfl; cases hi
    have hww := scanWhole_append atEnd hw (hf.ends.append (he.ends.1.append hr.digit))
    have hff := scanFraction_append atEnd hf (he.ends.1.append hr.digit)
      (he.ends.2.append hr.point)
    have hee := scanExponent_append atEnd he hr
    have hu : Ends (· = Byte.minus) (whole ++ (fraction ++ (exponent ++ rest))) := by
      rw [hd]
      exact ends_cons.mpr (decide_eq_false hm)
    simp only [List.append_assoc]
    rw [scanNumber_eq atEnd fun _ => hu, hww, ok_bind]
    dsimp only
    rw [hff, ok_bind]
    dsimp only
    rw [hee, ok_bind]
    rfl

/-- What is read as a number is one. -/
theorem literalText_of_scanNumber {atEnd : Cause} {input rest : List UInt8} {l : Literal}
    (h : scanNumber atEnd input = .ok (l, rest)) :
    ∃ text, LiteralText text l ∧ input = text ++ rest := by
  obtain ⟨negative, unsigned, rfl, hs⟩ := exists_signOf input
  rw [scanNumber_eq atEnd hs] at h
  obtain ⟨⟨whole, _⟩, hw, h⟩ := exists_of_bind_eq_ok h
  obtain ⟨⟨f, _⟩, hf, h⟩ := exists_of_bind_eq_ok h
  obtain ⟨⟨e, _⟩, he, h⟩ := exists_of_bind_eq_ok h
  cases h
  obtain ⟨whole_text, rfl⟩ := wholeText_of_scanWhole hw
  obtain ⟨fraction, fraction_text, rfl⟩ := fractionText_of_scanFraction hf
  obtain ⟨exponent, exponent_text, rfl⟩ := exponentText_of_scanExponent he
  exact ⟨_, .parts whole_text fraction_text exponent_text, by simp⟩

/-- The double of a literal does not depend on what follows. -/
theorem double_eq_ok {l : Literal} {rest : List UInt8} {f : Float}
    (h : l.double rest = .ok f) (after : List UInt8) : l.double after = .ok f := by
  unfold Literal.double at h ⊢
  cases hx : l.exponent with
  | none =>
    simp only [hx, pure_bind] at h ⊢
    cases hs : scaled _ _ _ with
    | none => rw [hs] at h; cases h
    | some size => rw [hs] at h; exact h
  | some exponent =>
    obtain ⟨negative, digits⟩ := exponent
    simp only [hx] at h ⊢
    cases hv : exponentValue 0 digits with
    | ok value =>
      simp only [hv, pure_bind] at h ⊢
      cases hs : scaled _ _ _ with
      | none => rw [hs] at h; cases h
      | some size => rw [hs] at h; exact h
    | error unread =>
      simp only [hv] at h ⊢
      split at h
      · cases h
      · rename_i hz
        rw [if_neg hz]
        exact h

/-- The number of a literal does not depend on what follows. -/
theorem number_eq_ok {l : Literal} {rest : List UInt8} {n : Number}
    (h : l.number rest = .ok n) (after : List UInt8) : l.number after = .ok n := by
  have hd (h : (l.double rest).map Number.double = .ok n) :
      (l.double after).map Number.double = .ok n := by
    cases hf : l.double rest with
    | error fault => rw [hf] at h; cases h
    | ok f => rw [hf] at h; rw [double_eq_ok hf after]; exact h
  unfold Literal.number at h ⊢
  generalize (if l.negative = true then _ else _ : Int) = value at h ⊢
  dsimp only at h ⊢
  split at h
  · rename_i hfits
    rw [dif_pos hfits]
    split at h
    · rename_i hi
      rw [if_pos hi]
      exact h
    · rename_i hi
      rw [if_neg hi]
      exact hd h
  · rename_i hfits
    rw [dif_neg hfits]
    exact hd h

/-- A number is read exactly if one stands there and does not go on. -/
theorem readNumber_append {text rest : List UInt8} {n : Number} (hn : NumberText text n)
    (hr : Ends continuesNumber rest) : readNumber (text ++ rest) = .ok (n, rest) := by
  cases hn with
  | literal hl hn =>
    rw [readNumber, scanNumber_append _ hl hr, ok_bind]
    dsimp only
    rw [number_eq_ok hn rest]
    rfl

/-- Nothing but a number is read as one. -/
theorem numberText_of_readNumber {input rest : List UInt8} {n : Number}
    (h : readNumber input = .ok (n, rest)) : ∃ text, NumberText text n ∧ input = text ++ rest := by
  obtain ⟨⟨l, _⟩, hl, h⟩ := exists_of_bind_eq_ok h
  obtain ⟨_, hn, h⟩ := exists_of_bind_eq_ok h
  cases h
  obtain ⟨text, literal_text, rfl⟩ := literalText_of_scanNumber hl
  exact ⟨text, .literal literal_text (number_eq_ok hn []), rfl⟩

end LiveTopology.Json
