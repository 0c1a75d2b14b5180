import LiveTopology.Proofs.Json.Parts

/-!
# Values are read exactly

A text is read as a value exactly if it denotes it. Both directions are by induction on the depth,
with the loops over arrays and objects for the step; a document adds white space at its end.
-/

namespace LiveTopology.Json

/-! ## Values -/

/-- A colon is read exactly if there is one behind white space. -/
theorem readColon_eq_ok_iff {input rest : List UInt8} :
    readColon input = .ok rest ↔ ∃ gap, Blank gap ∧ input = gap ++ Byte.colon :: rest := by
  constructor
  · intro h
    rw [readColon] at h
    split at h
    · cases h
    · rename_i b tail hs
      obtain ⟨-, gap, hg, rfl⟩ := exists_blank_of_skipSpace hs
      split at h
      · rename_i hb
        cases h
        exact ⟨gap, hg, by rw [hb]⟩
      · cases h
  · rintro ⟨gap, hg, rfl⟩
    rw [readColon, skipSpace_append hg, skipSpace_cons rfl]
    exact if_pos rfl

/-- A member is put under its key. -/
def putPair (fields : List (String × Value)) (pair : String × Value) :
    Option (List (String × Value)) :=
  some (Fields.put pair.1 pair.2 fields)

/-- Pairs that are put one by one make up the fields. -/
theorem foldlM_putPair (pairs : List (String × Value)) :
    pairs.foldlM putPair [] = some (Fields.ofPairs pairs) :=
  List.foldlM_pure

/-- The members of an object are gathered one by one if their values are read. -/
theorem gathers_valueMember {reader : Reader Value} {part : List UInt8 → Value → Prop}
    (hr : Reads reader part) : Gathers (valueMember reader) part putPair := by
  intro gap before core rest key v gathered next hg hb hc he hs
  cases hs
  rw [valueMember, readColon_eq_ok_iff.mpr ⟨gap, hg, rfl⟩, ok_bind, hr hb hc he]
  rfl

/-- No member is gathered that is not written, if no value is read that is not. -/
theorem gathersOnly_valueMember {reader : Reader Value} {part : List UInt8 → Value → Prop}
    (hr : ReadsOnly reader part) : GathersOnly (valueMember reader) part putPair := by
  intro input rest key gathered next h
  obtain ⟨behind, hcolon, h⟩ := exists_of_bind_eq_ok h
  obtain ⟨⟨v, after⟩, hv, h⟩ := exists_of_bind_eq_ok h
  cases h
  obtain ⟨gap, hg, rfl⟩ := readColon_eq_ok_iff.mp hcolon
  obtain ⟨before, core, hb, hc, rfl⟩ := hr hv
  exact ⟨gap, before, core, v, hg, hb, hc, rfl, rfl⟩

/-- A number starts with a minus sign or a digit. -/
theorem NumberText.head {text : List UInt8} {n : Number} (h : NumberText text n) :
    ∃ b tail, text = b :: tail ∧ (b = Byte.minus || isDigit b) = true := by
  cases h with
  | literal hl hn =>
    cases hl with
    | parts hw hf he =>
      rename_i whole fraction exponent negative f e
      obtain ⟨d, later, rfl, hd⟩ := hw.head
      cases negative with
      | true => exact ⟨Byte.minus, _, rfl, rfl⟩
      | false => exact ⟨d, _, rfl, by rw [hd, Bool.or_true]⟩

/-- The first byte of a number starts no other kind of value. -/
theorem starts_number {b : UInt8} (h : (b = Byte.minus || isDigit b) = true) :
    isSpace b = false ∧ b ≠ Byte.closeBracket ∧ b ≠ Byte.openBracket ∧ b ≠ Byte.openBrace ∧
      b ≠ Byte.letterN ∧ b ≠ Byte.letterT ∧ b ≠ Byte.letterF ∧ b ≠ Byte.quote := by
  have hne {c : UInt8} (hc : (c = Byte.minus || isDigit c) = false) : b ≠ c := by
    rintro rfl
    rw [hc] at h
    cases h
  refine ⟨?_, hne rfl, hne rfl, hne rfl, hne rfl, hne rfl, hne rfl, hne rfl⟩
  have h₁ : b ≠ 0x20 := hne rfl
  have h₂ : b ≠ 0x09 := hne rfl
  have h₃ : b ≠ 0x0A := hne rfl
  have h₄ : b ≠ 0x0D := hne rfl
  simp [isSpace, h₁, h₂, h₃, h₄]

/-- A word, a string or a number starts with a byte that is neither white space nor a bracket. -/
theorem Scalar.starts {text : List UInt8} {v : Value} (h : Scalar text v) :
    ∃ b tail, text = b :: tail ∧ isSpace b = false ∧ b ≠ Byte.closeBracket ∧
      b ≠ Byte.openBracket ∧ b ≠ Byte.openBrace := by
  cases h with
  | nullWord => exact ⟨_, _, rfl, rfl, by decide⟩
  | trueWord => exact ⟨_, _, rfl, rfl, by decide⟩
  | falseWord => exact ⟨_, _, rfl, rfl, by decide⟩
  | string hs =>
    obtain ⟨written, rfl⟩ := hs.head
    exact ⟨_, _, rfl, rfl, by decide⟩
  | number hn =>
    obtain ⟨b, tail, rfl, hb⟩ := hn.head
    obtain ⟨hspace, hclose, hbracket, hbrace, -⟩ := starts_number hb
    exact ⟨b, tail, rfl, hspace, hclose, hbracket, hbrace⟩

/-- Texts of values start with a byte that is neither white space nor a closing bracket. -/
theorem starts_denotes (depth : Nat) : Starts (Denotes depth) := by
  have hscalar {core : List UInt8} {v : Value} (hs : Scalar core v) :
      ∃ b tail, core = b :: tail ∧ isSpace b = false ∧ b ≠ Byte.closeBracket := by
    obtain ⟨b, tail, hc, hb, hclose, -⟩ := hs.starts
    exact ⟨b, tail, hc, hb, hclose⟩
  intro core v h
  cases depth with
  | zero => exact hscalar h
  | succ depth =>
    cases h with
    | scalar hs => exact hscalar hs
    | array ha =>
      cases ha with
      | bracketed _ => exact ⟨_, _, rfl, rfl, by decide⟩
    | object ho =>
      cases ho with
      | braced _ => exact ⟨_, _, rfl, rfl, by decide⟩

/-- Words, strings and numbers are read at every depth. -/
theorem value_scalar (depth : Nat) {before core rest : List UInt8} {v : Value} (hb : Blank before)
    (hs : Scalar core v) (hr : Ends continuesNumber rest) :
    value depth (before ++ core ++ rest) = .ok (v, rest) := by
  rw [List.append_assoc, value.eq_def, skipSpace_append hb]
  cases hs with
  | nullWord =>
    rw [List.cons_append, skipSpace_cons rfl]
    dsimp only
    rw [if_pos rfl, readWord_eq_ok_iff.mpr rfl]
    rfl
  | trueWord =>
    rw [List.cons_append, skipSpace_cons rfl]
    dsimp only
    rw [if_neg (by decide), if_pos rfl, readWord_eq_ok_iff.mpr rfl]
    rfl
  | falseWord =>
    rw [List.cons_append, skipSpace_cons rfl]
    dsimp only
    rw [if_neg (by decide), if_neg (by decide), if_pos rfl, readWord_eq_ok_iff.mpr rfl]
    rfl
  | string ht =>
    obtain ⟨written, rfl⟩ := ht.head
    rw [List.cons_append, skipSpace_cons rfl]
    dsimp only
    rw [if_neg (by decide), if_neg (by decide), if_neg (by decide), if_pos rfl,
      readString_eq_ok_iff.mpr ⟨written, ht, rfl⟩]
    rfl
  | number hn =>
    obtain ⟨b, tail, rfl, hb⟩ := hn.head
    obtain ⟨hspace, -, -, -, hletterN, hletterT, hletterF, hquote⟩ := starts_number hb
    have hread := readNumber_append hn hr
    rw [List.cons_append] at hread ⊢
    rw [skipSpace_cons hspace]
    dsimp only
    rw [if_neg hletterN, if_neg hletterT, if_neg hletterF, if_neg hquote, if_pos hb, hread]
    rfl

/-- An opening bracket, white space before it, starts an array. -/
theorem value_array (depth : Nat) {before rest : List UInt8} (hb : Blank before) :
    value (depth + 1) (before ++ Byte.openBracket :: rest) = (do
      let (found, rest) ← items (value depth) rest
      pure (.array found, rest)) := by
  rw [value, skipSpace_append hb, skipSpace_cons rfl]
  rfl

/-- An opening brace, white space before it, starts an object. -/
theorem value_object (depth : Nat) {before rest : List UInt8} (hb : Blank before) :
    value (depth + 1) (before ++ Byte.openBrace :: rest) = (do
      let (found, rest) ← members (valueMember (value depth)) [] .ok rest
      pure (.object found, rest)) := by
  rw [value, skipSpace_append hb, skipSpace_cons rfl]
  rfl

/-- Every text of a value is read as the value. -/
theorem reads_value (depth : Nat) : Reads (value depth) (Denotes depth) := by
  induction depth with
  | zero =>
    intro before core rest v hb hc hr
    exact value_scalar 0 hb hc hr
  | succ depth ih =>
    intro before core rest v hb hc hr
    cases hc with
    | scalar hs => exact value_scalar (depth + 1) hb hs hr
    | array ha =>
      cases ha with
      | bracketed hl =>
        have hi := items_append ih (starts_denotes depth) hl rest
        simp only [List.append_assoc, List.cons_append, List.nil_append]
        rw [value_array depth hb, hi]
        rfl
    | object ho =>
      cases ho with
      | braced hl =>
        have hm : members (valueMember (value depth)) [] .ok _ = .ok (_, rest) :=
          members_append (gathers_valueMember ih) hl (foldlM_putPair _) rfl rest
        simp only [List.append_assoc, List.cons_append, List.nil_append]
        rw [value_object depth hb, hm]
        rfl

/-- A word that is read stands in front, and gives its value. -/
theorem eq_of_readWord {word input rest : List UInt8} {v w : Value}
    (h : (do let rest ← readWord word input; pure (v, rest)) = Except.ok (w, rest)) :
    w = v ∧ input = word ++ rest := by
  obtain ⟨after, hw, h⟩ := exists_of_bind_eq_ok h
  cases h
  exact ⟨rfl, readWord_eq_ok_iff.mp hw⟩

/-- What is read as a value and opens no array or object is a scalar. -/
theorem exists_scalar {depth : Nat} {input tail rest : List UInt8} {b : UInt8} {v : Value}
    (hs : skipSpace input = b :: tail) (ha : b ≠ Byte.openBracket) (ho : b ≠ Byte.openBrace)
    (h : value depth input = .ok (v, rest)) : ∃ core, Scalar core v ∧ b :: tail = core ++ rest := by
  rw [value.eq_def, hs] at h
  dsimp only at h
  by_cases hn : b = Byte.letterN
  · rw [if_pos hn] at h
    obtain ⟨rfl, rfl⟩ := eq_of_readWord h
    exact ⟨_, .nullWord, by rw [hn]; rfl⟩
  rw [if_neg hn] at h
  by_cases ht : b = Byte.letterT
  · rw [if_pos ht] at h
    obtain ⟨rfl, rfl⟩ := eq_of_readWord h
    exact ⟨_, .trueWord, by rw [ht]; rfl⟩
  rw [if_neg ht] at h
  by_cases hf : b = Byte.letterF
  · rw [if_pos hf] at h
    obtain ⟨rfl, rfl⟩ := eq_of_readWord h
    exact ⟨_, .falseWord, by rw [hf]; rfl⟩
  rw [if_neg hf] at h
  by_cases hq : b = Byte.quote
  · rw [if_pos hq] at h
    obtain ⟨⟨text, after⟩, hr, h⟩ := exists_of_bind_eq_ok h
    cases h
    obtain ⟨written, hw, rfl⟩ := readString_eq_ok_iff.mp hr
    exact ⟨_, .string hw, by rw [hq]; rfl⟩
  rw [if_neg hq] at h
  by_cases hd : (b = Byte.minus || isDigit b) = true
  · rw [if_pos hd] at h
    obtain ⟨⟨number, after⟩, hr, h⟩ := exists_of_bind_eq_ok h
    cases h
    obtain ⟨text, hw, hi⟩ := numberText_of_readNumber hr
    exact ⟨text, .number hw, hi⟩
  rw [if_neg hd, if_neg ha, if_neg ho] at h
  cases h

/-- What is read as a value is a scalar, or an array or object of which the inside is read one level
deeper. -/
theorem value_cases {depth : Nat} {input rest : List UInt8} {v : Value}
    (h : value depth input = .ok (v, rest)) :
    ∃ before, Blank before ∧
      ((∃ core, Scalar core v ∧ input = before ++ core ++ rest) ∨
        ∃ deeper tail, depth = deeper + 1 ∧
          ((∃ found, v = .array found ∧ input = before ++ Byte.openBracket :: tail ∧
              items (value deeper) tail = .ok (found, rest)) ∨
            ∃ found, v = .object found ∧ input = before ++ Byte.openBrace :: tail ∧
              members (valueMember (value deeper)) [] .ok tail = .ok (found, rest))) := by
  cases hs : skipSpace input with
  | nil =>
    rw [value.eq_def, hs] at h
    cases h
  | cons b tail =>
    obtain ⟨-, before, hb, hi⟩ := exists_blank_of_skipSpace hs
    refine ⟨before, hb, ?_⟩
    by_cases ha : b = Byte.openBracket
    · subst ha
      cases depth with
      | zero =>
        rw [value, hs] at h
        cases h
      | succ deeper =>
        rw [hi, value_array deeper hb] at h
        obtain ⟨⟨found, after⟩, hf, h⟩ := exists_of_bind_eq_ok h
        cases h
        exact .inr ⟨deeper, tail, rfl, .inl ⟨found, rfl, hi, hf⟩⟩
    by_cases ho : b = Byte.openBrace
    · subst ho
      cases depth with
      | zero =>
        rw [value, hs] at h
        cases h
      | succ deeper =>
        rw [hi, value_object deeper hb] at h
        obtain ⟨⟨found, after⟩, hf, h⟩ := exists_of_bind_eq_ok h
        cases h
        exact .inr ⟨deeper, tail, rfl, .inr ⟨found, rfl, hi, hf⟩⟩
    obtain ⟨core, hc, ht⟩ := exists_scalar hs ha ho h
    exact .inl ⟨core, hc, by rw [hi, ht, List.append_assoc]⟩

/-- Words, strings and numbers are values at every depth. -/
theorem Denotes.of_scalar {text : List UInt8} {v : Value} (h : Scalar text v) (depth : Nat) :
    Denotes depth text v := by
  cases depth with
  | zero => exact h
  | succ depth => exact .scalar h

/-- Nothing but texts of values is read as a value. -/
theorem readsOnly_value (depth : Nat) : ReadsOnly (value depth) (Denotes depth) := by
  induction depth with
  | zero =>
    intro input rest v h
    obtain ⟨before, hb, ⟨core, hs, hi⟩ | ⟨_, _, hd, _⟩⟩ := value_cases h
    · exact ⟨before, core, hb, hs, hi⟩
    · cases hd
  | succ depth ih =>
    intro input rest v h
    obtain ⟨before, hb, ⟨core, hs, hi⟩ | ⟨deeper, tail, hd, hv⟩⟩ := value_cases h
    · exact ⟨before, core, hb, .scalar hs, hi⟩
    · obtain rfl := Nat.succ.inj hd
      rcases hv with ⟨found, rfl, rfl, hf⟩ | ⟨found, rfl, rfl, hf⟩
      · obtain ⟨inside, hl, rfl⟩ := listing_of_items ih hf
        exact ⟨before, _, hb, .array (.bracketed hl), by simp⟩
      · obtain ⟨inside, pairs, final, hl, hp, hf, rfl⟩ :=
          listing_of_members (gathersOnly_valueMember ih) hf
        rw [foldlM_putPair] at hp
        cases hp
        cases hf
        exact ⟨before, _, hb, .object (.braced hl), by simp⟩

/-! ## Documents -/

/-- Two passes accept a document exactly if the first takes all of it but white space and the second
takes what the first found. -/
theorem documentWith_eq_ok_iff {α β : Type} {reader : Reader α} {finish : α → Except Cause β}
    {text : List UInt8} {b : β} :
    documentWith reader finish text = .ok b ↔
      ∃ a rest, reader text = .ok (a, rest) ∧ finish a = .ok b ∧ Blank rest := by
  constructor
  · intro h
    obtain ⟨⟨a, rest⟩, hr, h⟩ := exists_of_bind_eq_ok h
    obtain ⟨result, hf, h⟩ := exists_of_bind_eq_ok h
    split at h
    · rename_i hs
      cases h
      exact ⟨a, rest, mapError_eq_ok_iff.mp hr, mapError_eq_ok_iff.mp hf,
        skipSpace_eq_nil_iff.mp hs⟩
    · cases h
  · rintro ⟨a, rest, hr, hf, hb⟩
    rw [documentWith, mapError_eq_ok_iff.mpr hr, ok_bind]
    dsimp only
    rw [mapError_eq_ok_iff.mpr hf, ok_bind, skipSpace_eq_nil_iff.mpr hb]
    rfl

/-- A reader accepts a document exactly if it takes all of it but white space. -/
theorem document_eq_ok_iff {α : Type} {reader : Reader α} {text : List UInt8} {a : α} :
    document reader text = .ok a ↔ ∃ rest, reader text = .ok (a, rest) ∧ Blank rest := by
  rw [document, documentWith_eq_ok_iff]
  constructor
  · rintro ⟨found, rest, hr, hf, hb⟩
    cases hf
    exact ⟨rest, hr, hb⟩
  · rintro ⟨rest, hr, hb⟩
    exact ⟨a, rest, hr, rfl, hb⟩

/-- Two passes accept a document exactly if the first accepts it by itself and the second takes what
it found. -/
theorem documentWith_eq_ok_iff_document {α β : Type} {reader : Reader α}
    {finish : α → Except Cause β} {text : List UInt8} {b : β} :
    documentWith reader finish text = .ok b ↔
      ∃ a, document reader text = .ok a ∧ finish a = .ok b := by
  simp only [documentWith_eq_ok_iff, document_eq_ok_iff]
  constructor
  · rintro ⟨a, rest, hr, hf, hb⟩
    exact ⟨a, ⟨rest, hr, hb⟩, hf⟩
  · rintro ⟨a, ⟨rest, hr, hb⟩, hf⟩
    exact ⟨a, rest, hr, hf, hb⟩

/-- A document that is accepted is a text that the reader takes, with white space around it. -/
theorem padded_of_document {α : Type} {reader : Reader α} {part : List UInt8 → α → Prop}
    (ho : ReadsOnly reader part) {text : List UInt8} {a : α} (h : document reader text = .ok a) :
    Padded part text a := by
  obtain ⟨rest, h, hb⟩ := document_eq_ok_iff.mp h
  obtain ⟨before, core, hbefore, hc, rfl⟩ := ho h
  exact .around hbefore hc hb

/-- A document is accepted exactly if it is a text that the reader takes, with white space around
it. -/
theorem document_iff_padded {α : Type} {reader : Reader α} {part : List UInt8 → α → Prop}
    (hr : Reads reader part) (ho : ReadsOnly reader part) {text : List UInt8} {a : α} :
    document reader text = .ok a ↔ Padded part text a := by
  refine ⟨padded_of_document ho, fun h => document_eq_ok_iff.mpr ?_⟩
  cases h with
  | around hb hc ha => exact ⟨_, hr hb hc ha.ends, ha⟩

/-- A text is read as a value exactly if it denotes it. -/
theorem parse_eq_ok_iff {text : List UInt8} {v : Value} :
    parse text = .ok v ↔ Padded (Denotes depthLimit) text v :=
  document_iff_padded (reads_value depthLimit) (readsOnly_value depthLimit)

end LiveTopology.Json
