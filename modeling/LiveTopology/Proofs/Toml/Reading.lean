import LiveTopology.Proofs.Toml.Items
import LiveTopology.Toml.Reader

/-!
# What is read is well-formed

Every value that a reader takes off a text is well-formed: integers are checked to have 64 bits, and
the tables of values and of the document are built entry by entry. So a document is a table, and no
table in it names anything twice.
-/

namespace LiveTopology.Toml

/-- Whatever a reader takes off a text has a property. -/
def Yields {α : Type} (property : α → Prop) (reader : Reader α) : Prop :=
  ∀ ⦃c next : Cursor⦄ ⦃a : α⦄, reader c = .ok (a, next) → property a

/-! ## Single values -/

/-- A word yields the item for which it stands. -/
theorem yields_word {property : Item → Prop} {item : Span → Item} (h : ∀ span, property (item span))
    (letters : String) : Yields property (word letters item) := by
  intro c next a hr
  rw [word] at hr
  split_ifs at hr
  cases hr
  exact h _

/-- An integer that fits is well-formed. -/
theorem wellFormed_fitting {start next after : Cursor} {value : Int} {span : Span} {item : Item}
    (h : fitting start value span next = .ok (item, after)) : item.WellFormed := by
  rw [fitting] at h
  split_ifs at h with hv
  cases h
  exact .integer span hv

/-- Integers of other bases are read to well-formed items. -/
theorem yields_basedInteger (base : Nat) (name : String) (inClass : Char → Bool) :
    Yields Item.WellFormed (basedInteger base name inClass) := by
  intro c next item hr
  rw [basedInteger] at hr
  split at hr
  · cases hr
  · exact wellFormed_fitting hr

/-- Integers are read to well-formed items. -/
theorem yields_integer : Yields Item.WellFormed integer := by
  intro c next item hr
  rw [integer] at hr
  split_ifs at hr
  · exact yields_basedInteger _ _ _ hr
  · exact yields_basedInteger _ _ _ hr
  · exact yields_basedInteger _ _ _ hr
  · split at hr
    · cases hr
    · exact wellFormed_fitting hr

/-- Floats are read to well-formed items. -/
theorem yields_float : Yields Item.WellFormed float := by
  intro c next item hr
  rw [float] at hr
  split at hr
  · cases hr
    exact .float _ _
  · cases hr

/-- Dates and times are read to well-formed items. -/
theorem yields_datetime : Yields Item.WellFormed datetime := by
  intro c next item hr
  rw [datetime] at hr
  split at hr
  · cases hr
    exact .datetime _
  · split_ifs at hr
    split at hr
    · cases hr
      exact .datetime _
    · cases hr

/-- What starts with a sign or a digit is read to a well-formed item. -/
theorem yields_numeric : Yields Item.WellFormed numeric := by
  intro c next item hr
  rw [numeric] at hr
  split at hr
  · rename_i hd
    cases hr
    exact yields_datetime hd
  · split_ifs at hr
    split at hr
    · rename_i hf
      cases hr
      exact yields_float hf
    · split_ifs at hr
      exact yields_integer hr

/-! ## Arrays and tables in braces -/

section

variable {value : Reader Item}

/-- The items of an array are well-formed if its reader of values yields such. -/
theorem yields_arrayItems (h : Yields Item.WellFormed value) (fuel : Nat) :
    Yields (fun items => ∀ item ∈ items, item.WellFormed) (arrayItems value fuel) := by
  induction fuel with
  | zero =>
    intro c next items hr
    cases hr
    exact List.forall_mem_nil _
  | succ fuel ih =>
    intro c next items hr
    rw [arrayItems] at hr
    split at hr
    · split_ifs at hr
      cases hr
      exact List.forall_mem_nil _
    · rename_i hv
      dsimp only at hr
      have hone := List.forall_mem_singleton.mpr (h hv)
      split_ifs at hr
      · obtain ⟨⟨later, after⟩, hl, hr⟩ := exists_of_bind_eq_ok hr
        dsimp only at hr
        split_ifs at hr
        · cases hr
          exact hone
        · cases hr
          exact List.forall_mem_cons.mpr ⟨h hv, ih hl⟩
      · cases hr
        exact hone

/-- Arrays are read to well-formed items if their items are. -/
theorem yields_array (h : Yields Item.WellFormed value) : Yields Item.WellFormed (array value) := by
  intro c next item hr
  obtain ⟨⟨items, after⟩, hi, hr⟩ := exists_of_bind_eq_ok hr
  dsimp only at hr
  split_ifs at hr
  all_goals
    cases hr
    exact .array _ (yields_arrayItems h _ hi)

/-- A pair within braces has a well-formed item. -/
theorem yields_inlinePair (h : Yields Item.WellFormed value) :
    Yields (fun pair => pair.2.2.WellFormed) (inlinePair value) := by
  intro c next pair hr
  obtain ⟨⟨⟨path, key⟩, after⟩, -, hr⟩ := exists_of_bind_eq_ok hr
  obtain ⟨⟨item, behind⟩, hi, hr⟩ := exists_of_bind_eq_ok hr
  cases hr
  obtain ⟨start, -, hi⟩ := exists_of_bind_eq_ok (mapError_eq_ok_iff.mp hi)
  obtain ⟨⟨found, stop⟩, hv, hi⟩ := exists_of_bind_eq_ok hi
  cases hi
  exact h hv

/-- All pairs within braces have well-formed items. -/
theorem yields_inlinePairs (h : Yields Item.WellFormed value) (fuel : Nat) :
    Yields (fun pairs => ∀ pair ∈ pairs, pair.2.2.WellFormed) (inlinePairs value fuel) := by
  induction fuel with
  | zero =>
    intro c next pairs hr
    cases hr
    exact List.forall_mem_nil _
  | succ fuel ih =>
    intro c next pairs hr
    rw [inlinePairs] at hr
    split at hr
    · split_ifs at hr
      cases hr
      exact List.forall_mem_nil _
    · rename_i hp
      have hi := yields_inlinePair h hp
      have hone {pair : List Key × Key × Item} (hw : pair.2.2.WellFormed) :
          ∀ only ∈ [pair], only.2.2.WellFormed := fun only hm => List.mem_singleton.mp hm ▸ hw
      split_ifs at hr
      · obtain ⟨⟨later, after⟩, hl, hr⟩ := exists_of_bind_eq_ok hr
        dsimp only at hr
        split_ifs at hr
        · cases hr
          exact hone hi
        · cases hr
          exact List.forall_mem_cons.mpr ⟨hi, ih hl⟩
      · cases hr
        exact hone hi

/-- Tables in braces are read to well-formed items if the items in them are. -/
theorem yields_inlineTable (h : Yields Item.WellFormed value) :
    Yields Item.WellFormed (inlineTable value) := by
  intro c next item hr
  obtain ⟨⟨pairs, after⟩, hp, hr⟩ := exists_of_bind_eq_ok hr
  dsimp only at hr
  split at hr
  · cases hr
  · rename_i he
    split_ifs at hr
    cases hr
    exact wellFormed_table_iff.mpr
      (wellFormed_inlineEntries (yields_inlinePairs h _ hp) Entries.wellFormed_nil he)

end

/-- A value is well-formed if those that may nest in it are. -/
theorem yields_value_of_inner {depth : Nat}
    (h : ∀ inner, depth = inner + 1 → Yields Item.WellFormed (value inner)) :
    Yields Item.WellFormed (value depth) := by
  intro c next item hr
  rw [value.eq_def] at hr
  split at hr
  · cases hr
  -- One case for each character that a value can start with, in the order of the reader.
  rcases ite_eq_iff.mp hr with ⟨-, hr⟩ | ⟨-, hr⟩
  · obtain ⟨⟨text, after⟩, -, hi⟩ := exists_of_map_eq_ok hr
    cases hi
    exact .string _ _
  rcases ite_eq_iff.mp hr with ⟨-, hr⟩ | ⟨-, hr⟩
  · split at hr
    · cases hr
    · exact yields_array (h _ rfl) hr
  rcases ite_eq_iff.mp hr with ⟨-, hr⟩ | ⟨-, hr⟩
  · split at hr
    · cases hr
    · exact yields_inlineTable (h _ rfl) hr
  rcases ite_eq_iff.mp hr with ⟨-, hr⟩ | ⟨-, hr⟩
  · exact yields_numeric hr
  rcases ite_eq_iff.mp hr with ⟨-, hr⟩ | ⟨-, hr⟩
  · exact yields_integer (mapError_eq_ok_iff.mp hr)
  rcases ite_eq_iff.mp hr with ⟨-, hr⟩ | ⟨-, hr⟩
  · exact yields_float (mapError_eq_ok_iff.mp hr)
  rcases ite_eq_iff.mp hr with ⟨-, hr⟩ | ⟨-, hr⟩
  · exact yields_word (Item.WellFormed.boolean true) "true" hr
  rcases ite_eq_iff.mp hr with ⟨-, hr⟩ | ⟨-, hr⟩
  · exact yields_word (Item.WellFormed.boolean false) "false" hr
  rcases ite_eq_iff.mp hr with ⟨-, hr⟩ | ⟨-, hr⟩
  · exact yields_word (Item.WellFormed.float (1 / 0)) "inf" hr
  rcases ite_eq_iff.mp hr with ⟨-, hr⟩ | ⟨-, hr⟩
  · exact yields_word (Item.WellFormed.float (0 / 0)) "nan" hr
  cases hr

/-- Values of every depth are read to well-formed items. -/
theorem yields_value (depth : Nat) : Yields Item.WellFormed (value depth) := by
  induction depth with
  | zero => exact yields_value_of_inner nofun
  | succ depth ih => exact yields_value_of_inner fun inner he => Nat.succ.inj he ▸ ih

/-! ## Documents -/

/-- A line with a key and a value keeps the document well-formed. -/
theorem yields_keyValue {draft : Draft} (h : draft.WellFormed) :
    Yields Draft.WellFormed (keyValue draft) := by
  intro c next final hr
  obtain ⟨⟨⟨path, key⟩, afterName⟩, -, hr⟩ := exists_of_bind_eq_ok hr
  obtain ⟨start, -, hr⟩ := exists_of_bind_eq_ok hr
  obtain ⟨⟨item, afterItem⟩, hv, hr⟩ := exists_of_bind_eq_ok hr
  obtain ⟨stop, -, hr⟩ := exists_of_bind_eq_ok hr
  split at hr
  · rename_i ha
    cases hr
    exact h.add (yields_value _ (mapError_eq_ok_iff.mp hv)) ha
  · cases hr

/-- A line with a header keeps the document well-formed. -/
theorem yields_tableHeader {draft : Draft} (h : draft.WellFormed) :
    Yields Draft.WellFormed (tableHeader draft) := by
  intro c next final hr
  have hr := mapError_eq_ok_iff.mp hr
  dsimp only at hr
  split_ifs at hr
  all_goals
    obtain ⟨⟨⟨path, key⟩, afterName⟩, -, hr⟩ := exists_of_bind_eq_ok hr
    dsimp only at hr
    split_ifs at hr
    obtain ⟨behind, -, hr⟩ := exists_of_bind_eq_ok hr
    split at hr
  · rename_i hs
    cases hr
    exact h.startElement hs
  · cases hr
  · rename_i hs
    cases hr
    exact h.startTable hs
  · cases hr

/-- Line by line, the document that is being built stays well-formed. -/
theorem wellFormed_lines {fuel : Nat} {draft final : Draft} {c : Cursor} (h : draft.WellFormed)
    (hr : lines fuel draft c = .ok final) : final.WellFormed := by
  induction fuel generalizing draft c with
  | zero => cases hr
  | succ fuel ih =>
    rw [lines] at hr
    split at hr
    · cases hr
      exact h
    · split_ifs at hr
      · obtain ⟨next, -, hr⟩ := exists_of_bind_eq_ok hr
        exact ih h hr
      · obtain ⟨⟨changed, next⟩, ht, hr⟩ := exists_of_bind_eq_ok hr
        exact ih (yields_tableHeader h ht) hr
      · split at hr
        · exact ih h hr
        · cases hr
      · obtain ⟨⟨changed, next⟩, hk, hr⟩ := exists_of_bind_eq_ok hr
        exact ih (yields_keyValue h hk) hr

/-- A document is a table in which no name occurs twice, and neither in any table inside. -/
theorem exists_root_of_parse {text : List Char} {document : Item} (h : parse text = .ok document) :
    ∃ root span, document = .table .header root span ∧ Entries.WellFormed root := by
  rw [parse] at h
  split at h
  · cases h
  · rename_i hl
    split at h
    · cases h
    · rename_i hd
      cases h
      exact (wellFormed_lines Draft.wellFormed_empty hl).document hd

end LiveTopology.Toml
