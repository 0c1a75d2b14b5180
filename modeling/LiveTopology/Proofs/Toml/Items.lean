import LiveTopology.Proofs.Steps
import LiveTopology.Toml.Item
import Mathlib.Data.List.Nodup

/-!
# Tables name nothing twice

Every way to build a document changes a table under one name, in the place of the entry that has the
name or behind all entries. So tables in which names are distinct stay such, at any depth, and every
item of a document is one that was put there.
-/

namespace LiveTopology.Toml

/-- The names of entries in order. -/
def Entries.names (entries : Entries) : List String := entries.map fun entry => entry.1.name

/-- Integers have 64 bits and tables name nothing twice, at any depth. -/
inductive Item.WellFormed : Item → Prop where
  | string (value : String) (span : Span) : WellFormed (.string value span)
  | integer {value : Int} (span : Span)
      (h : -0x8000000000000000 ≤ value ∧ value < 0x8000000000000000) :
      WellFormed (.integer value span)
  | float (value : Float) (span : Span) : WellFormed (.float value span)
  | boolean (value : Bool) (span : Span) : WellFormed (.boolean value span)
  | datetime (span : Span) : WellFormed (.datetime span)
  | array {items : List Item} (span : Span) (h : ∀ item ∈ items, item.WellFormed) :
      WellFormed (.array items span)
  | tables {elements : List Item} (span : Option Span)
      (h : ∀ element ∈ elements, element.WellFormed) :
      WellFormed (.tables elements span)
  | table {entries : List (Key × Item)} (origin : Origin) (span : Option Span)
      (distinct : (Entries.names entries).Nodup) (h : ∀ entry ∈ entries, entry.2.WellFormed) :
      WellFormed (.table origin entries span)

/-- The entries of a well-formed table. -/
structure Entries.WellFormed (entries : Entries) : Prop where
  distinct : entries.names.Nodup
  items : ∀ entry ∈ entries, entry.2.WellFormed

/-- A table is well-formed exactly if its entries are. -/
theorem wellFormed_table_iff {origin : Origin} {entries : Entries} {span : Option Span} :
    (Item.table origin entries span).WellFormed ↔ entries.WellFormed := by
  constructor
  · intro h
    cases h with
    | table _ _ distinct items => exact ⟨distinct, items⟩
  · intro h
    exact .table origin span h.distinct h.items

/-- An array of tables is well-formed exactly if each of them is. -/
theorem wellFormed_tables_iff {elements : List Item} {span : Option Span} :
    (Item.tables elements span).WellFormed ↔ ∀ element ∈ elements, element.WellFormed := by
  constructor
  · intro h
    cases h with
    | tables _ h => exact h
  · exact .tables span

namespace Entries

/-- Without entries nothing is named twice. -/
theorem wellFormed_nil : WellFormed [] := ⟨List.nodup_nil, nofun⟩

/-! ## Looking up -/

theorem names_cons (entry : Key × Item) (rest : Entries) :
    names (entry :: rest) = entry.1.name :: names rest := rfl

/-- A name is looked up in the first entry that has it. -/
theorem get?_cons (name : String) (key : Key) (item : Item) (rest : Entries) :
    get? name ((key, item) :: rest) = if key.name = name then some item else get? name rest := by
  by_cases h : key.name = name <;> simp [get?, h]

/-- Nothing is found under a name exactly if no entry has it. -/
theorem get?_eq_none_iff {name : String} {entries : Entries} :
    entries.get? name = none ↔ name ∉ entries.names := by
  induction entries with
  | nil => simp [get?, names]
  | cons entry rest ih =>
    obtain ⟨key, item⟩ := entry
    rw [get?_cons]
    by_cases h : key.name = name
    · simp [h, names]
    · have hne : name ≠ key.name := fun he => h he.symm
      rw [if_neg h, ih, names_cons, List.mem_cons, or_iff_right hne]

/-- What is found under a name stands in an entry of that name. -/
theorem exists_of_get? {name : String} {entries : Entries} {item : Item}
    (h : entries.get? name = some item) : ∃ key, (key, item) ∈ entries ∧ key.name = name := by
  obtain ⟨⟨key, found⟩, hf, rfl⟩ := Option.map_eq_some_iff.mp h
  have hk := List.find?_some hf
  exact ⟨key, List.mem_of_find?_eq_some hf, of_decide_eq_true hk⟩

/-- What is found in a well-formed table is well-formed. -/
theorem WellFormed.of_get? {entries : Entries} (h : entries.WellFormed) {name : String}
    {item : Item} (hg : entries.get? name = some item) : item.WellFormed := by
  obtain ⟨key, hm, -⟩ := exists_of_get? hg
  exact h.items _ hm

/-- The name of the first entry of a well-formed table occurs in none of the others. -/
theorem WellFormed.cons {key : Key} {item : Item} {rest : Entries}
    (h : WellFormed ((key, item) :: rest)) : rest.get? key.name = none ∧ rest.WellFormed := by
  obtain ⟨hn, hd⟩ := List.nodup_cons.mp h.distinct
  exact ⟨get?_eq_none_iff.mpr hn, hd, fun entry hm => h.items entry (List.mem_cons_of_mem _ hm)⟩

/-- Taking an entry out keeps a table well-formed. -/
theorem WellFormed.erase {entries : Entries} (h : entries.WellFormed) (name : String) :
    (entries.erase name).WellFormed where
  distinct := h.distinct.sublist (List.filter_sublist.map _)
  items entry hm := h.items entry (List.mem_of_mem_filter hm)

/-! ## Changing the item under a name -/

/-- A change under a name keeps all other entries and the order of the names; a new name comes
last. -/
theorem alter_eq_ok {ε : Type} {key : Key} {change : Option Item → Except ε Item}
    {entries result : Entries} (h : entries.alter key change = .ok result) :
    ∃ item, change (entries.get? key.name) = .ok item ∧
      result.names = (if key.name ∈ entries.names then entries.names
        else entries.names ++ [key.name]) ∧
      ∀ entry ∈ result, entry ∈ entries ∨ entry.2 = item := by
  induction entries generalizing result with
  | nil =>
    obtain ⟨item, hc, hr⟩ := exists_of_bind_eq_ok h
    cases hr
    exact ⟨item, hc, rfl, fun entry hm => .inr (List.mem_singleton.mp hm ▸ rfl)⟩
  | cons entry rest ih =>
    obtain ⟨other, present⟩ := entry
    rw [alter] at h
    rw [get?_cons]
    -- The name is that of the first entry, or the change is made among the others.
    split_ifs at h with hk
    · obtain ⟨item, hc, hr⟩ := exists_of_bind_eq_ok h
      cases hr
      have hn : key.name ∈ names ((other, present) :: rest) := hk ▸ List.mem_cons_self
      refine ⟨item, by rwa [if_pos hk], by rw [if_pos hn]; rfl, fun entry hm => ?_⟩
      rcases List.mem_cons.mp hm with rfl | hm
      · exact .inr rfl
      · exact .inl (List.mem_cons_of_mem _ hm)
    · obtain ⟨changed, ha, hr⟩ := exists_of_bind_eq_ok h
      cases hr
      obtain ⟨item, hc, hn, hall⟩ := ih ha
      refine ⟨item, by rwa [if_neg hk], ?_, fun entry hm => ?_⟩
      · have hne : key.name ≠ other.name := fun he => hk he.symm
        have hmem : key.name ∈ names ((other, present) :: rest) ↔ key.name ∈ names rest := by
          rw [names_cons, List.mem_cons, or_iff_right hne]
        simp only [hmem]
        rw [names_cons, names_cons, hn]
        split_ifs
        · rfl
        · rfl
      · rcases List.mem_cons.mp hm with rfl | hm
        · exact .inl List.mem_cons_self
        · exact (hall entry hm).imp_left (List.mem_cons_of_mem _)

/-- A change under a name keeps a table well-formed if the new item is. -/
theorem WellFormed.alter {ε : Type} {key : Key} {change : Option Item → Except ε Item}
    {entries result : Entries} (h : entries.WellFormed)
    (hc : ∀ item, change (entries.get? key.name) = .ok item → item.WellFormed)
    (hr : entries.alter key change = .ok result) : result.WellFormed := by
  obtain ⟨item, hi, hn, hall⟩ := alter_eq_ok hr
  constructor
  · rw [hn]
    split_ifs with hm
    · exact h.distinct
    · rw [← List.concat_eq_append]
      exact h.distinct.concat hm
  · intro entry he
    rcases hall entry he with hm | hm
    · exact h.items entry hm
    · exact hm ▸ hc item hi

end Entries

/-! ## Changing tables along a path -/

/-- A change of the entries of a table that keeps them well-formed. -/
def Sound (change : Origin → Entries → Except Conflict Entries) : Prop :=
  ∀ ⦃origin : Origin⦄ ⦃entries result : Entries⦄, entries.WellFormed →
    change origin entries = .ok result → result.WellFormed

/-- A change under a name is sound if it makes well-formed items of well-formed ones. -/
theorem sound_alter {key : Key} {change : Option Item → Except Conflict Item}
    (h : ∀ found item, (∀ present, found = some present → present.WellFormed) →
      change found = .ok item → item.WellFormed) :
    Sound fun _ entries => entries.alter key change :=
  fun _ _ _ hw hr => hw.alter (fun item hi => h _ item (fun _ hg => hw.of_get? hg) hi) hr

/-- Adding a well-formed item under a new name is sound. -/
theorem sound_addEntry (table : Option (List String)) (dotted : Bool) (key : Key) {item : Item}
    (h : item.WellFormed) : Sound (addEntry table dotted key item) := by
  intro origin entries result hw hr
  rw [addEntry] at hr
  split_ifs at hr with hd
  refine hw.alter (fun added ha => ?_) hr
  split at ha
  · cases ha
    exact h
  · cases ha

/-- What is left when the last of some items is replaced. -/
theorem wellFormed_replace_last {elements earlier : List Item} {last next : Item}
    (h : ∀ element ∈ elements, element.WellFormed) (hr : elements.reverse = last :: earlier)
    (hn : last.WellFormed → next.WellFormed) :
    ∀ element ∈ earlier.reverse ++ [next], element.WellFormed := by
  have hall : ∀ element ∈ last :: earlier, element.WellFormed := fun element hm =>
    h element (List.mem_reverse.mp (hr ▸ hm))
  obtain ⟨hl, he⟩ := List.forall_mem_cons.mp hall
  intro element hm
  rcases List.mem_append.mp hm with hm | hm
  · exact he element (List.mem_reverse.mp hm)
  · exact List.mem_singleton.mp hm ▸ hn hl

/-- A sound change stays sound when it is made in the table to which a path leads. The induction is
on the path: each step on it is a change under a name. -/
theorem sound_descend {dotted : Bool} {change : Origin → Entries → Except Conflict Entries}
    (h : Sound change) (path : List Key) :
    ∀ walked, Sound (descend dotted change walked path) := by
  induction path with
  | nil => exact fun _ => h
  | cons key path ih =>
    intro walked origin entries result hw hr
    refine hw.alter (fun item hi => ?_) hr
    dsimp only at hi
    -- Under the key there is nothing, a table in braces, another table, an array of tables, of which
    -- the last one is changed, or a value.
    split at hi
    · obtain ⟨inner, hd, hi⟩ := exists_of_bind_eq_ok hi
      cases hi
      exact wellFormed_table_iff.mpr (ih _ Entries.wellFormed_nil hd)
    · cases hi
    · rename_i hg
      split_ifs at hi with hc
      obtain ⟨inner, hd, hi⟩ := exists_of_bind_eq_ok hi
      cases hi
      exact wellFormed_table_iff.mpr (ih _ (wellFormed_table_iff.mp (hw.of_get? hg)) hd)
    · rename_i hg
      split at hi
      · rename_i he
        obtain ⟨inner, hd, hi⟩ := exists_of_bind_eq_ok hi
        cases hi
        refine wellFormed_tables_iff.mpr (wellFormed_replace_last
          (wellFormed_tables_iff.mp (hw.of_get? hg)) he fun hl => ?_)
        exact wellFormed_table_iff.mpr (ih _ (wellFormed_table_iff.mp hl) hd)
      · cases hi
    · cases hi

/-- A sound change stays sound when it is made at a path within braces. -/
theorem sound_descendInline {change : Origin → Entries → Except Conflict Entries}
    (h : Sound change) (path : List Key) : ∀ walked, Sound (descendInline change walked path) := by
  induction path with
  | nil => exact fun _ => h
  | cons key path ih =>
    intro walked origin entries result hw hr
    refine hw.alter (fun item hi => ?_) hr
    dsimp only at hi
    split at hi
    · obtain ⟨inner, hd, hi⟩ := exists_of_bind_eq_ok hi
      cases hi
      exact wellFormed_table_iff.mpr (ih _ Entries.wellFormed_nil hd)
    · rename_i hg
      obtain ⟨inner, hd, hi⟩ := exists_of_bind_eq_ok hi
      cases hi
      exact wellFormed_table_iff.mpr (ih _ (wellFormed_table_iff.mp (hw.of_get? hg)) hd)
    · cases hi
    · cases hi

/-- A table in braces is as well-formed as the items in it. -/
theorem wellFormed_inlineEntries {pairs : List (List Key × Key × Item)}
    (h : ∀ pair ∈ pairs, pair.2.2.WellFormed) {entries result : Entries} (hw : entries.WellFormed)
    (hr : inlineEntries pairs entries = .ok result) : result.WellFormed := by
  induction pairs generalizing entries with
  | nil =>
    cases hr
    exact hw
  | cons pair rest ih =>
    obtain ⟨path, key, item⟩ := pair
    obtain ⟨hi, hrest⟩ := List.forall_mem_cons.mp h
    obtain ⟨next, hd, hr⟩ := exists_of_bind_eq_ok hr
    exact ih hrest (sound_descendInline (sound_addEntry none _ key hi) path [] hw hd) hr

/-! ## Building a document -/

namespace Draft

/-- The tables of a document that is being built. -/
structure WellFormed (d : Draft) : Prop where
  root : d.root.WellFormed
  entries : d.entries.WellFormed

/-- The empty document is well-formed. -/
theorem wellFormed_empty : WellFormed .empty := ⟨Entries.wellFormed_nil, Entries.wellFormed_nil⟩

/-- Adding an item keeps a document well-formed. -/
theorem WellFormed.add {d next : Draft} {path : List Key} {key : Key} {item : Item}
    (h : d.WellFormed) (hi : item.WellFormed) (hr : d.add path key item = .ok next) :
    next.WellFormed := by
  obtain ⟨entries, hd, hr⟩ := exists_of_bind_eq_ok hr
  cases hr
  exact ⟨h.root, sound_descend (sound_addEntry _ _ key hi) path [] h.entries hd⟩

/-- Putting the finished table in its place keeps a document well-formed. -/
theorem WellFormed.finish {d next : Draft} (h : d.WellFormed) (hr : d.finish = .ok next) :
    next.WellFormed := by
  have ht : (Item.table .header d.entries d.span).WellFormed := wellFormed_table_iff.mpr h.entries
  rw [Draft.finish] at hr
  split at hr
  · cases hr
    exact ⟨h.entries, Entries.wellFormed_nil⟩
  · obtain ⟨root, hd, hr⟩ := exists_of_bind_eq_ok hr
    cases hr
    refine ⟨sound_descend (sound_alter fun found item hf hp => ?_) _ [] h.root hd,
      Entries.wellFormed_nil⟩
    split_ifs at hp with he
    · split at hp
      · cases hp
        exact wellFormed_tables_iff.mpr (List.forall_mem_singleton.mpr ht)
      · cases hp
        refine wellFormed_tables_iff.mpr fun element hm => ?_
        rcases List.mem_append.mp hm with hm | hm
        · exact wellFormed_tables_iff.mp (hf _ rfl) element hm
        · exact List.mem_singleton.mp hm ▸ ht
      · cases hp
    · split at hp
      · cases hp
        exact ht
      · cases hp

/-- What is looked at along a path of well-formed tables is well-formed. -/
theorem wellFormed_lookAt {look : Entries → Except Conflict Entries}
    (h : ∀ entries found, entries.WellFormed → look entries = .ok found → found.WellFormed)
    {path : List Key} {root found : Entries} (hw : root.WellFormed)
    (hr : startTable.lookAt path root look = .ok found) : found.WellFormed := by
  induction path generalizing root with
  | nil => exact h root found hw hr
  | cons step rest ih =>
    rw [startTable.lookAt] at hr
    split at hr
    · cases hr
      exact Entries.wellFormed_nil
    · rename_i hg
      exact ih (wellFormed_table_iff.mp (hw.of_get? hg)) hr
    · rename_i hg
      split at hr
      · rename_i hl
        have hm := wellFormed_tables_iff.mp (hw.of_get? hg) _ (List.mem_of_getLast? hl)
        exact ih (wellFormed_table_iff.mp hm) hr
      · cases hr
        exact Entries.wellFormed_nil
    · cases hr
      exact Entries.wellFormed_nil

/-- The header of a table keeps a document well-formed. -/
theorem WellFormed.startTable {d next : Draft} {path : List Key} {key : Key} {span : Span}
    (h : d.WellFormed) (hr : d.startTable path key span = .ok next) : next.WellFormed := by
  obtain ⟨done, hf, hr⟩ := exists_of_bind_eq_ok hr
  obtain ⟨kept, hl, hr⟩ := exists_of_bind_eq_ok hr
  obtain ⟨root, hd, hr⟩ := exists_of_bind_eq_ok hr
  cases hr
  have hroot := (h.finish hf).root
  refine ⟨sound_descend (fun _ entries _ hw he => ?_) path [] hroot hd,
    wellFormed_lookAt (fun entries found hw hh => ?_) hroot hl⟩
  · cases he
    exact hw.erase key.name
  · split at hh
    · cases hh
      exact Entries.wellFormed_nil
    · rename_i hg
      cases hh
      exact wellFormed_table_iff.mp (hw.of_get? hg)
    · cases hh

/-- The header of an array of tables keeps a document well-formed. -/
theorem WellFormed.startElement {d next : Draft} {path : List Key} {key : Key} {span : Span}
    (h : d.WellFormed) (hr : d.startElement path key span = .ok next) : next.WellFormed := by
  obtain ⟨done, hf, hr⟩ := exists_of_bind_eq_ok hr
  obtain ⟨root, hd, hr⟩ := exists_of_bind_eq_ok hr
  cases hr
  refine ⟨sound_descend (sound_alter fun found item hp hi => ?_) path [] (h.finish hf).root hd,
    Entries.wellFormed_nil⟩
  split at hi
  · cases hi
    exact wellFormed_tables_iff.mpr (List.forall_mem_nil _)
  · cases hi
    exact wellFormed_tables_iff.mpr (wellFormed_tables_iff.mp (hp _ rfl))
  · cases hi

/-- A finished document is a table. -/
theorem WellFormed.document {d : Draft} {document : Item} (h : d.WellFormed)
    (hr : d.document = .ok document) :
    ∃ root span, document = .table .header root span ∧ Entries.WellFormed root := by
  obtain ⟨done, hf, hr⟩ := exists_of_bind_eq_ok hr
  cases hr
  exact ⟨_, _, rfl, (h.finish hf).root⟩

end Draft

end LiveTopology.Toml
