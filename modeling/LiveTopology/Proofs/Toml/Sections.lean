import LiveTopology.Proofs.Toml.Items
import LiveTopology.Toml.Schema

/-!
# Sections are read field by field

What is known after the entries of a table is, for each field, what stands under its name, and
whether the entries are taken depends on these items alone. The order of the entries, names that no
field has, and the way in which the table was written play no part.
-/

namespace LiveTopology.Toml

/-- The item to which a path of names leads through tables. -/
def Item.at? : (path : List String) → Item → Option Item
  | [], item => some item
  | name :: path, .table _ entries _ => (Entries.get? name entries).bind (at? path)
  | _ :: _, _ => none

/-- Whether an item is a table, however it is written. -/
def Item.isTable : Item → Bool
  | .table _ _ _ => true
  | _ => false

/-- What is a table has entries. -/
theorem exists_of_isTable {item : Item} (h : item.isTable = true) :
    ∃ origin entries span, item = .table origin entries span := by
  cases item with
  | table origin entries span => exact ⟨origin, entries, span, rfl⟩
  | _ => cases h

/-- What a setting can tell from an item: a value of one of three kinds, or that it is none. -/
inductive Simple where
  | string (value : String)
  | integer (value : Int)
  | boolean (value : Bool)
  /-- A float, a date or time, an array or a table. -/
  | other
  deriving DecidableEq, Repr

/-- An item as far as a setting can tell it from others. -/
def Item.simple : Item → Simple
  | .string value _ => .string value
  | .integer value _ => .integer value
  | .boolean value _ => .boolean value
  | _ => .other

/-- What a setting can tell from the item to which a path leads. -/
def Item.simple? (path : List String) (item : Item) : Option Simple :=
  (item.at? path).map Item.simple

/-- A path leads on from the item under its first name. -/
theorem simple?_cons (name : String) (path : List String) (origin : Origin) (entries : Entries)
    (span : Option Span) :
    (Item.table origin entries span).simple? (name :: path) =
      (entries.get? name).bind (Item.simple? path) := by
  rw [Item.simple?, Item.at?, Option.map_bind]
  rfl

/-- A path whose first name is there leads on from the item under it. -/
theorem simple?_of_get? {name : String} {entries : Entries} {item : Item}
    (h : entries.get? name = some item) (path : List String) (origin : Origin)
    (span : Option Span) :
    (Item.table origin entries span).simple? (name :: path) = item.simple? path := by
  rw [simple?_cons, h]
  rfl

/-- A single name leads to the item under it. -/
theorem simple?_singleton (name : String) (origin : Origin) (entries : Entries)
    (span : Option Span) :
    (Item.table origin entries span).simple? [name] = (entries.get? name).map Item.simple := by
  rw [simple?_cons, Option.map_eq_bind]
  rfl

/-! ## Single values -/

/-- An item is taken as a text exactly if it is a string. -/
theorem asString_eq_ok_iff {item : Item} {text : String} :
    item.asString = .ok text ↔ item.simple = .string text := by
  cases item <;> simp [Item.asString, Item.simple, Item.fails]

/-- An item is taken as a truth value exactly if it is one. -/
theorem asBool_eq_ok_iff {item : Item} {flag : Bool} :
    item.asBool = .ok flag ↔ item.simple = .boolean flag := by
  cases item <;> simp [Item.asBool, Item.simple, Item.fails]

/-- An item is taken as a number exactly if it is an integer from zero up to the bound. -/
theorem asNatural_eq_ok_iff {bound n : Nat} {kind : String} {item : Item} :
    item.asNatural bound kind = .ok n ↔ item.simple = .integer n ∧ n < bound := by
  cases item with
  | integer value span =>
    rw [Item.asNatural, Item.simple, Simple.integer.injEq]
    split_ifs with h
    · rw [Except.ok.injEq]
      omega
    · refine iff_of_false nofun ?_
      omega
  | _ => simp [Item.asNatural, Item.simple, Item.fails]

/-! ## Sections -/

/-- Whether the field takes an item does not depend on what is known. -/
def Field.Steady {σ : Type} (field : Field σ) : Prop :=
  ∀ item known other, (∃ after, field.read item known = .ok after) →
    ∃ after, field.read item other = .ok after

/-- A field that reads its item alone and then puts the value somewhere is steady. -/
theorem steady_of_read {σ α : Type} {field : Field σ} (reads : Item → Except DataError α)
    (put : σ → α → σ)
    (h : ∀ item known, field.read item known = reads item >>= fun value => pure (put known value)) :
    field.Steady := by
  rintro item known other ⟨after, hr⟩
  rw [h] at hr
  obtain ⟨value, hv, -⟩ := exists_of_bind_eq_ok hr
  exact ⟨put other value, by rw [h, hv]; rfl⟩

namespace Schema

variable {σ α β : Type} {schema : Schema σ α}

/-- An entry is passed over, or its item is taken by the field of its name. -/
theorem readEntries_cons_eq_ok {key : Key} {item : Item} {rest : Entries} {known after : σ}
    (h : schema.readEntries ((key, item) :: rest) known = .ok after) :
    ((∀ field ∈ schema.fields, field.name ≠ key.name) ∧
        schema.readEntries rest known = .ok after) ∨
      ∃ field ∈ schema.fields, field.name = key.name ∧
        ∃ next, field.read item known = .ok next ∧ schema.readEntries rest next = .ok after := by
  rw [readEntries] at h
  split at h
  · rename_i hf
    refine .inl ⟨fun field hm hk => ?_, h⟩
    exact List.find?_eq_none.mp hf field hm (decide_eq_true hk)
  · rename_i field hf
    split at h
    · cases h
    · rename_i next hr
      have hk := List.find?_some hf
      exact .inr ⟨field, List.mem_of_find?_eq_some hf, of_decide_eq_true hk, next, hr, h⟩

/-- A part of what is known that is set by the item under one name and by no other. -/
structure Sets (schema : Schema σ α) (name : String) (writes : Item → β → Prop) (view : σ → β) :
    Prop where
  known : ∃ field ∈ schema.fields, field.name = name
  own : ∀ field ∈ schema.fields, field.name = name → ∀ item known after,
    field.read item known = .ok after → writes item (view after)
  others : ∀ field ∈ schema.fields, field.name ≠ name → ∀ item known after,
    field.read item known = .ok after → view after = view known

/-- What is set by the item under a name is left as it was where there is none. -/
theorem Sets.after {name : String} {writes : Item → β → Prop} {view : σ → β}
    (h : schema.Sets name writes view) {entries : Entries} (hw : entries.WellFormed)
    {known after : σ} (hr : schema.readEntries entries known = .ok after) :
    (entries.get? name = none → view after = view known) ∧
      ∀ item, entries.get? name = some item → writes item (view after) := by
  induction entries generalizing known with
  | nil =>
    cases hr
    exact ⟨fun _ => rfl, nofun⟩
  | cons entry rest ih =>
    obtain ⟨key, item⟩ := entry
    obtain ⟨hfresh, hrest⟩ := hw.cons
    rw [Entries.get?_cons]
    rcases readEntries_cons_eq_ok hr with ⟨hn, hr⟩ | ⟨field, hm, hk, next, hn, hr⟩
    · obtain ⟨field, hm, hname⟩ := h.known
      rw [if_neg fun he => hn field hm (hname.trans he.symm)]
      exact ih hrest hr
    · obtain ⟨hnone, hsome⟩ := ih hrest hr
      split_ifs with he
      · refine ⟨nofun, fun found hf => ?_⟩
        cases hf
        rw [hnone (he ▸ hfresh)]
        exact h.own field hm (hk.trans he) item known next hn
      · rw [← h.others field hm (fun hf => he (hk.symm.trans hf)) item known next hn]
        exact ⟨hnone, hsome⟩

/-- Entries are taken exactly if each field takes what stands under its name. -/
theorem exists_readEntries_iff (hu : ∀ field ∈ schema.fields, field.Steady)
    (hd : (schema.fields.map Field.name).Nodup)
    {entries : Entries} (hw : entries.WellFormed) (known : σ) :
    (∃ after, schema.readEntries entries known = .ok after) ↔
      ∀ field ∈ schema.fields, ∀ item, entries.get? field.name = some item →
        ∃ after, field.read item known = .ok after := by
  induction entries generalizing known with
  | nil => exact iff_of_true ⟨known, rfl⟩ nofun
  | cons entry rest ih =>
    obtain ⟨key, item⟩ := entry
    obtain ⟨hfresh, hrest⟩ := hw.cons
    -- The name of the first entry occurs in no other, so its field is asked once. What the fields of
    -- the others take does not depend on what it has set.
    constructor
    · rintro ⟨after, hr⟩ field hm found hf
      rw [Entries.get?_cons] at hf
      rcases readEntries_cons_eq_ok hr with ⟨hn, hr⟩ | ⟨taker, ht, hk, next, hn, hr⟩
      · rw [if_neg fun he => hn field hm he.symm] at hf
        exact (ih hrest known).mp ⟨after, hr⟩ field hm found hf
      · split_ifs at hf with he
        · cases hf
          have hsame : taker = field := List.inj_on_of_nodup_map hd ht hm (hk.trans he)
          exact ⟨next, hsame ▸ hn⟩
        · exact hu field hm found next known ((ih hrest next).mp ⟨after, hr⟩ field hm found hf)
    · intro h
      rw [readEntries]
      have hlater (next : σ) : ∃ after, schema.readEntries rest next = .ok after := by
        refine (ih hrest next).mpr fun field hm found hf => ?_
        have hne : ¬ key.name = field.name := fun he => by
          rw [← he, hfresh] at hf
          cases hf
        have hg : Entries.get? field.name ((key, item) :: rest) = some found := by
          rwa [Entries.get?_cons, if_neg hne]
        exact hu field hm found known next (h field hm found hg)
      split
      · exact hlater known
      · rename_i field hf
        have hk : field.name = key.name := of_decide_eq_true (List.find?_some hf :)
        have hg : Entries.get? field.name ((key, item) :: rest) = some item := by
          rw [Entries.get?_cons, if_pos hk.symm]
        obtain ⟨next, hn⟩ := h field (List.mem_of_find?_eq_some hf) item hg
        rw [hn]
        exact hlater next

end Schema

end LiveTopology.Toml
