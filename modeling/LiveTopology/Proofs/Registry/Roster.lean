import LiveTopology.Proofs.Fields
import LiveTopology.Registry

/-!
# The registry as a list of records

Seen from outside, the registry is a list of records with distinct ids in the order of their
insertion: its roster. Behind the roster stand rows with ascending numbers below the counter and an
index that leads from each listed id to the number of its row, and from no other id anywhere.
Numbers have 64 bits, so the counter must not have come round when a record is inserted.
-/

namespace LiveTopology

open Node

/-! ## Rosters -/

namespace Roster

/-- The record of an id. -/
def find? (id : String) (roster : List Record) : Option Record :=
  roster.find? fun record => record.id = id

/-- A roster without the record of an id. -/
def without (id : String) (roster : List Record) : List Record :=
  roster.filter fun record => record.id ≠ id

/-- A record at the end is found under its name if no earlier one is. -/
theorem find?_append_singleton (id : String) (roster : List Record) (record : Record) :
    find? id (roster ++ [record]) =
      (find? id roster).or (if record.id = id then some record else none) := by
  rw [find?, List.find?_append, List.find?_singleton]
  simp only [decide_eq_true_eq]
  rfl

/-- A record that was taken off is found no more, and all others still are. -/
theorem find?_without (id other : String) (roster : List Record) :
    find? other (without id roster) = if other = id then none else find? other roster :=
  find?_filter_key_ne id other

/-- Nothing is found under a name exactly if no record has it. -/
theorem find?_eq_none {id : String} {roster : List Record} :
    find? id roster = none ↔ id ∉ roster.map Record.id := by
  simp [find?]

/-- Nothing is left out of a roster that does not list the id. -/
theorem without_of_find?_eq_none {id : String} {roster : List Record}
    (h : find? id roster = none) : without id roster = roster := by
  rw [find?, List.find?_eq_none] at h
  rw [without, List.filter_eq_self]
  intro record hr
  simpa using h record hr

end Roster

namespace Registry

/-- The registry stands for a roster after a number of insertions. -/
structure Lists (r : Registry) (inserted : ℕ) (roster : List Record) : Prop where
  records : r.records = roster
  ids : (roster.map Record.id).Nodup
  ascending : (r.rows.map Prod.fst).Pairwise (· < ·)
  below : ∀ row ∈ r.rows, row.1.toNat < inserted
  counter : r.counter = .ofNat inserted
  index : ∀ id, r.index[id]? = (r.rows.find? fun row => row.2.id = id).map Prod.fst
  size : r.index.size = r.rows.length

/-- The empty registry lists the empty roster. -/
theorem lists_empty : Lists .empty 0 [] where
  records := rfl
  ids := List.nodup_nil
  ascending := .nil
  below := nofun
  counter := rfl
  index _ := Std.HashMap.getElem?_empty
  size := Std.HashMap.size_empty

/-- A row whose number is above all others goes to the end. -/
theorem putRow_of_above {rows : List (UInt64 × Record)} {number : UInt64} (record : Record)
    (h : ∀ row ∈ rows, row.1 < number) :
    putRow number record rows = rows ++ [(number, record)] := by
  induction rows with
  | nil => rfl
  | cons row rest ih =>
    obtain ⟨hr, hrest⟩ := List.forall_mem_cons.mp h
    have hn : number ≠ row.1 := (UInt64.ne_of_lt hr).symm
    have hl : ¬ number < row.1 := UInt64.lt_asymm hr
    rw [putRow, if_neg hn, if_neg hl, ih hrest]
    rfl

namespace Lists

variable {r : Registry} {inserted : ℕ} {roster : List Record}

/-- No two rows have the same number. -/
theorem numbers (h : Lists r inserted roster) : (r.rows.map Prod.fst).Nodup :=
  h.ascending.imp UInt64.ne_of_lt

/-- The rows have the ids of the roster. -/
theorem row_ids (h : Lists r inserted roster) :
    (r.rows.map fun row => row.2.id).Nodup := by
  have hi := h.ids
  rw [← h.records, Registry.records, List.map_map] at hi
  exact hi

/-- The row of an id holds the record that the roster has for it. -/
theorem find?_row (h : Lists r inserted roster) (id : String) :
    (r.rows.find? fun row => row.2.id = id).map Prod.snd = Roster.find? id roster := by
  rw [← h.records, Registry.records, Roster.find?, List.find?_map]
  rfl

/-- The registry has a node exactly if the roster has its record. -/
theorem contains_eq (h : Lists r inserted roster) (id : String) :
    r.contains id = (Roster.find? id roster).isSome := by
  rw [contains, Std.HashMap.contains_eq_isSome_getElem?, h.index, ← h.find?_row, Option.isSome_map,
    Option.isSome_map]

/-- The registry gives the record that the roster has. -/
theorem get?_eq (h : Lists r inserted roster) (id : String) :
    r.get? id = Roster.find? id roster := by
  rw [get?, h.index, ← h.find?_row]
  cases hf : r.rows.find? fun row => row.2.id = id with
  | none => rfl
  | some row =>
    have hm := List.mem_of_find?_eq_some hf
    simp only [Option.map_some]
    rw [row?, find?_key h.numbers hm]
    rfl

/-- The registry counts the records of the roster. -/
theorem size_eq (h : Lists r inserted roster) : r.size = roster.length := by
  rw [Registry.size, h.size, ← h.records, Registry.records, List.length_map]

/-- A record whose id is listed is refused. -/
theorem insert_known (h : Lists r inserted roster) {record : Record}
    (hf : (Roster.find? record.id roster).isSome) : r.insert record = (false, r) := by
  rw [← h.contains_eq] at hf
  exact if_pos hf

/-- While the counter has not come round, it is above the numbers of all rows. -/
theorem above (h : Lists r inserted roster) (hb : inserted < UInt64.size) :
    r.counter.toNat = inserted ∧ ∀ row ∈ r.rows, row.1 < r.counter := by
  have hn : r.counter.toNat = inserted := by
    rw [h.counter, UInt64.toNat_ofNat_of_lt' hb]
  refine ⟨hn, fun row hr => ?_⟩
  rw [UInt64.lt_iff_toNat_lt, hn]
  exact h.below row hr

/-- Inserting a record whose id is not listed adds its row at the end. -/
theorem insert_eq (h : Lists r inserted roster) {record : Record}
    (hf : Roster.find? record.id roster = none) (hb : inserted < UInt64.size) :
    r.insert record =
      (true, ⟨r.counter + 1, r.index.insert record.id r.counter,
        r.rows ++ [(r.counter, record)]⟩) := by
  have hc : ¬ r.index.contains record.id := by
    rw [← contains, h.contains_eq, hf]
    exact Bool.false_ne_true
  rw [insert, if_neg hc, putRow_of_above record (h.above hb).2]

/-- A record whose id is not listed becomes the last one, while there is a number for it. -/
theorem insert_new (h : Lists r inserted roster) {record : Record}
    (hf : Roster.find? record.id roster = none) (hb : inserted < UInt64.size) :
    (r.insert record).1 = true ∧
      Lists (r.insert record).2 (inserted + 1) (roster ++ [record]) := by
  obtain ⟨hn, ha⟩ := h.above hb
  have hi := Roster.find?_eq_none.mp hf
  have hrow : (r.rows.find? fun row => row.2.id = record.id) = none := by
    rw [← Option.map_eq_none_iff, h.find?_row, hf]
  rw [h.insert_eq hf hb]
  -- Each field is about the rows with one more behind them, whose number and id are new.
  refine ⟨rfl, ?records, ?ids, ?ascending, ?below, ?counter, ?index, ?size⟩
  case records =>
    rw [← h.records]
    exact List.map_append
  case ids =>
    rw [List.map_append]
    exact h.ids.append (List.nodup_singleton _) (List.disjoint_singleton.mpr hi)
  case ascending =>
    rw [List.map_append, List.pairwise_append]
    refine ⟨h.ascending, List.pairwise_singleton _ _, ?_⟩
    intro number hm other ho
    obtain ⟨row, hr, rfl⟩ := List.mem_map.mp hm
    rw [List.mem_singleton.mp ho]
    exact ha row hr
  case below =>
    intro row hr
    rcases List.mem_append.mp hr with hr | hr
    · exact Nat.lt_succ_of_lt (h.below row hr)
    · rw [List.mem_singleton.mp hr, hn]
      exact Nat.lt_succ_self inserted
  case counter =>
    dsimp only
    rw [h.counter, UInt64.ofNat_add]
    rfl
  case index =>
    intro id
    dsimp only
    rw [Std.HashMap.getElem?_insert, h.index, List.find?_append, List.find?_singleton]
    by_cases he : record.id = id
    · subst he
      simp [hrow]
    · simp [he]
  case size =>
    have hm : record.id ∉ r.index := by
      rw [Std.HashMap.mem_iff_isSome_getElem?, h.index, hrow]
      exact Bool.false_ne_true
    dsimp only
    rw [Std.HashMap.size_insert, if_neg hm, h.size, List.length_append, List.length_singleton]

/-- The row with the number of an id is the row with the id. -/
theorem number_eq_iff (h : Lists r inserted roster) {id : String} {row other : UInt64 × Record}
    (hf : (r.rows.find? fun row => row.2.id = id) = some row) (ho : other ∈ r.rows) :
    other.1 = row.1 ↔ other.2.id = id := by
  have hr := List.mem_of_find?_eq_some hf
  have hk := List.find?_some hf
  rw [decide_eq_true_eq] at hk
  constructor
  · intro hn
    rw [List.inj_on_of_nodup_map h.numbers ho hr hn, hk]
  · intro hi
    rw [List.inj_on_of_nodup_map h.row_ids ho hr (hi.trans hk.symm)]

/-- Removing a node that is not listed changes nothing. -/
theorem remove_unknown (h : Lists r inserted roster) {id : String}
    (hf : Roster.find? id roster = none) : r.remove id = (false, r) := by
  have hi : r.index[id]? = none := by
    rw [h.index, Option.map_eq_none_iff, ← Option.map_eq_none_iff, h.find?_row, hf]
  rw [Registry.remove, hi]

/-- Removing the id of a row takes it from the index and from the rows. -/
theorem remove_eq (h : Lists r inserted roster) {id : String} {row : UInt64 × Record}
    (hr : (r.rows.find? fun row => row.2.id = id) = some row) :
    r.remove id =
      (true, { r with
        index := r.index.erase id, rows := r.rows.filter fun row => row.2.id ≠ id }) := by
  have hi : r.index[id]? = some row.1 := by rw [h.index, hr, Option.map_some]
  have hrows : (r.rows.filter fun other => other.1 ≠ row.1) =
      r.rows.filter fun other => other.2.id ≠ id := by
    refine List.filter_congr fun other ho => ?_
    rw [decide_eq_decide, not_iff_not]
    exact h.number_eq_iff hr ho
  rw [Registry.remove, hi]
  dsimp only
  rw [hrows]

/-- Removing an id takes its record from the roster, and tells whether it was listed. -/
theorem remove (h : Lists r inserted roster) (id : String) :
    (r.remove id).1 = (Roster.find? id roster).isSome ∧
      Lists (r.remove id).2 inserted (Roster.without id roster) := by
  cases hr : r.rows.find? fun row => row.2.id = id with
  | none =>
    have hf : Roster.find? id roster = none := by rw [← h.find?_row, hr, Option.map_none]
    rw [h.remove_unknown hf, Roster.without_of_find?_eq_none hf, hf]
    exact ⟨rfl, h⟩
  | some row =>
    have hi : id ∈ r.rows.map fun row => row.2.id :=
      List.mem_map.mpr ⟨row, List.mem_of_find?_eq_some hr, of_decide_eq_true (List.find?_some hr :)⟩
    have hm : id ∈ r.index := by
      rw [Std.HashMap.mem_iff_isSome_getElem?, h.index, hr]
      rfl
    rw [h.remove_eq hr, ← h.find?_row, hr]
    -- What holds of all rows holds of those that are left. Only the index and the size need the row.
    refine ⟨rfl, ?records, ?ids, ?ascending, ?below, h.counter, ?index, ?size⟩
    case records =>
      rw [← h.records, Registry.records, Registry.records, Roster.without, List.filter_map]
      rfl
    case ids => exact h.ids.sublist (List.filter_sublist.map _)
    case ascending => exact h.ascending.sublist (List.filter_sublist.map _)
    case below =>
      intro row hr
      exact h.below row (List.mem_of_mem_filter hr)
    case index =>
      intro other
      dsimp only
      rw [Std.HashMap.getElem?_erase, h.index, find?_filter_key_ne]
      by_cases he : other = id
      · simp [he]
      · simp [he, Ne.symm he]
    case size =>
      dsimp only
      rw [Std.HashMap.size_erase, if_pos hm, h.size, length_filter_key_ne h.row_ids hi]

/-- Clearing empties the roster; the numbers go on. -/
theorem clear (h : Lists r inserted roster) : Lists r.clear inserted [] where
  records := rfl
  ids := List.nodup_nil
  ascending := .nil
  below := nofun
  counter := h.counter
  index _ := Std.HashMap.getElem?_empty
  size := Std.HashMap.size_empty

end Lists

end Registry

end LiveTopology
