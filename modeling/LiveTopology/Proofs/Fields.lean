import LiveTopology.Fields
import Mathlib.Data.List.Induction
import Mathlib.Data.List.Nodup
import Mathlib.Data.List.Sort
import Mathlib.Data.String.Basic

/-!
# Named values put one after another

Putting the values of a text in turn leaves ascending fields, in which every name has the last value
that was written under it. Ascending fields are determined by what is found under each name, so
fields that were built in different ways can be compared name by name.
-/

namespace LiveTopology

/-! ## Lists with distinct keys -/

section Keys

variable {α κ : Type} [DecidableEq κ] {key : α → κ} {l : List α}

/-- Under distinct keys, a listed element is found by its key. -/
theorem find?_key (hn : (l.map key).Nodup) {a : α} (ha : a ∈ l) :
    l.find? (fun b => key b = key a) = some a := by
  cases hf : l.find? fun b => key b = key a with
  | none =>
    rw [List.find?_eq_none] at hf
    exact absurd (decide_eq_true rfl) (hf a ha)
  | some b =>
    have hk := List.find?_some hf
    rw [decide_eq_true_eq] at hk
    rw [List.inj_on_of_nodup_map hn (List.mem_of_find?_eq_some hf) ha hk]

/-- Leaving out the elements with one key hides this key and no other. -/
theorem find?_filter_key_ne (k other : κ) :
    (l.filter fun a => key a ≠ k).find? (fun a => key a = other) =
      if other = k then none else l.find? fun a => key a = other := by
  rw [List.find?_filter]
  split_ifs with h
  · rw [List.find?_eq_none]
    intro a _ ha
    simp only [decide_not, Bool.not_eq_true', decide_eq_false_iff_not, decide_eq_true_eq] at ha
    exact ha.1 (ha.2.trans h)
  · congr 1
    funext a
    by_cases ha : key a = other
    · simp [ha, h]
    · simp [ha]

/-- Under distinct keys, leaving out a listed one leaves out one element. -/
theorem length_filter_key_ne (hn : (l.map key).Nodup) {k : κ} (hk : k ∈ l.map key) :
    (l.filter fun a => key a ≠ k).length = l.length - 1 := by
  have he := List.length_erase_of_mem hk
  rw [hn.erase_eq_filter, List.filter_map, List.length_map, List.length_map] at he
  rw [← he]
  congr 1
  refine List.filter_congr fun a _ => ?_
  rw [Bool.eq_iff_iff, Function.comp_apply, bne_iff_ne, decide_eq_true_eq]

end Keys

/-! ## Values under their names -/

namespace Fields

variable {α : Type}

/-- The values written under a name, in order. -/
def under (name : String) (pairs : List (String × α)) : List α :=
  (pairs.filter fun pair => pair.1 = name).map Prod.snd

theorem under_nil (name : String) : under name ([] : List (String × α)) = [] := rfl

/-- The values under a name are taken pair by pair. -/
theorem under_cons (name : String) (pair : String × α) (rest : List (String × α)) :
    under name (pair :: rest) =
      if pair.1 = name then pair.2 :: under name rest else under name rest := by
  by_cases h : pair.1 = name <;> simp [under, h]

/-- The values under a name in later pairs come behind those in earlier ones. -/
theorem under_append (name : String) (pairs later : List (String × α)) :
    under name (pairs ++ later) = under name pairs ++ under name later := by
  rw [under, List.filter_append, List.map_append, under, under]

/-- A single pair has its value under its own name alone. -/
theorem under_singleton (name : String) (pair : String × α) :
    under name [pair] = if pair.1 = name then [pair.2] else [] :=
  under_cons name pair []

/-- There are no values under a name exactly if no pair has it. -/
theorem under_eq_nil_iff {name : String} {pairs : List (String × α)} :
    under name pairs = [] ↔ ∀ pair ∈ pairs, pair.1 ≠ name := by
  rw [under, List.map_eq_nil_iff, List.filter_eq_nil_iff]
  simp only [decide_eq_true_eq, ne_eq]

/-- Leaving out a name leaves the values of every other name. -/
theorem under_erase {name other : String} (h : name ≠ other) (pairs : List (String × α)) :
    under name (erase other pairs) = under name pairs := by
  rw [under, under, erase, List.filter_filter]
  congr 1
  refine List.filter_congr fun pair _ => ?_
  rw [Bool.and_eq_left_iff_imp, decide_eq_true_eq, decide_eq_true_eq]
  rintro rfl
  exact h

/-- The fields when the values of pairs are put in turn. -/
def putAll (pairs fields : List (String × α)) : List (String × α) :=
  pairs.foldl (fun fields pair => put pair.1 pair.2 fields) fields

/-- Pairs are put one after the other. -/
theorem putAll_append (pairs later fields : List (String × α)) :
    putAll (pairs ++ later) fields = putAll later (putAll pairs fields) :=
  List.foldl_append

/-- A last pair is put into the fields of those before. -/
theorem ofPairs_concat (pairs : List (String × α)) (pair : String × α) :
    ofPairs (pairs ++ [pair]) = put pair.1 pair.2 (ofPairs pairs) :=
  List.foldl_concat _ _ _ _

/-- The last value of a name wins. -/
theorem get?_ofPairs (name : String) (pairs : List (String × α)) :
    get? name (ofPairs pairs) = (under name pairs).getLast? := by
  induction pairs using List.reverseRecOn with
  | nil => rfl
  | append_singleton pairs pair ih =>
    rw [ofPairs_concat, get?_put, under_append, under_singleton, ih]
    by_cases h : pair.1 = name
    · rw [if_pos h, if_pos h, List.getLast?_concat]
    · rw [if_neg h, if_neg h, List.append_nil]

/-- Putting adds no field but the one that is put. -/
theorem mem_put {name : String} {value : α} {fields : List (String × α)} {field : String × α}
    (h : field ∈ put name value fields) : field = (name, value) ∨ field ∈ fields := by
  induction fields with
  | nil => exact .inl (List.mem_singleton.mp h)
  | cons first rest ih =>
    rw [put] at h
    split_ifs at h with hn hl
    · rcases List.mem_cons.mp h with h | h
      · exact .inl h
      · exact .inr (List.mem_cons_of_mem first h)
    · exact List.mem_cons.mp h
    · rcases List.mem_cons.mp h with h | h
      · exact .inr (h ▸ List.mem_cons_self)
      · exact (ih h).imp_right (List.mem_cons_of_mem first)

/-- Every field comes from a pair. -/
theorem mem_of_mem_ofPairs {pairs : List (String × α)} {field : String × α}
    (h : field ∈ ofPairs pairs) : field ∈ pairs := by
  induction pairs using List.reverseRecOn with
  | nil => exact h
  | append_singleton pairs pair ih =>
    rw [ofPairs_concat] at h
    rcases mem_put h with rfl | h
    · exact List.mem_append_right _ (List.mem_singleton_self _)
    · exact List.mem_append_left _ (ih h)

/-! ## Ascending fields -/

/-- Fields are in order exactly if the first name comes before all others and these are in order. -/
theorem ascending_cons {field : String × α} {rest : List (String × α)} :
    Ascending (field :: rest) ↔ (∀ later ∈ rest, field.1 < later.1) ∧ Ascending rest := by
  rw [Ascending, List.map_cons, List.pairwise_cons, List.forall_mem_map, Ascending]

/-- Putting a value keeps fields in order. -/
theorem ascending_put (name : String) (value : α) {fields : List (String × α)}
    (h : Ascending fields) : Ascending (put name value fields) := by
  induction fields with
  | nil => exact List.pairwise_singleton _ _
  | cons first rest ih =>
    obtain ⟨hf, hr⟩ := ascending_cons.mp h
    rw [put]
    split_ifs with hn hl
    · subst hn
      exact ascending_cons.mpr ⟨hf, hr⟩
    · refine ascending_cons.mpr ⟨fun later hm => ?_, h⟩
      rcases List.mem_cons.mp hm with rfl | hm
      · exact hl
      · exact hl.trans (hf later hm)
    · refine ascending_cons.mpr ⟨fun later hm => ?_, ih hr⟩
      rcases mem_put hm with rfl | hm
      · exact lt_of_le_of_ne (not_lt.mp hl) (Ne.symm hn)
      · exact hf later hm

/-- Erasing a name keeps fields in order. -/
theorem ascending_erase (name : String) {fields : List (String × α)} (h : Ascending fields) :
    Ascending (erase name fields) :=
  h.sublist (List.filter_sublist.map _)

/-- Fields made from pairs are in order, whatever the order of the pairs. -/
theorem ascending_ofPairs (pairs : List (String × α)) : Ascending (ofPairs pairs) := by
  induction pairs using List.reverseRecOn with
  | nil => exact .nil
  | append_singleton pairs pair ih =>
    rw [ofPairs_concat]
    exact ascending_put pair.1 pair.2 ih

/-- There is nothing left to erase a second time. -/
theorem erase_erase (name : String) (fields : List (String × α)) :
    erase name (erase name fields) = erase name fields := by
  rw [erase, erase, List.filter_filter]
  simp only [Bool.and_self]

/-- A name above all others goes to the end. -/
theorem put_of_above {name : String} {fields : List (String × α)} (value : α)
    (h : ∀ field ∈ fields, field.1 < name) : put name value fields = fields ++ [(name, value)] := by
  induction fields with
  | nil => rfl
  | cons first rest ih =>
    obtain ⟨hf, hr⟩ := List.forall_mem_cons.mp h
    have hn : name ≠ first.1 := hf.ne'
    have hl : ¬ name < first.1 := hf.not_gt
    rw [put, if_neg hn, if_neg hl, ih hr]
    rfl

/-- Ascending fields that are put in turn stay as they are. -/
theorem ofPairs_of_ascending {fields : List (String × α)} (h : Ascending fields) :
    ofPairs fields = fields := by
  induction fields using List.reverseRecOn with
  | nil => rfl
  | append_singleton fields field ih =>
    rw [Ascending, List.map_append, List.pairwise_append] at h
    obtain ⟨hf, -, ha⟩ := h
    rw [ofPairs_concat, ih hf]
    refine put_of_above field.2 fun other ho => ?_
    exact ha other.1 (List.mem_map_of_mem ho) field.1 (List.mem_singleton_self _)

/-- In ordered fields a name has one value, so what is found under it is the field itself. -/
theorem get?_eq_some_iff {name : String} {value : α} {fields : List (String × α)}
    (h : Ascending fields) : get? name fields = some value ↔ (name, value) ∈ fields := by
  rw [get?, Option.map_eq_some_iff]
  constructor
  · rintro ⟨field, hf, rfl⟩
    have hn : field.1 = name := of_decide_eq_true (List.find?_some hf :)
    exact hn ▸ List.mem_of_find?_eq_some hf
  · intro hm
    exact ⟨(name, value), find?_key (h.imp fun hl => hl.ne) hm, rfl⟩

/-- Ascending fields with the same value under every name are the same. -/
theorem eq_of_get?_eq {a b : List (String × α)} (ha : Ascending a) (hb : Ascending b)
    (h : ∀ name, get? name a = get? name b) : a = b := by
  have hm (field : String × α) : field ∈ a ↔ field ∈ b := by
    rw [← get?_eq_some_iff ha, ← get?_eq_some_iff hb, h]
  let below (field later : String × α) : Prop := field.1 < later.1
  have : Std.Irrefl below := ⟨fun field => lt_irrefl field.1⟩
  have : Std.Antisymm below := ⟨fun _ _ hl hg => absurd hl hg.not_gt⟩
  have pa : a.Pairwise below := List.pairwise_map.mp ha
  have pb : b.Pairwise below := List.pairwise_map.mp hb
  exact pa.eq_of_mem_iff pb hm

end Fields

end LiveTopology
