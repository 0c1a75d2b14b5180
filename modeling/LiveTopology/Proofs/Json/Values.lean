import LiveTopology.Json.Typed
import LiveTopology.Proofs.Fields
import LiveTopology.Proofs.Json.Reading

/-!
# What a text can denote

A value that a text denotes nests no deeper than the limit under which it was read, and the members
of every object in it ascend by key. The members that a text of an object is made of are determined
by the text.
-/

namespace LiveTopology.Json

/-! ## Values part by part -/

/-- Items nest no deeper than a depth exactly if none of them does. -/
theorem nestingOfItems_le {items : List Value} {depth : Nat} :
    nestingOfItems items ≤ depth ↔ ∀ item ∈ items, item.nesting ≤ depth := by
  induction items with
  | nil => simp [nestingOfItems]
  | cons item rest ih => rw [nestingOfItems, Nat.max_le, ih, List.forall_mem_cons]

/-- Members nest no deeper than a depth exactly if none of their values does. -/
theorem nestingOfMembers_le {members : List (String × Value)} {depth : Nat} :
    nestingOfMembers members ≤ depth ↔ ∀ member ∈ members, member.2.nesting ≤ depth := by
  induction members with
  | nil => simp [nestingOfMembers]
  | cons member rest ih => rw [nestingOfMembers, Nat.max_le, ih, List.forall_mem_cons]

/-- Items are free of doubles exactly if each of them is. -/
theorem itemsDoubleFree_iff {items : List Value} :
    itemsDoubleFree items ↔ ∀ item ∈ items, item.DoubleFree := by
  induction items with
  | nil => simp [itemsDoubleFree]
  | cons item rest ih => rw [itemsDoubleFree, ih, List.forall_mem_cons]

/-- Members are free of doubles exactly if each of their values is. -/
theorem membersDoubleFree_iff {members : List (String × Value)} :
    membersDoubleFree members ↔ ∀ member ∈ members, member.2.DoubleFree := by
  induction members with
  | nil => simp [membersDoubleFree]
  | cons member rest ih => rw [membersDoubleFree, ih, List.forall_mem_cons]

mutual

/-- The members of every object in the value ascend by key. -/
def Value.Ordered : Value → Prop
  | .array items => itemsOrdered items
  | .object members => Fields.Ascending members ∧ membersOrdered members
  | _ => True

/-- The members of every object in an item ascend by key. -/
def itemsOrdered : List Value → Prop
  | [] => True
  | item :: rest => item.Ordered ∧ itemsOrdered rest

/-- The members of every object in the value of a member ascend by key. -/
def membersOrdered : List (String × Value) → Prop
  | [] => True
  | (_, value) :: rest => value.Ordered ∧ membersOrdered rest

end

/-- Items are in order exactly if each of them is. -/
theorem itemsOrdered_iff {items : List Value} :
    itemsOrdered items ↔ ∀ item ∈ items, item.Ordered := by
  induction items with
  | nil => simp [itemsOrdered]
  | cons item rest ih => rw [itemsOrdered, ih, List.forall_mem_cons]

/-- Members are in order exactly if each of their values is. -/
theorem membersOrdered_iff {members : List (String × Value)} :
    membersOrdered members ↔ ∀ member ∈ members, member.2.Ordered := by
  induction members with
  | nil => simp [membersOrdered]
  | cons member rest ih => rw [membersOrdered, ih, List.forall_mem_cons]

/-! ## What texts denote -/

section

variable {α : Type} {part : List UInt8 → α → Prop}

/-- Each part that remains is written somewhere. -/
theorem Remaining.exists_text {first : Bool} {inside : List UInt8} {all : List α}
    (h : Remaining part first inside all) : ∀ a ∈ all, ∃ text, part text a := by
  induction h with
  | done _ => exact nofun
  | part _ hp _ ih => exact List.forall_mem_cons.mpr ⟨⟨_, hp⟩, ih⟩

/-- Every item of an array has its text. -/
theorem ArrayText.exists_text {text : List UInt8} {items : List α} (h : ArrayText part text items) :
    ∀ item ∈ items, ∃ text, part text item := by
  cases h with
  | bracketed hl => exact (listing_iff_remaining.mp hl).exists_text

/-- Every member of an object has its text. -/
theorem ObjectText.exists_text {text : List UInt8} {members : List (String × α)}
    (h : ObjectText part text members) : ∀ member ∈ members, ∃ text, part text member.2 := by
  cases h with
  | braced hl =>
    intro member hm
    obtain ⟨_, ht⟩ := (listing_iff_remaining.mp hl).exists_text member hm
    cases ht with
    | keyed _ _ _ hc => exact ⟨_, hc⟩

end

/-- Words, strings and numbers do not nest. -/
theorem Scalar.nesting_eq {text : List UInt8} {v : Value} (h : Scalar text v) : v.nesting = 0 := by
  cases h <;> rfl

/-- Words, strings and numbers hold no fields that could be out of order. -/
theorem Scalar.ordered {text : List UInt8} {v : Value} (h : Scalar text v) : v.Ordered := by
  cases h <;> exact trivial

/-- A value nests no deeper than the limit under which it is denoted. -/
theorem Denotes.nesting_le {depth : Nat} {text : List UInt8} {v : Value}
    (h : Denotes depth text v) : v.nesting ≤ depth := by
  induction depth generalizing text v with
  | zero => exact (Scalar.nesting_eq h).le
  | succ depth ih =>
    cases h with
    | scalar hs => exact hs.nesting_eq ▸ Nat.zero_le _
    | array ha =>
      refine Nat.succ_le_succ (nestingOfItems_le.mpr fun item hm => ?_)
      obtain ⟨_, ht⟩ := ha.exists_text item hm
      exact ih ht
    | object ho =>
      refine Nat.succ_le_succ (nestingOfMembers_le.mpr fun member hm => ?_)
      obtain ⟨_, ht⟩ := ho.exists_text member (Fields.mem_of_mem_ofPairs hm)
      exact ih ht

/-- Every object in a value that is denoted ascends by key. -/
theorem Denotes.ordered {depth : Nat} {text : List UInt8} {v : Value} (h : Denotes depth text v) :
    v.Ordered := by
  induction depth generalizing text v with
  | zero => exact Scalar.ordered h
  | succ depth ih =>
    cases h with
    | scalar hs => exact hs.ordered
    | array ha =>
      refine itemsOrdered_iff.mpr fun item hm => ?_
      obtain ⟨_, ht⟩ := ha.exists_text item hm
      exact ih ht
    | object ho =>
      refine ⟨Fields.ascending_ofPairs _, membersOrdered_iff.mpr fun member hm => ?_⟩
      obtain ⟨_, ht⟩ := ho.exists_text member (Fields.mem_of_mem_ofPairs hm)
      exact ih ht

/-! ## Strings -/

/-- A string is read as what it is, whatever it stands for. -/
theorem typedString_eq_ok_iff {expected : String} {input rest : List UInt8} {text : String} :
    typedString expected input = .ok (text, rest) ↔
      ∃ before core, Blank before ∧ StringText core text ∧ input = before ++ core ++ rest := by
  rw [typedString]
  constructor
  · intro h
    split at h
    · cases h
    · rename_i b tail hs
      obtain ⟨-, before, hb, rfl⟩ := exists_blank_of_skipSpace hs
      split at h
      · rename_i hq
        obtain ⟨written, hw, rfl⟩ := readString_eq_ok_iff.mp h
        exact ⟨before, _, hb, hw, by rw [hq, List.append_assoc]; rfl⟩
      · cases h
  · rintro ⟨before, core, hb, hc, rfl⟩
    obtain ⟨written, rfl⟩ := hc.head
    rw [List.append_assoc, List.cons_append, skipSpace_append hb, skipSpace_cons rfl]
    exact readString_eq_ok_iff.mpr ⟨written, hc, rfl⟩

/-- A value that is a string is written as one. -/
theorem denotes_string_iff {depth : Nat} {core : List UInt8} {text : String} :
    Denotes depth core (.string text) ↔ StringText core text := by
  constructor
  · intro h
    cases depth with
    | zero =>
      cases h with
      | string ht => exact ht
    | succ depth =>
      cases h with
      | scalar hs =>
        cases hs with
        | string ht => exact ht
  · exact fun h => .of_scalar (.string h) depth

/-! ## Objects -/

/-- A typed object is read from behind its opening brace. -/
theorem typedObject_append {α : Type} {expected : String} {depth : Nat}
    {object : (depth : Nat) → Reader α} {gap : List UInt8} (hg : Blank gap) (rest : List UInt8) :
    typedObject expected (depth + 1) object (gap ++ Byte.openBrace :: rest) = object depth rest := by
  rw [typedObject, skipSpace_append hg, skipSpace_cons rfl]
  rfl

/-- What is read as an object is read behind a brace. -/
theorem exists_brace_of_typedObject {α : Type} {expected : String} {depth : Nat}
    {object : (depth : Nat) → Reader α} {input rest : List UInt8} {a : α}
    (h : typedObject expected (depth + 1) object input = .ok (a, rest)) :
    ∃ gap tail, Blank gap ∧ input = gap ++ Byte.openBrace :: tail ∧
      object depth tail = .ok (a, rest) := by
  rw [typedObject] at h
  split at h
  · cases h
  · rename_i b tail hs
    obtain ⟨-, gap, hg, rfl⟩ := exists_blank_of_skipSpace hs
    split at h
    · rename_i hb
      exact ⟨gap, tail, hg, by rw [hb], h⟩
    · cases h

/-! ## The members of a document -/

/-- A text denotes an object exactly if it holds one with members that leave it. -/
theorem parse_object_iff {text : List UInt8} {fields : List (String × Value)} :
    parse text = .ok (.object fields) ↔
      ∃ members, WrittenObject text members ∧ Fields.ofPairs members = fields := by
  rw [parse_eq_ok_iff]
  constructor
  · intro h
    cases h with
    | around hb hc ha =>
      cases hc with
      | scalar hs => cases hs
      | object ho => exact ⟨_, .around hb ho ha, rfl⟩
  · rintro ⟨members, h, rfl⟩
    cases h with
    | around hb hc ha => exact .around hb (.object hc) ha

/-- Keeps every member as it is written. -/
def keepMember (reader : Reader Value) (key : String) (kept : List (String × Value)) :
    Reader (List (String × Value)) := fun input => do
  let rest ← readColon input
  let (found, rest) ← reader rest
  pure (kept ++ [(key, found)], rest)

/-- A member is kept behind those before it. -/
def keepPair (kept : List (String × Value)) (pair : String × Value) :
    Option (List (String × Value)) :=
  some (kept ++ [pair])

/-- Pairs that are kept one by one are all kept, in order. -/
theorem foldlM_keepPair (pairs kept : List (String × Value)) :
    pairs.foldlM keepPair kept = some (kept ++ pairs) := by
  induction pairs generalizing kept with
  | nil => rw [List.append_nil, List.foldlM_nil, Option.pure_def]
  | cons pair rest ih =>
    rw [List.foldlM_cons, keepPair, Option.bind_eq_bind, Option.bind_some, ih, List.append_assoc,
      List.singleton_append]

/-- The members of an object are kept one by one as they are written. -/
theorem gathers_keepMember {reader : Reader Value} {part : List UInt8 → Value → Prop}
    (hr : Reads reader part) :
    Gathers (keepMember reader) part keepPair := by
  intro gap before core rest key v kept next hg hb hc he hs
  cases hs
  rw [keepMember, readColon_eq_ok_iff.mpr ⟨gap, hg, rfl⟩, ok_bind, hr hb hc he]
  rfl

/-- The members of a document are kept as they are written. -/
theorem WrittenObject.kept {text : List UInt8} {written : List (String × Value)}
    (h : WrittenObject text written) :
    ∃ rest, members (keepMember (value (depthLimit - 1))) [] Except.ok (skipSpace text).tail =
      .ok (written, rest) := by
  cases h with
  | around hb hc ha =>
    cases hc with
    | braced hl =>
      rename_i before after inside
      have hm : members (keepMember (value (depthLimit - 1))) [] Except.ok _ =
          .ok (written, after) :=
        members_append (gathers_keepMember (reads_value _)) hl (foldlM_keepPair _ []) rfl after
      refine ⟨after, ?_⟩
      simp only [List.append_assoc, List.cons_append, List.nil_append]
      rw [skipSpace_append hb, skipSpace_cons rfl]
      exact hm

/-- A text holds one object at most, with one sequence of members. -/
theorem WrittenObject.unique {text : List UInt8} {written other : List (String × Value)}
    (h : WrittenObject text written) (ho : WrittenObject text other) : written = other := by
  obtain ⟨_, hr⟩ := h.kept
  obtain ⟨_, hro⟩ := ho.kept
  rw [hr] at hro
  cases hro
  rfl

end LiveTopology.Json
