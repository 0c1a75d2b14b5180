import LiveTopology.Proofs.Json.Depth
import LiveTopology.Proofs.Node.Stored

/-!
# When a served snapshot can be read back

A snapshot puts every record two levels deeper than its own text does, under the same limit. It is
read back under a limit that leaves room for these levels, and a limit that is too low can only
refuse it: a reader with a deeper limit accepts no less, to the same result.
-/

namespace LiveTopology.Node

open LiveTopology Json Text

/-! ## One more level -/

/-- A member of a record is taken under a higher limit as under a lower one, and nests no deeper
than the lower one allows. -/
theorem within_draftMember (depth : Nat) (key : String) {draft : Draft}
    (hd : ∀ field ∈ draft.extra, field.2.nesting ≤ depth) :
    Within (fun next => ∀ field ∈ next.extra, field.2.nesting ≤ depth)
      (draftMember depth key draft) (draftMember (depth + 1) key draft) := by
  intro input rest next h
  by_cases hk : key ∈ ownNames
  · rw [draftMember_own hk] at h ⊢
    refine ⟨h, ?_⟩
    obtain ⟨⟨text, after⟩, -, h⟩ := exists_of_bind_eq_ok h
    cases h
    rw [setOwn_extra]
    exact hd
  · rw [draftMember_other hk] at h ⊢
    obtain ⟨⟨extra, after⟩, he, h⟩ := exists_of_bind_eq_ok h
    cases h
    obtain ⟨hlarge, hextra⟩ := within_valueMember (within_value depth) key hd he
    rw [hlarge]
    exact ⟨rfl, hextra⟩

/-- One more level changes nothing about a record that was read. -/
theorem within_record (depth : Nat) :
    Within (fun r => r.nesting ≤ depth) (record depth) (record (depth + 1)) := by
  refine within_typedObject (fun depth (r : Record) => r.nesting ≤ depth) (fun depth => ?_) _ depth
  refine within_members (fun key _ hd => within_draftMember depth key hd) nofun
    fun draft r hd hr => ?_
  obtain ⟨_, rfl, -⟩ := record_eq_ok_iff.mp hr
  exact Nat.succ_le_succ (nestingOfMembers_le.mpr hd)

/-- A member of an entry is taken under a higher limit as under a lower one, and nests no deeper
than the lower one allows. -/
theorem within_entryMember (depth : Nat) (key : String) {known : Option Record}
    (hk : ∀ r ∈ known, r.nesting ≤ depth) :
    Within (fun next => ∀ r ∈ next, r.nesting ≤ depth) (entryMember depth key known)
      (entryMember (depth + 1) key known) := by
  intro input rest next h
  rw [entryMember] at h ⊢
  split at h
  · rename_i hdata
    split at h
    · cases h
    · rename_i hknown
      obtain ⟨behind, hcolon, h⟩ := exists_of_bind_eq_ok h
      obtain ⟨⟨data, after⟩, hd, h⟩ := exists_of_bind_eq_ok h
      cases h
      obtain ⟨hlarge, hn⟩ := within_record depth hd
      rw [if_pos hdata, if_neg hknown, hcolon, ok_bind, hlarge]
      refine ⟨rfl, fun r hr => ?_⟩
      rw [← Option.some.inj hr]
      exact hn
  · rename_i hdata
    rw [if_neg hdata]
    refine ⟨h, ?_⟩
    obtain ⟨_, -, h⟩ := exists_of_bind_eq_ok h
    obtain ⟨_, -, h⟩ := exists_of_bind_eq_ok h
    cases h
    exact hk

/-- The item of an entry is taken under a higher limit as under a lower one. -/
theorem within_entryItem (depth : Nat) :
    Within (fun e => e.data.nesting ≤ depth) (entryItem depth) (entryItem (depth + 1)) := by
  intro input rest e h
  rw [entryItem] at h ⊢
  cases hs : skipSpace input with
  | nil => rw [hs] at h; cases h
  | cons b tail =>
    rw [hs] at h
    dsimp only at h ⊢
    split at h
    · cases h
    · rename_i hb
      obtain ⟨⟨data, after⟩, hd, h⟩ := exists_of_bind_eq_ok h
      obtain ⟨_, hend, h⟩ := exists_of_bind_eq_ok h
      cases h
      obtain ⟨hlarge, hn⟩ := within_record depth hd
      rw [if_neg hb, hlarge, ok_bind]
      dsimp only
      rw [hend]
      exact ⟨rfl, hn⟩

/-- One more level changes nothing about an entry that was read. -/
theorem within_entry (depth : Nat) :
    Within (fun e => e.data.nesting + 1 ≤ depth) (entry depth) (entry (depth + 1)) := by
  intro input rest e h
  rw [entry] at h ⊢
  cases hs : skipSpace input with
  | nil => rw [hs] at h; cases h
  | cons b tail =>
    rw [hs] at h
    dsimp only at h ⊢
    split at h
    · rename_i hb
      cases depth with
      | zero => cases h
      | succ depth =>
        obtain ⟨hlarge, hn⟩ := within_entryItem depth h
        rw [if_pos hb]
        exact ⟨hlarge, Nat.succ_le_succ hn⟩
    · rename_i hb
      rw [if_neg hb]
      refine within_typedObject (fun depth (e : Entry) => e.data.nesting + 1 ≤ depth)
        (fun depth => ?_) _ depth h
      refine within_members (fun key _ hk => within_entryMember depth key hk) nofun
        fun data e hd he => ?_
      cases data with
      | none => cases he
      | some data =>
        cases he
        exact Nat.succ_le_succ (hd data rfl)

/-! ## Snapshots as they are written -/

/-- An entry as it is written, with its record two levels down. -/
inductive EntryText (depth : Nat) : List UInt8 → Entry → Prop where
  | wrapped {text : List UInt8} {r : Record}
      (ho : ObjectText (RecordText depth) text [("data", r)]) : EntryText depth text ⟨r⟩

/-- The record of an entry is kept once. -/
def keepData (known : Option Record) (pair : String × Record) : Option (Option Record) :=
  if pair.1 = "data" ∧ known = none then some (some pair.2) else none

/-- The record of an entry is gathered from the one member that has it. -/
theorem gathers_entryMember (depth : Nat) :
    Gathers (entryMember (depth + 1)) (RecordText depth) keepData := by
  intro gap before core rest key r known next hg hb hc he hs
  rw [keepData] at hs
  split_ifs at hs with hk
  obtain ⟨rfl, rfl⟩ := hk
  cases hs
  rw [entryMember, if_pos rfl, readColon_eq_ok_iff.mpr ⟨gap, hg, rfl⟩]
  dsimp only
  rw [if_neg (by decide), ok_bind, reads_record depth hb hc he]
  rfl

/-- The text of an entry starts with a brace. -/
theorem starts_entryText (depth : Nat) : Starts (EntryText depth) := by
  intro core e h
  cases h with
  | wrapped ho =>
    cases ho with
    | braced _ => exact ⟨_, _, rfl, rfl, by decide⟩

/-- The text of an entry is read as it. -/
theorem reads_entry (depth : Nat) : Reads (entry (depth + 2)) (EntryText depth) := by
  intro before core rest e hb hc hr
  cases hc with
  | wrapped ho =>
    rename_i r
    have hs : [("data", r)].foldlM keepData none = some (some r) := rfl
    cases ho with
    | braced hl =>
      simp only [List.append_assoc, List.cons_append, List.nil_append]
      rw [entry, skipSpace_append hb, skipSpace_cons rfl]
      dsimp only
      rw [if_neg (by decide), typedObject, skipSpace_cons rfl]
      dsimp only
      rw [if_pos rfl]
      refine members_append (gathers_entryMember depth) hl hs ?_ rest
      rfl

/-- The text of an entry is read if the text of its record is, one level down. -/
theorem entryText_text {depth : Nat} {e : Entry} (h : RecordText depth (bytes e.data.text) e.data) :
    EntryText depth (bytes e.text) e := by
  have hm : MemberText (RecordText depth) _ ("data", e.data) := memberText_colon h
  have ho : ObjectText (RecordText depth)
      (bytes ("\x7b" ++ (quote "data" ++ ":" ++ e.data.text ++ "") ++ "\x7d")) [("data", e.data)] :=
    objectText_braced (.foremost hm (.done .nil))
  have ht : e.text = "\x7b" ++ (quote "data" ++ ":" ++ e.data.text ++ "") ++ "\x7d" := by
    have hq : "\x7b\"data\":" = "\x7b" ++ (quote "data" ++ ":") := rfl
    rw [Entry.text, hq, String.append_empty]
    simp only [String.append_assoc]
  rw [ht]
  exact .wrapped ho

/-- The printed entries after the first are what remains of a snapshot behind it. -/
theorem remaining_furtherEntries {part : List UInt8 → Entry → Prop} {entries : List Entry}
    (h : ∀ e ∈ entries, part (bytes e.text) e) :
    Remaining part false (bytes (furtherEntriesText entries)) entries := by
  induction entries with
  | nil => exact .done .nil
  | cons e rest ih =>
    obtain ⟨he, hr⟩ := List.forall_mem_cons.mp h
    exact .comma he (ih hr)

/-- A snapshot is printed as an array of its entries. -/
theorem arrayText_snapshot {part : List UInt8 → Entry → Prop} {entries : List Entry}
    (h : ∀ e ∈ entries, part (bytes e.text) e) :
    ArrayText part (bytes (snapshotText entries)) entries := by
  cases entries with
  | nil =>
    have hn : Remaining part true (bytes "") [] := .done .nil
    exact arrayText_bracketed hn
  | cons e rest =>
    obtain ⟨he, hr⟩ := List.forall_mem_cons.mp h
    exact arrayText_bracketed (.foremost he (remaining_furtherEntries hr))

/-- A snapshot as it is read under a limit. -/
def snapshotUnder (limit : Nat) (text : List UInt8) : Except ReadError (List Entry) :=
  document (typedArray limit entry) text

/-- Under a limit that leaves two levels above every record, a snapshot is read back. -/
theorem snapshotUnder_text {depth : Nat} {entries : List Entry}
    (hc : ∀ e ∈ entries, e.data.Canonical) (hd : ∀ e ∈ entries, membersDoubleFree e.data.extra)
    (hn : ∀ e ∈ entries, e.data.nesting ≤ depth + 1) :
    snapshotUnder (depth + 3) (bytes (snapshotText entries)) = .ok entries := by
  have htext : ArrayText (EntryText depth) (bytes (snapshotText entries)) entries :=
    arrayText_snapshot fun e he =>
      entryText_text (.object ((hc e he).objectText (hn e he) (hd e he)) (hc e he).writtenAs)
  rw [snapshotUnder, document_eq_ok_iff]
  generalize bytes (snapshotText entries) = text at htext
  cases htext with
  | bracketed hl =>
    have hi := items_append (reads_entry depth) (starts_entryText depth) hl []
    refine ⟨[], ?_, .nil⟩
    rw [List.cons_append, typedArray, skipSpace_cons rfl]
    exact hi

/-- A snapshot that is read under a limit has its records two levels below, and is read to the same
result one level deeper. -/
theorem snapshotUnder_succ {limit : Nat} {text : List UInt8} {entries : List Entry}
    (h : snapshotUnder limit text = .ok entries) :
    snapshotUnder (limit + 1) text = .ok entries ∧ ∀ e ∈ entries, e.data.nesting + 2 ≤ limit := by
  obtain ⟨hlarge, hall⟩ := within_document
    (within_typedArray (fun depth (e : Entry) => e.data.nesting + 1 ≤ depth) within_entry limit) h
  refine ⟨hlarge, fun e he => ?_⟩
  obtain ⟨deeper, rfl, hn⟩ := hall e he
  omega

/-- The text of a snapshot is read back exactly if its records leave two levels of the limit, and
then it is read back as the snapshot. -/
theorem parseSnapshot_text_iff {entries read : List Entry}
    (hc : ∀ e ∈ entries, e.data.Canonical) (hd : ∀ e ∈ entries, membersDoubleFree e.data.extra) :
    parseSnapshot (bytes (snapshotText entries)) = .ok read ↔
      read = entries ∧ ∀ e ∈ entries, e.data.nesting + 2 ≤ depthLimit := by
  constructor
  · intro h
    have hfits : snapshotUnder (depthLimit + 2) (bytes (snapshotText entries)) = .ok entries :=
      snapshotUnder_text hc hd fun e he => (hc e he).nesting_le
    obtain ⟨hlarge, hn⟩ := snapshotUnder_succ h
    rw [(snapshotUnder_succ hlarge).1] at hfits
    cases hfits
    exact ⟨rfl, hn⟩
  · rintro ⟨rfl, hn⟩
    have hlimit : depthLimit = 124 + 3 := rfl
    rw [hlimit] at hn
    refine snapshotUnder_text hc hd fun e he => ?_
    have h := hn e he
    omega

end LiveTopology.Node
