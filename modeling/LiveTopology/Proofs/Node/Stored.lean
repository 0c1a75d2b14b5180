import LiveTopology.Proofs.Json.Printing
import LiveTopology.Proofs.Node.Decoders

/-!
# Records survive their own text

A record that was read, from a message or from its own text, has a shape that its text keeps: its
extra fields ascend and avoid the own names, and its command is what its word stands for. As long as
no number in it is a double, the text of such a record is read back as the record by both decoders.
-/

namespace LiveTopology.Node

open LiveTopology Json Text

/-- The members of the text of a record, in order. -/
def Record.members (r : Record) : List (String × Value) :=
  ("id", .string r.id) :: ("cmd", .string r.command.word) :: ("topic", .string r.topic) :: r.extra

/-- The depth to which the object of a record nests, itself included. -/
def Record.nesting (r : Record) : Nat := nestingOfMembers r.extra + 1

/-- The text of a record is that of an object with its members. -/
theorem record_text (r : Record) : r.text = (Value.object r.members).text := by
  have hid : "\x7b\"id\":" = "\x7b" ++ (quote "id" ++ ":") := rfl
  have hcommand : ",\"cmd\":" = "," ++ (quote "cmd" ++ ":") := rfl
  have htopic : ",\"topic\":" = "," ++ (quote "topic" ++ ":") := rfl
  rw [Record.text, hid, hcommand, htopic]
  simp only [Value.text, Record.members, membersText, furtherMembersText, String.append_assoc]

/-- The shape of a record that was read. -/
structure Record.Canonical (r : Record) : Prop where
  /-- The word of the command stands for the command. -/
  command : Command.ofWord r.command.word = r.command
  /-- No extra field has the name of an own field. -/
  foreign : ∀ field ∈ r.extra, field.1 ∉ ownNames
  ascending : Fields.Ascending r.extra
  ordered : ∀ field ∈ r.extra, field.2.Ordered
  nesting_le : r.nesting ≤ depthLimit

/-- The other members are those under names that are not the record's own. -/
theorem mem_others {pair : String × Value} {pairs : List (String × Value)} :
    pair ∈ others pairs ↔ pair ∈ pairs ∧ pair.1 ∉ ownNames := by
  rw [others, List.mem_filter, decide_eq_true_eq]

/-- What the members of a document make up has the shape of a record that was read. -/
theorem canonical_of_written {text : List UInt8} {pairs : List (String × Value)} {r : Record}
    {word : String} (hw : WrittenObject text pairs) (hc : r.command = .ofWord word)
    (he : r.extra = Fields.ofPairs (others pairs)) : r.Canonical := by
  have hmem (field : String × Value) (hf : field ∈ r.extra) : field ∈ others pairs :=
    Fields.mem_of_mem_ofPairs (he ▸ hf)
  have hdenoted (field : String × Value) (hf : field ∈ r.extra) :
      ∃ core, Denotes (depthLimit - 1) core field.2 := by
    cases hw with
    | around _ hc _ => exact hc.exists_text field (mem_others.mp (hmem field hf)).1
  refine ⟨by rw [hc, word_ofWord], fun field hf => (mem_others.mp (hmem field hf)).2,
    he ▸ Fields.ascending_ofPairs _, fun field hf => ?_,
    Nat.succ_le_succ (nestingOfMembers_le.mpr fun field hf => ?_)⟩
  · obtain ⟨_, hd⟩ := hdenoted field hf
    exact hd.ordered
  · obtain ⟨_, hd⟩ := hdenoted field hf
    exact hd.nesting_le

/-- A record that is read from its text is canonical. -/
theorem canonical_parse {text : List UInt8} {r : Record} (h : Record.parse text = .ok r) :
    r.Canonical := by
  obtain ⟨pairs, hw, hr⟩ := parse_record_iff.mp h
  obtain ⟨word, -, hc⟩ := hr.command
  exact canonical_of_written hw hc hr.extra

/-- The record of an event is canonical. -/
theorem canonical_normalize {arrival : String} {payload : List UInt8} {e : Event}
    (h : normalize arrival payload = .ok e) : e.record.Canonical := by
  obtain ⟨pairs, hw, hf⟩ := normalize_eq_ok_iff.mp h
  obtain ⟨-, ⟨word, -, hc⟩, he⟩ := ofFields_eq_ok hf
  exact canonical_of_written hw hc (he.trans (erase_own pairs))

/-! ## Reading back -/

/-- A canonical record has no extra field under a name of its own. -/
theorem Record.Canonical.under_extra {r : Record} (h : r.Canonical) {name : String}
    (hn : name ∈ ownNames) : Fields.under name r.extra = [] := by
  rw [Fields.under, List.filter_eq_nil_iff.mpr, List.map_nil]
  intro field hf
  rw [decide_eq_true_eq]
  rintro rfl
  exact h.foreign field hf hn

/-- The other members of a canonical record are its extra fields. -/
theorem Record.Canonical.others_members {r : Record} (h : r.Canonical) :
    others r.members = r.extra := by
  have he : others r.extra = r.extra := List.filter_eq_self.mpr fun field hf =>
    decide_eq_true (h.foreign field hf)
  exact he

/-- A record is made up by the members of its own text. -/
theorem Record.Canonical.writtenAs {r : Record} (h : r.Canonical) : r.WrittenAs r.members := by
  have hid : Fields.under "id" r.extra = [] := h.under_extra (by decide)
  have hcommand : Fields.under "cmd" r.extra = [] := h.under_extra (by decide)
  have htopic : Fields.under "topic" r.extra = [] := h.under_extra (by decide)
  refine ⟨?_, ⟨r.command.word, ?_, h.command.symm⟩, ?_, ?_⟩
  · simp [Record.members, Fields.under_cons, hid]
  · simp [Record.members, Fields.under_cons, hcommand]
  · simp [Record.members, Fields.under_cons, htopic]
  · rw [h.others_members, Fields.ofPairs_of_ascending h.ascending]

/-- No key occurs twice among the members of a record. -/
theorem Record.Canonical.nodup_keys {r : Record} (h : r.Canonical) :
    (r.members.map Prod.fst).Nodup := by
  have hown : ownNames.Nodup := by decide
  have hextra : (r.extra.map Prod.fst).Nodup := h.ascending.imp fun hl => hl.ne
  refine hown.append hextra fun name hn he => ?_
  obtain ⟨field, hf, rfl⟩ := List.mem_map.mp he
  exact h.foreign field hf hn

/-- The text of a record is an object with its members, at every depth to which it nests. -/
theorem Record.Canonical.objectText {r : Record} (h : r.Canonical) {depth : Nat}
    (hn : r.nesting ≤ depth + 1) (hd : membersDoubleFree r.extra) :
    ObjectText (Denotes depth) (bytes r.text) r.members := by
  have hdepth := nestingOfMembers_le.mp (Nat.le_of_succ_le_succ hn)
  have hfree := membersDoubleFree_iff.mp hd
  have hstring (text : String) : Denotes depth (bytes (Value.string text).text) (.string text) :=
    denotes_text (Nat.zero_le depth) trivial trivial
  rw [record_text]
  refine objectText_text ?_
  simp only [Record.members, List.forall_mem_cons]
  exact ⟨hstring _, hstring _, hstring _, fun field hf =>
    denotes_text (hdepth field hf) (h.ordered field hf) (hfree field hf)⟩

/-- The text of a record without doubles holds its members. -/
theorem Record.Canonical.writtenObject {r : Record} (h : r.Canonical)
    (hd : membersDoubleFree r.extra) : WrittenObject (bytes r.text) r.members := by
  have ho := h.objectText h.nesting_le hd
  have hp := Padded.around .nil ho .nil
  rwa [List.nil_append, List.append_nil] at hp

/-- The text of a record without doubles is read as the record. -/
theorem Record.Canonical.parse_text {r : Record} (h : r.Canonical)
    (hd : membersDoubleFree r.extra) : Record.parse (bytes r.text) = .ok r :=
  parse_record_iff.mpr ⟨r.members, h.writtenObject hd, h.writtenAs⟩

/-- The record of every accepted message without doubles is written as one object in which no key
occurs twice, is read back from that text, and is announced again by the text on whatever topic it
arrives. -/
theorem record_of_own_text {arrival : String} {payload : List UInt8} {e : Event}
    (h : normalize arrival payload = .ok e) (hd : membersDoubleFree e.record.extra) :
    WrittenObject (bytes e.record.text) e.record.members ∧
      (e.record.members.map Prod.fst).Nodup ∧
      Record.parse (bytes e.record.text) = .ok e.record ∧
      ∀ other, ∃ again, normalize other (bytes e.record.text) = .ok again ∧
        again.record = e.record := by
  have hc := canonical_normalize h
  have hparse := hc.parse_text hd
  exact ⟨hc.writtenObject hd, hc.nodup_keys, hparse, normalize_of_parse hparse⟩

/-- A key that is written twice and a topic that is no string are settled when the message is first
understood. -/
theorem record_of_own_text_settled :
    ∃ e, normalize "a" (bytes
        "\x7b\"id\":\"n\",\"cmd\":\"rt-start\",\"topic\":[-1],\"z\":1,\"z\":[]\x7d") = .ok e ∧
      membersDoubleFree e.record.extra ∧
      (e.record.members.map Prod.fst).Nodup ∧
      Record.parse (bytes e.record.text) = .ok e.record ∧
      ∀ other, ∃ again, normalize other (bytes e.record.text) = .ok again ∧
        again.record = e.record := by
  let e : Event := ⟨"n", .start .runtime, "a", none,
    [("topic", .array [.number (.integer (-1) (by decide))]), ("z", .array [])]⟩
  have h : normalize "a" (bytes
      "\x7b\"id\":\"n\",\"cmd\":\"rt-start\",\"topic\":[-1],\"z\":1,\"z\":[]\x7d") = .ok e := rfl
  have hd : membersDoubleFree e.record.extra := ⟨trivial, trivial⟩
  exact ⟨e, h, hd, (record_of_own_text h hd).2⟩

end LiveTopology.Node
