import LiveTopology.Node.Event
import LiveTopology.Proofs.Json.Values

/-!
# The two decoders of records

A record is read in one pass that refuses a second occurrence of its own fields; a lifecycle message
is read as a value first, in which the last occurrence of a key wins, and its fields are taken out
afterwards. Both are described by the members that are written in the text, so they can be compared:
they agree wherever the first one accepts, and it accepts whatever the second one does, up to
repeated or missing fields of its own and a topic that is no string.
-/

namespace LiveTopology.Node

open LiveTopology Json

/-- The names of the fields that every record has. -/
def ownNames : List String := ["id", "cmd", "topic"]

/-- A record has three names of its own. -/
theorem mem_ownNames {name : String} :
    name ∈ ownNames ↔ name = "id" ∨ name = "cmd" ∨ name = "topic" := by
  simp [ownNames]

/-- The members under other names. -/
def others (pairs : List (String × Value)) : List (String × Value) :=
  pairs.filter fun pair => pair.1 ∉ ownNames

/-- The other members are found member by member. -/
theorem others_cons (pair : String × Value) (rest : List (String × Value)) :
    others (pair :: rest) = if pair.1 ∈ ownNames then others rest else pair :: others rest := by
  by_cases h : pair.1 ∈ ownNames <;> simp [others, h]

/-- Under a name of its own a record has no other member, and all of them under any other name. -/
theorem under_others (name : String) (pairs : List (String × Value)) :
    Fields.under name (others pairs) = if name ∈ ownNames then [] else Fields.under name pairs := by
  rw [Fields.under, others, List.filter_filter]
  split_ifs with h
  · rw [List.filter_eq_nil_iff.mpr]
    · rfl
    · intro pair _
      simp only [Bool.and_eq_true, decide_eq_true_eq, not_and]
      rintro rfl
      exact not_not_intro h
  · congr 1
    refine List.filter_congr fun pair _ => ?_
    by_cases hn : pair.1 = name
    · simp [hn, h]
    · simp [hn]

/-! ## Records in one pass -/

/-- The field of a draft under one of the own names. -/
def Draft.own (draft : Draft) (name : String) : Option String :=
  if name = "id" then draft.id else if name = "cmd" then draft.command else draft.topic

/-- The draft with a text in the field under one of the own names. -/
def Draft.setOwn (draft : Draft) (name text : String) : Draft :=
  if name = "id" then { draft with id := some text }
  else if name = "cmd" then { draft with command := some text }
  else { draft with topic := some text }

/-- A text that is set under a name of the record is found there, and the other two stay. -/
theorem own_setOwn {draft : Draft} {name text other : String} (hn : name ∈ ownNames)
    (ho : other ∈ ownNames) :
    (draft.setOwn name text).own other = if other = name then some text else draft.own other := by
  rw [mem_ownNames] at hn ho
  rcases hn with rfl | rfl | rfl <;> rcases ho with rfl | rfl | rfl <;> rfl

/-- Setting a text of the record leaves the extra fields alone. -/
theorem setOwn_extra (draft : Draft) (name text : String) :
    (draft.setOwn name text).extra = draft.extra := by
  unfold Draft.setOwn
  split_ifs <;> rfl

/-- What a member adds to a draft: an own field is a string and comes once. -/
def Draft.add (draft : Draft) (pair : String × Value) : Option Draft :=
  if pair.1 ∈ ownNames then
    match draft.own pair.1, pair.2 with
    | none, .string text => some (draft.setOwn pair.1 text)
    | _, _ => none
  else some { draft with extra := Fields.put pair.1 pair.2 draft.extra }

/-- Under a name of the record a string is read, once. -/
theorem draftMember_own {key : String} (h : key ∈ ownNames) (depth : Nat) (draft : Draft)
    (input : List UInt8) :
    draftMember depth key draft input = (do
      let (text, rest) ← once key (draft.own key) input
      pure (draft.setOwn key text, rest)) := by
  rw [mem_ownNames] at h
  rcases h with rfl | rfl | rfl <;> rfl

/-- Under any other name a value is read and put among the extra fields. -/
theorem draftMember_other {key : String} (h : key ∉ ownNames) (depth : Nat) (draft : Draft)
    (input : List UInt8) :
    draftMember depth key draft input = (do
      let (extra, rest) ← valueMember (value depth) key draft.extra input
      pure ({ draft with extra := extra }, rest)) := by
  rw [mem_ownNames, not_or, not_or] at h
  rw [draftMember, if_neg h.1, if_neg h.2.1, if_neg h.2.2]

/-- An own field is read if it is not known yet and a string follows the colon. -/
theorem once_eq_ok_iff {name : String} {known : Option String} {input rest : List UInt8}
    {text : String} :
    once name known input = .ok (text, rest) ↔
      known = none ∧ ∃ gap before core, Blank gap ∧ Blank before ∧ StringText core text ∧
        input = gap ++ Byte.colon :: (before ++ core ++ rest) := by
  rw [once]
  constructor
  · intro h
    split at h
    · cases h
    · rename_i hk
      obtain ⟨behind, hcolon, ht⟩ := exists_of_bind_eq_ok h
      obtain ⟨gap, hg, rfl⟩ := readColon_eq_ok_iff.mp hcolon
      obtain ⟨before, core, hb, hc, rfl⟩ := typedString_eq_ok_iff.mp ht
      exact ⟨Option.not_isSome_iff_eq_none.mp hk, gap, before, core, hg, hb, hc, rfl⟩
  · rintro ⟨rfl, gap, before, core, hg, hb, hc, rfl⟩
    rw [readColon_eq_ok_iff.mpr ⟨gap, hg, rfl⟩]
    exact typedString_eq_ok_iff.mpr ⟨before, core, hb, hc, rfl⟩

/-- The members of a record are gathered one by one as they are written. -/
theorem gathers_draftMember (depth : Nat) :
    Gathers (draftMember depth) (Denotes depth) Draft.add := by
  intro gap before core rest key v draft next hg hb hc he hs
  rw [Draft.add] at hs
  split_ifs at hs with hk
  · rw [draftMember_own hk]
    split at hs
    · rename_i ho hv
      cases hs
      dsimp only at hv
      subst hv
      rw [once_eq_ok_iff.mpr ⟨ho, gap, before, core, hg, hb, denotes_string_iff.mp hc, rfl⟩]
      rfl
    · cases hs
  · cases hs
    rw [draftMember_other hk, gathers_valueMember (reads_value depth) hg hb hc he rfl]
    rfl

/-- No member of a record is gathered that is not written. -/
theorem gathersOnly_draftMember (depth : Nat) :
    GathersOnly (draftMember depth) (Denotes depth) Draft.add := by
  intro input rest key draft next h
  by_cases hk : key ∈ ownNames
  · rw [draftMember_own hk] at h
    obtain ⟨⟨text, after⟩, ht, h⟩ := exists_of_bind_eq_ok h
    cases h
    obtain ⟨ho, gap, before, core, hg, hb, hc, rfl⟩ := once_eq_ok_iff.mp ht
    refine ⟨gap, before, core, .string text, hg, hb, denotes_string_iff.mpr hc, ?_, rfl⟩
    rw [Draft.add, if_pos hk, ho]
  · rw [draftMember_other hk] at h
    obtain ⟨⟨extra, after⟩, he, h⟩ := exists_of_bind_eq_ok h
    cases h
    obtain ⟨gap, before, core, v, hg, hb, hc, hs, rfl⟩ :=
      gathersOnly_valueMember (readsOnly_value depth) he
    cases hs
    exact ⟨gap, before, core, v, hg, hb, hc, by rw [Draft.add, if_neg hk], rfl⟩

/-- The values that an own field stands for: its text, if it is known. -/
def texts (known : Option String) : List Value := known.toList.map .string

/-- The values that a text stands for tell whether it is there and what it says. -/
theorem texts_inj {a b : Option String} : texts a = texts b ↔ a = b := by
  cases a <;> cases b <;> simp [texts]

/-- Only the first value of a field can be its text. -/
theorem eq_of_texts_append {known field : Option String} {v : Value} {later : List Value}
    (h : texts known ++ v :: later = texts field) :
    known = none ∧ later = [] ∧ ∃ text, v = .string text := by
  cases known <;> cases field <;> simp_all [texts]

/-- A member that is added joins what stands under its name. -/
theorem texts_own_add {draft next : Draft} {pair : String × Value}
    (h : draft.add pair = some next) {name : String} (hn : name ∈ ownNames) :
    texts (next.own name) = texts (draft.own name) ++ Fields.under name [pair] := by
  rw [Fields.under_singleton]
  rw [Draft.add] at h
  split_ifs at h with hk
  · split at h
    · rename_i ho hv
      cases h
      rw [own_setOwn hk hn, hv]
      by_cases hname : name = pair.1
      · rw [if_pos hname, if_pos hname.symm, hname, ho]
        rfl
      · rw [if_neg hname, if_neg (Ne.symm hname), List.append_nil]
    · cases h
  · cases h
    have hname : pair.1 ≠ name := fun he => hk (he ▸ hn)
    rw [if_neg hname, List.append_nil]
    rfl

/-- A member that is added is put among the extra fields unless it is one of the three. -/
theorem extra_add {draft next : Draft} {pair : String × Value} (h : draft.add pair = some next) :
    next.extra = Fields.putAll (others [pair]) draft.extra := by
  rw [Draft.add] at h
  rw [others_cons]
  split_ifs at h ⊢ with hk
  · split at h
    · cases h
      exact setOwn_extra _ _ _
    · cases h
  · cases h
    rfl

/-- Two drafts are the same if they agree on the three texts and on the extra fields. -/
theorem draft_ext {a b : Draft} (ho : ∀ name ∈ ownNames, a.own name = b.own name)
    (he : a.extra = b.extra) : a = b := by
  have hid : a.id = b.id := ho "id" (by decide)
  have hcommand : a.command = b.command := ho "cmd" (by decide)
  have htopic : a.topic = b.topic := ho "topic" (by decide)
  cases a
  cases b
  simp_all

/-- A member is added if its value can be the text of the field that it names. -/
theorem exists_add {draft : Draft} {pair : String × Value} {later : List Value}
    {known : Option String}
    (h : pair.1 ∈ ownNames → texts (draft.own pair.1) ++ pair.2 :: later = texts known) :
    ∃ next, draft.add pair = some next := by
  rw [Draft.add]
  split_ifs with hk
  · obtain ⟨hnone, -, text, htext⟩ := eq_of_texts_append (h hk)
    rw [hnone, htext]
    exact ⟨_, rfl⟩
  · exact ⟨_, rfl⟩

/-- A draft is gathered from members exactly if each of its own fields is the only value written
under its name, and the extra fields are what the other members leave. -/
theorem foldlM_add_iff {pairs : List (String × Value)} {start final : Draft} :
    pairs.foldlM Draft.add start = some final ↔
      (∀ name ∈ ownNames,
        texts (start.own name) ++ Fields.under name pairs = texts (final.own name)) ∧
      Fields.putAll (others pairs) start.extra = final.extra := by
  induction pairs generalizing start with
  | nil =>
    rw [List.foldlM_nil, Option.pure_def, Option.some_inj]
    constructor
    · rintro rfl
      exact ⟨fun name _ => List.append_nil _, rfl⟩
    · rintro ⟨ho, he⟩
      refine draft_ext (fun name hn => ?_) he
      rw [← texts_inj, ← ho name hn, Fields.under_nil, List.append_nil]
  | cons pair rest ih =>
    -- What the first member adds moves from the draft to the members.
    have hsplit (next : Draft) (h : start.add pair = some next) :
        rest.foldlM Draft.add next = some final ↔
          (∀ name ∈ ownNames, texts (start.own name) ++ Fields.under name (pair :: rest) =
            texts (final.own name)) ∧
          Fields.putAll (others (pair :: rest)) start.extra = final.extra := by
      rw [ih, extra_add h, ← Fields.putAll_append, others, others, ← List.filter_append]
      refine and_congr_left' (forall₂_congr fun name hn => ?_)
      rw [texts_own_add h hn, List.append_assoc, ← Fields.under_append]
      rfl
    rw [List.foldlM_cons, Option.bind_eq_bind, Option.bind_eq_some_iff]
    constructor
    · rintro ⟨next, hn, h⟩
      exact (hsplit next hn).mp h
    · intro h
      have hown (hk : pair.1 ∈ ownNames) :
          texts (start.own pair.1) ++ pair.2 :: Fields.under pair.1 rest =
            texts (final.own pair.1) := by
        have hu := h.1 pair.1 hk
        rwa [Fields.under_cons, if_pos rfl] at hu
      obtain ⟨next, hn⟩ := exists_add hown
      exact ⟨next, hn, (hsplit next hn).mpr h⟩

/-- The record that written members make up: each of its own fields is written once, as a string,
and the last value of every other name wins. -/
structure Record.WrittenAs (r : Record) (pairs : List (String × Value)) : Prop where
  id : Fields.under "id" pairs = [.string r.id]
  command : ∃ word, Fields.under "cmd" pairs = [.string word] ∧ r.command = .ofWord word
  topic : Fields.under "topic" pairs = [.string r.topic]
  extra : r.extra = Fields.ofPairs (others pairs)

/-- Nothing of a record is known yet. -/
def Draft.empty : Draft := ⟨none, none, none, []⟩

/-- A draft makes a record exactly if it has all three texts. -/
theorem record_eq_ok_iff {draft : Draft} {r : Record} :
    draft.record = .ok r ↔ ∃ word, draft = ⟨some r.id, some word, some r.topic, r.extra⟩ ∧
      r.command = .ofWord word := by
  constructor
  · intro h
    obtain ⟨_ | id, _ | word, _ | topic, extra⟩ := draft <;> cases h
    exact ⟨word, rfl, rfl⟩
  · rintro ⟨word, rfl, hc⟩
    obtain ⟨id, command, topic, extra⟩ := r
    obtain rfl := hc
    rfl

/-- Members make up a record exactly if it is written as these members. -/
theorem writtenAs_iff {pairs : List (String × Value)} {r : Record} :
    (∃ draft, pairs.foldlM Draft.add .empty = some draft ∧ draft.record = .ok r) ↔
      r.WrittenAs pairs := by
  constructor
  · rintro ⟨draft, hd, hr⟩
    obtain ⟨word, rfl, hc⟩ := record_eq_ok_iff.mp hr
    obtain ⟨ho, he⟩ := foldlM_add_iff.mp hd
    exact ⟨ho "id" (by decide), ⟨word, ho "cmd" (by decide), hc⟩, ho "topic" (by decide), he.symm⟩
  · rintro ⟨hid, ⟨word, hword, hc⟩, htopic, he⟩
    refine ⟨⟨some r.id, some word, some r.topic, r.extra⟩,
      foldlM_add_iff.mpr ⟨fun name hn => ?_, he.symm⟩, record_eq_ok_iff.mpr ⟨word, rfl, hc⟩⟩
    rcases mem_ownNames.mp hn with rfl | rfl | rfl
    · exact hid
    · exact hword
    · exact htopic

/-- A record as it is written. -/
inductive RecordText (depth : Nat) : List UInt8 → Record → Prop where
  | object {text : List UInt8} {pairs : List (String × Value)} {r : Record}
      (ho : ObjectText (Denotes depth) text pairs) (hw : r.WrittenAs pairs) :
      RecordText depth text r

/-- The text of a record is read as it. -/
theorem reads_record (depth : Nat) : Reads (record (depth + 1)) (RecordText depth) := by
  intro before core rest r hb hc hr
  cases hc with
  | object ho hw =>
    cases ho with
    | braced hl =>
      obtain ⟨draft, hd, hf⟩ := writtenAs_iff.mpr hw
      simp only [List.append_assoc, List.cons_append, List.nil_append]
      rw [record, typedObject_append hb]
      exact members_append (gathers_draftMember depth) hl hd hf rest

/-- Nothing but texts of records is read as a record. -/
theorem readsOnly_record (depth : Nat) : ReadsOnly (record (depth + 1)) (RecordText depth) := by
  intro input rest r h
  obtain ⟨before, tail, hb, rfl, hm⟩ := exists_brace_of_typedObject h
  obtain ⟨inside, pairs, draft, hl, hd, hf, rfl⟩ :=
    listing_of_members (gathersOnly_draftMember depth) hm
  exact ⟨before, _, hb, .object (.braced hl) (writtenAs_iff.mp ⟨draft, hd, hf⟩), by simp⟩

/-- A text is read as a record exactly if it holds an object with members that make it up. -/
theorem parse_record_iff {text : List UInt8} {r : Record} :
    Record.parse text = .ok r ↔ ∃ pairs, WrittenObject text pairs ∧ r.WrittenAs pairs := by
  have hd : Record.parse text = .ok r ↔ Padded (RecordText (depthLimit - 1)) text r :=
    document_iff_padded (reads_record _) (readsOnly_record _)
  rw [hd]
  constructor
  · intro h
    cases h with
    | around hb hc ha =>
      cases hc with
      | object ho hw => exact ⟨_, .around hb ho ha, hw⟩
  · rintro ⟨pairs, h, hw⟩
    cases h with
    | around hb hc ha => exact .around hb (.object hc hw) ha

/-! ## Messages by way of a value -/

/-- A message is an event exactly if it is written as an object whose fields make up the event. -/
theorem normalize_eq_ok_iff {arrival : String} {text : List UInt8} {e : Event} :
    normalize arrival text = .ok e ↔
      ∃ pairs, WrittenObject text pairs ∧
        Event.ofFields arrival (Fields.ofPairs pairs) = .ok e := by
  constructor
  · intro h
    rw [normalize] at h
    split at h
    · cases h
    · rename_i fields hp
      obtain ⟨pairs, hw, rfl⟩ := parse_object_iff.mp hp
      exact ⟨pairs, hw, h⟩
    · cases h
  · rintro ⟨pairs, hw, h⟩
    rw [normalize, parse_object_iff.mpr ⟨pairs, hw, rfl⟩]
    exact h

/-- Without the own fields, the last value of every other name is left. -/
theorem erase_own (pairs : List (String × Value)) :
    Fields.erase "topic" (Fields.erase "cmd" (Fields.erase "id" (Fields.ofPairs pairs))) =
      Fields.ofPairs (others pairs) := by
  have hl := Fields.ascending_ofPairs pairs
  refine Fields.eq_of_get?_eq (Fields.ascending_erase _ (Fields.ascending_erase _
    (Fields.ascending_erase _ hl))) (Fields.ascending_ofPairs _) fun name => ?_
  rw [Fields.get?_erase, Fields.get?_erase, Fields.get?_erase, Fields.get?_ofPairs,
    Fields.get?_ofPairs, under_others]
  by_cases hn : name ∈ ownNames
  · rw [if_pos hn]
    rcases mem_ownNames.mp hn with rfl | rfl | rfl <;> rfl
  · rw [if_neg hn]
    rw [mem_ownNames, not_or, not_or] at hn
    rw [if_neg (Ne.symm hn.2.2), if_neg (Ne.symm hn.2.1), if_neg (Ne.symm hn.1)]

/-- A required string is the string under its name. -/
theorem requiredString_eq_ok_iff {name text : String} {fields : List (String × Value)} :
    requiredString name fields = .ok text ↔ Fields.get? name fields = some (.string text) := by
  rw [requiredString]
  cases Fields.get? name fields with
  | none => simp
  | some v => cases v <;> simp

/-- The event of an object has the strings `id` and `cmd` of the object, and its record keeps all
fields but its own. -/
theorem ofFields_eq_ok {arrival : String} {fields : List (String × Value)} {e : Event}
    (h : Event.ofFields arrival fields = .ok e) :
    Fields.get? "id" fields = some (.string e.id) ∧
      (∃ word, Fields.get? "cmd" fields = some (.string word) ∧ e.command = .ofWord word) ∧
      e.record.extra = Fields.erase "topic" (Fields.erase "cmd" (Fields.erase "id" fields)) := by
  obtain ⟨id, hid, h⟩ := exists_of_bind_eq_ok h
  obtain ⟨word, hword, h⟩ := exists_of_bind_eq_ok h
  rw [requiredString_eq_ok_iff] at hid hword
  dsimp only at h
  split at h
  · cases h
    exact ⟨hid, ⟨word, hword, rfl⟩, Fields.erase_erase _ _⟩
  · cases h
    exact ⟨hid, ⟨word, hword, rfl⟩, rfl⟩

/-- The topic of the record of a payload: the string under `topic`, the JSON text of what else is
there, and the topic of arrival if that is nothing or null. -/
def recordTopic (arrival : String) : Option Value → String
  | none | some .null => arrival
  | some (.string topic) => topic
  | some other => other.text

/-- The other members are what is left without the three. -/
theorem erase_own_eq_others (fields : List (String × Value)) :
    Fields.erase "topic" (Fields.erase "cmd" (Fields.erase "id" fields)) = others fields := by
  simp only [Fields.erase, List.filter_filter]
  refine List.filter_congr fun field _ => ?_
  rw [Bool.eq_iff_iff]
  simp only [Bool.and_eq_true, decide_eq_true_eq, mem_ownNames, not_or, ne_eq]
  tauto

/-- An object with the two strings is an event, whatever else is in it. -/
theorem ofFields_of_strings {id word : String} {fields : List (String × Value)}
    (hid : Fields.get? "id" fields = some (.string id))
    (hword : Fields.get? "cmd" fields = some (.string word)) (arrival : String) :
    ∃ e, Event.ofFields arrival fields = .ok e ∧
      e.record = ⟨id, .ofWord word, recordTopic arrival (Fields.get? "topic" fields),
        others fields⟩ := by
  have ht : Fields.get? "topic" (Fields.erase "cmd" (Fields.erase "id" fields)) =
      Fields.get? "topic" fields := by
    rw [Fields.get?_erase, Fields.get?_erase]
    rfl
  rw [Event.ofFields, requiredString_eq_ok_iff.mpr hid, ok_bind,
    requiredString_eq_ok_iff.mpr hword, ok_bind]
  dsimp only
  rw [ht, ← erase_own_eq_others]
  refine ⟨_, rfl, ?_⟩
  cases hv : Fields.get? "topic" fields with
  | none => simp [Event.record, Event.recordTopic, ht, hv, recordTopic]
  | some v =>
    cases v <;> simp [Event.record, Event.recordTopic, ht, hv, recordTopic, Fields.erase_erase]

/-! ## Both decoders -/

/-- A value that stands alone under a name is found there. -/
theorem get?_of_under {name : String} {pairs : List (String × Value)} {v : Value}
    (h : Fields.under name pairs = [v]) : Fields.get? name (Fields.ofPairs pairs) = some v := by
  rw [Fields.get?_ofPairs, h]
  rfl

/-- A name that is written once is found with the value that is written under it. -/
theorem under_of_get? {name : String} {pairs : List (String × Value)} {v : Value}
    (ho : (Fields.under name pairs).length = 1)
    (h : Fields.get? name (Fields.ofPairs pairs) = some v) : Fields.under name pairs = [v] := by
  obtain ⟨w, hw⟩ := List.length_eq_one_iff.mp ho
  rw [Fields.get?_ofPairs, hw] at h
  obtain rfl : w = v := Option.some.inj h
  exact hw

/-- Members that make up a record make up an event with this record, wherever it arrives. -/
theorem Record.WrittenAs.event {r : Record} {pairs : List (String × Value)} (h : r.WrittenAs pairs)
    (arrival : String) :
    ∃ e, Event.ofFields arrival (Fields.ofPairs pairs) = .ok e ∧ e.record = r := by
  obtain ⟨hid, ⟨word, hword, hc⟩, htopic, he⟩ := h
  obtain ⟨e, hf, hr⟩ := ofFields_of_strings (get?_of_under hid) (get?_of_under hword) arrival
  refine ⟨e, hf, ?_⟩
  rw [hr, get?_of_under htopic, ← erase_own_eq_others, erase_own, ← hc, ← he]
  rfl

/-- A record is read by way of a value as well, and on every topic. -/
theorem normalize_of_parse {text : List UInt8} {r : Record} (h : Record.parse text = .ok r)
    (arrival : String) : ∃ e, normalize arrival text = .ok e ∧ e.record = r := by
  obtain ⟨pairs, hw, hr⟩ := parse_record_iff.mp h
  obtain ⟨e, hf, he⟩ := hr.event arrival
  exact ⟨e, normalize_eq_ok_iff.mpr ⟨pairs, hw, hf⟩, he⟩

/-- A text is read as a record exactly if it is understood as a message and its object has each of
the keys `id`, `cmd` and `topic` once and a string under `topic`; and then the message announces
that record, on whatever topic it arrives. -/
theorem decoders_agree (text : List UInt8) (arrival : String) :
    ((∃ r, Record.parse text = .ok r) ↔
      (∃ e, normalize arrival text = .ok e) ∧
      ∃ pairs, WrittenObject text pairs ∧
        (∀ name ∈ ownNames, (Fields.under name pairs).length = 1) ∧
        ∃ topic, Fields.under "topic" pairs = [.string topic]) ∧
    ∀ r, Record.parse text = .ok r → ∃ e, normalize arrival text = .ok e ∧ e.record = r := by
  refine ⟨⟨?_, ?_⟩, fun r h => normalize_of_parse h arrival⟩
  · rintro ⟨r, h⟩
    obtain ⟨e, he, -⟩ := normalize_of_parse h arrival
    obtain ⟨pairs, hw, hr⟩ := parse_record_iff.mp h
    obtain ⟨hid, ⟨word, hword, -⟩, htopic, -⟩ := hr
    refine ⟨⟨e, he⟩, pairs, hw, fun name hn => ?_, r.topic, htopic⟩
    rcases mem_ownNames.mp hn with rfl | rfl | rfl
    · rw [hid, List.length_singleton]
    · rw [hword, List.length_singleton]
    · rw [htopic, List.length_singleton]
  -- A message takes the last value under each key. It is the only one, so the record has it too.
  · rintro ⟨⟨e, he⟩, pairs, hw, hone, topic, htopic⟩
    obtain ⟨_, ho, hf⟩ := normalize_eq_ok_iff.mp he
    obtain rfl := hw.unique ho
    obtain ⟨hid, ⟨word, hword, hc⟩, -⟩ := ofFields_eq_ok hf
    refine ⟨⟨e.id, e.command, topic, _⟩,
      parse_record_iff.mpr ⟨pairs, hw, ?_, ⟨word, ?_, hc⟩, ?_, rfl⟩⟩
    · exact under_of_get? (hone "id" (by decide)) hid
    · exact under_of_get? (hone "cmd" (by decide)) hword
    · exact htopic

/-- An own field that is repeated is no obstacle to a message, only to a record. -/
example :
    let text := Text.bytes
      "\x7b\"id\":\"n\",\"cmd\":\"rt-start\",\"topic\":\"a\",\"id\":\"m\"\x7d"
    (∃ e, normalize "b" text = .ok e) ∧ ∃ error, Record.parse text = .error error :=
  ⟨⟨_, rfl⟩, _, rfl⟩

end LiveTopology.Node
