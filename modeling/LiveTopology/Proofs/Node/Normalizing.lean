import LiveTopology.Proofs.Node.Decoders

/-!
# What becomes of a payload

A payload is an event, or it is refused for one reason: it is no document, it holds no object, or
`id`, or else `cmd`, is missing or no string. Which of these it is depends on the value that the
payload denotes, and no other field has a say. The record of an event has the two strings, a topic
that is always found, and all other fields as they are.
-/

namespace LiveTopology.Node

open LiveTopology Json

/-! ## Refusals -/

/-- What is wrong with a field that has to be a string. -/
inductive FieldFault (name : String) (fields : List (String × Value)) : EventError → Prop where
  | missing (h : Fields.get? name fields = none) : FieldFault name fields (.missingField name)
  | notString {v : Value} (h : Fields.get? name fields = some v) (hn : ∀ text, v ≠ .string text) :
      FieldFault name fields (.notString name)

/-- What is wrong with a value that is no event. The command is looked at once there is an id. -/
inductive EventFault : Value → EventError → Prop where
  | notObject {v : Value} (h : ∀ fields, v ≠ .object fields) : EventFault v .notObject
  | id {fields : List (String × Value)} {error : EventError} (h : FieldFault "id" fields error) :
      EventFault (.object fields) error
  | command {fields : List (String × Value)} {id : String} {error : EventError}
      (hid : Fields.get? "id" fields = some (.string id)) (h : FieldFault "cmd" fields error) :
      EventFault (.object fields) error

/-- A required string is missed exactly for what is wrong with its field. -/
theorem requiredString_eq_error_iff {name : String} {fields : List (String × Value)}
    {error : EventError} :
    requiredString name fields = .error error ↔ FieldFault name fields error := by
  rw [requiredString]
  constructor
  · intro h
    split at h
    · rename_i hg
      cases h
      exact .missing hg
    · cases h
    · rename_i hn hg
      cases h
      exact .notString hg hn
  · intro h
    cases h with
    | missing hg => rw [hg]
    | notString hg hn =>
      rw [hg]
      split
      · rename_i hv
        cases hv
      · rename_i text hv
        exact absurd (Option.some.inj hv) (hn text)
      · rfl

/-- Fields make up no event exactly for the first thing that is wrong with them. -/
theorem ofFields_eq_error_iff {arrival : String} {fields : List (String × Value)}
    {error : EventError} :
    Event.ofFields arrival fields = .error error ↔ EventFault (.object fields) error := by
  rw [Event.ofFields, bind_eq_error_iff]
  constructor
  · rintro (h | ⟨id, hid, h⟩)
    · exact .id (requiredString_eq_error_iff.mp h)
    · rcases bind_eq_error_iff.mp h with h | ⟨word, -, h⟩
      · exact .command (requiredString_eq_ok_iff.mp hid) (requiredString_eq_error_iff.mp h)
      · cases h
  · intro h
    cases h with
    | notObject h => exact absurd rfl (h fields)
    | id h => exact .inl (requiredString_eq_error_iff.mpr h)
    | command hid h =>
      refine .inr ⟨_, requiredString_eq_ok_iff.mpr hid, bind_eq_error_iff.mpr (.inl ?_)⟩
      exact requiredString_eq_error_iff.mpr h

/-- With a value that is no object there is one thing wrong. -/
theorem eventFault_iff_of_not_object {v : Value} {error : EventError}
    (h : ∀ fields, v ≠ .object fields) : EventFault v error ↔ error = .notObject := by
  constructor
  · intro hf
    cases hf with
    | notObject _ => rfl
    | id _ => exact absurd rfl (h _)
    | command _ _ => exact absurd rfl (h _)
  · rintro rfl
    exact .notObject h

/-- A payload is refused because it is no document or for what is wrong with its value. -/
theorem normalize_eq_error_iff {arrival : String} {payload : List UInt8} {error : EventError} :
    normalize arrival payload = .error error ↔
      (∃ cause, error = .notJson cause ∧ Json.parse payload = .error cause) ∨
        ∃ v, Json.parse payload = .ok v ∧ EventFault v error := by
  rw [normalize]
  cases Json.parse payload with
  | error cause => simp [eq_comm]
  | ok v =>
    cases v with
    | object fields => simpa using ofFields_eq_error_iff
    | _ => simp [eventFault_iff_of_not_object, eq_comm]

/-! ## Records -/

/-- What the record of an object has: its strings, its topic, and all other fields. -/
structure Record.TakenFrom (r : Record) (arrival : String) (fields : List (String × Value)) :
    Prop where
  id : Fields.get? "id" fields = some (.string r.id)
  command : Fields.get? "cmd" fields = some (.string r.command.word)
  known : r.command = .ofWord r.command.word
  topic : r.topic = recordTopic arrival (Fields.get? "topic" fields)
  extra : r.extra = others fields

/-- The record of the event that fields make up is the one taken from them. -/
theorem ofFields_record_iff {arrival : String} {fields : List (String × Value)} {r : Record} :
    (∃ e, Event.ofFields arrival fields = .ok e ∧ e.record = r) ↔ r.TakenFrom arrival fields := by
  constructor
  · rintro ⟨e, hf, rfl⟩
    obtain ⟨hid, ⟨word, hword, -⟩, -⟩ := ofFields_eq_ok hf
    obtain ⟨again, ha, hr⟩ := ofFields_of_strings hid hword arrival
    obtain rfl := Except.ok.inj (hf.symm.trans ha)
    have hw : e.record.command.word = word := by rw [hr, word_ofWord]
    refine ⟨hid, ?_, ?_, ?_, ?_⟩
    · rw [hw, hword]
    · rw [hw, hr]
    · rw [hr]
    · rw [hr]
  · rintro ⟨hid, hword, hk, ht, he⟩
    obtain ⟨e, hf, hr⟩ := ofFields_of_strings hid hword arrival
    refine ⟨e, hf, ?_⟩
    rw [hr, ← hk, ← ht, ← he]

/-- A payload is announced as a record exactly if the record is taken from the object that it
holds. -/
theorem normalize_record_iff {arrival : String} {payload : List UInt8} {r : Record} :
    (∃ e, normalize arrival payload = .ok e ∧ e.record = r) ↔
      ∃ fields, Json.parse payload = .ok (.object fields) ∧ r.TakenFrom arrival fields := by
  simp only [← ofFields_record_iff]
  rw [normalize]
  cases Json.parse payload with
  | error cause => simp
  | ok v => cases v <;> simp

/-- A message is refused as no document exactly if it is none. -/
theorem exists_notJson_iff {arrival : String} {payload : List UInt8} :
    (∃ cause, normalize arrival payload = .error (.notJson cause)) ↔
      ¬ ∃ v, Json.parse payload = .ok v := by
  constructor
  · rintro ⟨cause, h⟩ ⟨v, hv⟩
    rcases normalize_eq_error_iff.mp h with ⟨other, -, hp⟩ | ⟨w, -, hf⟩
    · rw [hv] at hp
      cases hp
    · cases hf with
      | id h => cases h
      | command _ h => cases h
  · intro h
    cases hp : Json.parse payload with
    | ok v => exact absurd ⟨v, hp⟩ h
    | error cause => exact ⟨cause, normalize_eq_error_iff.mpr (.inl ⟨cause, rfl, hp⟩)⟩

/-- A message is an event exactly if it is an object with an id and a command, both of them strings.
-/
theorem exists_event_iff {arrival : String} {payload : List UInt8} :
    (∃ e, normalize arrival payload = .ok e) ↔
      ∃ fields id word, Json.parse payload = .ok (.object fields) ∧
        Fields.get? "id" fields = some (.string id) ∧
        Fields.get? "cmd" fields = some (.string word) := by
  constructor
  · rintro ⟨e, h⟩
    obtain ⟨fields, hp, ht⟩ := normalize_record_iff.mp ⟨e, h, rfl⟩
    exact ⟨fields, _, _, hp, ht.id, ht.command⟩
  · rintro ⟨fields, id, word, hp, hid, hword⟩
    obtain ⟨e, hf, -⟩ := ofFields_of_strings hid hword arrival
    exact ⟨e, by rw [normalize, hp]; exact hf⟩

/-- A payload is refused exactly if it denotes nothing, with what the reader reports, or for the
first thing that is wrong with the value that it denotes. It is accepted exactly if it denotes an
object in which `id` and `cmd` are strings, and the record is then what is taken from this object
and the topic of arrival. -/
theorem normalize_exact (arrival : String) (payload : List UInt8) :
    ((∃ cause, normalize arrival payload = .error (.notJson cause)) ↔
        ¬ ∃ v, Padded (Denotes depthLimit) payload v) ∧
      (∀ error, normalize arrival payload = .error error ↔
        (∃ cause, error = .notJson cause ∧ Json.parse payload = .error cause) ∨
          ∃ v, Padded (Denotes depthLimit) payload v ∧ EventFault v error) ∧
      ((∃ e, normalize arrival payload = .ok e) ↔
        ∃ fields id word, Padded (Denotes depthLimit) payload (.object fields) ∧
          Fields.get? "id" fields = some (.string id) ∧
          Fields.get? "cmd" fields = some (.string word)) ∧
      ∀ r, (∃ e, normalize arrival payload = .ok e ∧ e.record = r) ↔
        ∃ fields, Padded (Denotes depthLimit) payload (.object fields) ∧
          r.TakenFrom arrival fields := by
  simp only [← parse_eq_ok_iff]
  exact ⟨exists_notJson_iff, fun _ => normalize_eq_error_iff, exists_event_iff,
    fun _ => normalize_record_iff⟩

/-- The id is at fault before the command, and the last value of a key counts. -/
example :
    let text := Text.bytes "\x7b\"cmd\":1,\"id\":\"n\",\"topic\":\x7b\x7d,\"id\":null\x7d"
    normalize "a" text = .error (.notString "id") := rfl

end LiveTopology.Node
