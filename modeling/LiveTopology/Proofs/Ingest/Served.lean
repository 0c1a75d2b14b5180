import LiveTopology.Bus.Recorder
import LiveTopology.Ingest
import LiveTopology.Proofs.Node.Snapshot
import LiveTopology.Viewer.Api

/-!
# The snapshot that viewers are served

Whatever changes the registry, from messages, from records in JSON text, by removal or by a reset,
it only ever stores records that were read. So what is served can be read back as long as it holds
no double and its records leave room for the two levels that a snapshot adds.
-/

namespace LiveTopology

open Bus Json Node Text

namespace Registry

/-- Putting a row adds no other row. -/
theorem mem_putRow {number : UInt64} {record : Record} {rows : List (UInt64 × Record)}
    {row : UInt64 × Record} (h : row ∈ putRow number record rows) :
    row = (number, record) ∨ row ∈ rows := by
  induction rows with
  | nil => exact .inl (List.mem_singleton.mp h)
  | cons first rest ih =>
    rw [putRow] at h
    split_ifs at h
    · exact (List.mem_cons.mp h).imp_right (List.mem_cons_of_mem first)
    · exact List.mem_cons.mp h
    · rcases List.mem_cons.mp h with h | h
      · exact .inr (h ▸ List.mem_cons_self)
      · exact (ih h).imp_right (List.mem_cons_of_mem first)

/-- An insertion adds no record but its own. -/
theorem mem_records_insert {r : Registry} {record other : Record}
    (h : other ∈ (r.insert record).2.records) : other = record ∨ other ∈ r.records := by
  rw [insert] at h
  split at h
  · exact .inr h
  · obtain ⟨row, hrow, rfl⟩ := List.mem_map.mp h
    rcases mem_putRow hrow with rfl | hrow
    · exact .inl rfl
    · exact .inr (List.mem_map_of_mem hrow)

/-- A removal adds no record. -/
theorem mem_records_remove {r : Registry} {id : String} {other : Record}
    (h : other ∈ (r.remove id).2.records) : other ∈ r.records := by
  rw [remove] at h
  split at h
  · exact h
  · obtain ⟨row, hrow, rfl⟩ := List.mem_map.mp h
    exact List.mem_map_of_mem (List.mem_filter.mp hrow).1

/-- An event stores its own record or none. -/
theorem mem_records_apply {r : Registry} {e : Event} {other : Record}
    (h : other ∈ (r.apply e).2.records) : other = e.record ∨ other ∈ r.records := by
  rw [apply] at h
  split at h
  · exact mem_records_insert h
  · exact .inr (mem_records_remove h)
  · exact .inr h

end Registry

/-- What changes the nodes that are served. -/
inductive Change where
  | message (topic : String) (payload : List UInt8)
  /-- The insertion of the record that a text denotes, if it denotes one. -/
  | upsert (text : List UInt8)
  | remove (id : String)
  | reset

namespace Ingest

variable {β : Type} [Bus β]

/-- The state after a change. -/
def change (s : Ingest β) : Change → Ingest β
  | .message topic payload => (s.handle topic payload).2
  | .upsert text =>
    match Record.parse text with
    | .ok record => { s with registry := (s.registry.insert record).2 }
    | .error _ => s
  | .remove id => { s with registry := (s.registry.remove id).2 }
  | .reset => s.resetAll

/-- The state after changes. -/
def changed (s : Ingest β) (changes : List Change) : Ingest β := changes.foldl change s

/-- All stored records have the shape of records that were read. -/
def Stored (s : Ingest β) : Prop := ∀ record ∈ s.registry.records, record.Canonical

/-- A change keeps every record one that can be read back from its text. -/
theorem Stored.change {s : Ingest β} (h : s.Stored) (c : Change) : (s.change c).Stored := by
  intro record hr
  cases c with
  | message topic payload =>
    rw [Ingest.change, handle] at hr
    split at hr
    · exact h record hr
    · rename_i event hn
      rcases Registry.mem_records_apply hr with rfl | hr
      · exact canonical_normalize hn
      · exact h record hr
  | upsert text =>
    rw [Ingest.change] at hr
    split at hr
    · rename_i found hp
      rcases Registry.mem_records_insert hr with rfl | hr
      · exact canonical_parse hp
      · exact h record hr
    · exact h record hr
  | remove id => exact h record (Registry.mem_records_remove hr)
  | reset => cases hr

/-- In the course of changes every record stays one that can be read back from its text. -/
theorem Stored.changed {s : Ingest β} (h : s.Stored) (changes : List Change) :
    (s.changed changes).Stored := by
  induction changes generalizing s with
  | nil => exact h
  | cons c rest ih => exact ih (h.change c)

/-- After any changes that leave no double in a record, the text that is served to viewers is read
back exactly if every stored record nests at most 125 deep, and then as the snapshot itself. -/
theorem served_snapshot_read_back (policy : Policy) (bus : β) (changes : List Change)
    (hd : ∀ record ∈ ((Ingest.mk policy .empty bus).changed changes).registry.records,
      membersDoubleFree record.extra) :
    let now := (Ingest.mk policy .empty bus).changed changes
    let text := snapshotText now.fetchAll
    (∀ request : Viewer.HttpRequest, request.path = "/net-state" → request.method = "GET" →
      (Viewer.answer request now.registry).1 =
        .response ⟨200, some "application/json", none, some text⟩) ∧
    ((∃ entries, parseSnapshot (bytes text) = .ok entries) ↔
      ∀ record ∈ now.registry.records, record.nesting ≤ 125) ∧
    ∀ entries, parseSnapshot (bytes text) = .ok entries → entries = now.fetchAll := by
  intro now text
  have hempty : (Ingest.mk policy .empty bus).Stored := nofun
  have hstored : now.Stored := hempty.changed changes
  have hread (entries : List Entry) :
      parseSnapshot (bytes text) = .ok entries ↔
        entries = now.fetchAll ∧ ∀ e ∈ now.fetchAll, e.data.nesting + 2 ≤ depthLimit := by
    refine parseSnapshot_text_iff ?_ ?_
    · exact List.forall_mem_map.mpr hstored
    · exact List.forall_mem_map.mpr hd
  -- The array around the entries and the object around each record take two levels.
  have hnesting : (∀ e ∈ now.fetchAll, e.data.nesting + 2 ≤ depthLimit) ↔
      ∀ record ∈ now.registry.records, record.nesting ≤ 125 := by
    rw [fetchAll, Registry.snapshot, List.forall_mem_map]
    exact forall₂_congr fun record _ => Nat.add_le_add_iff_right (n := 2)
  refine ⟨fun request hp hm => ?_, ⟨?_, ?_⟩, fun entries h => ((hread entries).mp h).1⟩
  · rw [Viewer.answer, if_pos hp, hm]
    rfl
  · rintro ⟨entries, h⟩
    exact hnesting.mp ((hread entries).mp h).2
  · exact fun h => ⟨now.fetchAll, (hread _).mpr ⟨rfl, hnesting.mpr h⟩⟩

/-- The snapshot of a node with nested fields, after a reset that forgot another node. -/
theorem served_snapshot_read_back_nested :
    let payload := bytes "\x7b\"id\":\"a\",\"cmd\":\"rt-start\",\"n\":[[],7]\x7d"
    let forgotten := bytes "\x7b\"id\":\"b\",\"cmd\":\"rt-start\",\"topic\":\"x\"\x7d"
    let changes := [.upsert forgotten, .reset, .message "realm/proc" payload]
    let now := (Ingest.mk ⟨false⟩ .empty (Recorder.mk [] none)).changed changes
    (∀ record ∈ now.registry.records, membersDoubleFree record.extra) ∧
      now.registry.records.map Record.nesting = [3] ∧
      parseSnapshot (bytes (snapshotText now.fetchAll)) = .ok now.fetchAll := by
  intro payload forgotten changes now
  let e : Event := ⟨"a", .start .runtime, "realm/proc", none,
    [("n", .array [.array [], .number (.integer 7 (by decide))])]⟩
  have hn : normalize "realm/proc" payload = .ok e := rfl
  have hlast (s : Ingest Recorder) :
      ((s.change .reset).change (.message "realm/proc" payload)).registry.records = [e.record] := by
    rw [change, handle, hn]
    simp [change, resetAll, Registry.apply, Event.kind, Command.kind, e, Registry.insert,
      Registry.clear, Registry.putRow, Registry.records]
  have hrecords : now.registry.records = [e.record] := hlast _
  have hd : ∀ record ∈ now.registry.records, membersDoubleFree record.extra := by
    rw [hrecords]
    exact List.forall_mem_singleton.mpr ⟨⟨trivial, trivial, trivial⟩, trivial⟩
  have hn : e.record.nesting = 3 := rfl
  have h := served_snapshot_read_back ⟨false⟩ (Recorder.mk [] none) changes hd
  obtain ⟨entries, hread⟩ := h.2.1.mpr (by
    rw [hrecords]
    exact List.forall_mem_singleton.mpr (by omega))
  refine ⟨hd, by rw [hrecords, List.map_singleton, hn], ?_⟩
  rw [hread, h.2.2 entries hread]

end Ingest

end LiveTopology
