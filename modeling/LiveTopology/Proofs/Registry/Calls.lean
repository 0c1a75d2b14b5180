import LiveTopology.Proofs.Registry.Roster

/-!
# The registry answers like a list of records

Each call on the registry has a plain counterpart on a roster, which appends, leaves out and
searches. Whatever calls are made on an empty registry, it returns what the roster returns, and its
index, its rows and its counter stay in agreement.
-/

namespace LiveTopology

open Node

/-- A call on the registry. -/
inductive RegistryCall where
  | upsert (record : Record)
  | remove (id : String)
  | clear
  | get (id : String)
  | contains (id : String)
  | size
  | isEmpty
  | snapshot

/-- What a call returns. -/
inductive Returned where
  | nothing
  | flag (value : Bool)
  | record (value : Option Record)
  | count (value : Nat)
  | entries (value : List Entry)

/-- Whether a call that returned this has inserted a record. -/
def RegistryCall.inserts : RegistryCall → Returned → Bool
  | .upsert _, .flag inserted => inserted
  | _, _ => false

/-- What calls return one after another, and the state they leave. -/
def callEach {σ : Type} (call : σ → RegistryCall → Returned × σ) :
    σ → List RegistryCall → List Returned × σ
  | s, [] => ([], s)
  | s, c :: rest =>
    let (returned, s) := call s c
    let (later, s) := callEach call s rest
    (returned :: later, s)

/-- The number of calls that have inserted a record, by what they returned. -/
def insertions (calls : List RegistryCall) (returned : List Returned) : ℕ :=
  (calls.zip returned).countP fun pair => pair.1.inserts pair.2

/-- No more records are inserted than calls are made. -/
theorem insertions_le_length (calls : List RegistryCall) (returned : List Returned) :
    insertions calls returned ≤ calls.length := by
  have hc : insertions calls returned ≤ (calls.zip returned).length := List.countP_le_length
  rw [List.length_zip] at hc
  omega

namespace Registry

/-- Makes a call on the registry. -/
def call (r : Registry) : RegistryCall → Returned × Registry
  | .upsert record => (.flag (r.insert record).1, (r.insert record).2)
  | .remove id => (.flag (r.remove id).1, (r.remove id).2)
  | .clear => (.nothing, r.clear)
  | .get id => (.record (r.get? id), r)
  | .contains id => (.flag (r.contains id), r)
  | .size => (.count r.size, r)
  | .isEmpty => (.flag r.isEmpty, r)
  | .snapshot => (.entries r.snapshot, r)

/-- The parts of the registry agree, and every way to look into it shows the same records. -/
structure Coherent (r : Registry) : Prop where
  /-- The index leads to the rows, and every row is indexed. -/
  index : ∀ id number,
    r.index[id]? = some number ↔ ∃ record, (number, record) ∈ r.rows ∧ record.id = id
  ids : (r.records.map Record.id).Nodup
  ascending : (r.rows.map Prod.fst).Pairwise (· < ·)
  below : ∀ row ∈ r.rows, row.1 < r.counter
  get : ∀ id, r.get? id = r.records.find? fun record => record.id = id
  contains : ∀ id, r.contains id = r.records.any fun record => record.id = id
  size : r.size = r.snapshot.length

end Registry

namespace Roster

/-- The counterpart of a call on a roster. -/
def call (roster : List Record) : RegistryCall → Returned × List Record
  | .upsert record =>
    if roster.any fun listed => listed.id = record.id then (.flag false, roster)
    else (.flag true, roster ++ [record])
  | .remove id => (.flag (roster.any fun record => record.id = id), without id roster)
  | .clear => (.nothing, [])
  | .get id => (.record (find? id roster), roster)
  | .contains id => (.flag (roster.any fun record => record.id = id), roster)
  | .size => (.count roster.length, roster)
  | .isEmpty => (.flag roster.isEmpty, roster)
  | .snapshot => (.entries (roster.map Entry.mk), roster)

/-- A record is found exactly if the roster has one of that name. -/
theorem isSome_find? (id : String) (roster : List Record) :
    (find? id roster).isSome = roster.any fun record => record.id = id :=
  List.isSome_find?

end Roster

namespace Registry.Lists

variable {r : Registry} {inserted : ℕ} {roster : List Record}

/-- A number is indexed exactly if its row has the id. -/
theorem index_eq_some_iff (h : Lists r inserted roster) (id : String) (number : UInt64) :
    r.index[id]? = some number ↔ ∃ record, (number, record) ∈ r.rows ∧ record.id = id := by
  rw [h.index, Option.map_eq_some_iff]
  constructor
  · rintro ⟨row, hf, rfl⟩
    exact ⟨row.2, List.mem_of_find?_eq_some hf, of_decide_eq_true (List.find?_some hf :)⟩
  · rintro ⟨record, hm, rfl⟩
    exact ⟨(number, record), find?_key h.row_ids hm, rfl⟩

/-- While the counter has not come round, the parts of the registry agree. -/
theorem coherent (h : Lists r inserted roster) (hb : inserted < UInt64.size) : Coherent r where
  index := h.index_eq_some_iff
  ids := by
    rw [h.records]
    exact h.ids
  ascending := h.ascending
  below := (h.above hb).2
  get id := by
    rw [h.get?_eq, h.records]
    rfl
  contains id := by rw [h.contains_eq, h.records, Roster.isSome_find?]
  size := by rw [h.size_eq, snapshot, List.length_map, h.records]

/-- A call returns what its counterpart returns, and leaves the roster that it leaves. -/
theorem call_eq (h : Lists r inserted roster) (c : RegistryCall)
    (hb : inserted + (c.inserts (r.call c).1).toNat ≤ UInt64.size) :
    (r.call c).1 = (Roster.call roster c).1 ∧
      Lists (r.call c).2 (inserted + (c.inserts (r.call c).1).toNat) (Roster.call roster c).2 := by
  cases c with
  | upsert record =>
    cases hf : Roster.find? record.id roster with
    | none =>
      have ha : (roster.any fun listed => listed.id = record.id) = false := by
        rw [← Roster.isSome_find?, hf, Option.isSome_none]
      -- The id is new, so there is a number left exactly if the bound covers this insertion.
      have hl : inserted < UInt64.size := by
        have hi := h.contains_eq record.id
        rw [hf, Option.isSome_none, Registry.contains] at hi
        simp only [Registry.call, insert, hi, Bool.false_eq_true, if_false, RegistryCall.inserts,
          Bool.toNat_true] at hb
        omega
      obtain ⟨ht, hn⟩ := h.insert_new hf hl
      simp only [Registry.call, Roster.call, ht, ha, Bool.false_eq_true, if_false,
        RegistryCall.inserts, Bool.toNat_true]
      exact ⟨trivial, hn⟩
    | some listed =>
      have hs : (Roster.find? record.id roster).isSome := by rw [hf, Option.isSome_some]
      have ha : (roster.any fun listed => listed.id = record.id) = true := by
        rw [← Roster.isSome_find?, hs]
      simp only [Registry.call, Roster.call, h.insert_known hs, ha, if_true, RegistryCall.inserts,
        Bool.toNat_false, Nat.add_zero]
      exact ⟨trivial, h⟩
  | remove id =>
    obtain ⟨ht, hl⟩ := h.remove id
    rw [Roster.isSome_find?] at ht
    exact ⟨congrArg Returned.flag ht, hl⟩
  | clear => exact ⟨rfl, h.clear⟩
  | get id => exact ⟨congrArg Returned.record (h.get?_eq id), h⟩
  | contains id =>
    have hc := h.contains_eq id
    rw [Roster.isSome_find?] at hc
    exact ⟨congrArg Returned.flag hc, h⟩
  | size => exact ⟨congrArg Returned.count h.size_eq, h⟩
  | isEmpty =>
    have he : r.isEmpty = roster.isEmpty := by
      rw [Registry.isEmpty, h.size_eq]
      cases roster <;> rfl
    exact ⟨congrArg Returned.flag he, h⟩
  | snapshot =>
    have hs : r.snapshot = roster.map Entry.mk := by rw [snapshot, h.records]
    exact ⟨congrArg Returned.entries hs, h⟩

/-- Calls return what their counterparts return, while there are numbers for all insertions. -/
theorem callEach_eq (h : Lists r inserted roster) (calls : List RegistryCall)
    (hb : inserted + insertions calls (callEach Registry.call r calls).1 ≤ UInt64.size) :
    (callEach Registry.call r calls).1 = (callEach Roster.call roster calls).1 ∧
      Lists (callEach Registry.call r calls).2
        (inserted + insertions calls (callEach Registry.call r calls).1)
        (callEach Roster.call roster calls).2 := by
  induction calls generalizing r inserted roster with
  | nil => exact ⟨rfl, h⟩
  | cons c rest ih =>
    have hn : inserted + insertions (c :: rest) (callEach Registry.call r (c :: rest)).1 =
        inserted + (c.inserts (r.call c).1).toNat +
          insertions rest (callEach Registry.call (r.call c).2 rest).1 := by
      rw [callEach, insertions, List.zip_cons_cons, List.countP_cons, insertions]
      cases c.inserts (r.call c).1 with
      | true => simp only [if_true, Bool.toNat_true]; omega
      | false => simp only [Bool.false_eq_true, if_false, Bool.toNat_false]; omega
    rw [hn] at hb ⊢
    obtain ⟨hc, hl⟩ := h.call_eq c (by omega)
    obtain ⟨hr, hl⟩ := ih hl hb
    exact ⟨congrArg₂ List.cons hc hr, hl⟩

end Registry.Lists

/-! ## Any calls on an empty registry -/

namespace Registry

/-- With fewer than 2^64 insertions, every call on an empty registry returns what it would return
on a plain list of records, and the parts of the registry agree afterwards. -/
theorem returns_like_roster (calls : List RegistryCall)
    (hb : insertions calls (callEach call .empty calls).1 < UInt64.size) :
    (callEach call .empty calls).1 = (callEach Roster.call [] calls).1 ∧
      (callEach call .empty calls).2.records = (callEach Roster.call [] calls).2 ∧
      Coherent (callEach call .empty calls).2 := by
  obtain ⟨hr, hl⟩ := lists_empty.callEach_eq calls (by omega)
  exact ⟨hr, hl.records, hl.coherent (by omega)⟩

/-- The numbers go on after everything was forgotten, and a record that is inserted again goes to
the end. -/
theorem returns_after_clear :
    let record id topic : Record := ⟨id, .start .module, topic, []⟩
    let calls := [.upsert (record "a" "first"), .upsert (record "a" "second"), .clear,
      .upsert (record "b" "third"), .upsert (record "a" "fourth"), .remove "b",
      .upsert (record "b" "fifth"), .get "a", .contains "c", .size, .snapshot]
    let returned := (callEach call .empty calls).1
    insertions calls returned = 4 ∧
      returned = [.flag true, .flag false, .nothing, .flag true, .flag true, .flag true,
        .flag true, .record (some (record "a" "fourth")), .flag false, .count 2,
        .entries [⟨record "a" "fourth"⟩, ⟨record "b" "fifth"⟩]] := by
  intro record calls returned
  have hl : insertions calls returned ≤ calls.length := insertions_le_length calls returned
  have h := (returns_like_roster calls (Nat.lt_of_le_of_lt hl (by decide))).1
  refine ⟨?_, h⟩
  rw [show returned = _ from h]
  rfl

end Registry

end LiveTopology
