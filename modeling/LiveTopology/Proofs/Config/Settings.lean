import LiveTopology.Config.Basic
import LiveTopology.Proofs.Toml.Reading
import LiveTopology.Proofs.Toml.Sections

/-!
# What a document says of the settings

Each setting is read from the item under its own name, or has its standard where there is none. The
standard of a setting is the same whether its section is missing or only does not name it. A
document is taken exactly if the items under the names of settings are of the right kind and size,
so whatever else is written in it, and how and in which order, plays no part.
-/

namespace LiveTopology

open Toml

/-- What is said of a setting: nothing, where the standard holds, or the setting's value. -/
def Setting {α : Type} (shown : α → Simple) (standard : α) (found : Option Simple) (value : α) :
    Prop :=
  (found = none ∧ value = standard) ∨ found = some (shown value)

/-- The settings that a document writes. -/
structure Config.WrittenIn (c : Config) (document : Item) : Prop where
  apiHost : Setting .string "0.0.0.0" (document.simple? ["api_host"]) c.apiHost
  apiPort : Setting (fun port : UInt16 => .integer port.toNat) 5000
    (document.simple? ["api_port"]) c.apiPort
  serverAddress : Setting .string "localhost:1883"
    (document.simple? ["mqtt", "server_address"]) c.mqtt.serverAddress
  clientId : Setting .string "net-state" (document.simple? ["mqtt", "client_id"]) c.mqtt.clientId
  keepaliveSeconds : Setting (fun seconds : UInt64 => .integer seconds.toNat) 60
    (document.simple? ["mqtt", "keepalive_secs"]) c.mqtt.keepaliveSeconds
  requestCapacity : Setting (fun capacity : UInt64 => .integer capacity.toNat) 64
    (document.simple? ["mqtt", "request_capacity"]) c.mqtt.requestCapacity
  topicPrefix : document.simple? ["runtime", "topic_prefix"] = some (.string c.runtime.topicPrefix)
  unsubscribeOnStop : Setting .boolean false
    (document.simple? ["runtime", "unsubscribe_on_stop"]) c.runtime.unsubscribeOnStop

/-- What a document must be to have settings: the topic of runtimes is there, and what is said of
any setting is of its kind and size. -/
structure Configures (document : Item) : Prop where
  topicPrefix : ∃ topic, document.simple? ["runtime", "topic_prefix"] = some (.string topic)
  unsubscribeOnStop : ∀ found, document.simple? ["runtime", "unsubscribe_on_stop"] = some found →
    ∃ flag, found = .boolean flag
  apiHost : ∀ found, document.simple? ["api_host"] = some found → ∃ host, found = .string host
  apiPort : ∀ found, document.simple? ["api_port"] = some found →
    ∃ port : Int, found = .integer port ∧ 0 ≤ port ∧ port ≤ 65535
  serverAddress : ∀ found, document.simple? ["mqtt", "server_address"] = some found →
    ∃ address, found = .string address
  clientId : ∀ found, document.simple? ["mqtt", "client_id"] = some found → ∃ id, found = .string id
  keepaliveSeconds : ∀ found, document.simple? ["mqtt", "keepalive_secs"] = some found →
    ∃ seconds : Int, found = .integer seconds ∧ 0 ≤ seconds
  requestCapacity : ∀ found, document.simple? ["mqtt", "request_capacity"] = some found →
    ∃ capacity : Int, found = .integer capacity ∧ 0 ≤ capacity

/-- The paths to the settings. -/
def settingPaths : List (List String) :=
  [["api_host"], ["api_port"], ["mqtt", "server_address"], ["mqtt", "client_id"],
    ["mqtt", "keepalive_secs"], ["mqtt", "request_capacity"], ["runtime", "topic_prefix"],
    ["runtime", "unsubscribe_on_stop"]]

/-- The sections of a document are tables where they are there at all. -/
def SectionsAreTables (document : Item) : Prop :=
  ∀ name ∈ ["mqtt", "runtime"], ∀ item ∈ document.at? [name], item.isTable = true

instance (document : Item) : Decidable (SectionsAreTables document) :=
  inferInstanceAs (Decidable (∀ name ∈ _, ∀ item ∈ document.at? [name], _))

/-- A section that is there is a table. -/
theorem SectionsAreTables.exists_table {origin : Origin} {root : Entries} {span : Option Span}
    (h : SectionsAreTables (.table origin root span)) {name : String} {item : Item}
    (hm : name ∈ ["mqtt", "runtime"]) (hg : root.get? name = some item) :
    ∃ form entries place, item = .table form entries place :=
  exists_of_isTable (h name hm item (by simp [Item.at?, hg]))

/-! ## Numbers -/

/-- A port that is taken is the one written. -/
theorem simple_of_asPort {item : Item} {n : Nat}
    (h : item.asNatural UInt16.size "u16" = .ok n) :
    item.simple = .integer (UInt16.ofNat n).toNat := by
  obtain ⟨hs, hn⟩ := asNatural_eq_ok_iff.mp h
  rw [UInt16.toNat_ofNat', Nat.mod_eq_of_lt hn, hs]

/-- A word is taken exactly if the item is the integer of its value. -/
theorem asWord_eq_ok_iff {kind : String} {item : Item} {word : UInt64} :
    asWord kind item = .ok word ↔ item.simple = .integer word.toNat := by
  constructor
  · intro h
    obtain ⟨n, hn, rfl⟩ := exists_of_map_eq_ok h
    obtain ⟨hs, hlt⟩ := asNatural_eq_ok_iff.mp hn
    rw [UInt64.toNat_ofNat', Nat.mod_eq_of_lt hlt, hs]
  · intro h
    rw [asWord, asNatural_eq_ok_iff.mpr ⟨h, word.toNat_lt⟩, Except.map, UInt64.ofNat_toNat]

/-- An integer of sixteen bits is taken as a port. -/
theorem exists_asPort {item : Item} {n : Int} (hs : item.simple = .integer n) (hn : 0 ≤ n)
    (hlt : n ≤ 65535) : ∃ port, item.asNatural UInt16.size "u16" = .ok port := by
  have hsize : UInt16.size = 65536 := rfl
  refine ⟨n.toNat, asNatural_eq_ok_iff.mpr ⟨?_, by omega⟩⟩
  rw [hs, Int.toNat_of_nonneg hn]

/-- An integer of a document that is not negative is small enough for a word. -/
theorem exists_asWord {item : Item} (hw : item.WellFormed) {n : Int}
    (hs : item.simple = .integer n) (hn : 0 ≤ n) (kind : String) :
    ∃ word, asWord kind item = .ok word := by
  have hlt : n < 0x8000000000000000 := by
    cases hw with
    | integer span h =>
      cases hs
      exact h.2
    | _ => cases hs
  refine ⟨UInt64.ofNat n.toNat, asWord_eq_ok_iff.mpr ?_⟩
  have hm : n.toNat < 2 ^ 64 := by omega
  rw [hs, UInt64.toNat_ofNat', Nat.mod_eq_of_lt hm, Int.toNat_of_nonneg hn]

/-! ## What is said of a setting -/

/-- What is known of a setting after the entries is what they say of it, or what was known before.
-/
theorem setting_of_sets {σ α β : Type} {schema : Schema σ α} {name : String} {shown : β → Simple}
    {view : σ → β} (h : schema.Sets name (fun item value => item.simple = shown value) view)
    {entries : Entries} (hw : entries.WellFormed) {known after : σ}
    (hr : schema.readEntries entries known = .ok after) :
    Setting shown (view known) ((entries.get? name).map Item.simple) (view after) := by
  obtain ⟨hnone, hsome⟩ := h.after hw hr
  cases hg : entries.get? name with
  | none => exact .inl ⟨rfl, hnone hg⟩
  | some item => exact .inr (congrArg some (hsome item hg))

/-- What is said of a setting is its value. -/
theorem Setting.exists_shown {α : Type} {shown : α → Simple} {standard value : α}
    {found : Option Simple} (h : Setting shown standard found value) :
    ∀ simple, found = some simple → simple = shown value := by
  rintro simple rfl
  rcases h with ⟨hn, -⟩ | hs
  · cases hn
  · exact Option.some.inj hs

/-- What is said of a setting determines it. -/
theorem Setting.unique {α : Type} {shown : α → Simple} (hi : Function.Injective shown)
    {standard value other : α} {found : Option Simple} (h : Setting shown standard found value)
    (ho : Setting shown standard found other) : value = other := by
  rcases h with ⟨rfl, rfl⟩ | rfl
  · rcases ho with ⟨-, rfl⟩ | hs
    · rfl
    · cases hs
  · exact hi (ho.exists_shown _ rfl)

/-! ## Sections -/

namespace MqttSection

/-- No field of the section looks at what is known of others. -/
theorem steady : ∀ field ∈ schema.fields, field.Steady := by
  simp only [schema, List.forall_mem_cons]
  exact ⟨steady_of_read Item.asString _ fun _ _ => rfl,
    steady_of_read Item.asString _ fun _ _ => rfl,
    steady_of_read (asWord "u64") _ fun _ _ => rfl,
    steady_of_read (asWord "usize") _ fun _ _ => rfl, List.forall_mem_nil _⟩

/-- The address of the broker is set by the item under its name alone. -/
theorem sets_serverAddress :
    schema.Sets "server_address" (fun item address => item.simple = .string address)
      serverAddress := by
  constructor <;> simp [schema, map_eq_ok_iff, asString_eq_ok_iff]

/-- The name of the client is set by the item under its name alone. -/
theorem sets_clientId :
    schema.Sets "client_id" (fun item id => item.simple = .string id) clientId := by
  constructor <;> simp [schema, map_eq_ok_iff, asString_eq_ok_iff]

/-- The pause between signs of life is set by the item under its name alone. -/
theorem sets_keepaliveSeconds :
    schema.Sets "keepalive_secs" (fun item seconds => item.simple = .integer seconds.toNat)
      keepaliveSeconds := by
  constructor <;> simp [schema, map_eq_ok_iff, asWord_eq_ok_iff]

/-- The size of the queue is set by the item under its name alone. -/
theorem sets_requestCapacity :
    schema.Sets "request_capacity" (fun item capacity => item.simple = .integer capacity.toNat)
      requestCapacity := by
  constructor <;> simp [schema, map_eq_ok_iff, asWord_eq_ok_iff]

/-- A section that is missing leaves its settings as one does that says nothing of them. -/
theorem setting {β : Type} {name : String} {shown : β → Simple} {view : MqttSection → β}
    (h : schema.Sets name (fun item value => item.simple = shown value) view) {root : Entries}
    (hw : root.WellFormed) (ht : ∀ item, root.get? "mqtt" = some item →
      ∃ form entries place, item = .table form entries place)
    {mqtt : MqttSection} (hnone : root.get? "mqtt" = none → mqtt = standard)
    (hsome : ∀ item, root.get? "mqtt" = some item → schema.read item = .ok mqtt) (origin : Origin)
    (span : Option Span) :
    Setting shown (view standard) ((Item.table origin root span).simple? ["mqtt", name])
      (view mqtt) := by
  cases hg : root.get? "mqtt" with
  | none =>
    rw [simple?_cons, hg, hnone hg]
    exact .inl ⟨rfl, rfl⟩
  | some item =>
    obtain ⟨form, entries, place, rfl⟩ := ht item hg
    obtain ⟨after, hr, hf⟩ := exists_of_bind_eq_ok (hsome _ hg)
    cases hf
    rw [simple?_of_get? hg, simple?_singleton]
    exact setting_of_sets h (wellFormed_table_iff.mp (hw.of_get? hg)) hr

/-- The section about the broker is read if each of its items fits its setting. -/
theorem exists_read {entries : Entries} (hw : entries.WellFormed) {origin : Origin}
    {span : Option Span}
    (address : ∀ item, entries.get? "server_address" = some item →
      ∃ text, item.simple = .string text)
    (id : ∀ item, entries.get? "client_id" = some item → ∃ text, item.simple = .string text)
    (seconds : ∀ item, entries.get? "keepalive_secs" = some item →
      ∃ n, item.simple = .integer n ∧ 0 ≤ n)
    (capacity : ∀ item, entries.get? "request_capacity" = some item →
      ∃ n, item.simple = .integer n ∧ 0 ≤ n) :
    ∃ mqtt, schema.read (.table origin entries span) = .ok mqtt := by
  have hall : ∀ field ∈ schema.fields, ∀ item, entries.get? field.name = some item →
      ∃ after, field.read item standard = .ok after := by
    simp only [schema, List.forall_mem_cons]
    refine ⟨fun item hg => ?_, fun item hg => ?_, fun item hg => ?_, fun item hg => ?_,
      List.forall_mem_nil _⟩
    · obtain ⟨text, hs⟩ := address item hg
      exact exists_bind_eq_ok ⟨text, asString_eq_ok_iff.mpr hs⟩ fun _ _ => ⟨_, rfl⟩
    · obtain ⟨text, hs⟩ := id item hg
      exact exists_bind_eq_ok ⟨text, asString_eq_ok_iff.mpr hs⟩ fun _ _ => ⟨_, rfl⟩
    · obtain ⟨n, hs, hn⟩ := seconds item hg
      exact exists_bind_eq_ok (exists_asWord (hw.of_get? hg) hs hn _) fun _ _ => ⟨_, rfl⟩
    · obtain ⟨n, hs, hn⟩ := capacity item hg
      exact exists_bind_eq_ok (exists_asWord (hw.of_get? hg) hs hn _) fun _ _ => ⟨_, rfl⟩
  exact exists_bind_eq_ok ((Schema.exists_readEntries_iff steady (by decide) hw standard).mpr hall)
    fun mqtt _ => ⟨mqtt, rfl⟩

end MqttSection

namespace RuntimeSection

/-- No field of the section looks at what is known of others. -/
theorem steady : ∀ field ∈ schema.fields, field.Steady := by
  simp only [schema, List.forall_mem_cons]
  exact ⟨steady_of_read Item.asString _ fun _ _ => rfl,
    steady_of_read Item.asBool _ fun _ _ => rfl, List.forall_mem_nil _⟩

/-- The topic of runtimes is set by the item under its name alone. -/
theorem sets_topicPrefix :
    schema.Sets "topic_prefix"
      (fun item topic => ∃ text, item.simple = .string text ∧ topic = some text)
      RuntimeDraft.topicPrefix := by
  constructor <;>
    simp [schema, map_eq_ok_iff, asString_eq_ok_iff, -Bool.exists_bool, -Bool.forall_bool]

/-- Whether stops are followed is set by the item under its name alone. -/
theorem sets_unsubscribeOnStop :
    schema.Sets "unsubscribe_on_stop" (fun item flag => item.simple = .boolean flag)
      RuntimeDraft.unsubscribeOnStop := by
  constructor <;>
    simp [schema, map_eq_ok_iff, asBool_eq_ok_iff, -Bool.exists_bool, -Bool.forall_bool]

/-- The section about runtimes is read to what it says, with the standard where it says nothing. -/
theorem written_of_read {entries : Entries} (hw : entries.WellFormed) {origin : Origin}
    {span : Option Span} {runtime : RuntimeSection}
    (h : schema.read (.table origin entries span) = .ok runtime) :
    (Item.table origin entries span).simple? ["topic_prefix"] = some (.string runtime.topicPrefix) ∧
      Setting .boolean false ((Item.table origin entries span).simple? ["unsubscribe_on_stop"])
        runtime.unsubscribeOnStop := by
  obtain ⟨draft, hr, hf⟩ := exists_of_bind_eq_ok h
  obtain ⟨hnone, hsome⟩ := sets_topicPrefix.after hw hr
  have hflag := setting_of_sets sets_unsubscribeOnStop hw hr
  rw [simple?_singleton, simple?_singleton]
  cases hg : entries.get? "topic_prefix" with
  | none =>
    have hf := mapError_eq_ok_iff.mp hf
    simp only [schema, hnone hg] at hf
    cases hf
  | some item =>
    obtain ⟨text, hs, ht⟩ := hsome item hg
    have hf := mapError_eq_ok_iff.mp hf
    simp only [schema, ht] at hf
    cases hf
    exact ⟨congrArg some hs, hflag⟩

/-- The section about runtimes is read if it has the topic and each item fits its setting. -/
theorem exists_read {entries : Entries} (hw : entries.WellFormed) {origin : Origin}
    {span : Option Span}
    (topic : ∃ item text, entries.get? "topic_prefix" = some item ∧ item.simple = .string text)
    (flag : ∀ item, entries.get? "unsubscribe_on_stop" = some item →
      ∃ value, item.simple = .boolean value) :
    ∃ runtime, schema.read (.table origin entries span) = .ok runtime := by
  obtain ⟨found, text, hf, hs⟩ := topic
  have hall : ∀ field ∈ schema.fields, ∀ item, entries.get? field.name = some item →
      ∃ after, field.read item schema.start = .ok after := by
    simp only [schema, List.forall_mem_cons]
    refine ⟨fun item hg => ?_, fun item hg => ?_, List.forall_mem_nil _⟩
    · cases hf.symm.trans hg
      exact exists_bind_eq_ok ⟨text, asString_eq_ok_iff.mpr hs⟩ fun _ _ => ⟨_, rfl⟩
    · obtain ⟨value, hv⟩ := flag item hg
      exact exists_bind_eq_ok ⟨value, asBool_eq_ok_iff.mpr hv⟩ fun _ _ => ⟨_, rfl⟩
  refine exists_bind_eq_ok
    ((Schema.exists_readEntries_iff steady (by decide) hw schema.start).mpr hall)
    fun draft hr => ?_
  obtain ⟨other, -, ht⟩ := (sets_topicPrefix.after hw hr).2 found hf
  refine ⟨⟨other, draft.unsubscribeOnStop⟩, mapError_eq_ok_iff.mpr ?_⟩
  simp only [schema, ht]

end RuntimeSection

namespace Config

/-- No field of the document looks at what is known of others. -/
theorem steady : ∀ field ∈ schema.fields, field.Steady := by
  simp only [schema, List.forall_mem_cons]
  exact ⟨steady_of_read Item.asString _ fun _ _ => rfl,
    steady_of_read (Item.asNatural UInt16.size "u16") _ fun _ _ => rfl,
    steady_of_read MqttSection.schema.read _ fun _ _ => rfl,
    steady_of_read RuntimeSection.schema.read _ fun _ _ => rfl, List.forall_mem_nil _⟩

/-- The host of the interface is set by the item under its name alone. -/
theorem sets_apiHost :
    schema.Sets "api_host" (fun item host => item.simple = .string host) ConfigDraft.apiHost := by
  constructor <;> simp [schema, map_eq_ok_iff, asString_eq_ok_iff]

/-- The port of the interface is set by the item under its name alone. -/
theorem sets_apiPort :
    schema.Sets "api_port" (fun item port => item.simple = .integer port.toNat)
      ConfigDraft.apiPort := by
  constructor <;> simp [schema, map_eq_ok_iff]
  exact fun _ _ _ => simple_of_asPort

/-- The settings of the broker are set by their section alone. -/
theorem sets_mqtt :
    schema.Sets "mqtt" (fun item mqtt => MqttSection.schema.read item = .ok mqtt)
      ConfigDraft.mqtt := by
  constructor <;> simp [schema, map_eq_ok_iff]

/-- The settings of runtimes are set by their section alone. -/
theorem sets_runtime :
    schema.Sets "runtime"
      (fun item runtime => ∃ r, RuntimeSection.schema.read item = .ok r ∧ runtime = some r)
      ConfigDraft.runtime := by
  constructor <;> simp [schema, map_eq_ok_iff]

/-- The settings read from a document are those that it writes. -/
theorem writtenIn_of_ofItem {origin : Origin} {root : Entries} {span : Option Span}
    (hw : root.WellFormed) (ht : SectionsAreTables (.table origin root span)) {c : Config}
    (h : ofItem (.table origin root span) = .ok c) : c.WrittenIn (.table origin root span) := by
  obtain ⟨draft, hr, hf⟩ := exists_of_bind_eq_ok h
  have hf := mapError_eq_ok_iff.mp hf
  obtain ⟨hnone, hsome⟩ := sets_runtime.after hw hr
  cases hg : root.get? "runtime" with
  -- Without the section the topic of runtimes is missing, so the draft makes no settings.
  | none =>
    simp only [schema, hnone hg] at hf
    cases hf
  | some item =>
    obtain ⟨runtime, hread, hd⟩ := hsome item hg
    obtain ⟨form, entries, place, rfl⟩ := ht.exists_table (by simp) hg
    simp only [schema, hd] at hf
    cases hf
    obtain ⟨htopic, hflag⟩ :=
      RuntimeSection.written_of_read (wellFormed_table_iff.mp (hw.of_get? hg)) hread
    obtain ⟨hmnone, hmsome⟩ := sets_mqtt.after hw hr
    have hmqtt (item : Item) (hm : root.get? "mqtt" = some item) := ht.exists_table (by simp) hm
    exact {
      apiHost := by
        rw [simple?_singleton]
        exact setting_of_sets sets_apiHost hw hr
      apiPort := by
        rw [simple?_singleton]
        exact setting_of_sets sets_apiPort hw hr
      serverAddress :=
        MqttSection.setting MqttSection.sets_serverAddress hw hmqtt hmnone hmsome origin span
      clientId := MqttSection.setting MqttSection.sets_clientId hw hmqtt hmnone hmsome origin span
      keepaliveSeconds :=
        MqttSection.setting MqttSection.sets_keepaliveSeconds hw hmqtt hmnone hmsome origin span
      requestCapacity :=
        MqttSection.setting MqttSection.sets_requestCapacity hw hmqtt hmnone hmsome origin span
      topicPrefix := by
        rw [simple?_of_get? hg]
        exact htopic
      unsubscribeOnStop := by
        rw [simple?_of_get? hg]
        exact hflag }

/-- A document that writes settings fulfils what is asked of one. -/
theorem WrittenIn.configures {c : Config} {document : Item} (h : c.WrittenIn document) :
    Configures document where
  topicPrefix := ⟨_, h.topicPrefix⟩
  unsubscribeOnStop found hf := ⟨_, h.unsubscribeOnStop.exists_shown found hf⟩
  apiHost found hf := ⟨_, h.apiHost.exists_shown found hf⟩
  apiPort found hf := by
    have hp := c.apiPort.toNat_lt
    exact ⟨_, h.apiPort.exists_shown found hf, by omega, by omega⟩
  serverAddress found hf := ⟨_, h.serverAddress.exists_shown found hf⟩
  clientId found hf := ⟨_, h.clientId.exists_shown found hf⟩
  keepaliveSeconds found hf := ⟨_, h.keepaliveSeconds.exists_shown found hf, by omega⟩
  requestCapacity found hf := ⟨_, h.requestCapacity.exists_shown found hf, by omega⟩

/-! ## What is taken -/

/-- The section about the broker is taken if all that it says of settings fits. -/
theorem exists_mqtt {origin : Origin} {root : Entries} {span : Option Span}
    (hw : root.WellFormed) (ht : SectionsAreTables (.table origin root span))
    (h : Configures (.table origin root span)) {item : Item} (hg : root.get? "mqtt" = some item) :
    ∃ mqtt, MqttSection.schema.read item = .ok mqtt := by
  obtain ⟨form, entries, place, rfl⟩ := ht.exists_table (by simp) hg
  have hin {name : String} {found : Item} (hi : Entries.get? name entries = some found) :
      (Item.table origin root span).simple? ["mqtt", name] = some found.simple := by
    rw [simple?_of_get? hg, simple?_of_get? hi]
    rfl
  exact MqttSection.exists_read (wellFormed_table_iff.mp (hw.of_get? hg))
    (fun _ hi => h.serverAddress _ (hin hi)) (fun _ hi => h.clientId _ (hin hi))
    (fun _ hi => h.keepaliveSeconds _ (hin hi)) (fun _ hi => h.requestCapacity _ (hin hi))

/-- The section about runtimes is there, and it is taken. -/
theorem exists_runtime {origin : Origin} {root : Entries} {span : Option Span}
    (hw : root.WellFormed) (ht : SectionsAreTables (.table origin root span))
    (h : Configures (.table origin root span)) :
    ∃ item, root.get? "runtime" = some item ∧
      ∃ runtime, RuntimeSection.schema.read item = .ok runtime := by
  obtain ⟨topic, hs⟩ := h.topicPrefix
  rw [simple?_cons] at hs
  obtain ⟨item, hg, hs⟩ := Option.bind_eq_some_iff.mp hs
  obtain ⟨form, entries, place, rfl⟩ := ht.exists_table (by simp) hg
  rw [simple?_singleton] at hs
  obtain ⟨found, hf, hs⟩ := Option.map_eq_some_iff.mp hs
  refine ⟨_, hg, RuntimeSection.exists_read (wellFormed_table_iff.mp (hw.of_get? hg))
    ⟨found, topic, hf, hs⟩ fun flag hi => h.unsubscribeOnStop _ ?_⟩
  rw [simple?_of_get? hg, simple?_of_get? hi]
  rfl

/-- Settings are read from any document that fulfils what is asked of one. -/
theorem exists_ofItem {origin : Origin} {root : Entries} {span : Option Span}
    (hw : root.WellFormed) (ht : SectionsAreTables (.table origin root span))
    (h : Configures (.table origin root span)) :
    ∃ c, ofItem (.table origin root span) = .ok c := by
  obtain ⟨part, hs, runtime, hr⟩ := exists_runtime hw ht h
  have hroot {name : String} {item : Item} (hg : root.get? name = some item) :
      (Item.table origin root span).simple? [name] = some item.simple := by
    rw [simple?_of_get? hg]
    rfl
  have hall : ∀ field ∈ schema.fields, ∀ item, root.get? field.name = some item →
      ∃ after, field.read item schema.start = .ok after := by
    simp only [schema, List.forall_mem_cons]
    refine ⟨fun item hg => ?_, fun item hg => ?_, fun item hg => ?_, fun item hg => ?_,
      List.forall_mem_nil _⟩
    · obtain ⟨host, hh⟩ := h.apiHost _ (hroot hg)
      exact exists_bind_eq_ok ⟨host, asString_eq_ok_iff.mpr hh⟩ fun _ _ => ⟨_, rfl⟩
    · obtain ⟨port, hp, hle, hlt⟩ := h.apiPort _ (hroot hg)
      exact exists_bind_eq_ok (exists_asPort hp hle hlt) fun _ _ => ⟨_, rfl⟩
    · exact exists_bind_eq_ok (exists_mqtt hw ht h hg) fun _ _ => ⟨_, rfl⟩
    · cases hs.symm.trans hg
      exact exists_bind_eq_ok ⟨runtime, hr⟩ fun _ _ => ⟨_, rfl⟩
  refine exists_bind_eq_ok
    ((Schema.exists_readEntries_iff steady (by decide) hw schema.start).mpr hall)
    fun draft hd => ?_
  obtain ⟨other, -, ho⟩ := (sets_runtime.after hw hd).2 part hs
  refine ⟨⟨draft.apiHost, draft.apiPort, draft.mqtt, other⟩, mapError_eq_ok_iff.mpr ?_⟩
  simp only [schema, ho]

/-- A document writes one configuration at most. -/
theorem WrittenIn.unique {c other : Config} {document : Item} (h : c.WrittenIn document)
    (ho : other.WrittenIn document) : c = other := by
  have hstring : Function.Injective Simple.string := fun _ _ he => Simple.string.inj he
  have hboolean : Function.Injective Simple.boolean := fun _ _ he => Simple.boolean.inj he
  have hport : Function.Injective fun port : UInt16 => Simple.integer port.toNat := fun _ _ he =>
    UInt16.toNat_inj.mp (Int.ofNat.inj (Simple.integer.inj he))
  have hword : Function.Injective fun word : UInt64 => Simple.integer word.toNat := fun _ _ he =>
    UInt64.toNat_inj.mp (Int.ofNat.inj (Simple.integer.inj he))
  have htopic := hstring (Option.some.inj (h.topicPrefix.symm.trans ho.topicPrefix))
  obtain ⟨host, port, ⟨address, id, seconds, capacity⟩, ⟨topic, flag⟩⟩ := c
  obtain ⟨host', port', ⟨address', id', seconds', capacity'⟩, ⟨topic', flag'⟩⟩ := other
  obtain rfl : host = host' := h.apiHost.unique hstring ho.apiHost
  obtain rfl : port = port' := h.apiPort.unique hport ho.apiPort
  obtain rfl : address = address' := h.serverAddress.unique hstring ho.serverAddress
  obtain rfl : id = id' := h.clientId.unique hstring ho.clientId
  obtain rfl : seconds = seconds' := h.keepaliveSeconds.unique hword ho.keepaliveSeconds
  obtain rfl : capacity = capacity' := h.requestCapacity.unique hword ho.requestCapacity
  obtain rfl : topic = topic' := htopic
  obtain rfl : flag = flag' := h.unsubscribeOnStop.unique hboolean ho.unsubscribeOnStop
  rfl

/-! ## Documents -/

/-- The settings of a text are those of the document that it writes. -/
theorem parse_eq_ok_iff_ofItem {text : String} {document : Item}
    (hd : Toml.parse text.toList = .ok document) {c : Config} :
    parse text = .ok c ↔ ofItem document = .ok c := by
  rw [parse, hd]
  exact mapError_eq_ok_iff

/-- A document is taken exactly if it fulfils what is asked of one. -/
theorem exists_parse_iff {text : String} {document : Item}
    (hd : Toml.parse text.toList = .ok document) (ht : SectionsAreTables document) :
    (∃ c, parse text = .ok c) ↔ Configures document := by
  obtain ⟨root, span, rfl, hw⟩ := exists_root_of_parse hd
  simp only [parse_eq_ok_iff_ofItem hd]
  exact ⟨fun ⟨c, h⟩ => (writtenIn_of_ofItem hw ht h).configures, exists_ofItem hw ht⟩

/-- The settings of a document are those that it writes. -/
theorem parse_eq_ok_iff_writtenIn {text : String} {document : Item}
    (hd : Toml.parse text.toList = .ok document) (ht : SectionsAreTables document) {c : Config} :
    parse text = .ok c ↔ c.WrittenIn document := by
  obtain ⟨root, span, rfl, hw⟩ := exists_root_of_parse hd
  simp only [parse_eq_ok_iff_ofItem hd]
  constructor
  · exact writtenIn_of_ofItem hw ht
  · intro h
    obtain ⟨other, ho⟩ := exists_ofItem hw ht h.configures
    rw [h.unique (writtenIn_of_ofItem hw ht ho)]
    exact ho

/-- What a document writes depends only on what it says of the settings. -/
theorem WrittenIn.of_agree {document other : Item}
    (h : ∀ path ∈ settingPaths, document.simple? path = other.simple? path) {c : Config}
    (hc : c.WrittenIn document) : c.WrittenIn other := by
  simp only [settingPaths, List.forall_mem_cons] at h
  obtain ⟨host, port, address, id, seconds, capacity, topic, flag, -⟩ := h
  exact {
    apiHost := host ▸ hc.apiHost
    apiPort := port ▸ hc.apiPort
    serverAddress := address ▸ hc.serverAddress
    clientId := id ▸ hc.clientId
    keepaliveSeconds := seconds ▸ hc.keepaliveSeconds
    requestCapacity := capacity ▸ hc.requestCapacity
    topicPrefix := topic ▸ hc.topicPrefix
    unsubscribeOnStop := flag ▸ hc.unsubscribeOnStop }

/-- A document is taken exactly if the topic of runtimes is there and all that is said of other
settings is of their kind and size. Its settings are what it says, and the standards where it says
nothing. So two documents that say the same of the settings are taken with the same settings, or
neither of them is. -/
theorem parse_field_by_field {text : String} {document : Item}
    (hd : Toml.parse text.toList = .ok document) (ht : SectionsAreTables document) :
    ((∃ c, parse text = .ok c) ↔ Configures document) ∧
      (∀ c, parse text = .ok c ↔ c.WrittenIn document) ∧
      ∀ other otherDocument, Toml.parse (String.toList other) = .ok otherDocument →
        SectionsAreTables otherDocument →
        (∀ path ∈ settingPaths, document.simple? path = otherDocument.simple? path) →
        ∀ c, parse text = .ok c ↔ parse other = .ok c := by
  refine ⟨exists_parse_iff hd ht, fun c => parse_eq_ok_iff_writtenIn hd ht, ?_⟩
  intro other otherDocument hod hot h c
  rw [parse_eq_ok_iff_writtenIn hd ht, parse_eq_ok_iff_writtenIn hod hot]
  exact ⟨.of_agree h, .of_agree fun path hm => (h path hm).symm⟩

/-- Tables in braces and dotted names say the same as headers do, in any order and beside others. -/
theorem settings_of_inline_and_headers :
    let text := "mqtt = \x7b keepalive_secs = 30, client_id = 'viz', qos = 1 \x7d\n" ++
      "other.api_port = [1, 2]\nruntime.topic_prefix = 'realm/proc'\n"
    let other := "[runtime]\ntopic_prefix = \"realm/proc\"\n\n" ++
      "[mqtt]\nclient_id = \"viz\"\nkeepalive_secs = 0x1E\n"
    let c : Config :=
      ⟨"0.0.0.0", 5000, ⟨"localhost:1883", "viz", 30, 64⟩, ⟨"realm/proc", false⟩⟩
    ∃ document otherDocument, Toml.parse text.toList = .ok document ∧ SectionsAreTables document ∧
      Toml.parse other.toList = .ok otherDocument ∧ SectionsAreTables otherDocument ∧
      (∀ path ∈ settingPaths, document.simple? path = otherDocument.simple? path) ∧
      c.WrittenIn document ∧ parse other = .ok c := by
  intro text other c
  have hboth : (Toml.parse text.toList).toOption.any fun document =>
      (Toml.parse other.toList).toOption.any fun otherDocument =>
        decide (SectionsAreTables document ∧ SectionsAreTables otherDocument ∧
          ∀ path ∈ settingPaths, document.simple? path = otherDocument.simple? path) := by
    decide +kernel
  have hsettings : (parse text).toOption.any fun found => decide (found = c) := by decide +kernel
  obtain ⟨document, hd, h⟩ := exists_of_any hboth
  obtain ⟨otherDocument, hod, h⟩ := exists_of_any h
  obtain ⟨ht, hot, hs⟩ := of_decide_eq_true h
  obtain ⟨found, hc, hf⟩ := exists_of_any hsettings
  obtain rfl := of_decide_eq_true hf
  obtain ⟨-, hwritten, halike⟩ := parse_field_by_field hd ht
  exact ⟨document, otherDocument, hd, ht, hod, hot, hs, (hwritten _).mp hc,
    (halike other otherDocument hod hot hs _).mp hc⟩

end Config

end LiveTopology
