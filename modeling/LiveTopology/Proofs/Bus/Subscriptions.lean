import LiveTopology.Bus.Session
import Mathlib.Data.List.Sort

/-!
# What requests do to a set of subscriptions

A set of topics is determined by its members, so the effect of a request is stated by membership.
Requests act monotonically: more subscriptions before them leave more subscriptions behind them.
This is what lets a replay from the empty set bound every other replay of the same requests.
-/

namespace LiveTopology.Bus

/-! ## The last word of steps -/

section HoldsAfter

variable {α : Type} {brings ends : α → Prop}

/-- Whether something holds after steps each of which may bring it about or end it. -/
def HoldsAfter (brings ends : α → Prop) (before : Prop) (steps : List α) : Prop :=
  steps.foldl (fun held step => brings step ∨ ¬ ends step ∧ held) before

theorem holdsAfter_cons (before : Prop) (step : α) (rest : List α) :
    HoldsAfter brings ends before (step :: rest) ↔
      HoldsAfter brings ends (brings step ∨ ¬ ends step ∧ before) rest := .rfl

/-- It holds if it ever did and every step that ends it is followed by one that brings it about. -/
theorem holdsAfter_iff (hn : ∀ step, brings step → ¬ ends step) {before : Prop} {steps : List α} :
    HoldsAfter brings ends before steps ↔
      (before ∨ ∃ step ∈ steps, brings step) ∧
        ∀ step rest, step :: rest <:+ steps → ends step → ∃ later ∈ rest, brings later := by
  induction steps generalizing before with
  | nil => simp [HoldsAfter]
  | cons first rest ih =>
    -- The law of the rest holds from what the first step leaves. New to it is only the first step
    -- itself, with all the rest behind it.
    have hf := hn first
    rw [holdsAfter_cons, ih]
    simp only [List.exists_mem_cons_iff, List.suffix_cons_iff, List.cons.injEq]
    constructor
    · rintro ⟨hs, hr⟩
      refine ⟨by tauto, ?_⟩
      rintro step newer (⟨rfl, rfl⟩ | hp) he
      · tauto
      · exact hr step newer hp he
    · rintro ⟨hs, hr⟩
      have hl := hr first rest (.inl ⟨rfl, rfl⟩)
      exact ⟨by tauto, fun step newer hp => hr step newer (.inr hp)⟩

end HoldsAfter

/-! ## Sets of topics -/

namespace TopicSet

instance : HasSubset TopicSet := ⟨fun s t => ∀ topic, topic ∈ s → topic ∈ t⟩

/-- Two sets with the same topics are the same set: both list them strictly ascending. -/
theorem ext {s t : TopicSet} (h : ∀ topic, topic ∈ s ↔ topic ∈ t) : s = t := by
  have hl : s.toList = t.toList := s.ascending.eq_of_mem_iff t.ascending h
  cases s
  cases t
  cases hl
  rfl

/-- The empty set is part of every set. -/
theorem empty_subset (s : TopicSet) : empty ⊆ s :=
  fun _ h => absurd h mem_empty

/-- No topic is listed twice. -/
theorem nodup_toList (s : TopicSet) : s.toList.Nodup := s.ascending.nodup

/-- Putting topics in one after the other leaves them and what was there before. -/
theorem mem_foldl_insert {topics : List String} {s : TopicSet} {other : String} :
    other ∈ topics.foldl (fun s topic => s.insert topic) s ↔ other ∈ topics ∨ other ∈ s := by
  induction topics generalizing s with
  | nil => simp only [List.foldl_nil, List.not_mem_nil, false_or]
  | cons topic rest ih =>
    rw [List.foldl_cons, ih, mem_insert, List.mem_cons]
    tauto

/-- A set that is made of a list has the members of the list. -/
theorem mem_ofList {topics : List String} {other : String} :
    other ∈ ofList topics ↔ other ∈ topics := by
  rw [ofList, mem_foldl_insert]
  exact or_iff_left mem_empty

/-- Taking topics out one after the other leaves the rest of what was there before. -/
theorem mem_foldl_erase {topics : List String} {s : TopicSet} {other : String} :
    other ∈ topics.foldl (fun s topic => s.erase topic) s ↔ other ∉ topics ∧ other ∈ s := by
  induction topics generalizing s with
  | nil => simp only [List.foldl_nil, List.not_mem_nil, not_false_eq_true, true_and]
  | cons topic rest ih =>
    rw [List.foldl_cons, ih, mem_erase, List.mem_cons]
    tauto

end TopicSet

/-- A subscription brings its topics into a set and takes none out. -/
theorem mem_apply_subscribe {filters : List Filter} {s : TopicSet} {other : String} :
    other ∈ (Packet.subscribe filters).apply s ↔ other ∈ filters.map Filter.topic ∨ other ∈ s := by
  rw [← TopicSet.mem_foldl_insert, List.foldl_map]
  rfl

/-- The end of subscriptions takes their topics out of a set and brings none in. -/
theorem mem_apply_unsubscribe {topics : List String} {s : TopicSet} {other : String} :
    other ∈ (Packet.unsubscribe topics).apply s ↔ other ∉ topics ∧ other ∈ s :=
  TopicSet.mem_foldl_erase

/-- The topics to which a request subscribes. -/
def Packet.subscribed : Packet → List String
  | .subscribe filters => filters.map Filter.topic
  | _ => []

/-- The topics whose subscription a request ends. -/
def Packet.ended : Packet → List String
  | .unsubscribe topics => topics
  | _ => []

/-- A request leaves the topics to which it subscribes, and of the others those it does not end. -/
theorem mem_apply {packet : Packet} {s : TopicSet} {topic : String} :
    topic ∈ packet.apply s ↔ topic ∈ packet.subscribed ∨ topic ∉ packet.ended ∧ topic ∈ s := by
  cases packet with
  | publish | disconnect => simp [Packet.apply, Packet.subscribed, Packet.ended]
  | subscribe filters => simp [mem_apply_subscribe, Packet.subscribed, Packet.ended]
  | unsubscribe topics => simp [mem_apply_unsubscribe, Packet.subscribed, Packet.ended]

/-- No request both subscribes to a topic and ends its subscription. -/
theorem not_mem_ended {packet : Packet} {topic : String} (h : topic ∈ packet.subscribed) :
    topic ∉ packet.ended := by
  cases packet with
  | subscribe => exact List.not_mem_nil
  | publish | unsubscribe | disconnect => exact absurd h List.not_mem_nil

/-- A request keeps one set of subscriptions within another. -/
theorem apply_subset_apply (packet : Packet) {s t : TopicSet} (h : s ⊆ t) :
    packet.apply s ⊆ packet.apply t := by
  intro topic ht
  rw [mem_apply] at ht ⊢
  exact ht.imp_right (And.imp_right (h topic))

theorem replay_nil (s : TopicSet) : replay [] s = s := rfl

theorem replay_cons (packet : Packet) (packets : List Packet) (s : TopicSet) :
    replay (packet :: packets) s = replay packets (packet.apply s) := rfl

/-- Later requests are replayed on what the earlier ones made. -/
theorem replay_append (older newer : List Packet) (s : TopicSet) :
    replay (older ++ newer) s = replay newer (replay older s) :=
  List.foldl_append

/-- Requests keep one set of subscriptions within another. -/
theorem replay_subset_replay (packets : List Packet) {s t : TopicSet} (h : s ⊆ t) :
    replay packets s ⊆ replay packets t := by
  induction packets generalizing s t with
  | nil => exact h
  | cons packet rest ih => exact ih (apply_subset_apply packet h)

/-- What requests leave in the end: the topics that were there or are subscribed to, if every end
of their subscription is followed by another subscription. -/
theorem mem_replay {packets : List Packet} {s : TopicSet} {topic : String} :
    topic ∈ replay packets s ↔
      (topic ∈ s ∨ topic ∈ packets.flatMap Packet.subscribed) ∧
        ∀ packet newer, packet :: newer <:+ packets → topic ∈ packet.ended →
          topic ∈ newer.flatMap Packet.subscribed := by
  have hr : topic ∈ replay packets s ↔
      HoldsAfter (topic ∈ ·.subscribed) (topic ∈ ·.ended) (topic ∈ s) packets := by
    induction packets generalizing s with
    | nil => rfl
    | cons packet rest ih => rw [replay_cons, ih, mem_apply, holdsAfter_cons]
  rw [hr, holdsAfter_iff fun _ => not_mem_ended]
  simp only [List.mem_flatMap]

end LiveTopology.Bus
