import LiveTopology.Proofs.Bus.Ledger
import LiveTopology.Proofs.Text.Bytes
import Mathlib.Algebra.Order.BigOperators.Group.List
import Mathlib.Data.List.Perm.Subperm

/-!
# Many requests in a queue that fills up

Ending all subscriptions and renewing them make a request for each topic or for each batch of
topics, in the order of the topics' bytes. The queue takes the first of them and no others. What is
said here is which topics were served when it is full: none is lost between the queue and the
tracked topics, and a renewal takes as few places as its batches allow.
-/

namespace LiveTopology.Bus

namespace TopicSet

/-- The topics of a set are listed in the order of their bytes. -/
theorem bytes_ascending (s : TopicSet) : (s.toList.map Text.bytes).Pairwise (· < ·) :=
  List.pairwise_map.mpr (s.ascending.imp Text.bytes_lt_bytes_iff.mpr)

/-- Ascending topics are listed as they are. -/
theorem toList_ofList {topics : List String} (h : topics.Pairwise (· < ·)) :
    (ofList topics).toList = topics := by
  have hs : ofList topics = ⟨topics, h⟩ := ext fun _ => mem_ofList
  rw [hs]

/-- A set is empty exactly if its list is. -/
theorem eq_empty_iff {s : TopicSet} : s = empty ↔ s.toList = [] := by
  constructor
  · rintro rfl
    rfl
  · intro h
    cases s
    cases h
    rfl

end TopicSet

namespace Client

/-! ## Ending all subscriptions -/

/-- The end of a subscription is among those of listed topics exactly if its topic is listed. -/
theorem mem_endings {topic : String} {topics : List String} :
    .unsubscribe [topic] ∈ endings topics ↔ topic ∈ topics := by
  simp [endings]

/-- Ending all subscriptions cuts the tracked topics at the room of the queue: the end of the
subscription is queued for those before the cut, and those behind it stay tracked. The first one
behind it is the one reported. -/
theorem unsubscribeAll_cut (c : Client) (h : c.closed = false) :
    let topics := c.tracked.toList
    let after := c.unsubscribeAll.2
    (topics.map Text.bytes).Pairwise (· < ·) ∧
    after = { c with queue := after.queue, tracked := after.tracked } ∧
    after.queue = c.queue ++ (topics.take c.room).map (fun topic => .unsubscribe [topic]) ∧
    after.tracked.toList = topics.drop c.room ∧
    (c.unsubscribeAll.1 = .ok () ↔ topics.length ≤ c.room) ∧
    (∀ topic, c.unsubscribeAll.1 = .error (rejection topic) ↔ topics[c.room]? = some topic) ∧
    ∀ topic ∈ c.tracked, .unsubscribe [topic] ∈ added c after ↔ topic ∉ after.tracked := by
  have hrest : (TopicSet.ofList (c.tracked.toList.drop c.room)).toList =
      c.tracked.toList.drop c.room :=
    TopicSet.toList_ofList (c.tracked.ascending.sublist (List.drop_sublist _ _))
  rw [unsubscribeAll_eq, if_neg (by rw [h]; decide)]
  refine ⟨c.tracked.bytes_ascending, rfl, rfl, hrest, ?_, fun topic => ?_, fun topic hm => ?_⟩
  · dsimp only
    rw [← List.getElem?_eq_none_iff]
    cases c.tracked.toList[c.room]? <;> simp
  · dsimp only
    cases c.tracked.toList[c.room]? <;> simp [rejection]
  · dsimp only
    rw [added, List.drop_left, mem_endings, TopicSet.mem_ofList,
      mem_drop_iff c.tracked.nodup_toList]
    exact ⟨fun ht hd => hd.1 ht, fun hd => not_not.mp fun ht => hd ⟨ht, hm⟩⟩

/-- With room for two requests, the last of three topics stays tracked and is reported. -/
theorem unsubscribeAll_of_three :
    let c := connect 2 ["c", "a", "b"]
    c.closed = false ∧ c.unsubscribeAll.2.queue = endings ["a", "b"] ∧
      c.unsubscribeAll.2.tracked.toList = ["c"] ∧
      c.unsubscribeAll.1 = .error (rejection "c") := by
  obtain ⟨-, -, hqueue, htracked, -, herror, -⟩ := unsubscribeAll_cut (connect 2 ["c", "a", "b"]) rfl
  exact ⟨rfl, hqueue.trans (by decide), htracked.trans (by decide), (herror "c").mpr (by decide)⟩

/-! ## Renewing the subscriptions -/

/-- There are as many batches as it takes to hold all topics, 32 in each. -/
theorem length_batches (topics : List String) :
    (batches topics).length = (topics.length + 31) / 32 := by
  rw [batches, List.length_map, List.length_range]
  rfl

/-- All batches hold 32 topics, the last one what is left. -/
theorem length_getElem_batches (topics : List String) {i : ℕ} (h : i < (batches topics).length) :
    (batches topics)[i].length = min 32 (topics.length - 32 * i) := by
  simp [batches, batchSize]

/-- The batches that fit hold as many of the first topics as they have places. -/
theorem flatten_take_length (topics : List String) (k : ℕ) :
    ((batches topics).take k).flatten = topics.take (32 * ((batches topics).take k).length) := by
  have hk : (batches topics).take ((batches topics).take k).length = (batches topics).take k := by
    rw [List.length_take, ← List.take_eq_take_min]
  rw [← hk, flatten_take_batches, hk]
  rfl

/-- No batch has more than 32 topics. -/
theorem length_le_of_mem_batches {topics batch : List String} (h : batch ∈ batches topics) :
    batch.length ≤ 32 := by
  obtain ⟨i, hi, rfl⟩ := List.mem_iff_getElem.mp h
  rw [length_getElem_batches]
  exact min_le_left _ _

/-- Batches that hold all of some topics are at least as many as the topics are cut into. -/
theorem length_batches_le {topics : List String} (hn : topics.Nodup) {other : List (List String)}
    (hb : ∀ batch ∈ other, batch.length ≤ 32) (hc : topics ⊆ other.flatten) :
    (batches topics).length ≤ other.length := by
  have hlength : topics.length ≤ other.flatten.length := (List.subperm_of_subset hn hc).length_le
  have hsum : (other.map List.length).sum ≤ other.length * 32 := by
    have hs := List.sum_le_card_nsmul (other.map List.length) 32 (List.forall_mem_map.mpr hb)
    rw [List.length_map] at hs
    exact hs
  rw [List.length_flatten] at hlength
  rw [length_batches]
  omega

/-- Renewing the subscriptions queues as many batches of 32 topics as there is room for, in the
order of the topics' bytes, and changes nothing else. All tracked topics are renewed exactly if all
batches fit, and no other batches of at most 32 topics would do with fewer requests. -/
theorem resubscribe_batches (c : Client) :
    let topics := c.tracked.toList
    let needed := (topics.length + 31) / 32
    (topics.map Text.bytes).Pairwise (· < ·) ∧
    (∃ sent : List (List String),
      c.resubscribe = (sent.length, { c with
        queue := c.queue ++ sent.map fun batch => .subscribe (batch.map fun topic => ⟨topic, 0⟩) }) ∧
      sent.length = min c.room needed ∧
      (∀ i (h : i < sent.length), 1 ≤ sent[i].length ∧ sent[i].length ≤ 32 ∧
        (i + 1 < needed → sent[i].length = 32)) ∧
      sent.flatten = topics.take (32 * sent.length) ∧
      ((∀ topic ∈ c.tracked, topic ∈ sent.flatten) ↔ needed ≤ c.room) ∧
      (sent = [] ↔ c.tracked = .empty ∨ c.room = 0)) ∧
    ∀ other : List (List String), (∀ batch ∈ other, batch.length ≤ 32) →
      (∀ topic ∈ c.tracked, topic ∈ other.flatten) → needed ≤ other.length := by
  intro topics needed
  have hneeded : (batches topics).length = needed := length_batches topics
  -- No topic is tracked twice, so batches of at most 32 cannot hold all of them in fewer.
  have hfewest {other : List (List String)} (hb : ∀ batch ∈ other, batch.length ≤ 32)
      (hc : ∀ topic ∈ c.tracked, topic ∈ other.flatten) : needed ≤ other.length :=
    hneeded ▸ length_batches_le c.tracked.nodup_toList hb hc
  let sent := (batches topics).take c.room
  have hlength : sent.length = min c.room needed := by rw [List.length_take, hneeded]
  have hflat : sent.flatten = topics.take (32 * sent.length) := flatten_take_length topics c.room
  refine ⟨c.tracked.bytes_ascending, ⟨sent, ?_, hlength, fun i hi => ?_, hflat, ?_, ?_⟩,
    fun other hb hc => hfewest hb hc⟩
  · rw [resubscribe_eq, min_comm, ← List.length_take]
    rfl
  · have hbatch : sent[i].length = min 32 (topics.length - 32 * i) := by
      rw [List.getElem_take, length_getElem_batches]
    omega
  · constructor
    -- The batches that were sent are such batches themselves.
    · intro hc
      have hb : needed ≤ sent.length :=
        hfewest (fun batch hb => length_le_of_mem_batches (List.mem_of_mem_take hb)) hc
      omega
    · intro hroom topic hm
      have hall : topics.length ≤ 32 * sent.length := by omega
      rw [hflat, List.take_of_length_le hall]
      exact hm
  · rw [TopicSet.eq_empty_iff, ← List.length_eq_zero_iff, ← List.length_eq_zero_iff]
    change sent.length = 0 ↔ topics.length = 0 ∨ c.room = 0
    omega

end Client

end LiveTopology.Bus
