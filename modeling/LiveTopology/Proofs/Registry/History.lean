import LiveTopology.Bus.Recorder
import LiveTopology.Ingest
import LiveTopology.Proofs.Registry.Roster
import Mathlib.Data.List.DropRight

/-!
# The history law of the registry

A message or a reset tells the registry at most one thing: that an id starts, that an id stops, or
that everything ends. What the registry holds is a function of the notices so far, and it is stated
here without the registry, by looking back from the end of the history and by positions in it. The
registry is then shown to follow as the history grows by one notice.
-/

namespace LiveTopology

open Bus Node

/-- What a message or a reset tells the registry. -/
inductive Notice where
  | start (record : Record)
  | stop (id : String)
  | reset

namespace Notice

/-- The record with which a notice starts an id. -/
def starts (id : String) : Notice → Option Record
  | .start record => if record.id = id then some record else none
  | .stop _ | .reset => none

/-- Whether a notice ends an id. -/
def ends (id : String) : Notice → Bool
  | .start _ => false
  | .stop other => other = id
  | .reset => true

/-- Whether a notice starts or ends an id. -/
def concerns (id : String) (notice : Notice) : Bool := (notice.starts id).isSome || notice.ends id

/-- The notice in a message. A malformed message has none, nor has one with an unknown command. -/
def ofMessage (topic : String) (payload : List UInt8) : Option Notice :=
  match normalize topic payload with
  | .error _ => none
  | .ok event =>
    match event.kind with
    | .start => some (.start event.record)
    | .stop => some (.stop event.id)
    | .unknown => none

end Notice

/-! ## What a history says -/

/-- The notices since an id last ended. -/
def sinceEnd (id : String) (history : List Notice) : List Notice :=
  history.rtakeWhile fun notice => !notice.ends id

/-- The record of the first start of an id since it last ended. -/
def standing? (id : String) (history : List Notice) : Option Record :=
  (sinceEnd id history).findSome? (Notice.starts id)

/-- The record that a notice starts, if its id does not stand yet. -/
def fresh? (history : List Notice) : Notice → Option Record
  | .start record =>
    match standing? record.id history with
    | none => some record
    | some _ => none
  | .stop _ | .reset => none

/-- The record that the notice at a position starts, if its id does not stand by then. -/
def firstStart? (history : List Notice) (i : ℕ) : Option Record :=
  history[i]?.bind (fresh? (history.take i))

/-- The record that the notice at a position starts, if no later notice ends it. -/
def lasting? (history : List Notice) (i : ℕ) : Option Record :=
  (firstStart? history i).filter fun record => (history.drop (i + 1)).all (!·.ends record.id)

/-- The records of all first starts, in the order of their arrival. -/
def firstStarts (history : List Notice) : List Record :=
  (List.range history.length).filterMap (firstStart? history)

/-- The records of the first starts that nothing has ended, in the order of their arrival. -/
def standing (history : List Notice) : List Record :=
  (List.range history.length).filterMap (lasting? history)

/-! ## One more notice -/

section Concat

variable (history : List Notice) (notice : Notice)

/-- A last notice ends what stood, or lets its own record stand where nothing did. -/
theorem standing?_concat (id : String) :
    standing? id (history ++ [notice]) =
      if notice.ends id then none else (standing? id history).or (notice.starts id) := by
  rw [standing?, sinceEnd, List.rtakeWhile_concat]
  cases notice.ends id with
  | true => rfl
  | false =>
    simp only [Bool.not_false, if_true, List.findSome?_append]
    cases hs : notice.starts id <;> simp [hs, standing?, sinceEnd]

/-- Later notices do not change which earlier ones were first starts. -/
theorem firstStart?_concat_of_lt {i : ℕ} (hi : i < history.length) :
    firstStart? (history ++ [notice]) i = firstStart? history i := by
  rw [firstStart?, List.getElem?_append_left hi, List.take_append_of_le_length hi.le, firstStart?]

/-- A last notice is a first start if its record is fresh. -/
theorem firstStart?_concat_length :
    firstStart? (history ++ [notice]) history.length = fresh? history notice := by
  rw [firstStart?, List.getElem?_concat_length, List.take_left]
  rfl

/-- What lasts of an earlier notice lasts on unless the last notice ends it. -/
theorem lasting?_concat_of_lt {i : ℕ} (hi : i < history.length) :
    lasting? (history ++ [notice]) i =
      (lasting? history i).filter fun record => !notice.ends record.id := by
  rw [lasting?, firstStart?_concat_of_lt history notice hi, lasting?, Option.filter_filter,
    List.drop_append_of_le_length hi]
  simp only [List.all_append, List.all_cons, List.all_nil, Bool.and_true]

/-- A last notice lasts if its record is fresh. -/
theorem lasting?_concat_length :
    lasting? (history ++ [notice]) history.length = fresh? history notice := by
  have hl : (history ++ [notice]).length ≤ history.length + 1 := by
    rw [List.length_append, List.length_singleton]
  rw [lasting?, firstStart?_concat_length, List.drop_eq_nil_of_le hl]
  cases fresh? history notice <;> rfl

/-- A last notice adds at most its own start to the first starts. -/
theorem firstStarts_concat :
    firstStarts (history ++ [notice]) = firstStarts history ++ (fresh? history notice).toList := by
  rw [firstStarts, List.length_append, List.length_singleton, List.range_succ,
    List.filterMap_append]
  congr 1
  · refine List.filterMap_congr fun i hi => ?_
    exact firstStart?_concat_of_lt history notice (List.mem_range.mp hi)
  · rw [List.filterMap_cons, firstStart?_concat_length]
    cases fresh? history notice <;> rfl

/-- One more notice ends what it ends and adds at the end what it starts. -/
theorem standing_concat :
    standing (history ++ [notice]) =
      ((standing history).filter fun record => !notice.ends record.id) ++
        (fresh? history notice).toList := by
  rw [standing, List.length_append, List.length_singleton, List.range_succ, List.filterMap_append]
  congr 1
  · rw [standing, List.filter_filterMap]
    refine List.filterMap_congr fun i hi => ?_
    exact lasting?_concat_of_lt history notice (List.mem_range.mp hi)
  · rw [List.filterMap_cons, lasting?_concat_length]
    cases fresh? history notice <;> rfl

/-- A stop takes one record off those that stand and leaves the order of the others. -/
theorem standing_concat_stop (id : String) :
    standing (history ++ [.stop id]) = Roster.without id (standing history) := by
  rw [standing_concat, fresh?, Option.toList_none, List.append_nil, Roster.without]
  refine List.filter_congr fun record _ => ?_
  rw [Notice.ends, ← decide_not, decide_eq_decide, ne_comm]

/-- Nothing stands behind a reset. -/
theorem standing_concat_reset : standing (history ++ [.reset]) = [] := by
  rw [standing_concat, fresh?, Option.toList_none, List.append_nil]
  exact List.filter_false _

/-- A start of an id that does not stand yet adds its record. -/
theorem standing_concat_start {record : Record} (hs : standing? record.id history = none) :
    standing (history ++ [.start record]) = standing history ++ [record] ∧
      firstStarts (history ++ [.start record]) = firstStarts history ++ [record] := by
  rw [standing_concat, firstStarts_concat, fresh?, hs]
  simp only [Notice.ends, Bool.not_false, List.filter_true]
  exact ⟨rfl, rfl⟩

/-- A start of an id that stands already says nothing new. -/
theorem standing_concat_duplicate {record first : Record}
    (hs : standing? record.id history = some first) :
    standing (history ++ [.start record]) = standing history ∧
      firstStarts (history ++ [.start record]) = firstStarts history := by
  rw [standing_concat, firstStarts_concat, fresh?, hs]
  simp only [Notice.ends, Bool.not_false, List.filter_true, Option.toList_none, List.append_nil,
    and_self]

end Concat

/-- The list of what stands has for each id what looking back from the end gives. -/
theorem find?_standing (id : String) (history : List Notice) :
    Roster.find? id (standing history) = standing? id history := by
  -- Both sides are read from the end of the history, so the induction removes the latest notice.
  induction history using List.reverseRecOn with
  | nil => rfl
  | append_singleton history notice ih =>
    rw [standing?_concat]
    cases notice with
    | start record =>
      simp only [Notice.ends, Bool.false_eq_true, if_false, Notice.starts]
      cases hs : standing? record.id history with
      | none =>
        rw [(standing_concat_start history hs).1, Roster.find?_append_singleton, ih]
      | some first =>
        rw [(standing_concat_duplicate history hs).1, ih]
        by_cases hi : record.id = id
        · subst hi
          rw [hs, Option.some_or]
        · rw [if_neg hi, Option.or_none]
    | stop other =>
      rw [standing_concat_stop, Roster.find?_without, ih, Notice.starts, Option.or_none,
        Notice.ends]
      simp only [decide_eq_true_eq, eq_comm (a := id)]
    | reset =>
      rw [standing_concat_reset]
      rfl

/-! ## The registry and its history -/

namespace Registry

/-- The registry after a notice. -/
def heed (r : Registry) : Notice → Registry
  | .start record => (r.insert record).2
  | .stop id => (r.remove id).2
  | .reset => r.clear

/-- After a notice an id is live if the notice starts it, or if it was live and is not ended. This
holds of every registry, whatever its numbers. -/
theorem contains_heed (r : Registry) (notice : Notice) (id : String) :
    (r.heed notice).contains id =
      ((notice.starts id).isSome || !notice.ends id && r.contains id) := by
  cases notice with
  | start record =>
    simp only [heed, insert, Notice.starts, Notice.ends]
    by_cases hc : r.index.contains record.id
    · rw [if_pos hc]
      by_cases hi : record.id = id
      · subst hi
        simp [contains, hc]
      · simp [hi]
    · rw [if_neg hc]
      dsimp only [contains]
      rw [Std.HashMap.contains_insert]
      by_cases hi : record.id = id
      · simp [hi]
      · simp [hi]
  | stop other =>
    simp only [heed, remove, Notice.starts, Notice.ends, Option.isSome_none, Bool.false_or]
    cases hn : r.index[other]? with
    | none =>
      by_cases hi : other = id
      · subst hi
        simp [contains, Std.HashMap.contains_eq_isSome_getElem?, hn]
      · simp [hi]
    | some number =>
      dsimp only [contains]
      rw [Std.HashMap.contains_erase]
      rfl
  | reset => exact Std.HashMap.contains_empty

/-- An id is live exactly if the latest notice about it is a start. -/
theorem contains_foldl_heed (history : List Notice) (id : String) :
    (history.foldl heed .empty).contains id = true ↔
      ∃ record, (history.filter (Notice.concerns id)).getLast? = some (.start record) := by
  induction history using List.reverseRecOn with
  | nil =>
    rw [List.foldl_nil, contains, empty, Std.HashMap.contains_empty]
    simp
  | append_singleton history notice ih =>
    rw [List.foldl_concat, contains_heed, List.filter_append, List.filter_singleton]
    -- The latest notice decides if it concerns the id. Otherwise neither side sees it.
    cases hc : notice.concerns id with
    | true =>
      rw [cond_true, List.getLast?_concat]
      cases notice with
      | start record =>
        rw [Notice.concerns, Notice.ends, Bool.or_false] at hc
        rw [hc, Bool.true_or]
        exact iff_of_true rfl ⟨record, rfl⟩
      | stop other =>
        rw [Notice.concerns, Notice.starts, Option.isSome_none, Bool.false_or] at hc
        rw [hc]
        refine iff_of_false Bool.false_ne_true ?_
        rintro ⟨record, hr⟩
        cases hr
      | reset =>
        refine iff_of_false Bool.false_ne_true ?_
        rintro ⟨record, hr⟩
        cases hr
    | false =>
      rw [Notice.concerns, Bool.or_eq_false_iff] at hc
      rw [hc.1, hc.2, cond_false, List.append_nil, ← ih]
      simp

/-- A registry that heeds a notice lists what stands behind it, in order, if numbers have not run
out. -/
theorem Lists.heed {r : Registry} {history : List Notice} (notice : Notice)
    (h : Lists r (firstStarts history).length (standing history))
    (hb : (firstStarts (history ++ [notice])).length ≤ UInt64.size) :
    Lists (r.heed notice) (firstStarts (history ++ [notice])).length
      (standing (history ++ [notice])) := by
  cases notice with
  | start record =>
    cases hs : standing? record.id history with
    | none =>
      obtain ⟨hn, hf⟩ := standing_concat_start history hs
      rw [hf, List.length_append, List.length_singleton] at hb
      rw [hn, hf, List.length_append, List.length_singleton]
      rw [← find?_standing] at hs
      exact (h.insert_new hs hb).2
    -- A duplicate changes neither the registry nor what stands.
    | some first =>
      obtain ⟨hn, hf⟩ := standing_concat_duplicate history hs
      have hk : (Roster.find? record.id (standing history)).isSome := by
        rw [find?_standing, hs, Option.isSome_some]
      rw [hn, hf, Registry.heed, h.insert_known hk]
      exact h
  | stop id =>
    rw [standing_concat_stop, firstStarts_concat, fresh?, Option.toList_none, List.append_nil]
    exact (h.remove id).2
  | reset =>
    rw [standing_concat_reset, firstStarts_concat, fresh?, Option.toList_none, List.append_nil]
    exact h.clear

/-- While there are numbers for all first starts, the registry lists what stands. -/
theorem lists_foldl_heed (history : List Notice)
    (hb : (firstStarts history).length ≤ UInt64.size) :
    Lists (history.foldl heed .empty) (firstStarts history).length (standing history) := by
  induction history using List.reverseRecOn with
  | nil => exact lists_empty
  | append_singleton history notice ih =>
    have hl : (firstStarts history).length ≤ (firstStarts (history ++ [notice])).length := by
      rw [firstStarts_concat, List.length_append]
      exact Nat.le_add_right _ _
    rw [List.foldl_concat]
    exact (ih (hl.trans hb)).heed notice hb

end Registry

/-! ## Runs -/

/-- What can happen to the registry: a message arrives, or a viewer resets it. -/
inductive IngestStep where
  | message (topic : String) (payload : List UInt8)
  | reset

namespace Ingest

variable {β : Type} [Bus β]

/-- The ingest after a step. -/
def after (s : Ingest β) : IngestStep → Ingest β
  | .message topic payload => (s.handle topic payload).2
  | .reset => s.resetAll

/-- The ingest after steps. -/
def run (s : Ingest β) (steps : List IngestStep) : Ingest β := steps.foldl after s

end Ingest

/-- The notice in a step, if there is one. -/
def IngestStep.notice? : IngestStep → Option Notice
  | .message topic payload => Notice.ofMessage topic payload
  | .reset => some .reset

/-- The notices in the course of steps. -/
def notices (steps : List IngestStep) : List Notice := steps.filterMap IngestStep.notice?

namespace Ingest

variable {β : Type} [Bus β]

/-- A step does to the registry what its notice says, and nothing if it has none. -/
theorem registry_after (s : Ingest β) (step : IngestStep) :
    (s.after step).registry = step.notice?.elim s.registry s.registry.heed := by
  cases step with
  | reset => rfl
  | message topic payload =>
    rw [after, handle, IngestStep.notice?, Notice.ofMessage]
    cases normalize topic payload with
    | error cause => rfl
    | ok event =>
      dsimp only
      rw [Registry.apply]
      cases event.kind <;> rfl

/-- A run heeds its notices in order and nothing else touches the registry. -/
theorem registry_run (s : Ingest β) (steps : List IngestStep) :
    (s.run steps).registry = (notices steps).foldl Registry.heed s.registry := by
  induction steps generalizing s with
  | nil => rfl
  | cons step rest ih =>
    change ((s.after step).run rest).registry = _
    rw [ih, registry_after, notices, notices, List.filterMap_cons]
    cases step.notice? <;> rfl

/-- At every point of every run from an empty registry, an id is live exactly if the latest notice
about it is a start. Until the numbers of 64 bits are used up, its record is that of its first
start since it last ended, and the nodes are served once each, in the order in which these first
starts arrived. -/
theorem registry_follows_history (policy : Policy) (bus : β) (steps : List IngestStep) :
    let s := (Ingest.mk policy .empty bus).run steps
    let history := notices steps
    (∀ id, s.registry.contains id = true ↔
      ∃ record, (history.filter (Notice.concerns id)).getLast? = some (.start record)) ∧
    ((firstStarts history).length ≤ UInt64.size →
      (∀ id, s.registry.get? id = standing? id history) ∧
      s.fetchAll = (standing history).map Entry.mk ∧
      ((standing history).map Record.id).Nodup ∧
      ∀ record, record ∈ standing history ↔ standing? record.id history = some record) := by
  intro s history
  have hr : s.registry = history.foldl Registry.heed .empty := registry_run _ steps
  refine ⟨fun id => ?_, fun hb => ?_⟩
  · rw [hr]
    exact Registry.contains_foldl_heed history id
  · have hl := Registry.lists_foldl_heed history hb
    rw [← hr] at hl
    refine ⟨fun id => ?_, ?_, hl.ids, fun record => ?_⟩
    · rw [hl.get?_eq, find?_standing]
    · rw [fetchAll, Registry.snapshot, hl.records]
    · rw [← find?_standing]
      constructor
      · exact find?_key hl.ids
      · exact List.mem_of_find?_eq_some

/-- A duplicate changes nothing, and a node that stops and starts again goes to the end. -/
theorem fetchAll_after_restart :
    let message topic text := IngestStep.message topic (Text.bytes text)
    let steps := [message "realm/proc" "\x7b\"id\":\"a\",\"cmd\":\"rt-start\"\x7d",
      message "realm/proc" "\x7b\"id\":\"b\",\"cmd\":\"rt-start\"\x7d",
      message "elsewhere" "\x7b\"id\":\"b\",\"cmd\":\"rt-start\"\x7d",
      message "elsewhere" "\x7b\"id\":\"b\"\x7d",
      message "realm/proc" "\x7b\"id\":\"a\",\"cmd\":\"pub-stop\"\x7d",
      message "elsewhere" "\x7b\"id\":\"a\",\"cmd\":\"pub-start\"\x7d"]
    (firstStarts (notices steps)).length = 3 ∧
      ((Ingest.mk ⟨false⟩ .empty (Recorder.mk [] none)).run steps).fetchAll =
        [⟨⟨"b", .start .runtime, "realm/proc", []⟩⟩,
          ⟨⟨"a", .start .publisher, "elsewhere", []⟩⟩] := by
  intro message steps
  have hl : (firstStarts (notices steps)).length = 3 := rfl
  have h := registry_follows_history ⟨false⟩ (Recorder.mk [] none) steps
  have hf := (h.2 (by rw [hl]; decide)).2.1
  exact ⟨hl, hf⟩

end Ingest

end LiveTopology
