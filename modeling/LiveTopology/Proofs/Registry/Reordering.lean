import LiveTopology.Proofs.Ingest.Outcomes

/-!
# Reordered messages

Messages about different nodes are independent of each other. What the registry knows of an id
follows from the notices that concern this id, in their order, and from no others. A reordering that
keeps the order of the messages about each id, and the place of every reset among them, therefore
changes no outcome and no record. It may change the order in which the nodes are served.
-/

namespace LiveTopology

open Bus Node

/-! ## Lists by their positions -/

section Positions

variable {α : Type}

/-- What a predicate leaves of the first items, listed by position. -/
theorem filter_take_eq_map (p : α → Bool) (items : List α) (k : ℕ) :
    (items.take k).filter p =
      ((List.finRange items.length).filter fun i => decide (i.val < k) && p items[i]).map
        fun i => items[i] := by
  induction items generalizing k with
  | nil => simp
  | cons item rest ih =>
    cases k with
    | zero => simp
    | succ k =>
      have hf : List.finRange (item :: rest).length = 0 :: (List.finRange rest.length).map .succ :=
        List.finRange_succ
      rw [List.take_succ_cons, hf, List.filter_cons, List.filter_cons, List.filter_map, ih k]
      by_cases hp : p item <;> simp [hp, Function.comp_def]

/-- Positions that are picked on both sides correspond in their order if the correspondence is
monotone on them. -/
theorem map_filter_finRange {n m : ℕ} (place : Fin n ≃ Fin m) {p : Fin n → Bool}
    {q : Fin m → Bool} (hq : ∀ i, q (place i) = p i)
    (monotone : ∀ i j, i < j → p i → p j → place i < place j) :
    ((List.finRange n).filter p).map place = (List.finRange m).filter q := by
  have hl : (((List.finRange n).filter p).map place).Pairwise (· < ·) := by
    rw [List.pairwise_map]
    have hs := (List.pairwise_lt_finRange n).filter p
    refine hs.imp_of_mem fun hi hj hij => ?_
    exact monotone _ _ hij (List.mem_filter.mp hi).2 (List.mem_filter.mp hj).2
  have hr : ((List.finRange m).filter q).Pairwise (· < ·) :=
    (List.pairwise_lt_finRange m).filter q
  refine hl.eq_of_mem_iff hr fun k => ?_
  rw [List.mem_map, List.mem_filter]
  constructor
  · rintro ⟨i, hi, rfl⟩
    exact ⟨List.mem_finRange _, (hq i).trans (List.mem_filter.mp hi).2⟩
  · rintro ⟨-, hk⟩
    refine ⟨place.symm k, List.mem_filter.mpr ⟨List.mem_finRange _, ?_⟩, place.apply_symm_apply k⟩
    rw [← hq, place.apply_symm_apply]
    exact hk

end Positions

/-! ## Steps and the ids that they concern -/

namespace Notice

/-- The id that a notice is about. A reset is about no id in particular. -/
def id? : Notice → Option String
  | .start record => some record.id
  | .stop id => some id
  | .reset => none

/-- A notice that concerns a node is about it or about all. -/
theorem eq_reset_or_id? {id : String} {notice : Notice} (h : notice.concerns id = true) :
    notice = .reset ∨ notice.id? = some id := by
  cases notice with
  | start record => right; simpa [concerns, starts, ends, id?] using h
  | stop other => right; simpa [concerns, starts, ends, id?] using h
  | reset => exact .inl rfl

end Notice

namespace IngestStep

/-- Whether the order of two steps matters: one of them is a reset, or both name the same id. -/
def Bound (a b : IngestStep) : Prop :=
  a = .reset ∨ b = .reset ∨ ∃ id, a.id? = some id ∧ b.id? = some id

/-- Whether the notice in a step concerns an id. -/
def concerns (id : String) (step : IngestStep) : Bool := step.notice?.any (Notice.concerns id)

/-- A step names the id that its notice is about, and only a reset gives notice of one. -/
theorem id?_of_notice? {step : IngestStep} {notice : Notice} (h : step.notice? = some notice) :
    step.id? = notice.id? ∧ (notice = .reset → step = .reset) := by
  cases step with
  | reset =>
    cases h
    exact ⟨rfl, fun _ => rfl⟩
  | message topic payload =>
    rw [notice?, Notice.ofMessage] at h
    rw [id?]
    cases hn : normalize topic payload with
    | error cause =>
      rw [hn] at h
      cases h
    | ok event =>
      rw [hn] at h
      dsimp only at h ⊢
      cases hk : event.kind with
      | start | stop =>
        rw [hk] at h
        cases h
        exact ⟨rfl, fun hr => Notice.noConfusion hr⟩
      | unknown =>
        rw [hk] at h
        cases h

/-- Only resets and the messages that name an id concern it. -/
theorem eq_reset_or_id? {id : String} {step : IngestStep} (h : step.concerns id = true) :
    step = .reset ∨ step.id? = some id := by
  rw [concerns] at h
  cases hn : step.notice? with
  | none =>
    rw [hn] at h
    cases h
  | some notice =>
    rw [hn, Option.any_some] at h
    obtain ⟨hi, hr⟩ := id?_of_notice? hn
    exact (Notice.eq_reset_or_id? h).imp hr fun hs => hi.trans hs

/-- The order of steps matters if one names an id and the other concerns it. -/
theorem bound_of_id? {id : String} {a b : IngestStep} (ha : a.id? = some id)
    (hb : b.concerns id = true) : a.Bound b ∧ b.Bound a := by
  rcases eq_reset_or_id? hb with hb | hb
  · exact ⟨.inr (.inl hb), .inl hb⟩
  · exact ⟨.inr (.inr ⟨id, ha, hb⟩), .inr (.inr ⟨id, hb, ha⟩)⟩

/-- Two steps that concern the same node must not change places. -/
theorem bound_of_concerns {id : String} {a b : IngestStep} (ha : a.concerns id = true)
    (hb : b.concerns id = true) : a.Bound b := by
  rcases eq_reset_or_id? ha with ha | ha
  · exact .inl ha
  · exact (bound_of_id? ha hb).1

end IngestStep

/-- What stands for an id follows from the notices that concern it. -/
theorem standing?_filter (id : String) (history : List Notice) :
    standing? id (history.filter (Notice.concerns id)) = standing? id history := by
  induction history using List.reverseRecOn with
  | nil => rfl
  | append_singleton history notice ih =>
    rw [List.filter_append, List.filter_singleton]
    cases hc : notice.concerns id with
    | true => rw [cond_true, standing?_concat, standing?_concat, ih]
    | false =>
      rw [Notice.concerns, Bool.or_eq_false_iff, Option.isSome_eq_false_iff,
        Option.isNone_iff_eq_none] at hc
      rw [cond_false, List.append_nil, ih, standing?_concat, hc.1, hc.2, Option.or_none]
      rfl

/-- The notices that concern a node are those of the steps that concern it. -/
theorem filter_notices (id : String) (steps : List IngestStep) :
    (notices steps).filter (Notice.concerns id) =
      notices (steps.filter (IngestStep.concerns id)) := by
  rw [notices, notices, List.filter_filterMap, List.filterMap_filter]
  refine List.filterMap_congr fun step _ => ?_
  rw [IngestStep.concerns]
  cases step.notice? with
  | none => rfl
  | some notice => rfl

/-- A record stands in a listed roster exactly if it is the one found under its name. -/
theorem Registry.Lists.mem_iff {r : Registry} {inserted : ℕ} {roster : List Record}
    (h : Lists r inserted roster) (record : Record) :
    record ∈ roster ↔ Roster.find? record.id roster = some record :=
  ⟨find?_key h.ids, List.mem_of_find?_eq_some⟩

/-! ## First starts by the steps that bring them -/

/-- A last step adds at most its own notice. -/
theorem notices_concat (steps : List IngestStep) (step : IngestStep) :
    notices (steps ++ [step]) = notices steps ++ step.notice?.toList := by
  rw [notices, List.filterMap_append, List.filterMap_cons, List.filterMap_nil]
  cases step.notice? <;> rfl

/-- The record that the step at a position starts, if its id does not stand by then. -/
def firstStartAt? (steps : List IngestStep) (i : ℕ) : Option Record :=
  (steps[i]?.bind IngestStep.notice?).bind (fresh? (notices (steps.take i)))

/-- The first starts of a run are found step by step. -/
theorem firstStarts_notices (steps : List IngestStep) :
    firstStarts (notices steps) = (List.range steps.length).filterMap (firstStartAt? steps) := by
  induction steps using List.reverseRecOn with
  | nil => rfl
  | append_singleton steps step ih =>
    have ho : (List.range steps.length).filterMap (firstStartAt? (steps ++ [step])) =
        (List.range steps.length).filterMap (firstStartAt? steps) := by
      refine List.filterMap_congr fun i hi => ?_
      have hl : i < steps.length := List.mem_range.mp hi
      rw [firstStartAt?, firstStartAt?, List.getElem?_append_left hl,
        List.take_append_of_le_length hl.le]
    have hn : firstStartAt? (steps ++ [step]) steps.length =
        step.notice?.bind (fresh? (notices steps)) := by
      rw [firstStartAt?, List.getElem?_concat_length, List.take_left, Option.bind_some]
    rw [notices_concat, List.length_append, List.length_singleton, List.range_succ,
      List.filterMap_append, ho, ← ih, List.filterMap_cons, hn, List.filterMap_nil]
    cases step.notice? with
    | none =>
      rw [Option.toList_none, List.append_nil, Option.bind_none]
      exact (List.append_nil _).symm
    | some notice =>
      rw [Option.toList_some, firstStarts_concat, Option.bind_some]
      cases fresh? (notices steps) notice <;> rfl

/-! ## Reorderings -/

/-- A reordering of steps: it puts every step in a place of its own and keeps the order of any two
steps whose order matters. So messages stay between the resets between which they were, and the
messages that name an id stay in their order. -/
structure Reordering (steps others : List IngestStep) where
  /-- Where each step goes. -/
  place : Fin steps.length ≃ Fin others.length
  same : ∀ i, others[place i] = steps[i]
  ordered : ∀ i j, i < j → steps[i].Bound steps[j] → place i < place j

namespace Reordering

variable {steps others : List IngestStep} (r : Reordering steps others)

include r

/-- What stands for an id is the same at two points of a reordering that have the same steps about
the id behind them. -/
theorem standing?_take {id : String} {k l : ℕ}
    (cut : ∀ i, steps[i].concerns id = true → (i.val < k ↔ (r.place i).val < l)) :
    standing? id (notices (steps.take k)) = standing? id (notices (others.take l)) := by
  have hq (i : Fin steps.length) :
      (decide ((r.place i).val < l) && others[r.place i].concerns id) =
        (decide (i.val < k) && steps[i].concerns id) := by
    rw [r.same]
    cases hc : steps[i].concerns id with
    | false => rw [Bool.and_false, Bool.and_false]
    | true => rw [Bool.and_true, Bool.and_true, decide_eq_decide, cut i hc]
  have hm := map_filter_finRange r.place
    (p := fun i => decide (i.val < k) && steps[i].concerns id)
    (q := fun j => decide (j.val < l) && others[j].concerns id) hq fun i j hij hi hj =>
      r.ordered i j hij (IngestStep.bound_of_concerns (Bool.and_eq_true_iff.mp hi).2
        (Bool.and_eq_true_iff.mp hj).2)
  have hl : (steps.take k).filter (IngestStep.concerns id) =
      (others.take l).filter (IngestStep.concerns id) := by
    rw [filter_take_eq_map, filter_take_eq_map, ← hm, List.map_map]
    refine List.map_congr_left fun i _ => ?_
    exact (r.same i).symm
  rw [← standing?_filter, filter_notices, hl, ← filter_notices, standing?_filter]

/-- What stands under a name is the same before and after the reordering. -/
theorem standing?_eq (id : String) :
    standing? id (notices steps) = standing? id (notices others) := by
  have h : standing? id (notices (steps.take steps.length)) =
      standing? id (notices (others.take others.length)) :=
    r.standing?_take fun i _ => iff_of_true i.isLt (r.place i).isLt
  rwa [List.take_length, List.take_length] at h

/-- What stands for an id before a message that names it is the same in every reordering. -/
theorem standing?_before {i : Fin steps.length} {id : String} (hi : steps[i].id? = some id) :
    standing? id (notices (steps.take i)) = standing? id (notices (others.take (r.place i))) := by
  refine r.standing?_take fun j hj => ?_
  obtain ⟨hij, hji⟩ := IngestStep.bound_of_id? hi hj
  constructor
  · exact fun hl => r.ordered j i hl hji
  · intro hl
    by_contra hn
    rcases Nat.lt_or_eq_of_le (Nat.le_of_not_lt hn) with hg | he
    · exact absurd (r.ordered i j hg hij) (Nat.lt_asymm hl)
    · exact absurd hl (by rw [Fin.ext he]; exact Nat.lt_irrefl _)

/-- A step starts the same record at its old place and at its new one. -/
theorem firstStartAt?_place (i : Fin steps.length) :
    firstStartAt? others (r.place i) = firstStartAt? steps i := by
  have hs : steps[i.val]? = some steps[i] := List.getElem?_eq_getElem i.isLt
  have ho : others[(r.place i).val]? = some steps[i] := by
    rw [← r.same i]
    exact List.getElem?_eq_getElem (r.place i).isLt
  rw [firstStartAt?, firstStartAt?, hs, ho, Option.bind_some]
  cases hn : steps[i].notice? with
  | none => rfl
  | some notice =>
    rw [Option.bind_some, Option.bind_some]
    cases notice with
    | start record =>
      have hi := r.standing?_before (IngestStep.id?_of_notice? hn).1
      rw [fresh?, fresh?, hi]
    | stop id => rfl
    | reset => rfl

/-- A reordering brings as many first starts. -/
theorem length_firstStarts :
    (firstStarts (notices others)).length = (firstStarts (notices steps)).length := by
  have hp : ((List.finRange steps.length).map r.place).Perm (List.finRange others.length) := by
    refine (List.perm_ext_iff_of_nodup ?_ (List.nodup_finRange _)).mpr fun k => ?_
    · exact (List.nodup_finRange _).map r.place.injective
    · refine iff_of_true (List.mem_map.mpr ⟨r.place.symm k, ?_⟩) (List.mem_finRange k)
      exact ⟨List.mem_finRange _, r.place.apply_symm_apply k⟩
  have hs (items : List IngestStep) : firstStarts (notices items) =
      (List.finRange items.length).filterMap fun i : Fin items.length => firstStartAt? items i := by
    rw [firstStarts_notices, ← List.map_coe_finRange_eq_range, List.filterMap_map]
    rfl
  have hf := (hp.filterMap fun i : Fin others.length => firstStartAt? others i).length_eq
  rw [List.filterMap_map] at hf
  rw [hs others, hs steps, ← hf]
  congr 1
  refine List.filterMap_congr fun i _ => ?_
  exact r.firstStartAt?_place i

end Reordering

namespace Ingest

variable {β : Type} [Bus β]

/-- A node is live after a run exactly if a record stands under its name. -/
theorem contains_run (policy : Policy) (bus : β) (steps : List IngestStep) (id : String) :
    ((Ingest.mk policy .empty bus).run steps).registry.contains id =
      (standing? id (notices steps)).isSome := by
  rw [registry_run]
  exact Registry.contains_foldl_heed_eq (notices steps) id

/-- After a run the registry lists what stands, if numbers have not run out. -/
theorem lists_run (policy : Policy) (bus : β) {steps : List IngestStep}
    (hb : (firstStarts (notices steps)).length ≤ UInt64.size) :
    Registry.Lists ((Ingest.mk policy .empty bus).run steps).registry
      (firstStarts (notices steps)).length (standing (notices steps)) := by
  rw [registry_run]
  exact Registry.lists_foldl_heed (notices steps) hb

/-- In every reordering each message has the outcome that it has in the original run, and the same
ids are live at the end. Until the numbers of 64 bits are used up they have the same records, and
the nodes served are the same but for their order. -/
theorem outcomes_of_reordering (policy : Policy) (bus : β) {steps others : List IngestStep}
    (r : Reordering steps others) :
    let first := Ingest.mk policy .empty bus
    let s := first.run steps
    let t := first.run others
    (∀ i : Fin steps.length, (first.run (steps.take i)).outcome? steps[i] =
      (first.run (others.take (r.place i))).outcome? others[r.place i]) ∧
    (∀ id, s.registry.contains id = t.registry.contains id) ∧
    ((firstStarts (notices steps)).length ≤ UInt64.size →
      (∀ id, s.registry.get? id = t.registry.get? id) ∧ s.fetchAll.Perm t.fetchAll) := by
  intro first s t
  refine ⟨fun i => ?_, fun id => ?_, fun hb => ?_⟩
  · rw [r.same i, outcome?_eq, outcome?_eq]
    refine Registry.outcome?_congr fun id hi => ?_
    rw [contains_run, contains_run, r.standing?_before hi]
  · rw [contains_run, contains_run, r.standing?_eq]
  -- Numbers are given in the order of the starts, so only the records are compared, not the rows.
  · have hs := lists_run policy bus hb
    have ht := lists_run policy bus (r.length_firstStarts.trans_le hb)
    have hm (record : Record) :
        record ∈ standing (notices others) ↔ record ∈ standing (notices steps) := by
      rw [hs.mem_iff, ht.mem_iff, find?_standing, find?_standing, r.standing?_eq]
    refine ⟨fun id => ?_, ?_⟩
    · rw [hs.get?_eq, ht.get?_eq, find?_standing, find?_standing, r.standing?_eq]
    · rw [fetchAll, fetchAll, Registry.snapshot, Registry.snapshot, hs.records, ht.records]
      have hp : (standing (notices steps)).Perm (standing (notices others)) :=
        (List.perm_ext_iff_of_nodup hs.ids.of_map ht.ids.of_map).mpr fun record => (hm record).symm
      exact hp.map Entry.mk

/-- Two nodes that start in the other order are served in the other order; otherwise a stop and a
start after it make the same of either run. -/
theorem outcomes_of_swapped_starts :
    let message topic text := IngestStep.message topic (Text.bytes text)
    let a := message "realm/proc" "\x7b\"id\":\"a\",\"cmd\":\"rt-start\"\x7d"
    let b := message "realm/proc" "\x7b\"id\":\"b\",\"cmd\":\"pub-start\"\x7d"
    let again := message "elsewhere" "\x7b\"id\":\"a\",\"cmd\":\"sub-start\"\x7d"
    let first := Ingest.mk ⟨false⟩ .empty (Recorder.mk [] none)
    (firstStarts (notices [a, b, again])).length ≤ UInt64.size ∧
      (first.run [a, b]).outcome? again = (first.run [b, a]).outcome? again ∧
      (first.run [a, b, again]).fetchAll.Perm (first.run [b, a, again]).fetchAll := by
  intro message a b again first
  have hab : ¬ a.Bound b := by
    rintro (h | h | ⟨id, ha, hb⟩)
    · exact IngestStep.noConfusion h
    · exact IngestStep.noConfusion h
    · exact absurd (ha.trans hb.symm) (by decide)
  let r : Reordering [a, b, again] [b, a, again] := {
    place := Equiv.swap (0 : Fin 3) 1
    same := fun
      | 0 | 1 | 2 => rfl
    ordered := fun
      | 0, 1, _, h => absurd h hab
      | 0, 2, _, _ | 1, 2, _, _ => by decide
      | 0, 0, h, _ | 1, 0, h, _ | 1, 1, h, _ | 2, 0, h, _ | 2, 1, h, _ | 2, 2, h, _ =>
        absurd h (by decide) }
  have hl : (firstStarts (notices [a, b, again])).length ≤ UInt64.size := by
    have hn : (firstStarts (notices [a, b, again])).length = 2 := rfl
    rw [hn]
    decide
  have h := outcomes_of_reordering ⟨false⟩ (Recorder.mk [] none) r
  exact ⟨hl, h.1 2, (h.2.2 hl).2⟩

end Ingest

end LiveTopology
