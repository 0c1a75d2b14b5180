/-!
# Sets of topics

A set of topics is kept as its elements in ascending order of their bytes, which is also the order
of their code points. Two sets with the same elements are therefore equal, and the order in which
topics are listed is determined by the set alone.
-/

namespace LiveTopology.Bus

/-- A finite set of topics. -/
structure TopicSet where
  /-- The topics, strictly ascending. -/
  toList : List String
  ascending : toList.Pairwise (· < ·)
  deriving DecidableEq

namespace TopicSet

/-- No topics. -/
def empty : TopicSet := ⟨[], .nil⟩

instance : Membership String TopicSet := ⟨fun s topic => topic ∈ s.toList⟩

theorem mem_toList {topic : String} {s : TopicSet} : topic ∈ s ↔ topic ∈ s.toList := .rfl

/-- A topic put in its place among ascending topics. -/
def insertAscending (topic : String) : List String → List String
  | [] => [topic]
  | other :: rest =>
    if topic = other then other :: rest
    else if topic < other then topic :: other :: rest
    else other :: insertAscending topic rest

/-- What is inserted into a list joins those that were there. -/
theorem mem_insertAscending {topic other : String} {topics : List String} :
    other ∈ insertAscending topic topics ↔ other = topic ∨ other ∈ topics := by
  induction topics with
  | nil => simp [insertAscending]
  | cons first rest ih =>
    unfold insertAscending
    split
    · rename_i same
      subst same
      simp
    · split
      · simp
      · simp only [List.mem_cons, ih]
        constructor
        · rintro (h | h | h) <;> simp [h]
        · rintro (h | h | h) <;> simp [h]

/-- Of two different texts one comes first. -/
theorem lt_of_not_le_of_ne {a b : String} (different : a ≠ b) (h : ¬ a < b) : b < a := by
  have le : b ≤ a := h
  exact Decidable.byContradiction fun not =>
    different (String.le_antisymm not le)

/-- Insertion keeps a list in order. -/
theorem ascending_insertAscending {topic : String} {topics : List String}
    (h : topics.Pairwise (· < ·)) : (insertAscending topic topics).Pairwise (· < ·) := by
  induction topics with
  | nil => simp [insertAscending]
  | cons first rest ih =>
    have ⟨above, others⟩ := List.pairwise_cons.1 h
    unfold insertAscending
    split
    · exact h
    · rename_i different
      split
      · rename_i below
        refine List.pairwise_cons.2 ⟨fun other mem => ?_, h⟩
        rcases List.mem_cons.1 mem with same | later
        · exact same ▸ below
        · exact String.lt_trans below (above other later)
      · rename_i notBelow
        refine List.pairwise_cons.2 ⟨fun other mem => ?_, ih others⟩
        rcases mem_insertAscending.1 mem with same | later
        · exact same ▸ lt_of_not_le_of_ne different notBelow
        · exact above other later

/-- The set with a topic added. -/
def insert (topic : String) (s : TopicSet) : TopicSet :=
  ⟨insertAscending topic s.toList, ascending_insertAscending s.ascending⟩

/-- The set with a topic taken out. -/
def erase (topic : String) (s : TopicSet) : TopicSet :=
  ⟨s.toList.filter (· ≠ topic), s.ascending.filter _⟩

/-- The set of the listed topics. -/
def ofList (topics : List String) : TopicSet :=
  topics.foldl (fun s topic => s.insert topic) empty

/-- The empty set has no members. -/
theorem mem_empty {topic : String} : ¬ topic ∈ empty := by
  simp [mem_toList, empty]

/-- An inserted topic joins the members. -/
theorem mem_insert {topic other : String} {s : TopicSet} :
    other ∈ s.insert topic ↔ other = topic ∨ other ∈ s :=
  mem_insertAscending

/-- An erased topic is the only one to leave. -/
theorem mem_erase {topic other : String} {s : TopicSet} :
    other ∈ s.erase topic ↔ other ≠ topic ∧ other ∈ s := by
  simp [mem_toList, erase, and_comm]

end TopicSet

end LiveTopology.Bus
