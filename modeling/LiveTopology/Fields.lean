/-!
# Named fields in ascending order

Objects and tables are lists of named values, ascending by name, with one value for each name.
`put` keeps that order and lets the last value of a name win; `take` splits a name off. Names are
compared by code points, which is the order of their UTF-8 bytes.
-/

namespace LiveTopology.Fields

variable {α : Type}

/-- The fields with `name` set to `value`, in its place in the order. -/
def put (name : String) (value : α) : List (String × α) → List (String × α)
  | [] => [(name, value)]
  | (other, old) :: rest =>
    if name = other then (name, value) :: rest
    else if name < other then (name, value) :: (other, old) :: rest
    else (other, old) :: put name value rest

/-- The value under a name. -/
def get? (name : String) (fields : List (String × α)) : Option α :=
  (fields.find? fun field => field.1 = name).map Prod.snd

/-- The fields without those of a name. -/
def erase (name : String) (fields : List (String × α)) : List (String × α) :=
  fields.filter fun field => field.1 ≠ name

/-- The fields that a sequence of named values leaves when each is put in turn. -/
def ofPairs (pairs : List (String × α)) : List (String × α) :=
  pairs.foldl (fun fields pair => put pair.1 pair.2 fields) []

/-- Whether the names strictly ascend. -/
def Ascending (fields : List (String × α)) : Prop :=
  (fields.map Prod.fst).Pairwise (· < ·)

theorem get?_nil (name : String) : get? name ([] : List (String × α)) = none := rfl

/-- A name is looked up in the first field that has it. -/
theorem get?_cons (name other : String) (value : α) (rest : List (String × α)) :
    get? name ((other, value) :: rest) = if other = name then some value else get? name rest := by
  by_cases h : other = name <;> simp [get?, h]

/-- A value that is put under a name is found there, and other names keep theirs. -/
theorem get?_put (name other : String) (value : α) (fields : List (String × α)) :
    get? other (put name value fields) =
      if name = other then some value else get? other fields := by
  induction fields with
  | nil => simp [put, get?_cons, get?_nil]
  | cons field rest ih =>
    obtain ⟨first, old⟩ := field
    rw [put]
    split
    · rename_i same
      subst same
      by_cases h : name = other <;> simp [get?_cons, h]
    · split
      · simp [get?_cons]
      · rename_i different _
        by_cases h : first = other
        · subst h
          simp [get?_cons, different]
        · simp [get?_cons, h, ih]

/-- Nothing is found under a name that was erased, and other names keep their values. -/
theorem get?_erase (name other : String) (fields : List (String × α)) :
    get? other (erase name fields) = if name = other then none else get? other fields := by
  induction fields with
  | nil => simp [erase, get?_nil]
  | cons field rest ih =>
    obtain ⟨first, old⟩ := field
    by_cases same : first = name
    · subst same
      have : erase first ((first, old) :: rest) = erase first rest := by simp [erase]
      rw [this, ih, get?_cons]
      by_cases h : first = other <;> simp [h]
    · have : erase name ((first, old) :: rest) = (first, old) :: erase name rest := by
        simp [erase, same]
      rw [this, get?_cons, get?_cons, ih]
      by_cases h : first = other
      · subst h
        simp [Ne.symm same]
      · simp [h]

end LiveTopology.Fields
