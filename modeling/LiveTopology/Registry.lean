import LiveTopology.Node.Event
import Std.Data.HashMap

/-!
# The registry of live nodes

The registry knows the live nodes by id and lists them in the order in which they were inserted. An
index leads from an id to a sequence number and the rows hold the records by ascending number. The
counter gives each insertion the next number and survives `clear`. The first record of an id stays:
`insert` refuses a second one.
-/

namespace LiveTopology

open Node

/-- The live nodes. -/
structure Registry where
  /-- The sequence number of the next insertion. -/
  counter : UInt64
  /-- The sequence number of each id. -/
  index : Std.HashMap String UInt64
  /-- The records with their sequence numbers, ascending. -/
  rows : List (UInt64 × Record)

namespace Registry

/-- No nodes. -/
def empty : Registry := ⟨0, ∅, []⟩

/-- The rows with a record under a number, in its place in the order. -/
def putRow (number : UInt64) (record : Record) :
    List (UInt64 × Record) → List (UInt64 × Record)
  | [] => [(number, record)]
  | (other, old) :: rest =>
    if number = other then (number, record) :: rest
    else if number < other then (number, record) :: (other, old) :: rest
    else (other, old) :: putRow number record rest

/-- The record under a number. -/
def row? (number : UInt64) (rows : List (UInt64 × Record)) : Option Record :=
  (rows.find? fun row => row.1 = number).map Prod.snd

/-- Whether a node with this id is live. -/
def contains (r : Registry) (id : String) : Bool := r.index.contains id

/-- Inserts a record unless its id is known, and says whether it did. -/
def insert (r : Registry) (record : Record) : Bool × Registry :=
  if r.index.contains record.id then (false, r)
  else
    (true, { counter := r.counter + 1
             index := r.index.insert record.id r.counter
             rows := putRow r.counter record r.rows })

/-- Removes the node with an id, and says whether there was one. -/
def remove (r : Registry) (id : String) : Bool × Registry :=
  match r.index[id]? with
  | none => (false, r)
  | some number =>
    (true, { r with
      index := r.index.erase id
      rows := r.rows.filter fun row => row.1 ≠ number })

/-- The record of a live node. -/
def get? (r : Registry) (id : String) : Option Record :=
  match r.index[id]? with
  | none => none
  | some number => row? number r.rows

/-- Forgets all nodes. The counter goes on. -/
def clear (r : Registry) : Registry := { r with index := ∅, rows := [] }

/-- The number of live nodes. -/
def size (r : Registry) : Nat := r.index.size

/-- Whether no node is live. -/
def isEmpty (r : Registry) : Bool := r.size == 0

/-- All records, in the order of their insertion. -/
def records (r : Registry) : List Record := r.rows.map Prod.snd

/-- All records as they are served. -/
def snapshot (r : Registry) : List Entry := r.records.map Entry.mk

end Registry

end LiveTopology
