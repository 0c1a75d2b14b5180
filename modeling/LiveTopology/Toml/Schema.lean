import LiveTopology.Decimal.Shortest
import LiveTopology.Text.Quoted
import LiveTopology.Toml.Item

/-!
# Reading the items of a document as data

A schema names the fields of a section and says how the item of each is read. A section may be
written as a table, in which fields come in any order and other names are passed over, or as an
array of its fields in order. The first item in the order of the document that has the wrong form
decides the error; a field that is missing is only noticed after all items were read.
-/

namespace LiveTopology.Toml

/-- Why an item is not what it should be. -/
inductive Mismatch where
  | wrongType (found : Item) (expected : String)
  /-- An integer of the wrong size. -/
  | outOfRange (found : Int) (expected : String)
  | missingField (name : String)
  /-- An array that ends before a field that must be there. -/
  | tooShort (length : Nat) (expected : String)

/-- An item that is not what it should be, with the part of the text to which that applies. -/
structure DataError where
  mismatch : Mismatch
  span : Option Span

/-- A float in a message: positional, with a fraction whenever it is finite. -/
def floatText (value : Float) : String :=
  let signed (negative : Bool) (text : String) : String := if negative then "-" ++ text else text
  match Decimal.Parts.ofFloat value with
  | .notANumber => "NaN"
  | .infinite negative => signed negative "inf"
  | .zero negative => signed negative "0.0"
  | .finite negative m q nearBelow =>
    signed negative (Decimal.shortest m q nearBelow .up).positional

/-- An item in a message. -/
def Item.shape : Item → String
  | .string value _ => "string " ++ Text.readable value
  | .integer value _ => "integer `" ++ toString value ++ "`"
  | .float value _ => "floating point `" ++ floatText value ++ "`"
  | .boolean value _ => "boolean `" ++ toString value ++ "`"
  | .datetime _ => "map"
  | .array _ _ => "sequence"
  | .tables _ _ => "sequence"
  | .table _ _ _ => "map"

/-- The wording of a mismatch. -/
def Mismatch.text : Mismatch → String
  | .wrongType found expected => "invalid type: " ++ found.shape ++ ", expected " ++ expected
  | .outOfRange found expected =>
    "invalid value: integer `" ++ toString found ++ "`, expected " ++ expected
  | .missingField name => "missing field `" ++ name ++ "`"
  | .tooShort length expected =>
    "invalid length " ++ toString length ++ ", expected " ++ expected

/-- The wording of an error. -/
def DataError.message (e : DataError) : String := e.mismatch.text

/-- An error about an item. -/
def Item.fails {α : Type} (item : Item) (mismatch : Mismatch) : Except DataError α :=
  .error ⟨mismatch, item.span?⟩

/-! ## Single values -/

/-- An item as a string. -/
def Item.asString : Item → Except DataError String
  | .string value _ => .ok value
  | other => other.fails (.wrongType other "a string")

/-- An item as a truth value. -/
def Item.asBool : Item → Except DataError Bool
  | .boolean value _ => .ok value
  | other => other.fails (.wrongType other "a boolean")

/-- An item as an unsigned number below a bound; `kind` names the numbers below it. -/
def Item.asNatural (bound : Nat) (kind : String) : Item → Except DataError Nat
  | .integer value span =>
    if 0 ≤ value ∧ value < bound then .ok value.toNat
    else .error ⟨.outOfRange value kind, some span⟩
  | other => other.fails (.wrongType other kind)

/-! ## Sections -/

/-- A field of a section: how its item changes what is known of the section so far. -/
structure Field (σ : Type) where
  name : String
  read : Item → σ → Except DataError σ

/-- The form of a section: what is known of it before its fields, the fields in order, and what it
is in the end, or the name of a field that was needed. -/
structure Schema (σ α : Type) where
  name : String
  start : σ
  fields : List (Field σ)
  finish : σ → Except String α

namespace Schema

variable {σ α : Type}

/-- What is known after the entries of a table. An error about an item that has no place of its own
is placed at the name. -/
def readEntries (schema : Schema σ α) : Entries → σ → Except DataError σ
  | [], known => .ok known
  | (key, item) :: rest, known =>
    match schema.fields.find? fun field => field.name = key.name with
    | none => schema.readEntries rest known
    | some field =>
      match field.read item known with
      | .error error => .error { error with span := error.span.or (some key.span) }
      | .ok known => schema.readEntries rest known

/-- What is known after the items of an array. Items behind the last field are passed over. -/
def readItems : List (Field σ) → List Item → σ → Except DataError σ
  | field :: fields, item :: rest, known => do
    let known ← field.read item known
    readItems fields rest known
  | _, _, known => .ok known

/-- The section that the entries of a table make up. -/
def ofEntries (schema : Schema σ α) (entries : Entries) (span : Option Span) :
    Except DataError α := do
  let known ← schema.readEntries entries schema.start
  (schema.finish known).mapError fun field => ⟨.missingField field, span⟩

/-- The section that the items of an array make up. -/
def ofItems (schema : Schema σ α) (items : List Item) (span : Option Span) :
    Except DataError α := do
  let known ← readItems schema.fields items schema.start
  (schema.finish known).mapError fun field =>
    let position := schema.fields.findIdx fun other => other.name = field
    ⟨.tooShort position ("struct " ++ schema.name ++ " with " ++
      toString schema.fields.length ++ " elements"), span⟩

/-- The section that an item writes. A date or time stands for a table without known names. -/
def read (schema : Schema σ α) (item : Item) : Except DataError α :=
  match item with
  | .table _ entries span => schema.ofEntries entries span
  | .datetime span => schema.ofEntries [] (some span)
  | .array items span => schema.ofItems items (some span)
  | .tables elements span => schema.ofItems elements span
  | other => other.fails (.wrongType other ("struct " ++ schema.name))

end Schema

end LiveTopology.Toml
