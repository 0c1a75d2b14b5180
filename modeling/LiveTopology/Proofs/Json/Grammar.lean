import LiveTopology.Json.Reader

/-!
# The grammar of JSON

Which texts denote which values, said without a reader: strings are pieces between quotes, numbers
have a sign, digits, a fraction and an exponent, and arrays and objects enclose texts that are
separated by commas, with white space around each. The parts of an object are kept as they are
written, with every occurrence of a key; only the value takes the last of them.
-/

namespace LiveTopology.Json

/-! ## Strings -/

/-- A piece of a string as it is written, and the bytes for which it stands. -/
inductive Piece : List UInt8 → List UInt8 → Prop where
  | plain {b : UInt8} (hq : b ≠ Byte.quote) (hc : ¬ b < 0x20) (hb : b ≠ Byte.backslash) :
      Piece [b] [b]
  | escaped {e byte : UInt8} (he : escapedByte? e = some byte) : Piece [Byte.backslash, e] [byte]
  | unit {h₁ h₂ h₃ h₄ : UInt8} {unit : Nat} (hu : codeUnit? h₁ h₂ h₃ h₄ = some unit)
      (ht : ¬ isTrailing unit) (hl : ¬ isLeading unit) :
      Piece [Byte.backslash, Byte.letterU, h₁, h₂, h₃, h₄] (String.utf8EncodeChar (Char.ofNat unit))
  /-- Two code units of which the first asks for the second. -/
  | pair {h₁ h₂ h₃ h₄ k₁ k₂ k₃ k₄ : UInt8} {unit second : Nat}
      (hu : codeUnit? h₁ h₂ h₃ h₄ = some unit) (hl : isLeading unit)
      (hs : codeUnit? k₁ k₂ k₃ k₄ = some second) (ht : isTrailing second) :
      Piece [Byte.backslash, Byte.letterU, h₁, h₂, h₃, h₄, Byte.backslash, Byte.letterU,
        k₁, k₂, k₃, k₄] (String.utf8EncodeChar (ofPair unit second))

/-- The inside of a string, and the bytes for which it stands. -/
inductive Inside : List UInt8 → List UInt8 → Prop where
  | empty : Inside [] []
  | piece {written bytes inside later : List UInt8} (hp : Piece written bytes)
      (hi : Inside inside later) : Inside (written ++ inside) (bytes ++ later)

/-- A string in quotes. -/
inductive StringText : List UInt8 → String → Prop where
  | quoted {inside content : List UInt8} {text : String} (hi : Inside inside content)
      (ht : Text.decode? content = some text) :
      StringText (Byte.quote :: inside ++ [Byte.quote]) text

/-! ## Numbers -/

/-- One or more decimal digits. -/
def Digits (digits : List UInt8) : Prop := digits ≠ [] ∧ ∀ d ∈ digits, isDigit d = true

/-- The digits before the point: a zero stands alone. -/
def WholeText (digits : List UInt8) : Prop :=
  Digits digits ∧ ∀ rest, digits = Byte.zero :: rest → rest = []

/-- A fraction, or none. -/
inductive FractionText : List UInt8 → Option (List UInt8) → Prop where
  | absent : FractionText [] none
  | present {digits : List UInt8} (hd : Digits digits) :
      FractionText (Byte.point :: digits) (some digits)

/-- The sign of an exponent, true for minus. -/
inductive SignText : List UInt8 → Bool → Prop where
  | absent : SignText [] false
  | plus : SignText [Byte.plus] false
  | minus : SignText [Byte.minus] true

/-- An exponent, or none. -/
inductive ExponentText : List UInt8 → Option (Bool × List UInt8) → Prop where
  | absent : ExponentText [] none
  | present {e : UInt8} {sign digits : List UInt8} {negative : Bool} (he : e = 0x65 ∨ e = 0x45)
      (hs : SignText sign negative) (hd : Digits digits) :
      ExponentText (e :: sign ++ digits) (some (negative, digits))

/-- The sign of a number as it is written, minus or none. -/
def signOf (negative : Bool) : List UInt8 := if negative then [Byte.minus] else []

/-- A number as it is written. -/
inductive LiteralText : List UInt8 → Literal → Prop where
  | parts {whole fraction exponent : List UInt8} {negative : Bool} {f : Option (List UInt8)}
      {e : Option (Bool × List UInt8)} (hw : WholeText whole) (hf : FractionText fraction f)
      (he : ExponentText exponent e) :
      LiteralText (signOf negative ++ whole ++ fraction ++ exponent) ⟨negative, whole, f, e⟩

/-- A number. -/
inductive NumberText : List UInt8 → Number → Prop where
  | literal {text : List UInt8} {l : Literal} {n : Number} (hl : LiteralText text l)
      (hn : l.number [] = .ok n) : NumberText text n

/-! ## Values -/

/-- Words, strings and numbers. -/
inductive Scalar : List UInt8 → Value → Prop where
  | nullWord : Scalar [Byte.letterN, 0x75, 0x6C, 0x6C] .null
  | trueWord : Scalar [Byte.letterT, 0x72, 0x75, 0x65] (.bool true)
  | falseWord : Scalar [Byte.letterF, 0x61, 0x6C, 0x73, 0x65] (.bool false)
  | string {text : List UInt8} {s : String} (hs : StringText text s) : Scalar text (.string s)
  | number {text : List UInt8} {n : Number} (hn : NumberText text n) : Scalar text (.number n)

/-- Text of white space only. -/
def Blank (text : List UInt8) : Prop := ∀ b ∈ text, isSpace b = true

section

variable {α : Type} (part : List UInt8 → α → Prop)

/-- A text with white space around it. -/
inductive Padded : List UInt8 → α → Prop where
  | around {before core after : List UInt8} {a : α} (hb : Blank before) (hc : part core a)
      (ha : Blank after) : Padded (before ++ core ++ after) a

/-- Texts separated by commas. -/
inductive Series : List UInt8 → List α → Prop where
  | last {text : List UInt8} {a : α} (hp : Padded part text a) : Series text [a]
  | more {text rest : List UInt8} {a : α} {later : List α} (hp : Padded part text a)
      (hs : Series rest later) : Series (text ++ Byte.comma :: rest) (a :: later)

/-- What stands between brackets: nothing, or texts separated by commas. -/
inductive Listing : List UInt8 → List α → Prop where
  | none {text : List UInt8} (hb : Blank text) : Listing text []
  | some {text : List UInt8} {all : List α} (hs : Series part text all) : Listing text all

/-- A key, a colon, and the text that belongs to the key. -/
inductive MemberText : List UInt8 → String × α → Prop where
  | keyed {key gap before core : List UInt8} {name : String} {a : α} (hk : StringText key name)
      (hg : Blank gap) (hb : Blank before) (hc : part core a) :
      MemberText (key ++ gap ++ Byte.colon :: (before ++ core)) (name, a)

/-- An array, by its items. -/
inductive ArrayText : List UInt8 → List α → Prop where
  | bracketed {inside : List UInt8} {items : List α} (hl : Listing part inside items) :
      ArrayText (Byte.openBracket :: inside ++ [Byte.closeBracket]) items

/-- An object, by its members as they are written. -/
inductive ObjectText : List UInt8 → List (String × α) → Prop where
  | braced {inside : List UInt8} {members : List (String × α)}
      (hl : Listing (MemberText part) inside members) :
      ObjectText (Byte.openBrace :: inside ++ [Byte.closeBrace]) members

end

/-- A value whose items and member values are texts of a kind. -/
inductive Layer (part : List UInt8 → Value → Prop) : List UInt8 → Value → Prop where
  | scalar {text : List UInt8} {v : Value} (hs : Scalar text v) : Layer part text v
  | array {text : List UInt8} {items : List Value} (ha : ArrayText part text items) :
      Layer part text (.array items)
  | object {text : List UInt8} {members : List (String × Value)}
      (ho : ObjectText part text members) : Layer part text (.object (Fields.ofPairs members))

/-- The values of which arrays and objects nest at most `depth` deep. -/
def Denotes : (depth : Nat) → List UInt8 → Value → Prop
  | 0 => Scalar
  | depth + 1 => Layer (Denotes depth)

/-- A document that holds an object with these members, in the order in which they are written and
with every occurrence of a key. -/
def WrittenObject (text : List UInt8) (members : List (String × Value)) : Prop :=
  Padded (ObjectText (Denotes (depthLimit - 1))) text members

end LiveTopology.Json
