import LiveTopology.Toml.Scan

/-!
# Numbers, dates and times in TOML

Integers are signed and of 64 bits, in four bases; floats are the nearest double, with words for
infinity and for no number. Underscores may stand between digits. Dates and times are checked to be
possible but not kept.
-/

namespace LiveTopology.Toml

open Text (isDigit isHexDigit isDigitOf numeral)

/-- Digits of a class with single underscores between them, from a first digit on. `read` holds
those read, last first. A digit must follow an underscore; `fuel` bounds the length. -/
def digitsOf (inClass : Char → Bool) : (fuel : Nat) → (read : List Char) → Reader (List Char)
  | 0, read, c => .ok (read.reverse, c)
  | fuel + 1, read, c =>
    match c.rest with
    | [] => .ok (read.reverse, c)
    | char :: _ =>
      if inClass char then digitsOf inClass fuel (char :: read) (c.skip 1)
      else if char = '_' then
        let next := c.skip 1
        match next.rest with
        | [] => .error (next.fault.expecting ["digit"])
        | after :: _ =>
          if inClass after then digitsOf inClass fuel (after :: read) (next.skip 1)
          else .error (next.fault.expecting ["digit"])
      else .ok (read.reverse, c)

/-- The leading digits of a class, at least one. -/
def someDigits (inClass : Char → Bool) : Reader (List Char) := fun c =>
  match c.rest with
  | [] => .error c.mismatch
  | char :: _ =>
    if inClass char then digitsOf inClass c.rest.length [char] (c.skip 1) else .error c.mismatch

/-- A sign, if there is one: whether it is a minus. -/
def sign (c : Cursor) : Bool × Cursor :=
  if c.startsWith ['+'] then (false, c.skip 1)
  else if c.startsWith ['-'] then (true, c.skip 1)
  else (false, c)

/-- A decimal integer with its sign: a leading zero stands alone. -/
def decimalDigits : Reader (Bool × List Char) := fun c =>
  let (negative, start) := sign c
  let read : Except Fault (List Char × Cursor) :=
    if start.startsWith ['0'] then .ok (['0'], start.skip 1) else someDigits isDigit start
  match read with
  | .ok (digits, next) => .ok ((negative, digits), next)
  | .error fault => .error (fault.labelled "integer")

/-- An integer if it fits 64 bits. -/
def fitting (start : Cursor) (value : Int) (span : Span) (next : Cursor) :
    Except Fault (Item × Cursor) :=
  if -0x8000000000000000 ≤ value ∧ value < 0x8000000000000000 then .ok (.integer value span, next)
  else
    .error (start.refusal (if value < 0 then "number too small to fit in target type"
      else "number too large to fit in target type"))

/-- An integer in a base other than ten, behind the two characters that announce it. -/
def basedInteger (base : Nat) (name : String) (inClass : Char → Bool) : Reader Item := fun c =>
  match someDigits inClass (c.skip 2) with
  | .error fault => .error (fault.sealed.labelled name)
  | .ok (digits, next) => fitting c (numeral base digits) ⟨c.index, next.index⟩ next

/-- An integer. -/
def integer : Reader Item := fun c =>
  if c.startsWith ['0', 'x'] then basedInteger 16 "hexadecimal integer" isHexDigit c
  else if c.startsWith ['0', 'o'] then
    basedInteger 8 "octal integer" (isDigitOf 8) c
  else if c.startsWith ['0', 'b'] then
    basedInteger 2 "binary integer" (isDigitOf 2) c
  else
    match decimalDigits c with
    | .error fault => .error fault
    | .ok ((negative, digits), next) =>
      let size : Int := numeral 10 digits
      fitting c (if negative then -size else size) ⟨c.index, next.index⟩ next

/-! ## Floats -/

/-- The double nearest to `digits · 10 ^ exponent`. Exponents far outside the range of doubles are
not worked out. -/
def nearestDouble (digits : Nat) (exponent : Int) : Float :=
  let leading : Int := exponent + (Nat.toDigits 10 digits).length
  if digits = 0 then 0
  else if 400 < leading then 1 / 0
  else if leading < -400 then 0
  else if 0 ≤ exponent then Float.ofScientific (digits * Nat.pow 10 exponent.toNat) false 0
  else Float.ofScientific digits true (-exponent).toNat

/-- The exponent behind its letter: whether it is negative, and its digits. -/
def exponentDigits : Reader (Bool × List Char) := fun c =>
  let (negative, start) := sign (c.skip 1)
  match someDigits isDigit start with
  | .ok (digits, next) => .ok ((negative, digits), next)
  | .error fault => .error fault.sealed

/-- Whether the letter of an exponent comes next. -/
def startsExponent (c : Cursor) : Bool := c.startsWith ['e'] || c.startsWith ['E']

/-- The words for infinity and for no number. -/
def specialFloat : Reader Float := fun c =>
  if c.startsWith ['i'] then
    if c.startsWith ['i', 'n', 'f'] then .ok (1 / 0, c.skip 3) else .error c.fault
  else if c.startsWith ['n'] then
    if c.startsWith ['n', 'a', 'n'] then .ok (0 / 0, c.skip 3) else .error c.fault
  else .error c.mismatch

/-- A float written with digits: it has a fraction or an exponent. -/
def writtenFloat : Reader Float := fun c => do
  let ((negative, whole), next) ← decimalDigits c
  let (fraction, next) ←
    if next.startsWith ['.'] then
      match someDigits isDigit (next.skip 1) with
      | .ok found => .ok found
      | .error fault =>
        .error (if fault.final then fault else fault.sealed.expecting ["digit"])
    else if startsExponent next then .ok ([], next)
    else .error next.mismatch
  let ((negativeExponent, exponent), next) ←
    if startsExponent next then exponentDigits next else .ok ((false, []), next)
  let exponent : Int := numeral 10 exponent
  let size := nearestDouble (numeral 10 (whole ++ fraction))
    ((if negativeExponent then -exponent else exponent) - fraction.length)
  let value := if negative then -size else size
  if size.isInf && !negative then .error c.fault
  else pure (value, next)

/-- A float. -/
def float : Reader Item := fun c =>
  let read : Except Fault (Float × Cursor) :=
    match writtenFloat c with
    | .ok found => .ok found
    | .error fault =>
      if fault.final then .error fault
      else
        let (negative, start) := sign c
        (specialFloat start).map fun (value, next) => (if negative then -value else value, next)
  match read with
  | .ok (value, next) => .ok (.float value ⟨c.index, next.index⟩, next)
  | .error fault => .error (fault.labelled "floating-point number")

/-! ## Dates and times -/

/-- Exactly `width` decimal digits. -/
def fixedDigits (width : Nat) : Reader Nat := fun c =>
  let digits := (c.rest.take width).takeWhile isDigit
  if digits.length = width then .ok (numeral 10 digits, c.skip width)
  else .error c.mismatch

/-- A number of two digits between two bounds. -/
def bounded (low high : Nat) : Reader Nat := fun c => do
  let (value, next) ← fixedDigits 2 c
  if low ≤ value ∧ value ≤ high then pure (value, next)
  else .error { c.refusal "value is out of range" with final := false }

/-- A character that must come next. -/
def exactly (char : Char) (c : Cursor) : Except Fault Cursor :=
  if c.startsWith [char] then .ok (c.skip 1) else .error c.mismatch

/-- The number of days of a month. -/
def daysOfMonth (year month : Nat) : Nat :=
  if month = 2 then
    if year % 4 = 0 ∧ (year % 100 ≠ 0 ∨ year % 400 = 0) then 29 else 28
  else if month = 4 ∨ month = 6 ∨ month = 9 ∨ month = 11 then 30
  else 31

/-- A date. -/
def date (c : Cursor) : Except Fault Cursor := do
  let (year, next) ← fixedDigits 4 c
  let next ← exactly '-' next
  let rest : Except Fault Cursor := do
    let (month, next) ← bounded 1 12 next
    let start ← exactly '-' next
    let (day, next) ← bounded 1 31 start
    if daysOfMonth year month < day then .error (start.refusal "value is out of range")
    else pure next
  rest.mapError Fault.sealed

/-- The fraction of a second, if there is one. -/
def secondFraction (c : Cursor) : Cursor :=
  if c.startsWith ['.'] then
    let digits := (c.skip 1).leading isDigit
    if digits.isEmpty then c else c.skip (digits.length + 1)
  else c

/-- A time of day. -/
def time (c : Cursor) : Except Fault Cursor := do
  let (_, next) ← bounded 0 23 c
  let next ← exactly ':' next
  let rest : Except Fault Cursor := do
    let (_, next) ← bounded 0 59 next
    let next ← exactly ':' next
    let (_, next) ← bounded 0 60 next
    pure (secondFraction next)
  rest.mapError Fault.sealed

/-- The offset of a time, if there is one. -/
def timeOffset (c : Cursor) : Except Fault Cursor :=
  if c.startsWith ['Z'] || c.startsWith ['z'] then .ok (c.skip 1)
  else if c.startsWith ['+'] || c.startsWith ['-'] then
    let rest : Except Fault Cursor := do
      let (_, next) ← bounded 0 23 (c.skip 1)
      let next ← exactly ':' next
      let (_, next) ← bounded 0 59 next
      pure next
    rest.mapError fun fault => fault.sealed.labelled "time offset"
  else .ok c

/-- What follows a date: a time with its offset, if there is one. -/
def timeOfDate (c : Cursor) : Except Fault Cursor :=
  if c.startsWith ['T'] || c.startsWith ['t'] || c.startsWith [' '] then
    match time (c.skip 1) with
    | .ok next => timeOffset next
    | .error fault => if fault.final then .error fault else .ok c
  else .ok c

/-- A date, a time or both. -/
def datetime : Reader Item := fun c =>
  let dated : Except Fault Cursor := do
    let next ← date c
    timeOfDate next
  match dated with
  | .ok next => .ok (.datetime ⟨c.index, next.index⟩, next)
  | .error fault =>
    if fault.final then .error (fault.labelled "date-time")
    else
      match time c with
      | .ok next => .ok (.datetime ⟨c.index, next.index⟩, next)
      | .error fault => .error (fault.labelled "time")

/-- A value that starts with a sign or a digit. -/
def numeric : Reader Item := fun c =>
  match datetime c with
  | .ok found => .ok found
  | .error fault =>
    if fault.final then .error fault
    else
      match float c with
      | .ok found => .ok found
      | .error fault => if fault.final then .error fault else integer c

end LiveTopology.Toml
