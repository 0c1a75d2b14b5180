/-!
# Shortest decimal form of a double

A finite double is `m · 2 ^ q`. The reals that round to it form an interval whose ends are half-way
to its neighbours, and they belong to it exactly when `m` is even. The shortest decimal form is the
point of the coarsest decimal grid that lies in the interval, the one nearest to the double where
two do. Everything is decided on natural numbers: double and interval are multiples of one power
of ten.
-/

namespace LiveTopology.Decimal

/-- A positive decimal number `digits · 10 ^ exponent`. -/
structure Magnitude where
  /-- The significant digits, read as one number. -/
  digits : Nat
  /-- The power of ten of the last digit. -/
  exponent : Int
  deriving DecidableEq, Repr

/-- Which of two equally near decimals is taken. -/
inductive Tie where
  /-- The one whose last digit is even. -/
  | toEven
  /-- The larger one. -/
  | up
  deriving DecidableEq, Repr

/-- A binary number with the ends of the interval that rounds to it, all times `10 ^ exponent`. -/
structure Interval where
  low : Nat
  value : Nat
  high : Nat
  exponent : Int
  /-- Whether the two ends belong to the interval. -/
  closed : Bool

/--
The interval of `m · 2 ^ q`. A quarter of the distance to the upper neighbour is the unit, because
below a power of two the lower neighbour is only half as far away (`nearBelow`).
-/
def Interval.ofBinary (m : Nat) (q : Int) (nearBelow : Bool) : Interval :=
  let scaled (quarters : Nat) : Nat :=
    if 2 ≤ q then quarters * Nat.pow 2 (q - 2).toNat else quarters * Nat.pow 5 (2 - q).toNat
  { low := scaled (4 * m - if nearBelow then 1 else 2)
    value := scaled (4 * m)
    high := scaled (4 * m + 2)
    exponent := if 2 ≤ q then 0 else q - 2
    closed := m % 2 == 0 }

/-- Whether a point of the common grid rounds to the double. -/
def Interval.holds (i : Interval) (point : Nat) : Bool :=
  if i.closed then i.low ≤ point && point ≤ i.high else i.low < point && point < i.high

/-- The nearer of the two neighbours of the value that have their last digit at `10 ^ position`. -/
def Interval.nearest? (i : Interval) (tie : Tie) (position : Nat) : Option Nat :=
  let unit := Nat.pow 10 position
  let below := i.value / unit
  let above := below + 1
  match i.holds (below * unit), i.holds (above * unit) with
  | false, false => none
  | true, false => some below
  | false, true => some above
  | true, true =>
    let toBelow := i.value - below * unit
    let toAbove := above * unit - i.value
    if toBelow < toAbove then some below
    else if toAbove < toBelow then some above
    else match tie with
      | .toEven => some (if below % 2 == 0 then below else above)
      | .up => some above

/-- The number of decimal digits of a positive number. -/
def width (n : Nat) : Nat := (Nat.toDigits 10 n).length

/-- Trailing zeros moved into the exponent; `fuel` bounds their number. -/
def Magnitude.normalize (fuel : Nat) (d : Magnitude) : Magnitude :=
  match fuel with
  | 0 => d
  | fuel + 1 =>
    if d.digits ≠ 0 ∧ d.digits % 10 = 0 then
      normalize fuel ⟨d.digits / 10, d.exponent + 1⟩
    else d

/-- The shortest decimal in the interval: the coarsest grid with a hit decides. -/
def Interval.shortest (i : Interval) (tie : Tie) : Magnitude :=
  let size := width i.value
  let hit := (List.range 17).findSome? fun n =>
    let position := size - (n + 1)
    (i.nearest? tie position).map fun digits => (⟨digits, i.exponent + position⟩ : Magnitude)
  (hit.getD ⟨i.value, i.exponent⟩).normalize size

/-- A double taken apart. -/
inductive Parts where
  | notANumber
  | infinite (negative : Bool)
  | zero (negative : Bool)
  | finite (negative : Bool) (m : Nat) (q : Int) (nearBelow : Bool)

/-- The parts of a double in its 64-bit format: sign, 11 bits of exponent, 52 bits of fraction. -/
def Parts.ofFloat (x : Float) : Parts :=
  let bits := x.toBits.toNat
  let negative := bits / Nat.pow 2 63 == 1
  let exponent : Nat := bits / Nat.pow 2 52 % Nat.pow 2 11
  let fraction : Nat := bits % Nat.pow 2 52
  if exponent = 2047 then
    if fraction = 0 then .infinite negative else .notANumber
  else if exponent = 0 then
    if fraction = 0 then .zero negative else .finite negative fraction (-1074) false
  else
    .finite negative (Nat.pow 2 52 + fraction) (exponent - 1075) (fraction == 0 && 1 < exponent)

/-- The shortest decimal form of `m · 2 ^ q`. -/
def shortest (m : Nat) (q : Int) (nearBelow : Bool) (tie : Tie) : Magnitude :=
  (Interval.ofBinary m q nearBelow).shortest tie

/-- The power of ten of the first digit. -/
def Magnitude.leading (d : Magnitude) : Int := d.exponent + (width d.digits - 1 : Nat)

/-- A run of zeros. -/
def zeros (n : Nat) : String := String.ofList (List.replicate n '0')

/-- Positional text, always with at least one digit before and after the point. -/
def Magnitude.positional (d : Magnitude) : String :=
  let digits := toString d.digits
  let size := width d.digits
  if 0 ≤ d.exponent then digits ++ zeros d.exponent.toNat ++ ".0"
  else
    let places := (-d.exponent).toNat
    if places < size then
      let whole := size - places
      String.ofList (digits.toList.take whole) ++ "." ++ String.ofList (digits.toList.drop whole)
    else "0." ++ zeros (places - size) ++ digits

/-- Scientific text with a signed exponent; the point stands only before a further digit. -/
def Magnitude.scientific (d : Magnitude) : String :=
  let exponent := d.leading
  let mantissa := match (toString d.digits).toList with
    | [] => ""
    | [first] => String.ofList [first]
    | first :: more => String.ofList (first :: '.' :: more)
  mantissa ++ (if exponent < 0 then "e-" else "e+") ++ toString exponent.natAbs

end LiveTopology.Decimal
