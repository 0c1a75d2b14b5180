/-!
# Words that resemble each other

The similarity of two words is the mean of three shares: of the first word's characters that have a
partner in the second, of the second word's characters that have one in the first, and of the
partners that stand in the same order. Partners are equal characters at about the same place. The
shares are kept as one fraction, so that words are compared exactly.
-/

namespace LiveTopology.Text

/-- A share, written as a fraction. -/
structure Score where
  numerator : Nat
  denominator : Nat
  deriving DecidableEq, Repr

/-- Whether a score is below another. -/
def Score.below (a b : Score) : Bool :=
  a.numerator * b.denominator < b.numerator * a.denominator

/-- The place of the partner of a character that stands at place `i`: the first that is equal, not
taken, and no further than `reach` away. -/
def partner? (word : List Char) (reach i : Nat) (c : Char) (taken : List Nat) : Option Nat :=
  let first := i - reach
  (List.range' first (min word.length (i + reach + 1) - first)).find? fun j =>
    word[j]? == some c && !taken.contains j

/-- The characters that have a partner, in order, and the places of the partners. -/
def partners (word : List Char) (reach : Nat) :
    (i : Nat) → List Char → (taken : List Nat) → List Char × List Nat
  | _, [], taken => ([], taken)
  | i, c :: rest, taken =>
    match partner? word reach i c taken with
    | none => partners word reach (i + 1) rest taken
    | some j =>
      let (matched, taken) := partners word reach (i + 1) rest (j :: taken)
      (c :: matched, taken)

/-- The sum of the three shares of two words. -/
def sharesOf (a b : List Char) : Score :=
  if a.isEmpty && b.isEmpty then ⟨3, 1⟩
  else
    let reach := max a.length b.length / 2 - 1
    let (matched, taken) := partners b reach 0 a []
    let counterparts := (List.range b.length).filterMap fun j =>
      if taken.contains j then b[j]? else none
    let count := matched.length
    let swapped := ((matched.zip counterparts).countP fun pair => pair.1 ≠ pair.2) / 2
    if count = 0 then ⟨0, 1⟩
    else
      ⟨count * count * b.length + count * count * a.length +
          (count - swapped) * (a.length * b.length),
        a.length * b.length * count⟩

/-- Words are similar when the mean of their shares is at least seven tenths. -/
def leastShares : Score := ⟨21, 10⟩

/-- The words that are similar to a given one, the most similar last. -/
def similarTo (word : String) (known : List String) : List String :=
  let scored := known.map fun other => (sharesOf word.toList other.toList, other)
  let close := scored.filter fun entry => !entry.1.below leastShares
  (close.mergeSort fun a b => !b.1.below a.1).map Prod.snd

end LiveTopology.Text
