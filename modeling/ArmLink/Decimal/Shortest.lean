import ArmLink.Decimal.Binary64
import ArmLink.Decimal.Integer

/-!
# The fewest digits that name a double

A double stands for all the reals that round to it: an interval around its exact
value, ends included when the mantissa is even. A decimal in that interval reads
back as the same double, so the shortest text is the first grid of 1, 2, … 17
digits with a point inside, and of two points the nearer. All comparisons are
made in natural numbers, with the value as a quotient.

Which of those digits stand before the point, and when an exponent is written, is
a decision of the format that prints them; `Layout` holds those decisions.
-/

namespace ArmLink.Decimal

open Binary64 (power)

/-- The reals that round to one positive double, in units of a quarter of its last place: `value`
lies between `low` and `high`, and `closed` says whether the ends belong. A unit is
`up / down`. -/
structure Span where
  low : Nat
  value : Nat
  high : Nat
  closed : Bool
  up : Nat
  down : Nat
  deriving DecidableEq, Repr

/-- The span of a positive mantissa times a power of two. Below a power of two the neighbours are
closer. -/
def Span.of (mantissa : Nat) (exponent : Int) : Span :=
  let narrow := mantissa = 1 <<< 52 ∧ Binary64.leastExponent < exponent
  let unit := power (exponent - 2)
  { low := if narrow then 4 * mantissa - 1 else 4 * mantissa - 2
    value := 4 * mantissa
    high := 4 * mantissa + 2
    closed := mantissa % 2 = 0
    up := unit.1
    down := unit.2 }

/-- Ten to an exponent, as a quotient of natural numbers. -/
def tenPower (exponent : Int) : Nat × Nat :=
  if 0 ≤ exponent then (Nat.pow 10 exponent.toNat, 1) else (1, Nat.pow 10 (-exponent).toNat)

/-- Whether `n` times ten to `exponent` reads back as the double of the span. -/
def Span.holds (span : Span) (n : Nat) (exponent : Int) : Bool :=
  let ten := tenPower exponent
  let point := n * ten.1 * span.down
  let low := span.low * span.up * ten.2
  let high := span.high * span.up * ten.2
  if span.closed then low ≤ point && point ≤ high else low < point && point < high

/-- The point of the grid of ten to `exponent` just below the value. -/
def Span.floor (span : Span) (exponent : Int) : Nat :=
  let ten := tenPower exponent
  span.value * span.up * ten.2 / (ten.1 * span.down)

/-- Of two neighbouring grid points `n` and `n + 1`, the one nearer to the value; a tie goes to the
even one. -/
def Span.nearer (span : Span) (n : Nat) (exponent : Int) : Nat :=
  let ten := tenPower exponent
  let middle := (2 * n + 1) * ten.1 * span.down
  let twice := 2 * span.value * span.up * ten.2
  if twice < middle then n
  else if middle < twice then n + 1
  else n + n % 2

/-- The grid point that names the double, if this grid has one. -/
def Span.onGrid? (span : Span) (exponent : Int) : Option Nat :=
  let n := span.floor exponent
  match span.holds n exponent, span.holds (n + 1) exponent with
  | true, true => some (span.nearer n exponent)
  | true, false => some n
  | false, true => some (n + 1)
  | false, false => none

/-- The exponent of the first digit of the value, give or take one. -/
def Span.leading (span : Span) : Int :=
  let bits : Int := (span.value * span.up).log2 - span.down.log2
  let guess := bits * 30103 / 100000
  if span.floor (guess + 1) = 0 then (if span.floor guess = 0 then guess - 1 else guess)
  else guess + 1

/-- A decimal: its digits, read as one number, times a power of ten. -/
structure Digits where
  number : Nat
  exponent : Int
  deriving DecidableEq, Repr

/-- The first grid with a point that names the double, from `count` digits on. When none of the
remaining `tries` grids has one, the exact value stands. -/
def Span.search (span : Span) (leading : Int) (count : Nat) : Nat → Digits
  | 0 => ⟨span.value * span.up * Nat.pow 10 span.down.log2 / span.down, -(span.down.log2 : Int)⟩
  | tries + 1 =>
    let exponent := leading + 1 - count
    match span.onGrid? exponent with
    | some n => ⟨n, exponent⟩
    | none => span.search leading (count + 1) tries

/-- Drops trailing zeros into the exponent, at most `n` of them. -/
def Digits.strip : Nat → Digits → Digits
  | 0, d => d
  | n + 1, d =>
    if d.number ≠ 0 ∧ d.number % 10 = 0 then strip n ⟨d.number / 10, d.exponent + 1⟩ else d

/-- The fewest digits that name a positive double. -/
def shortest (mantissa : Nat) (exponent : Int) : Digits :=
  let span := Span.of mantissa exponent
  (span.search span.leading 1 17).strip 20

/-- How a format lays out the digits of a number. -/
structure Layout where
  /-- The least exponent of the first digit that is still written with a plain point. -/
  leastPlain : Int
  /-- The greatest such exponent. -/
  greatestPlain : Int
  deriving DecidableEq, Repr

/-- Digits with a plain point, and a zero on either side of it that would have no digit. -/
def plain (number : List Char) (exponent : Int) : List Char :=
  if 0 ≤ exponent then number ++ List.replicate exponent.toNat '0' ++ ['.', '0']
  else
    let places := (-exponent).toNat
    let padded := List.replicate (places + 1 - number.length) '0' ++ number
    padded.take (padded.length - places) ++ '.' :: padded.drop (padded.length - places)

/-- Digits with the point after the first of them, and the exponent of that one with its sign. -/
def scientific (number : List Char) (leading : Int) : List Char :=
  let mantissa :=
    match number with
    | [] => []
    | [d] => [d]
    | d :: rest => d :: '.' :: rest
  mantissa ++ 'e' :: (if 0 ≤ leading then ['+'] else []) ++ integerChars leading

/-- A finite double in a layout; `none` for one that is no number. -/
def Layout.chars? (layout : Layout) (x : Float) : Option (List Char) :=
  match Binary64.ofFloat x with
  | .finite negative mantissa exponent =>
    let body :=
      if mantissa = 0 then ['0', '.', '0']
      else
        let found := shortest mantissa exponent
        let number := digits found.number
        let leading := found.exponent + number.length - 1
        if layout.leastPlain ≤ leading ∧ leading ≤ layout.greatestPlain then
          plain number found.exponent
        else scientific number leading
    some (if negative then '-' :: body else body)
  | _ => none

theorem plain_subset {number : List Char} (h : number ⊆ numerals) (exponent : Int) :
    plain number exponent ⊆ numerals := by
  have hpadded (n : Nat) : List.replicate n '0' ++ number ⊆ numerals :=
    List.append_subset.2 ⟨replicate_zero_subset n, h⟩
  rw [plain]
  split
  · exact List.append_subset.2
      ⟨List.append_subset.2 ⟨h, replicate_zero_subset _⟩, by decide⟩
  · exact List.append_subset.2 ⟨fun _ hc => hpadded _ (List.mem_of_mem_take hc),
      List.cons_subset.2 ⟨by decide, fun _ hc => hpadded _ (List.mem_of_mem_drop hc)⟩⟩

theorem scientific_subset {number : List Char} (h : number ⊆ numerals) (leading : Int) :
    scientific number leading ⊆ numerals := by
  have hsign : (if 0 ≤ leading then ['+'] else []) ⊆ numerals := by
    split <;> decide
  rw [scientific.eq_def]
  refine List.append_subset.2 ⟨List.append_subset.2 ⟨?_, List.cons_subset.2 ⟨by decide, hsign⟩⟩,
    integerChars_subset leading⟩
  split
  · exact h
  · exact h
  · next d rest _ =>
      obtain ⟨hd, hrest⟩ := List.cons_subset.1 h
      exact List.cons_subset.2 ⟨hd, List.cons_subset.2 ⟨by decide, hrest⟩⟩

theorem Layout.chars?_subset {layout : Layout} {x : Float} {cs : List Char}
    (h : layout.chars? x = some cs) : cs ⊆ numerals := by
  rw [Layout.chars?] at h
  split at h
  · next negative mantissa exponent _ =>
      obtain rfl := Option.some.inj h
      have hbody : (if mantissa = 0 then ['0', '.', '0']
          else
            let found := shortest mantissa exponent
            let number := digits found.number
            let leading := found.exponent + number.length - 1
            if layout.leastPlain ≤ leading ∧ leading ≤ layout.greatestPlain then
              plain number found.exponent
            else scientific number leading) ⊆ numerals := by
        split
        · decide
        · simp only
          split
          · exact plain_subset (digits_subset _) _
          · exact scientific_subset (digits_subset _) _
      simp only
      split
      · exact List.cons_subset.2 ⟨by decide, hbody⟩
      · exact hbody
  · cases h

end ArmLink.Decimal
