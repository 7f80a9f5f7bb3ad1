import ArmLink.Text.Digit

/-!
# Decimal integers with bounds

An integer is read left to right and refused at the first character that rules
it out: one that is no digit, or the digit that takes the value past a bound.
Leading zeros are digits like any other. Which signs may stand in front belongs
to the reader: a `+` always may, a `-` only where negative values exist.
-/

namespace ArmLink.Decimal

open ArmLink.Text (digitValue? digitChar)

/-- Why a text is not an integer within the bounds. -/
inductive IntegerFault where
  | empty
  | invalidDigit
  | tooLarge
  | tooSmall
  deriving DecidableEq, Repr

def IntegerFault.message : IntegerFault → String
  | .empty => "cannot parse integer from empty string"
  | .invalidDigit => "invalid digit found in string"
  | .tooLarge => "number too large to fit in target type"
  | .tooSmall => "number too small to fit in target type"

/-- The integers a field can hold. -/
structure Bounds where
  least : Int
  greatest : Int
  deriving DecidableEq, Repr

def int32 : Bounds := ⟨Int32.minValue.toInt, Int32.maxValue.toInt⟩

def int64 : Bounds := ⟨Int64.minValue.toInt, Int64.maxValue.toInt⟩

def nat64 : Bounds := ⟨0, UInt64.size - 1⟩

def Bounds.holds (bounds : Bounds) (n : Int) : Prop :=
  bounds.least ≤ n ∧ n ≤ bounds.greatest

instance (bounds : Bounds) (n : Int) : Decidable (bounds.holds n) :=
  inferInstanceAs (Decidable (_ ∧ _))

/-- `n`, or the nearer bound when it lies outside. -/
def Bounds.clamp (bounds : Bounds) (n : Int) : Int :=
  max bounds.least (min bounds.greatest n)

/-- Takes the digits of `cs` into `n`, with the sign given, and stops at the first fault. -/
def readDigits (bounds : Bounds) (negative : Bool) : Int → List Char → Except IntegerFault Int
  | n, [] => .ok n
  | n, c :: cs =>
    match digitValue? c with
    | none => .error .invalidDigit
    | some d =>
      let next := if negative then 10 * n - d else 10 * n + d
      if next < bounds.least then .error .tooSmall
      else if bounds.greatest < next then .error .tooLarge
      else readDigits bounds negative next cs

/-- Reads an optionally signed integer within the bounds. Without negative values a `-` is just a
character that is no digit. -/
def readInteger (bounds : Bounds) : List Char → Except IntegerFault Int
  | [] => .error .empty
  | ['+'] => .error .invalidDigit
  | ['-'] => .error .invalidDigit
  | '+' :: cs => readDigits bounds false 0 cs
  | '-' :: cs =>
    if bounds.least < 0 then readDigits bounds true 0 cs else .error .invalidDigit
  | cs => readDigits bounds false 0 cs

/-- Puts the decimal digits of `n` in front of `tail`. -/
def prependDigits (n : Nat) (tail : List Char) : List Char :=
  if n < 10 then digitChar n :: tail
  else prependDigits (n / 10) (digitChar (n % 10) :: tail)

/-- The decimal digits of `n`, with no leading zero but for zero itself. -/
def digits (n : Nat) : List Char :=
  prependDigits n []

def integerChars (n : Int) : List Char :=
  if n < 0 then '-' :: digits n.natAbs else digits n.natAbs

def integerText (n : Int) : String :=
  String.ofList (integerChars n)

def natText (n : Nat) : String :=
  String.ofList (digits n)

/-- Digits written in front of a text are the digits on their own, followed by the text. -/
theorem prependDigits_eq (n : Nat) (tail : List Char) :
    prependDigits n tail = digits n ++ tail := by
  have step : ∀ t, prependDigits n t =
      if n < 10 then digitChar n :: t else prependDigits (n / 10) (digitChar (n % 10) :: t) :=
    fun t => by rw [prependDigits]
  unfold digits
  rw [step, step []]
  split
  · rfl
  · rename_i h
    have : n / 10 < n := Nat.div_lt_self (by omega) (by decide)
    rw [prependDigits_eq (n / 10), prependDigits_eq (n / 10) [_], List.append_assoc]
    rfl
termination_by n

/-- The digits of a number are those of its tenth and then its last one. -/
theorem digits_step {n : Nat} (h : 10 ≤ n) :
    digits n = digits (n / 10) ++ [digitChar (n % 10)] := by
  rw [← prependDigits_eq]
  unfold digits
  rw [prependDigits, if_neg (by omega)]

theorem digits_of_lt {n : Nat} (h : n < 10) : digits n = [digitChar n] := by
  unfold digits
  rw [prependDigits, if_pos h]

theorem digits_ne_nil (n : Nat) : digits n ≠ [] := by
  by_cases h : n < 10
  · simp [digits_of_lt h]
  · simp [digits_step (Nat.le_of_not_lt h)]

theorem digits_all (n : Nat) : ∀ c ∈ digits n, ∃ d < 10, c = digitChar d := by
  induction n using Nat.strongRecOn with
  | _ n ih =>
      intro c hc
      by_cases h : n < 10
      · rw [digits_of_lt h, List.mem_singleton] at hc
        exact ⟨n, h, hc⟩
      · rw [digits_step (Nat.le_of_not_lt h)] at hc
        rcases List.mem_append.1 hc with hc | hc
        · exact ih (n / 10) (Nat.div_lt_self (by omega) (by decide)) c hc
        · exact ⟨n % 10, Nat.mod_lt _ (by decide), List.mem_singleton.1 hc⟩

/-- The characters that numbers are written with in any form, and what stands for one that is not
finite. -/
def numerals : List Char :=
  "0123456789+-.eNainful".toList

theorem replicate_zero_subset (n : Nat) : List.replicate n '0' ⊆ numerals := by
  intro c hc
  rw [List.eq_of_mem_replicate hc]
  decide

theorem digits_subset (n : Nat) : digits n ⊆ numerals := by
  intro c hc
  obtain ⟨d, hd, rfl⟩ := digits_all n c hc
  have hall : ∀ d < 10, digitChar d ∈ numerals := by decide
  exact hall d hd

theorem integerChars_subset (n : Int) : integerChars n ⊆ numerals := by
  rw [integerChars]
  split
  · exact List.cons_subset.2 ⟨by decide, digits_subset _⟩
  · exact digits_subset _

end ArmLink.Decimal
