/-!
# Blank characters, and what is left without them

Whatever arrives from a controller or from a person is read without the blanks
around it. "Blank" is the Unicode property White_Space: it holds more than the
ASCII blanks (a no-break space counts, a zero-width space does not), so it is
spelled out here once and used by every reader.
-/

namespace ArmLink.Text

/-- The characters of the Unicode property White_Space. -/
def isBlank (c : Char) : Bool :=
  let n := c.toNat
  (9 ≤ n && n ≤ 13) || n == 0x20 || n == 0x85 || n == 0xA0 || n == 0x1680
    || (0x2000 ≤ n && n ≤ 0x200A) || n == 0x2028 || n == 0x2029 || n == 0x202F
    || n == 0x205F || n == 0x3000

/-- `cs` without the characters of `p` at either end; those inside stay. -/
def strip (p : Char → Bool) (cs : List Char) : List Char :=
  ((cs.dropWhile p).reverse.dropWhile p).reverse

/-- `cs` without the blanks at either end. -/
def trim (cs : List Char) : List Char :=
  strip isBlank cs

def trimmed (text : String) : String :=
  String.ofList (trim text.toList)

/-- What is taken from a text that has no blank at its two ends is nothing. -/
theorem strip_of_ends {p : Char → Bool} {a b : Char} {cs : List Char}
    (ha : p a = false) (hb : p b = false) : strip p (a :: cs ++ [b]) = a :: cs ++ [b] := by
  simp [strip, ha, hb]

end ArmLink.Text
