/-!
# White space

The characters that count as white space at the ends of a text, and the text without them.

* `Blank`: the characters with the Unicode property `White_Space`.
* `trim`: a text less the white space at both of its ends.
* `isBlank`: nothing is left of a text once it is trimmed.
-/

namespace Correlator.Text

/-- A character with the Unicode property `White_Space`. -/
def Blank (c : Char) : Bool :=
  let n := c.toNat
  (9 ≤ n && n ≤ 13) || n == 0x20 || n == 0x85 || n == 0xA0 || n == 0x1680 ||
    (0x2000 ≤ n && n ≤ 0x200A) || n == 0x2028 || n == 0x2029 || n == 0x202F || n == 0x205F ||
    n == 0x3000

/-- White space of the ASCII range and beyond that the core library knows is white space here. -/
theorem blank_of_isWhitespace {c : Char} (h : c.isWhitespace = true) : Blank c = true := by
  simp only [Char.isWhitespace, Bool.or_eq_true, decide_eq_true_eq] at h
  rcases h with ((rfl | rfl) | rfl) | rfl <;> decide

/-- A text less the characters of a class at its end. -/
def dropEndWhile (p : Char → Bool) (cs : List Char) : List Char :=
  (cs.reverse.dropWhile p).reverse

/-- A text less the characters of a class at both of its ends. -/
def strip (p : Char → Bool) (cs : List Char) : List Char :=
  dropEndWhile p (cs.dropWhile p)

/-- A text less the white space at both of its ends. -/
def trim (cs : List Char) : List Char := strip Blank cs

/-- A string less the white space at both of its ends. -/
def trimmed (s : String) : String := String.ofList (trim s.toList)

/-- Nothing is left of the string once it is trimmed. -/
def isBlank (s : String) : Bool := (trim s.toList).isEmpty

end Correlator.Text
