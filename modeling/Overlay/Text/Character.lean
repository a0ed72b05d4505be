import Overlay.Text.Letters
import Overlay.Text.Numerals

/-!
Classes of characters in all scripts: blanks, letters and numerals.
-/

set_option autoImplicit false

namespace Overlay.Text

/-- Whether a character is white space. -/
def isBlank (char : Char) : Bool :=
  let code := char.toNat
  (9 ≤ code && code ≤ 13) || code = 0x20 || code = 0x85 || code = 0xa0 || code = 0x1680
    || (0x2000 ≤ code && code ≤ 0x200a) || code = 0x2028 || code = 0x2029 || code = 0x202f
    || code = 0x205f || code = 0x3000

/-- Whether a number is in one of several ranges. -/
def isWithin (ranges : Array (Nat × Nat)) (code : Nat) : Bool :=
  ranges.any fun range => range.1 ≤ code && code ≤ range.2

/-- Whether a character is a letter, or acts as one. -/
def isLetter (char : Char) : Bool :=
  char.isAlpha || (128 ≤ char.toNat && isWithin letters char.toNat)

/-- Whether a character is a digit or another numeral. -/
def isNumeral (char : Char) : Bool :=
  char.isDigit || (128 ≤ char.toNat && isWithin numerals char.toNat)

/-- A text without the blanks at its two ends. -/
def trim (text : List Char) : List Char :=
  ((text.dropWhile isBlank).reverse.dropWhile isBlank).reverse

end Overlay.Text
