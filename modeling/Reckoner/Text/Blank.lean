/-!
# Blanks

The white space that separates lexemes and is trimmed from the ends of a text.
-/

namespace Reckoner.Text

/-- Is the character white space of any kind: a separator, or a control character that moves the
cursor? -/
def isBlank (c : Char) : Bool :=
  let n := c.toNat
  (0x9 ≤ n && n ≤ 0xd) || (0x1c ≤ n && n ≤ 0x20) || n == 0x85 || n == 0xa0 || n == 0x1680 ||
    (0x2000 ≤ n && n ≤ 0x200a) || n == 0x2028 || n == 0x2029 || n == 0x202f || n == 0x205f ||
    n == 0x3000

/-- The text without the characters of a class at its ends. -/
def trimBoth (drop : Char → Bool) (text : List Char) : List Char :=
  ((text.dropWhile drop).reverse.dropWhile drop).reverse

/-- The text without the blanks at its ends. -/
def trim (text : String) : String := String.ofList (trimBoth isBlank text.toList)

end Reckoner.Text
