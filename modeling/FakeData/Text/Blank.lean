/-!
# Blank characters

The characters with the Unicode property White_Space, and the text that is left when the blank
characters at both ends are cut off.
-/
namespace FakeData.Text

/-- The characters with the property White_Space. -/
def isBlank (c : Char) : Bool :=
  let n := c.toNat
  (0x9 ≤ n && n ≤ 0xD) || n == 0x20 || n == 0x85 || n == 0xA0 || n == 0x1680 ||
    (0x2000 ≤ n && n ≤ 0x200A) || n == 0x2028 || n == 0x2029 || n == 0x202F || n == 0x205F ||
    n == 0x3000

/-- The characters between the first and the last that is not blank. -/
def trimBlanks (cs : List Char) : List Char :=
  ((cs.dropWhile isBlank).reverse.dropWhile isBlank).reverse

def trim (text : String) : String := .ofList (trimBlanks text.toList)

@[simp] theorem trimBlanks_nil : trimBlanks [] = [] := rfl

end FakeData.Text
