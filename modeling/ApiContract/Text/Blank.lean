/-!
# White space

The characters with the Unicode property `White_Space`, and trimming by them.
-/

namespace ApiContract.Text

/-- The Unicode property `White_Space`. -/
def isBlank (c : Char) : Bool :=
  let n := c.toNat
  (9 ≤ n && n ≤ 13) || n == 0x20 || n == 0x85 || n == 0xA0 || n == 0x1680 ||
    (0x2000 ≤ n && n ≤ 0x200A) || n == 0x2028 || n == 0x2029 || n == 0x202F ||
    n == 0x205F || n == 0x3000

/-- Removes the longest final run of characters that satisfy `drop`. -/
def dropTrailing (drop : Char → Bool) (text : List Char) : List Char :=
  (text.reverse.dropWhile drop).reverse

/-- Removes the characters that satisfy `drop` from both ends. -/
def trimBy (drop : Char → Bool) (text : List Char) : List Char :=
  dropTrailing drop (text.dropWhile drop)

/-- Removes white space from both ends. -/
def trim (text : List Char) : List Char := trimBy isBlank text

end ApiContract.Text
