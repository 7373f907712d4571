/-!
# Sets of characters as ranges

A set of characters is a list of ranges of code points. The tables of the standard are kept as texts
of numbers to base 36: each range is the distance from the end of the range before and, behind a
colon, how many characters follow its first.
-/

namespace ApiContract.Unicode

/-- A set of code points, as closed ranges in any order. -/
abbrev Ranges := List (Nat × Nat)

/-- The value of a digit to base 36. -/
def digit36 (c : Char) : Nat :=
  if 'a' ≤ c then c.toNat - 'a'.toNat + 10 else c.toNat - '0'.toNat

/-- The number that digits to base 36 stand for. -/
def base36 (digits : List Char) : Nat := digits.foldl (fun n c => 36 * n + digit36 c) 0

/-- The words between the occurrences of a separator. -/
def splitWords (separator : Char) (text : List Char) : List (List Char) :=
  let (word, words) := text.foldr
    (fun c (word, words) => if c = separator then ([], word :: words) else (c :: word, words))
    ([], [])
  word :: words

/-- The words of lines. -/
def splitLines (lines : List String) : List (List Char) :=
  lines.flatMap fun line => splitWords ' ' line.toList

namespace Ranges

def containsCode (ranges : Ranges) (n : Nat) : Bool :=
  ranges.any fun (first, last) => first ≤ n && n ≤ last

def contains (ranges : Ranges) (c : Char) : Bool := ranges.containsCode c.toNat

/-- The ranges of a table entry. -/
def decode (data : List String) : Ranges :=
  let step (state : Nat × Ranges) (word : List Char) : Nat × Ranges :=
    match splitWords ':' word with
    | [distance] =>
      let first := state.1 + base36 distance
      (first + 1, (first, first) :: state.2)
    | distance :: length :: _ =>
      let first := state.1 + base36 distance
      let last := first + base36 length
      (last + 1, (first, last) :: state.2)
    | [] => state
  ((splitLines data).foldl step (0, [])).2.reverse

/-- The largest code point. -/
def maxCode : Nat := 0x10FFFF

def full : Ranges := [(0, maxCode)]

/-- Ranges in ascending order. -/
def sorted (ranges : Ranges) : Ranges := ranges.mergeSort fun a b => a.1 ≤ b.1

/-- The code points from `next` on that lie in none of the sorted ranges. -/
def gaps (next : Nat) : Ranges → Ranges
  | [] => if next ≤ maxCode then [(next, maxCode)] else []
  | (first, last) :: rest =>
    if next < first then (next, first - 1) :: gaps (max next (last + 1)) rest
    else gaps (max next (last + 1)) rest

def complement (ranges : Ranges) : Ranges := gaps 0 ranges.sorted

def intersect (a b : Ranges) : Ranges := complement (complement a ++ complement b)

def difference (a b : Ranges) : Ranges := complement (complement a ++ b)

def symmetricDifference (a b : Ranges) : Ranges := difference a b ++ difference b a

end Ranges

/-- The ranges that a table has under a name. -/
def lookup? (table : List (List String × List String)) (name : String) : Option Ranges :=
  (table.find? fun entry => entry.1.contains name).map fun entry => Ranges.decode entry.2

end ApiContract.Unicode
