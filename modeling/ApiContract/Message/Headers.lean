import ApiContract.Text.Ascii

/-!
# Header fields

The header lines of a message in arrival order. Names are compared without regard to letter case,
and the lines of one name count as one field whose values are joined by commas.
-/

namespace ApiContract

structure Headers where
  lines : List (String × String) := []
  deriving DecidableEq, Inhabited

namespace Headers

/-- Adds a line behind the others. -/
def append (headers : Headers) (name value : String) : Headers :=
  ⟨headers.lines ++ [(name, value)]⟩

/-- The values of a name, in order. -/
def getAll (headers : Headers) (name : String) : List String :=
  (headers.lines.filter fun line => Text.sameLetters line.1 name).map Prod.snd

/-- The first value of a name. -/
def get? (headers : Headers) (name : String) : Option String := (headers.getAll name).head?

/-- The values of a name as one field value. -/
def joined? (headers : Headers) (name : String) : Option String :=
  match headers.getAll name with
  | [] => none
  | values => some (",".intercalate values)

def contains (headers : Headers) (name : String) : Bool := (headers.get? name).isSome

def size (headers : Headers) : Nat := headers.lines.length

end Headers

end ApiContract
