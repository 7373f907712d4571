import ApiContract.Text.Ascii
import ApiContract.Unicode.Category
import ApiContract.Unicode.Folding
import ApiContract.Unicode.Property
import ApiContract.Unicode.Script

/-!
# Character classes by name

The set of characters that a property, a general category or a script names, and the classes of
digits, white space and word characters. Names are compared loosely: case, blanks, hyphens and
underscores do not count, nor does a leading `is`.
-/

namespace ApiContract.Unicode

/-- A name with all that does not count removed. -/
def looseName (name : List Char) : String :=
  let kept := name.filter fun c => c != ' ' && c != '-' && c != '_' && c.toNat < 128
  let lower := kept.map Text.lowerChar
  match name.take 2 |>.map Text.lowerChar, lower with
  | ['i', 's'], 'i' :: 's' :: rest => if rest = ['c'] then "isc" else String.ofList rest
  | _, _ => String.ofList lower

/-- The categories that a name for several of them covers. -/
def categoryGroup? : String → Option (List String)
  | "l" | "letter" => some ["lu", "ll", "lt", "lm", "lo"]
  | "lc" | "casedletter" => some ["lu", "ll", "lt"]
  | "m" | "mark" | "combiningmark" => some ["mn", "mc", "me"]
  | "n" | "number" => some ["nd", "nl", "no"]
  | "p" | "punctuation" | "punct" => some ["pc", "pd", "ps", "pe", "pi", "pf", "po"]
  | "s" | "symbol" => some ["sm", "sc", "sk", "so"]
  | "z" | "separator" => some ["zs", "zl", "zp"]
  | _ => none

/-- All characters that have a category of their own. -/
def assigned : Ranges := categories.flatMap fun entry => Ranges.decode entry.2

/-- The set of a general category or of a group of them. -/
def category? (name : String) : Option Ranges :=
  match name with
  | "any" => some Ranges.full
  | "ascii" => some [(0, 0x7F)]
  | "assigned" => some assigned
  | "cn" | "unassigned" => some assigned.complement
  | "c" | "other" =>
    some (assigned.complement ++ ["cc", "cf", "cs", "co"].flatMap fun name =>
      (lookup? categories name).getD [])
  | _ =>
    match categoryGroup? name with
    | some names => some (names.flatMap fun name => (lookup? categories name).getD [])
    | none => lookup? categories name

def script? (name : String) : Option Ranges := lookup? scripts name

/-- The set that a single name picks: a property, else a category, else a script. -/
def named? (name : List Char) : Option Ranges :=
  let loose := looseName name
  (lookup? properties loose).or ((category? loose).or (script? loose))

/-- The set of the characters whose property `property` has the value `value`. -/
def valued? (property value : List Char) : Option Ranges :=
  let loose := looseName value
  match looseName property with
  | "gc" | "generalcategory" => category? loose
  | "sc" | "script" | "scx" | "scriptextensions" => script? loose
  | _ => none

def digits : Ranges := (lookup? categories "nd").getD []

def blanks : Ranges := (lookup? properties "whitespace").getD []

/-- Letters, marks, digits, connectors and joiners: what words are made of. -/
def wordCharacters : Ranges :=
  ["alphabetic", "joincontrol"].flatMap (fun name => (lookup? properties name).getD []) ++
    ["mn", "mc", "me", "nd", "pc"].flatMap fun name => (lookup? categories name).getD []

end ApiContract.Unicode
