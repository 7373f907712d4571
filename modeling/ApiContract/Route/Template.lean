import ApiContract.Contract.Fault
import ApiContract.Entries
import ApiContract.Text.Blank
import ApiContract.Text.Split

/-!
# Path templates

A template such as `/pets/{id}` is matched segment by segment. A segment is a literal, a
placeholder, or a mix of both; in a mix, each placeholder stands for at least one character, and
earlier placeholders are kept as short as possible.
-/

namespace ApiContract

/-- A segment of a template. -/
inductive TemplateSegment where
  | literal (text : List Char)
  | placeholder (name : String)
  /-- A text, then placeholders that are each followed by a text. -/
  | mixed (start : List Char) (gaps : List (String × List Char))
  deriving DecidableEq

namespace TemplateSegment

/-- A text cut at its placeholders: what stands in front of the first, and each with what stands
behind it. A placeholder is a name between braces that does not contain the closing one. -/
def cut : (text : List Char) → List Char × List (String × List Char)
  | [] => ([], [])
  | c :: rest =>
    let name := rest.takeWhile (· != Char.ofNat 0x7D)
    if c == Char.ofNat 0x7B && !name.isEmpty && name.length < rest.length then
      let (start, gaps) := cut (rest.drop (name.length + 1))
      ([], (String.ofList name, start) :: gaps)
    else
      let (start, gaps) := cut rest
      (c :: start, gaps)
termination_by text => text.length

/-- The segment that a text writes. -/
def ofText (text : List Char) : TemplateSegment :=
  match cut text with
  | (_, []) => .literal text
  | ([], [(name, [])]) => .placeholder name
  | (start, gaps) => .mixed start gaps

/-- The placeholders of a segment, in order. -/
def names : TemplateSegment → List String
  | .literal _ => []
  | .placeholder name => [name]
  | .mixed _ gaps => gaps.map Prod.fst

/-- The order of preference: what is fixed comes before what is open. -/
def rank : TemplateSegment → Nat
  | .literal _ => 0
  | .mixed .. => 1
  | .placeholder _ => 2

/-- The shortest non-empty start of a text, without a line break, whose rest `follows` accepts.
`taken` is the start so far, last character first. -/
def shortest {α : Type} (follows : List Char → Option α) (taken : List Char) :
    List Char → Option (String × α)
  | [] => none
  | c :: rest =>
    if c == '\n' then none
    else
      match follows rest with
      | some result => some (String.ofList (c :: taken).reverse, result)
      | none => shortest follows (c :: taken) rest

/-- What placeholders with texts behind them stand for in a text. -/
def fill : List (String × List Char) → List Char → Option (List (String × String))
  | [], text => if text.isEmpty then some [] else none
  | (name, behind) :: gaps, text =>
    (shortest (fun rest => (Text.stripStart? behind rest).bind (fill gaps)) [] text).map
      fun (captured, captures) => (name, captured) :: captures

/-- What the placeholders stand for, if the segment matches a segment of a path. -/
def match? (segment : TemplateSegment) (text : List Char) : Option (List (String × String)) :=
  match segment with
  | .literal expected => if expected = text then some [] else none
  | .placeholder name => if text.isEmpty then none else some [(name, String.ofList text)]
  | .mixed start gaps => (Text.stripStart? start text).bind (fill gaps)

end TemplateSegment

structure PathTemplate where
  text : String
  segments : List TemplateSegment
  deriving DecidableEq

namespace PathTemplate

/-- The segments of a path; slashes at its ends do not count. -/
def splitPath (path : String) : List (List Char) :=
  let trimmed := Text.trimBy (· == '/') path.toList
  if trimmed.isEmpty then [] else Text.splitAll '/' trimmed

/-- The first name that occurs again behind another of `seen` or of the list. -/
def firstRepeated? (seen : List String) : List String → Option String
  | [] => none
  | name :: rest => if seen.contains name then some name else firstRepeated? (name :: seen) rest

/-- The template that a text writes; each placeholder has a name of its own. -/
def ofText (text : String) : Except ContractFault PathTemplate :=
  let segments := (splitPath text).map TemplateSegment.ofText
  match firstRepeated? [] (segments.flatMap TemplateSegment.names) with
  | some name => .error (.repeatedPlaceholder text name)
  | none => .ok ⟨text, segments⟩

/-- What the placeholders of segments stand for in the segments of a path. -/
def matchSegments : List TemplateSegment → List (List Char) → Option (Entries String)
  | [], [] => some []
  | segment :: segments, part :: parts => do
    let captures ← segment.match? part
    return captures ++ (← matchSegments segments parts)
  | _, _ => none

/-- What the placeholders stand for, not decoded, if the template matches a path. -/
def match? (template : PathTemplate) (path : String) : Option (Entries String) :=
  matchSegments template.segments (splitPath path)

/-- The ranks of the segments from left to right. -/
def ranks (template : PathTemplate) : List Nat := template.segments.map TemplateSegment.rank

/-- The order of words by their first difference, a beginning before the whole. -/
def isUpTo : List Nat → List Nat → Bool
  | [], _ => true
  | _ :: _, [] => false
  | a :: as, b :: bs => a < b || (a == b && isUpTo as bs)

/-- Whether a template is tried before another one or at its place. -/
def isAtLeastAsSpecific (a b : PathTemplate) : Bool := isUpTo a.ranks b.ranks

end PathTemplate

end ApiContract
