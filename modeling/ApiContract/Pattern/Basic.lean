import ApiContract.Unicode.Names

/-!
# Patterns

Regular expressions over characters, as a tree. A tree relates start and end positions of a text;
`Node.ends` follows it from a set of starts to the set of ends, so matching needs no backtracking.
-/

namespace ApiContract.Pattern

open Unicode (Ranges)

/-- A condition on a position that reads no character. -/
inductive Assertion where
  | startOfText
  | endOfText
  | startOfLine (breaks : Ranges)
  | endOfLine (breaks : Ranges)
  | wordBoundary (word : Ranges)
  | notWordBoundary (word : Ranges)
  | wordStart (word : Ranges)
  | wordEnd (word : Ranges)
  | noWordBefore (word : Ranges)
  | noWordAfter (word : Ranges)

inductive Node where
  | empty
  | oneOf (set : Ranges)
  | assertion (condition : Assertion)
  | sequence (first second : Node)
  | either (first second : Node)
  | repeated (inner : Node) (least : Nat) (most? : Option Nat)

/-- About how many states an automaton over the bytes of UTF-8 has for a tree. Repetitions are
written out, and a range of characters beyond ASCII takes two states of its own. -/
def Node.states : Node → Nat
  | .empty => 1
  | .oneOf set => 1 + 2 * set.countP fun range => 0x80 ≤ range.2
  | .assertion _ => 1
  | .sequence first second => first.states + second.states
  | .either first second => first.states + second.states + 1
  | .repeated inner least (some most) =>
    least * inner.states + (most - least) * (inner.states + 1)
  | .repeated inner least none => max least 1 * inner.states + 1

/-- How large the automaton of a pattern may become. -/
def mostStates : Nat := 327680

/-- Whether the character in front of a position satisfies `holds`. -/
def before (text : Array Char) (position : Nat) (holds : Char → Bool) : Bool :=
  match position with
  | 0 => false
  | previous + 1 => (text[previous]?.map holds).getD false

/-- Whether the character behind a position satisfies `holds`. -/
def after (text : Array Char) (position : Nat) (holds : Char → Bool) : Bool :=
  (text[position]?.map holds).getD false

def Assertion.holds (text : Array Char) (position : Nat) : Assertion → Bool
  | .startOfText => position == 0
  | .endOfText => position == text.size
  | .startOfLine breaks => position == 0 || before text position breaks.contains
  | .endOfLine breaks => position == text.size || after text position breaks.contains
  | .wordBoundary word => before text position word.contains != after text position word.contains
  | .notWordBoundary word =>
    before text position word.contains == after text position word.contains
  | .wordStart word => !before text position word.contains && after text position word.contains
  | .wordEnd word => before text position word.contains && !after text position word.contains
  | .noWordBefore word => !before text position word.contains
  | .noWordAfter word => !after text position word.contains

/-- Two ascending lists of positions as one. -/
def merge : List Nat → List Nat → List Nat
  | [], b => b
  | a, [] => a
  | x :: a, y :: b =>
    if x < y then x :: merge a (y :: b)
    else if y < x then y :: merge (x :: a) b
    else x :: merge a b
termination_by a b => a.length + b.length

/-- The positions of the first ascending list that are not in the second. -/
def fresh : List Nat → List Nat → List Nat
  | [], _ => []
  | a, [] => a
  | x :: a, y :: b =>
    if x < y then x :: fresh a (y :: b)
    else if y < x then fresh (x :: a) b
    else fresh a b
termination_by a b => a.length + b.length

/-- Applies `step` a number of times, or until it changes nothing any more. -/
def iterate (step : List Nat → List Nat) : Nat → List Nat → List Nat
  | 0, positions => positions
  | times + 1, positions =>
    let next := step positions
    if next = positions then positions else iterate step times next

/-- The positions reached by at most `rounds` applications of `step`, of which `latest` came with
the last one. -/
def reach (step : List Nat → List Nat) :
    (rounds : Nat) → (reached latest : List Nat) → List Nat
  | 0, reached, _ => reached
  | rounds + 1, reached, latest =>
    match fresh (step latest) reached with
    | [] => reached
    | more => reach step rounds (merge reached more) more

/-- The ends of the matches of a tree that start at one of the given positions. -/
def Node.ends (text : Array Char) : Node → List Nat → List Nat
  | .empty, starts => starts
  | .oneOf set, starts =>
    (starts.filter fun position => after text position set.contains).map (· + 1)
  | .assertion condition, starts =>
    starts.filter fun position => condition.holds text position
  | .sequence first second, starts => second.ends text (first.ends text starts)
  | .either first second, starts => merge (first.ends text starts) (second.ends text starts)
  | .repeated inner least most?, starts =>
    let first := iterate (inner.ends text) least starts
    match most? with
    | some most => reach (inner.ends text) (min (most - least) (text.size + 1)) first first
    | none => reach (inner.ends text) (text.size + 1) first first

/-- Whether a tree matches somewhere in a text. -/
def Node.occursIn (node : Node) (text : String) : Bool :=
  let characters := text.toList.toArray
  !(node.ends characters (List.range (characters.size + 1))).isEmpty

end ApiContract.Pattern
