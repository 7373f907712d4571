import ApiContract.Schema.Fault

/-!
# Keywords that bound a value

The constraints that depend on the kind of a value alone: on the length and the characters of a
text, the size of a number, and the number of items or properties. A text that was given a type is
judged by its form on the wire.
-/

namespace ApiContract.Constraints

/-- Whether a count falls short of a bound. -/
def short? (bound? : Option Nat) (count : Nat) : Option Nat := bound?.filter (count < ·)

/-- Whether a count exceeds a bound. -/
def over? (bound? : Option Nat) (count : Nat) : Option Nat := bound?.filter (· < count)

def textExcesses (constraints : Constraints) (text : String) : List Excess :=
  let length := text.length
  [(short? constraints.minLength? length).map (.tooShort length),
    (over? constraints.maxLength? length).map (.tooLong length),
    (constraints.pattern?.filter fun pattern => !pattern.occursIn text).map fun pattern =>
      .mismatch text pattern.source].filterMap id

/-- How far a quotient may be from an integer. -/
def tolerance : Binary64 := .ofDecimal false 1 (-9)

/-- Whether a number is a multiple of a step, up to the tolerance; only a positive step counts. -/
def isMultiple (value step : Binary64) : Bool :=
  !Binary64.zero.less step ||
    (let quotient := value.div step
     !tolerance.less (quotient.sub quotient.roundToInteger).abs)

def numberExcesses (constraints : Constraints) (value : Binary64) : List Excess :=
  let isBelow (bound : Binary64) : Bool :=
    value.less bound || (constraints.exclusiveMinimum && value.same bound)
  let isAbove (bound : Binary64) : Bool :=
    bound.less value || (constraints.exclusiveMaximum && value.same bound)
  [(constraints.minimum?.filter isBelow).map (.below constraints.exclusiveMinimum value),
    (constraints.maximum?.filter isAbove).map (.above constraints.exclusiveMaximum value),
    (constraints.multipleOf?.filter (!isMultiple value ·)).map (.notMultiple value)].filterMap id

/-- Whether an item equals one behind it. -/
def repeats : List Value → Bool
  | [] => false
  | item :: rest => rest.any (fun other => item.matchesLiteral other.toJson) || repeats rest

def itemExcesses (constraints : Constraints) (items : List Value) : List Excess :=
  [(short? constraints.minItems? items.length).map (.tooFewItems items.length),
    (over? constraints.maxItems? items.length).map (.tooManyItems items.length),
    if constraints.uniqueItems && repeats items then some .repeatedItems else none].filterMap id

def propertyExcesses (constraints : Constraints) (count : Nat) : List Excess :=
  [(short? constraints.minProperties? count).map (.tooFewProperties count),
    (over? constraints.maxProperties? count).map (.tooManyProperties count)].filterMap id

/-- The keywords that a value does not respect. -/
def excesses (constraints : Constraints) (value : Value) : List Excess :=
  match value with
  | .array items => constraints.itemExcesses items
  | .object members => constraints.propertyExcesses members.length
  | value =>
    match value.wireText?, value.asBinary64? with
    | some text, _ => constraints.textExcesses text
    | none, some number => constraints.numberExcesses number
    | none, none => []

end ApiContract.Constraints
