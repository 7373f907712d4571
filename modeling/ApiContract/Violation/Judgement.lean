import ApiContract.Violation.Basic

/-!
# Judgements

What comes of applying a schema to a value: a typed value, violations, or nothing at all, because
filling in defaults would never end. Judgements that are all needed are gathered in order, so that
no violation hides another.
-/

namespace ApiContract

inductive Judgement (α : Type) where
  | accepted (value : α)
  | rejected (violations : List Violation)
  /-- A default that is filled in while it is being filled in. -/
  | unending

namespace Judgement

variable {α β : Type}

/-- Refuses a value for a single reason. -/
def refuse (violation : Violation) : Judgement α := .rejected [violation]

def isAccepted : Judgement α → Bool
  | .accepted _ => true
  | _ => false

def map (f : α → β) : Judgement α → Judgement β
  | .accepted value => .accepted (f value)
  | .rejected violations => .rejected violations
  | .unending => .unending

/-- Goes on with an accepted value. -/
def andThen (judgement : Judgement α) (f : α → Judgement β) : Judgement β :=
  match judgement with
  | .accepted value => f value
  | .rejected violations => .rejected violations
  | .unending => .unending

/-- Moves the violations one step down from the root. -/
def under (segment : Segment) : Judgement α → Judgement α
  | .accepted value => .accepted value
  | .rejected violations => .rejected (violations.map fun violation => violation.under segment)
  | .unending => .unending

/-- The values that were accepted and all violations, unless a judgement does not end. -/
def gather : List (Judgement α) → Option (List α × List Violation)
  | [] => some ([], [])
  | .accepted value :: rest =>
    (gather rest).map fun (values, violations) => (value :: values, violations)
  | .rejected found :: rest =>
    (gather rest).map fun (values, violations) => (values, found ++ violations)
  | .unending :: _ => none

/-- Accepts when none of the judgements found a violation. -/
def all (judgements : List (Judgement α)) : Judgement (List α) :=
  match gather judgements with
  | none => .unending
  | some (values, []) => .accepted values
  | some (_, violations) => .rejected violations

/-- The first accepted value; later judgements are not asked for. -/
def firstAccepted (judge : β → Judgement α) (otherwise : Violation) : List β → Judgement α
  | [] => .refuse otherwise
  | candidate :: rest =>
    match judge candidate with
    | .accepted value => .accepted value
    | .rejected _ => firstAccepted judge otherwise rest
    | .unending => .unending

/-- Two judgements that are both needed. -/
def both : Judgement α → Judgement β → Judgement (α × β)
  | .unending, _ => .unending
  | _, .unending => .unending
  | .accepted first, .accepted second => .accepted (first, second)
  | .accepted _, .rejected violations => .rejected violations
  | .rejected violations, .accepted _ => .rejected violations
  | .rejected first, .rejected second => .rejected (first ++ second)

def value? : Judgement α → Option α
  | .accepted value => some value
  | _ => none

def violations : Judgement α → List Violation
  | .rejected violations => violations
  | _ => []

/-- Attaches the violations to a part of a message. -/
def attach (part : Part) : Judgement α → Judgement α
  | .accepted value => .accepted value
  | .rejected violations => .rejected (relocate part violations)
  | .unending => .unending

def ofExcept : Except (List Violation) α → Judgement α
  | .ok value => .accepted value
  | .error violations => .rejected violations

end Judgement

end ApiContract
