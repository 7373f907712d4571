import ApiContract.Schema.Basic

/-!
# The shape of a parameter

How the text of a parameter is split depends on what its schema describes: one value, a list of
values, or values by name.
-/

namespace ApiContract

inductive Shape where
  | primitive
  | array
  /-- Values by name; without declared names, any name belongs. -/
  | object (properties : List String)
  deriving DecidableEq, Repr

namespace Shape

/-- How many untyped compositions are looked through. -/
def maxSteps : Nat := 16

/-- The shape of a schema; one without a type has the shape of its first member. -/
def ofSchema (table : SchemaTable) : (steps : Nat) → Option SchemaId → Shape
  | 0, _ => .primitive
  | steps + 1, id? =>
    match id?.bind table.get? with
    | none => .primitive
    | some schema =>
      match schema.effectiveType? with
      | some .array => .array
      | some .object =>
        let inherited := (schema.allOf.filterMap table.get?).flatMap fun member =>
          Entries.keys member.properties
        .object (Entries.keys schema.properties ++ inherited)
      | some _ => .primitive
      | none => ofSchema table steps schema.members.head?

/-- The shape of a parameter with a schema. -/
def of (table : SchemaTable) (id? : Option SchemaId) : Shape := ofSchema table maxSteps id?

end Shape

end ApiContract
