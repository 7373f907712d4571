import ApiContract.Value.Basic

/-!
# Merging the results of several schemas

When several schemas judge one value, each gives back a typed form of it. Objects are merged key by
key; elsewhere the earlier result counts, unless it is the value as it came in, in which case a
later and possibly more precise result takes its place.
-/

namespace ApiContract.Value

mutual

/-- Merges a later result into an earlier one; `raw` is the value that both were made from. -/
def merge (raw earlier : Value) : (later : Value) → Value
  | .object right =>
    match earlier with
    | .object left => .object (mergeMembers raw left right)
    | earlier => if earlier.same raw then .object right else earlier
  | later => if earlier.same raw then later else earlier

def mergeMembers (raw : Value) (left : List (String × Value)) :
    (right : List (String × Value)) → List (String × Value)
  | [] => left
  | (name, later) :: rest =>
    let merged :=
      match Entries.get? left name, raw.get? name with
      | some earlier, some rawChild => Entries.insert left name (merge rawChild earlier later)
      | some _, none => left
      | none, _ => Entries.insert left name later
    mergeMembers raw merged rest

end

/-- Merges results from first to last. -/
def mergeAll (raw : Value) : List Value → Value
  | [] => raw
  | first :: rest => rest.foldl (merge raw) first

end ApiContract.Value
