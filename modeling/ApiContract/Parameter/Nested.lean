import ApiContract.Parameter.Delimited

/-!
# Nested query keys

In the style `deepObject`, the key of a query pair is the name of the parameter with the path of a
property in brackets: `filter[range][from]=3`. Empty brackets at the end of a key repeat a property,
whose texts then form a list.
-/

namespace ApiContract.StyleReader

theorem length_lt_of_splitFirst? {separator : Char} {text before behind : List Char}
    (h : Text.splitFirst? separator text = some (before, behind)) :
    behind.length < text.length := by
  induction text generalizing before with
  | nil => simp [Text.splitFirst?] at h
  | cons c rest ih =>
    unfold Text.splitFirst? at h
    split at h
    · simp_all
    · obtain ⟨⟨front, tail⟩, hsplit, heq⟩ := Option.map_eq_some_iff.1 h
      simp only [Prod.mk.injEq] at heq
      have := ih (heq.2 ▸ hsplit)
      simp only [List.length_cons]
      omega

/-- The names in a row of brackets. -/
def bracketPath (text : List Char) : Except StyleFault (List String) :=
  match text with
  | [] => .ok []
  | '[' :: rest =>
    match _ : Text.splitFirst? ']' rest with
    | some (name, behind) => do
      let path ← bracketPath behind
      .ok (String.ofList name :: path)
    | none => .error (.deepObjectKey (String.ofList text))
  | text => .error (.deepObjectKey (String.ofList text))
termination_by text.length
decreasing_by
  have := length_lt_of_splitFirst? ‹_›
  simp only [List.length_cons]
  omega

/-- A path without empty brackets at its end. -/
def withoutLastEmpty (path : List String) : List String :=
  if path.getLast? = some "" then path.dropLast else path

/-- Puts a text at a path of an object. A second text at the same path makes a list. -/
def insertAt : (path : List String) → String → Entries Value → Except StyleFault (Entries Value)
  | [], _, _ => .error .deepObjectProperty
  | [name], text, members =>
    match Entries.get? members name with
    | some (.array items) => .ok (Entries.insert members name (.array (items ++ [.string text])))
    | some (.string first) =>
      .ok (Entries.insert members name (.array [.string first, .string text]))
    | some _ => .error (.deepObjectConflict name)
    | none => .ok (Entries.insert members name (.string text))
  | name :: rest, text, members =>
    match Entries.get? members name with
    | some (.object inner) => do
      let inner ← insertAt rest text inner
      .ok (Entries.insert members name (.object inner))
    | some _ => .error (.deepObjectConflict name)
    | none => do
      let inner ← insertAt rest text []
      .ok (Entries.insert members name (.object inner))

/-- The bracketed part of a key that belongs to a parameter. -/
def brackets? (name : String) (key : String) : Option (List Char) :=
  (Text.stripStart? name.toList key.toList).filter fun rest => rest.head? == some '['

def deepObject : StyleReader := fun parameter shape raw =>
  match raw, shape with
  | .single .., _ => .error .deepObjectPlace
  | .pairs pairs, .object _ => do
    let belonging := pairs.filterMap fun (key, text) =>
      (brackets? parameter.name key).map fun brackets => (brackets, text)
    let members ← belonging.foldlM
      (fun members (brackets, text) => do
        let path ← bracketPath brackets
        insertAt (withoutLastEmpty path) text members)
      []
    .ok (if belonging.isEmpty then none else some (.object members))
  | .pairs _, _ => .error .deepObjectShape

end ApiContract.StyleReader
