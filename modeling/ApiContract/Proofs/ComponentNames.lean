import ApiContract.Proofs.Spellings

/-!
# References by name

Every name of a component can be written in a reference.  Its tildes and slashes are escaped for the
pointer, and what an address does not hold as it is gets percent-encoded.  A reader undoes the escapes
of the pointer first, although they were made first: percent-encoding leaves tildes alone and writes
none of its own, so the escapes are all still there, and only they are, and what is written is one of
the spellings of the name.
-/

namespace ApiContract.Reference

/-- The characters that stand for themselves anywhere in an address. -/
def isUnreserved (c : Char) : Bool :=
  c.isAlphanum || c == '-' || c == '.' || c == '_' || c == '~'

/-- A name as a segment of a pointer in an address. -/
def encodeSegment (name : String) : List Char :=
  Percent.encode (fun c => !isUnreserved c) (name.toList.flatMap escapePointerChar)

/-- The reference to a schema by its name among the components. -/
def toSchema (name : String) : String :=
  "#/components/schemas/" ++ String.ofList (encodeSegment name)

/-- A segment is a spelling of the name that it was made from: the characters of an escape need no
percent-encoding, and the other characters are encoded or stand for themselves. -/
theorem spells_encodeSegment (name : String) : Spells name.toList (encodeSegment name) := by
  unfold encodeSegment
  induction name.toList with
  | nil => exact .nil
  | cons c rest ih =>
      rw [List.flatMap_cons, Percent.encode, List.flatMap_append]
      by_cases htilde : c = '~'
      · subst htilde
        exact .tilde ih
      · by_cases hslash : c = '/'
        · subst hslash
          exact .slash ih
        · rw [Pointer.escapePointerChar_of_ne htilde hslash, List.flatMap_singleton]
          by_cases hreserved : !isUnreserved c
          · rw [if_pos hreserved]
            exact .encoded (Percent.spellsBytes_flatMap_encodeByte _) ih
          · have hpercent : c ≠ '%' := by
              rintro rfl
              exact hreserved rfl
            rw [if_neg hreserved]
            exact .plain htilde hslash hpercent ih

theorem toList_toSchema (name : String) :
    (toSchema name).toList =
      '#' :: '/' :: Text.joinWith '/'
        ["components".toList, "schemas".toList, encodeSegment name] := by
  unfold toSchema
  rw [String.toList_append]
  generalize encodeSegment name = segment
  simp only [String.toList_ofList, Text.joinWith]
  rfl

/-- The reference needs no address of the description in front, so it does not matter which one the
description has. -/
theorem writes_toSchema (name : String) : Writes "schemas" name (toSchema name) := by
  have hpart := spells_encodeSegment "schemas"
  have hspelled : encodeSegment "schemas" = "schemas".toList := by decide
  rw [hspelled] at hpart
  exact ⟨_, _, hpart, spells_encodeSegment name, toList_toSchema name⟩

theorem encodeSegment_injective : Function.Injective encodeSegment := by
  intro name other heq
  rw [← decodeSegment_of_spells (spells_encodeSegment name), heq,
    decodeSegment_of_spells (spells_encodeSegment other)]

/-- Every name has a reference that is read as that name, wherever the description is found, and no
two names share one. -/
theorem every_component_can_be_referenced {name : String} (hname : name ≠ "") :
    (∀ self? found, nameIn? self? "schemas" (toSchema name) = some found ↔ found = name) ∧
      ∀ other, toSchema other = toSchema name → other = name := by
  constructor
  · intro self? found
    have hnamed : nameIn? self? "schemas" (toSchema name) = some name :=
      nameIn?_eq_some_iff.2 (designates_of_writes hname (writes_toSchema name))
    rw [hnamed, Option.some.injEq]
    exact eq_comm
  · intro other heq
    have hsegment := (String.append_right_inj _).1 heq
    exact encodeSegment_injective (String.ofList_injective hsegment)

/-- A name that looks escaped already, with a slash, a percent sign and a letter beyond ASCII. -/
theorem escaped_looking_name_can_be_referenced :
    "~1/%2Fé" ≠ "" ∧ toSchema "~1/%2Fé" = "#/components/schemas/~01~1%252F%C3%A9" ∧
      ∀ self?, nameIn? self? "schemas" "#/components/schemas/~01~1%252F%C3%A9" = some "~1/%2Fé" := by
  have hname : "~1/%2Fé" ≠ "" := by decide
  have hwritten : toSchema "~1/%2Fé" = "#/components/schemas/~01~1%252F%C3%A9" := by decide
  refine ⟨hname, hwritten, fun self? => ?_⟩
  rw [← hwritten]
  exact ((every_component_can_be_referenced hname).1 self? _).2 rfl

end ApiContract.Reference
