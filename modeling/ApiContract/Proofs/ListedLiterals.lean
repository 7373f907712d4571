import ApiContract.Proofs.SeeingThrough
import ApiContract.Proofs.TypeListReading

/-!
# Listed literals

A schema that lists literals accepts no value but them, whatever its type and its composition, with
one exception: where neither a type nor a composition says anything about null, null is accepted
before the literals are looked at.
-/

namespace ApiContract

namespace Schema

/-- The literals that a schema lists: those of `enum`, or else the one of `const`. -/
inductive Lists (members : Entries Json) : List Json → Prop
  | enum {literals : List Json} (henum : Entries.get? members "enum" = some (.array literals)) :
      Lists members literals
  | const {literal : Json}
      (hunlisted : ∀ literals, Entries.get? members "enum" ≠ some (.array literals))
      (hconst : Entries.get? members "const" = some literal) : Lists members [literal]

theorem readLiterals_of_lists {members : Entries Json} {literals : List Json}
    (hlists : Lists members literals) : readLiterals members = some literals := by
  unfold readLiterals
  cases hlists with
  | enum henum =>
      rw [henum]
      rfl
  | const hunlisted hconst =>
      have hnone : (Entries.get? members "enum").bind Json.asArray? = none := by
        rw [Option.bind_eq_none_iff]
        rintro json henum
        cases json with
        | array literals => exact absurd henum (hunlisted literals)
        | _ => rfl
      rw [hnone, hconst]
      rfl

/-! ## Reading the literals -/

theorem literals?_of_readOwn {members : Entries Json} {own : Schema}
    (hread : readOwn members = .ok own) : own.literals? = readLiterals members := by
  obtain ⟨constraints, -, hread⟩ := ok_of_bind_eq_ok hread
  obtain rfl := Except.ok.inj hread
  rfl

theorem literals?_of_run_withType {own typed : Schema} {json? : Option Json}
    {table after : SchemaTable}
    (hrun : StateT.run (own.withType json?) table = .ok (typed, after)) :
    typed.literals? = own.literals? := by
  unfold withType at hrun
  split at hrun
  · obtain ⟨⟨type, middle⟩, -, hrun⟩ := ok_of_bind_eq_ok hrun
    obtain ⟨rfl, -⟩ := Prod.mk.inj (Except.ok.inj hrun)
    rfl
  · rw [StateT.run_bind] at hrun
    obtain ⟨⟨types, middle⟩, -, hrun⟩ := ok_of_bind_eq_ok hrun
    dsimp only at hrun
    split at hrun
    · obtain ⟨rfl, -⟩ := Prod.mk.inj (Except.ok.inj hrun)
      rfl
    · obtain ⟨rfl, -⟩ := Prod.mk.inj (Except.ok.inj hrun)
      rfl
    · obtain ⟨⟨ids, behind⟩, -, hrun⟩ := ok_of_bind_eq_ok hrun
      obtain ⟨rfl, -⟩ := Prod.mk.inj (Except.ok.inj hrun)
      rfl
  · obtain ⟨rfl, -⟩ := Prod.mk.inj (Except.ok.inj hrun)
    rfl

theorem literals?_of_run_readParts {scope : Scope} {members : Entries Json}
    {part : PartReader (.object members)} {sibling : List SchemaId} {typed schema : Schema}
    {table after : SchemaTable}
    (hrun : StateT.run (readParts scope members part sibling typed) table = .ok (schema, after)) :
    schema.literals? = typed.literals? := by
  obtain ⟨⟨properties, table₁⟩, -, hrun⟩ := ok_of_bind_eq_ok hrun
  obtain ⟨⟨items?, table₂⟩, -, hrun⟩ := ok_of_bind_eq_ok hrun
  obtain ⟨⟨extras?, table₃⟩, -, hrun⟩ := ok_of_bind_eq_ok hrun
  obtain ⟨⟨allOf, table₄⟩, -, hrun⟩ := ok_of_bind_eq_ok hrun
  obtain ⟨⟨oneOf, table₅⟩, -, hrun⟩ := ok_of_bind_eq_ok hrun
  obtain ⟨⟨anyOf, table₆⟩, -, hrun⟩ := ok_of_bind_eq_ok hrun
  obtain ⟨⟨discriminator?, table₇⟩, -, hrun⟩ := ok_of_bind_eq_ok hrun
  obtain ⟨rfl, -⟩ := Prod.mk.inj (Except.ok.inj hrun)
  rfl

end Schema

theorem Scope.IsFilledIn.literals?_eq {scope : Scope} {final : SchemaTable} {index : SchemaId}
    {members : Entries Json} {schema : Schema}
    (hfilled : scope.IsFilledIn final index (.object members))
    (hget : final.get? index = some schema) : schema.literals? = Schema.readLiterals members := by
  obtain ⟨before, after, found, -, hrun, hfound, -⟩ := hfilled
  obtain rfl := Option.some.inj (hfound.symm.trans hget)
  rw [readComponent, Schema.read_object] at hrun
  obtain ⟨⟨own, table⟩, hrunOwn, hafterOwn⟩ := ok_of_bind_eq_ok hrun
  obtain ⟨hown, rfl⟩ := Compilation.run_liftM_eq_ok_iff.1 hrunOwn
  obtain ⟨⟨sibling, middle⟩, -, hafterSibling⟩ := ok_of_bind_eq_ok hafterOwn
  obtain ⟨⟨typed, behind⟩, htyped, hparts⟩ := ok_of_bind_eq_ok hafterSibling
  rw [Schema.literals?_of_run_readParts hparts, Schema.literals?_of_run_withType htyped,
    Schema.literals?_of_readOwn hown]

/-! ## Judging null -/

namespace SchemaRules

variable {rules : SchemaRules} {scope : Scope} {id : SchemaId} {members : Entries Json}
  {schema : Schema} {value : Value} {near : Neighbours value} {literals : List Json}

theorem admitsNull_of_untyped (huntyped : schema.effectiveType? = none)
    (halone : schema.isComposed = false) : admitsNull rules.schemas nullSteps schema = true := by
  obtain ⟨hallOf, honeOf, hanyOf⟩ := isComposed_eq_false_iff.1 halone
  have hsteps : nullSteps = 32 + 1 := rfl
  rw [hsteps, admitsNull_succ, huntyped, hallOf, honeOf, hanyOf]
  simp

theorem effectiveType?_of_admitsNull (hnullable : schema.nullable = false)
    (htype : schema.type? ≠ some .null)
    (hadmits : admitsNull rules.schemas nullSteps schema = true) :
    schema.effectiveType? = none := by
  have hsteps : nullSteps = 32 + 1 := rfl
  rw [hsteps, admitsNull_succ] at hadmits
  cases heffective : schema.effectiveType? with
  | none => rfl
  | some type => simp [hnullable, htype, heffective] at hadmits

theorem judge_null_of_untyped {near : Neighbours .null} (huntyped : schema.effectiveType? = none)
    (halone : schema.isComposed = false) : rules.judge schema .null near = .accepted .null :=
  judge_null_of_takesNull (.inr (.inr ⟨admitsNull_of_untyped huntyped halone, halone⟩))

/-- Null is accepted as it is, or it is judged by all parts of the schema. -/
theorem judge_null_cases {near : Neighbours .null} (hnullable : schema.nullable = false)
    (htype : schema.type? ≠ some .null) (haccepted : (rules.judge schema .null near).isAccepted) :
    schema.effectiveType? = none ∧ (schema.isComposed = false ∨
      (rules.judgeParts schema .null near).isAccepted) := by
  cases hadmits : admitsNull rules.schemas nullSteps schema with
  | false =>
      rw [judge_null_of_admitsNull_eq_false hadmits] at haccepted
      cases haccepted
  | true =>
      refine ⟨effectiveType?_of_admitsNull hnullable htype hadmits, ?_⟩
      cases halone : schema.isComposed with
      | false => exact .inl rfl
      | true =>
          have happart : rules.TakesApart schema .null := fun _ => ⟨hnullable, htype, hadmits, halone⟩
          rw [judge_of_takesApart happart] at haccepted
          exact .inr haccepted

/-- What all parts of a schema accept is among its literals. -/
theorem listed_of_judgeParts (hhere : ∀ part, (near.here part).IsExplained)
    (hlisted : schema.literals? = some literals)
    (haccepted : (rules.judgeParts schema value near).isAccepted) :
    ∃ literal ∈ literals, value.matchesLiteral literal := by
  obtain ⟨typed, hparts⟩ := Judgement.isAccepted_iff.1 haccepted
  obtain ⟨own, -, -, hown, -⟩ := (judgeParts_eq_accepted_iff hhere).1 hparts
  have hbounds := (isAccepted_judgeOwn.1 (Judgement.isAccepted_iff.2 ⟨own, hown⟩)).2
  exact (boundFaults_eq_nil_iff.1 hbounds).2 literals hlisted

theorem listed_of_apply (hget : rules.schemas.get? id = some schema)
    (hlisted : schema.literals? = some literals) (hnullable : schema.nullable = false)
    (htype : schema.type? ≠ some .null) (haccepted : (rules.apply id value).isAccepted) :
    (∃ literal ∈ literals, value.matchesLiteral literal) ∨
      value = .null ∧ schema.effectiveType? = none ∧ schema.isComposed = false := by
  have hhere : ∀ part, ((rules.neighbours [] [id] value).here part).IsExplained :=
    fun part => isExplained_applyAt _ _ _ _ _
  rw [apply, applyAt_eq_judge hget List.not_mem_nil] at haccepted
  by_cases hnull : value = .null
  · subst hnull
    obtain ⟨huntyped, halone | hparts⟩ := judge_null_cases hnullable htype haccepted
    · exact .inr ⟨rfl, huntyped, halone⟩
    · exact .inl (listed_of_judgeParts hhere hlisted hparts)
  · rw [judge_of_ne_null hnull] at haccepted
    exact .inl (listed_of_judgeParts hhere hlisted haccepted)

theorem isAccepted_apply_null (hget : rules.schemas.get? id = some schema)
    (huntyped : schema.effectiveType? = none) (halone : schema.isComposed = false) :
    (rules.apply id .null).isAccepted := by
  rw [apply, applyAt_eq_judge hget List.not_mem_nil, judge_null_of_untyped huntyped halone]
  rfl

/-- A schema that lists literals accepts nothing else, but for null where the schema has neither a
type nor a composition.  So the literals bind all values exactly if it has one of both or lists
null. -/
theorem literals_bind_all_but_null
    (hfilled : scope.IsFilledIn rules.schemas id (.object members))
    (hlists : Schema.Lists members literals) (hget : rules.schemas.get? id = some schema)
    (hnullable : schema.nullable = false) (htype : schema.type? ≠ some .null) :
    (∀ value, (rules.apply id value).isAccepted →
      (∃ literal ∈ literals, value.matchesLiteral literal) ∨
        value = .null ∧ schema.effectiveType? = none ∧ schema.isComposed = false) ∧
    ((∀ value, (rules.apply id value).isAccepted →
        ∃ literal ∈ literals, value.matchesLiteral literal) ↔
      schema.effectiveType?.isSome ∨ schema.isComposed ∨
        ∃ literal ∈ literals, Value.null.matchesLiteral literal) := by
  have hliterals : schema.literals? = some literals := by
    rw [hfilled.literals?_eq hget, Schema.readLiterals_of_lists hlists]
  have hlisted : ∀ value, (rules.apply id value).isAccepted →
      (∃ literal ∈ literals, value.matchesLiteral literal) ∨
        value = .null ∧ schema.effectiveType? = none ∧ schema.isComposed = false := by
    intro value haccepted
    exact listed_of_apply hget hliterals hnullable htype haccepted
  refine ⟨hlisted, ?_⟩
  constructor
  · intro hbinds
    cases huntyped : schema.effectiveType? with
    | some type => exact .inl rfl
    | none =>
        cases halone : schema.isComposed with
        | true => exact .inr (.inl rfl)
        | false =>
            -- Nothing speaks of null, so it is accepted, and it has to be listed.
            exact .inr (.inr (hbinds .null (isAccepted_apply_null hget huntyped halone)))
  · intro hspoken value haccepted
    rcases hlisted value haccepted with hmatched | ⟨rfl, huntyped, halone⟩
    · exact hmatched
    · rw [huntyped, halone] at hspoken
      simpa using hspoken

end SchemaRules

/-! ## A grade and a mark -/

/-- A grade is one of two letters. -/
def gradeMembers : Entries Json := [("enum", .array [.string "a", .string "b"])]

/-- A mark could be a text or null, but for the only letter that is listed. -/
def markMembers : Entries Json :=
  [("const", .string "a"), ("anyOf", .array [.object [("type", .string "string")],
    .object [("type", .string "null")]])]

def gradingDocument : Json := .object [("openapi", .string "3.1.0"), ("components", .object [
  ("schemas", .object [("Grade", .object gradeMembers), ("Mark", .object markMembers)])])]

def gradingTable : SchemaTable :=
  ⟨#[{ literals? := some [.string "a", .string "b"] },
    { literals? := some [.string "a"], anyOf := [2, 3] }, .ofType .string, .ofType .null]⟩

/-- The document as a record. -/
def grading : Document where
  openapi? := some "3.1.0"
  swagger? := none
  self? := none
  servers := []
  paths := []
  components := { schemas := [("Grade", .object gradeMembers), ("Mark", .object markMembers)] }
  security? := none

theorem run_readComponents_grading :
    StateT.run grading.scope.readComponents {} = .ok ((), gradingTable) := by
  have hschemas : grading.scope.components.schemas =
    [("Grade", .object gradeMembers), ("Mark", .object markMembers)] := rfl
  have hgrade : grading.scope.readComponent (.object gradeMembers) = pure {
      literals? := some [.string "a", .string "b"] } := by
    unfold Scope.readComponent
    rfl
  have hmark : grading.scope.readComponent (.object markMembers) = (do
      let text ← Compilation.push (.ofType .string)
      let nothing ← Compilation.push (.ofType .null)
      return { literals? := some [.string "a"], anyOf := [text, nothing] }) := by
    unfold Scope.readComponent
    simp only [Scope.placeSchema_eq]
    rfl
  simp only [Scope.readComponents, hschemas, List.zipIdx_cons, List.zipIdx_nil,
    List.forM_eq_forM, List.forM_cons, List.forM_nil, hgrade, hmark]
  rfl

theorem ofJson_gradingDocument :
    Contract.ofJson gradingDocument = .ok { schemas := gradingTable } :=
  Contract.ofJson_schemas run_readComponents_grading

namespace SchemaRules

/-- The literal binds null as well, since the alternatives speak of null. -/
theorem mark_is_the_listed_letter :
    let rules : SchemaRules := { schemas := gradingTable, formats := Format.standard }
    let mark : Schema := { literals? := some [.string "a"], anyOf := [2, 3] }
    grading.scope.IsFilledIn rules.schemas 1 (.object markMembers) ∧
      Schema.Lists markMembers [.string "a"] ∧ rules.schemas.get? 1 = some mark ∧
      mark.nullable = false ∧ mark.type? ≠ some .null ∧
      ∀ value, (rules.apply 1 value).isAccepted → value.matchesLiteral (.string "a") := by
  intro rules mark
  have hfilled : grading.scope.IsFilledIn rules.schemas 1 (.object markMembers) :=
    grading.isFilledIn_of_readComponents (by decide) run_readComponents_grading rfl
  have hlists : Schema.Lists markMembers [.string "a"] := .const (by rintro literals ⟨⟩) rfl
  have hbinds := (literals_bind_all_but_null hfilled hlists rfl rfl (by rintro ⟨⟩)).2.2
    (.inr (.inl rfl))
  refine ⟨hfilled, hlists, rfl, rfl, by rintro ⟨⟩, fun value haccepted => ?_⟩
  obtain ⟨literal, hmem, hmatched⟩ := hbinds value haccepted
  rwa [List.mem_singleton.1 hmem] at hmatched

/-- Null is a grade, though it is not listed. -/
theorem null_is_accepted_unlisted :
    let rules : SchemaRules := { schemas := gradingTable, formats := Format.standard }
    let grade : Schema := { literals? := some [.string "a", .string "b"] }
    Contract.ofJson gradingDocument = .ok { schemas := gradingTable } ∧
      Schema.Lists gradeMembers [.string "a", .string "b"] ∧
      rules.schemas.get? 0 = some grade ∧ grade.nullable = false ∧ grade.type? ≠ some .null ∧
      (rules.apply 0 .null).isAccepted ∧
      ¬ ∃ literal ∈ [Json.string "a", .string "b"], Value.null.matchesLiteral literal := by
  intro rules grade
  have hget : rules.schemas.get? 0 = some grade := rfl
  refine ⟨ofJson_gradingDocument, .enum rfl, hget, rfl, by rintro ⟨⟩, ?_, ?_⟩
  · exact isAccepted_apply_null hget rfl rfl
  · rintro ⟨literal, hmem, hmatched⟩
    simp only [List.mem_cons, List.not_mem_nil, or_false] at hmem
    rcases hmem with rfl | rfl
    · cases hmatched
    · cases hmatched

end SchemaRules

end ApiContract
