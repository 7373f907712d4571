import ApiContract.Proofs.DirectReading

/-!
# Choices between readings

Where a schema offers nothing but alternatives, the first of them that reads a text as something else
decides what it is read as.  That alternative may then refuse what it read, or others may accept it
besides; otherwise the choice accepts what was read.  Unions of plain types are choices for which
neither ever happens.
-/

namespace ApiContract

/-! ## Values without parts -/

namespace SchemaRules

variable {rules : SchemaRules} {fills trail : List SchemaId} {id part : SchemaId}
  {value : Value} {schema : Schema} {steps : Nat}

/-- Nothing is filled in below a value without parts, so every schema comes to an end with it. -/
theorem hasEnded_applyAt_of_isContainer_eq_false : ∀ fills trail id value,
    value.isContainer = false → (rules.applyAt fills trail id value).HasEnded := by
  refine applyAt.induct rules _ ?_ ?_ ?_
  · intro fills trail id value hget _
    rw [applyAt_of_get?_eq_none hget]
    exact Judgement.hasEnded_accepted value
  · intro fills trail id value _ _ hmem _
    rw [applyAt_of_mem hmem]
    exact Judgement.hasEnded_accepted value
  · intro fills trail id value schema hget hnew hhere _ _ hplain
    rw [applyAt_eq_judge hget hnew, hasEnded_judge_iff]
    refine fun _ =>
      ⟨fun part _ => hhere part hplain, fun part child hlooks => ?_, fun missing hfills => ?_⟩
    · cases hlooks.2 <;> simp [Value.isContainer] at hplain
    · obtain ⟨-, members, rfl, -⟩ := hfills
      simp [Value.isContainer] at hplain

theorem isAccepted_judge_of_judgeParts {near : Neighbours value}
    (hadmits : value = .null → admitsNull rules.schemas nullSteps schema = true)
    (hparts : (rules.judgeParts schema value near).isAccepted) :
    (rules.judge schema value near).isAccepted := by
  cases rules.judgeView schema value with
  | taken htakes =>
      rw [judge_null_of_takesNull htakes]
      rfl
  | refused hrefused => exact absurd (hadmits rfl) (by simp [hrefused])
  | apart happart => rwa [judge_of_takesApart happart]

end SchemaRules

/-! ## Choices -/

/-- The schema has nothing but alternatives, by one keyword. -/
structure Schema.IsChoice (schema : Schema) : Prop extends schema.IsUnbounded where
  untyped : schema.effectiveType? = none
  untagged : schema.discriminator? = none
  included : schema.allOf = []
  single : schema.oneOf = [] ∨ schema.anyOf = []

theorem Schema.IsChoice.members_eq {choice : Schema} (hchoice : choice.IsChoice) :
    choice.members = choice.oneOf ++ choice.anyOf := by
  rw [members, hchoice.included, List.nil_append]

/-- A member is the first that reads a text as something else, namely as the value. -/
def SchemaTable.FirstReads (table : SchemaTable) (steps : Nat) (choice : Schema) (text : String)
    (part : SchemaId) (value : Value) : Prop :=
  ∃ before behind, choice.members = before ++ part :: behind ∧
    (∀ other ∈ before, table.readMember? steps text other = none) ∧
      table.readMember? steps text part = some value

/-- A member of a choice accepts a value, in `oneOf` as the only one; null only where the choice
leaves room for it. -/
structure SchemaRules.Welcomes (rules : SchemaRules) (id : SchemaId) (choice : Schema)
    (part : SchemaId) (value : Value) : Prop where
  accepts : (rules.applyAt [] [id] part value).isAccepted
  alone : choice.oneOf ≠ [] →
    choice.oneOf.countP (fun other => (rules.applyAt [] [id] other value).isAccepted) = 1
  null : value = .null → SchemaRules.admitsNull rules.schemas SchemaRules.nullSteps choice = true

namespace SchemaRules

variable {rules : SchemaRules} {fills trail : List SchemaId} {id part : SchemaId}
  {value : Value} {choice : Schema} {steps : Nat} {text : String}

/-- With nothing but alternatives, these alone decide about a value without parts. -/
theorem isAccepted_judgeParts_iff_hasAlternative (hchoice : choice.IsChoice)
    (hscalar : value.isContainer = false) :
    (rules.judgeParts choice value (rules.neighbours fills trail value)).isAccepted ↔
      HasAlternative (rules.neighbours fills trail value).here choice value := by
  let near := rules.neighbours fills trail value
  have hown : rules.judgeOwn choice value near = .accepted value := by
    rw [judgeOwn_of_isUnbounded hchoice.toIsUnbounded, judgeType_of_none hchoice.untyped]
  have hended : (rules.judgeParts choice value near).HasEnded := by
    rw [hasEnded_judgeParts_iff, hown]
    exact ⟨Judgement.hasEnded_accepted value, fun other _ =>
      hasEnded_applyAt_of_isContainer_eq_false fills trail other value hscalar⟩
  have hexplained : ∀ other, (near.here other).IsExplained :=
    fun other => isExplained_applyAt _ _ _ _ _
  rw [isAccepted_judgeParts_iff hexplained hended, hown, hchoice.included]
  simp [Judgement.isAccepted, near]

theorem isAccepted_applyAt_iff_hasAlternative (hget : rules.schemas.get? id = some choice)
    (hchoice : choice.IsChoice) (hscalar : value.isContainer = false) (hnull : value ≠ .null) :
    (rules.applyAt fills [] id value).isAccepted ↔
      HasAlternative (fun part => rules.applyAt fills [id] part value) choice value := by
  rw [applyAt_eq_judge hget List.not_mem_nil, judge_of_ne_null hnull,
    isAccepted_judgeParts_iff_hasAlternative hchoice hscalar]
  rfl

/-- A choice accepts what one of its members reads and accepts. -/
theorem isAccepted_applyAt_of_welcomes (hget : rules.schemas.get? id = some choice)
    (hchoice : choice.IsChoice) (hreads : rules.schemas.FirstReads steps choice text part value)
    (hwelcomes : rules.Welcomes id choice part value) :
    (rules.applyAt [] [] id value).isAccepted := by
  obtain ⟨before, behind, hsplit, -, hread⟩ := hreads
  obtain ⟨member, -, hcoerced, -⟩ := SchemaTable.exists_of_readMember? hread
  have hscalar : value.isContainer = false := hcoerced ▸ SchemaTable.isContainer_coerceText
  have hpart : part ∈ choice.oneOf ++ choice.anyOf := by
    rw [← hchoice.members_eq, hsplit]
    exact List.mem_append_right _ List.mem_cons_self
  have htagging : choice.tagging? = none := by simp [Schema.tagging?, hchoice.untagged]
  have halternative : HasAlternative (rules.neighbours [] [id] value).here choice value := by
    refine .inr ⟨htagging, hwelcomes.alone, fun hne => ⟨part, ?_, hwelcomes.accepts⟩⟩
    rwa [hchoice.single.resolve_right hne, List.nil_append] at hpart
  rw [applyAt_eq_judge hget List.not_mem_nil]
  exact isAccepted_judge_of_judgeParts hwelcomes.null
    ((isAccepted_judgeParts_iff_hasAlternative hchoice hscalar).2 halternative)

end SchemaRules

/-! ## Unions of plain types -/

/-- The kinds of values that a schema with a type takes, apart from texts, arrays and objects. -/
def Schema.takenKinds (schema : Schema) : List ValueKind :=
  (if schema.nullable || schema.type? == some .null then [.null] else []) ++
    match schema.effectiveType? with
    | some .integer => [.integer, .number]
    | some .number => [.integer, .number]
    | some .boolean => [.boolean]
    | _ => []

/-- A schema that accepts all that its type reads from texts. -/
def Schema.TakesItsReadings (schema : Schema) : Prop :=
  ∃ type, schema.effectiveType? = some type ∧
    ((∀ text, SchemaTable.readText? type text = none) ∨ schema.IsUnconstrained)

/-- A choice between schemas with a type, each of which accepts what it reads from texts.  No two
members of `oneOf` take values of the same kind. -/
structure SchemaTable.IsPlainUnion (table : SchemaTable) (union : Schema) : Prop
    extends union.IsChoice where
  members : ∀ part ∈ union.members, ∃ member, table.get? part = some member ∧
    member.TakesItsReadings
  apart : union.oneOf.Pairwise fun first second => ∀ left right, table.get? first = some left →
    table.get? second = some right → left.takenKinds.Disjoint right.takenKinds

namespace SchemaRules

variable {rules : SchemaRules} {fills trail : List SchemaId} {id part : SchemaId}
  {value : Value} {schema union : Schema} {type : SchemaType} {steps : Nat} {text : String}

theorem kind_mem_takenKinds_of_primitive? {typed : Value} (htype : schema.effectiveType? = some type)
    {read : SchemaType} (hreads : SchemaTable.Reads read value)
    (htyped : primitive? type value = some typed) (hnull : value ≠ .null) :
    value.kind ∈ schema.takenKinds := by
  rw [Schema.takenKinds, htype, List.mem_append]
  refine .inr ?_
  cases hreads <;> cases type <;> simp_all [primitive?, Value.kind, Value.isTextual]

theorem nullable_of_isAccepted_judge {near : Neighbours .null}
    (htype : schema.effectiveType? = some type)
    (haccepted : (rules.judge schema .null near).isAccepted) :
    schema.nullable ∨ schema.type? = some .null := by
  by_contra hneither
  have hnot : (schema.nullable || schema.type? == some .null) = false := by simpa using hneither
  have hadmits : admitsNull rules.schemas nullSteps schema = false := by
    rw [admitsNull.eq_def]
    simp [hnot, htype]
  rw [judge_null_of_admitsNull_eq_false hadmits] at haccepted
  cases haccepted

/-- What a schema with a type accepts of the values that are read from texts. -/
theorem kind_mem_takenKinds (hget : rules.schemas.get? part = some schema) (hnew : part ∉ trail)
    (htype : schema.effectiveType? = some type) {read : SchemaType}
    (hreads : SchemaTable.Reads read value)
    (haccepted : (rules.applyAt fills trail part value).isAccepted) :
    value.kind ∈ schema.takenKinds := by
  rw [applyAt_eq_judge hget hnew] at haccepted
  by_cases hnull : value = .null
  · subst hnull
    rw [Schema.takenKinds, List.mem_append, Value.kind]
    rcases nullable_of_isAccepted_judge htype haccepted with hnullable | htyped
    · simp [hnullable]
    · simp [htyped]
  · rw [judge_of_ne_null hnull] at haccepted
    have hexplained : ∀ member,
        ((rules.neighbours fills (part :: trail) value).here member).IsExplained :=
      fun member => isExplained_applyAt _ _ _ _ _
    obtain ⟨hown, -⟩ := isAccepted_parts_of_judgeParts hexplained haccepted
    obtain ⟨typed, htyped⟩ := exists_judgeType_of_judgeOwn hown
    cases typesAs_of_judgeType htyped with
    | untyped hnone => simp [htype] at hnone
    | items _ _ => cases hreads
    | members _ _ => cases hreads
    | primitive hprimitive _ _ htaken =>
        exact kind_mem_takenKinds_of_primitive? hprimitive hreads htaken hnull

theorem countP_eq_one {α : Type} {holds : α → Bool} {candidates : List α}
    (hsome : ∃ candidate ∈ candidates, holds candidate)
    (hapart : candidates.Pairwise fun first second => holds first → ¬ holds second) :
    candidates.countP holds = 1 := by
  induction candidates with
  | nil => simp at hsome
  | cons first rest ih =>
      obtain ⟨hfirst, hrest⟩ := List.pairwise_cons.1 hapart
      by_cases hholds : holds first
      · have hnone : rest.countP holds = 0 :=
          List.countP_eq_zero.2 fun other hother => hfirst other hother hholds
        rw [List.countP_cons_of_pos hholds, hnone]
      · rw [List.countP_cons_of_neg hholds]
        refine ih ?_ hrest
        obtain ⟨candidate, hmem, hcandidate⟩ := hsome
        rcases List.mem_cons.1 hmem with rfl | hmem
        · exact absurd hcandidate hholds
        · exact ⟨candidate, hmem, hcandidate⟩

/-- The member of a plain union that reads a text accepts what it reads. -/
theorem exists_type_of_readMember? (hplain : rules.schemas.IsPlainUnion union)
    (hpart : part ∈ union.members)
    (hread : rules.schemas.readMember? steps text part = some value) :
    ∃ member type, rules.schemas.get? part = some member ∧ member.effectiveType? = some type ∧
      member.IsUnconstrained ∧ SchemaTable.Reads type value := by
  obtain ⟨member, hget, type, htype, htakes⟩ := hplain.members part hpart
  obtain ⟨found, hfound, hcoerced, hother⟩ := SchemaTable.exists_of_readMember? hread
  obtain rfl := Option.some.inj (hget.symm.trans hfound)
  rw [SchemaTable.coerceText_of_type htype] at hcoerced
  cases hreading : SchemaTable.readText? type text with
  | none =>
      rw [hreading, Option.getD_none] at hcoerced
      exact absurd hcoerced.symm (hother text)
  | some typed =>
      rw [hreading, Option.getD_some] at hcoerced
      subst hcoerced
      rcases htakes with hnothing | hfree
      · simp [hnothing] at hreading
      · exact ⟨member, type, hget, htype, hfree, SchemaTable.reads_of_readText? hreading⟩

theorem admitsNull_of_isPlainUnion (hplain : rules.schemas.IsPlainUnion union)
    (hpart : part ∈ union.members) (hget : rules.schemas.get? part = some schema)
    (htype : schema.type? = some .null) : admitsNull rules.schemas nullSteps union = true := by
  have hmember : ∀ steps, admitsNull rules.schemas steps schema = true := by
    intro steps
    rw [admitsNull.eq_def]
    simp [htype]
  have hsteps : nullSteps = 32 + 1 := rfl
  rw [Schema.members, hplain.included, List.nil_append, List.mem_append] at hpart
  rw [hsteps, admitsNull.eq_def]
  dsimp only
  rw [hplain.untyped, hplain.included]
  split
  · rfl
  · simp only [Option.isSome_none, Bool.false_eq_true, if_false, Bool.and_eq_true,
      Bool.or_eq_true, List.isEmpty_iff, List.any_eq_true]
    refine ⟨⟨?_, ?_⟩, rfl⟩
    · rcases hplain.single with hnone | hnone
      · exact .inl hnone
      · refine .inr ⟨part, by simpa [hnone] using hpart, ?_⟩
        rw [hget]
        exact hmember 32
    · rcases hplain.single with hnone | hnone
      · refine .inr ⟨part, by simpa [hnone] using hpart, ?_⟩
        rw [hget]
        exact hmember 32
      · exact .inl hnone

theorem kind_mem_takenKinds_of_member (hget : rules.schemas.get? id = some union)
    (hplain : rules.schemas.IsPlainUnion union) (hreads : SchemaTable.Reads type value)
    (hmem : part ∈ union.members) (hpart : rules.schemas.get? part = some schema)
    (haccepted : (rules.applyAt fills [id] part value).isAccepted) :
    value.kind ∈ schema.takenKinds := by
  obtain ⟨found, hfound, kind, hkind, -⟩ := hplain.members part hmem
  obtain rfl := Option.some.inj (hpart.symm.trans hfound)
  have hnew : part ∉ [id] := by
    intro hself
    rw [List.mem_singleton.1 hself, hget] at hpart
    rw [← Option.some.inj hpart, hplain.untyped] at hkind
    cases hkind
  exact kind_mem_takenKinds hpart hnew hkind hreads haccepted

/-- Among the members of `oneOf`, the one that reads a text is the only one to accept what it
reads. -/
theorem countP_isAccepted_of_isPlainUnion (hget : rules.schemas.get? id = some union)
    (hplain : rules.schemas.IsPlainUnion union) (hreads : SchemaTable.Reads type value)
    (hpart : part ∈ union.oneOf) (haccepted : (rules.applyAt fills [id] part value).isAccepted) :
    union.oneOf.countP (fun other => (rules.applyAt fills [id] other value).isAccepted) = 1 := by
  have hmembers : ∀ other ∈ union.oneOf, other ∈ union.members := by
    intro other hother
    rw [hplain.members_eq]
    exact List.mem_append_left _ hother
  refine countP_eq_one ⟨part, hpart, haccepted⟩ ?_
  refine hplain.apart.imp_of_mem fun {first second} hfirst hsecond hdisjoint hleft hright => ?_
  obtain ⟨left, hgetLeft, -⟩ := hplain.members first (hmembers first hfirst)
  obtain ⟨right, hgetRight, -⟩ := hplain.members second (hmembers second hsecond)
  exact hdisjoint left right hgetLeft hgetRight
    (kind_mem_takenKinds_of_member hget hplain hreads (hmembers first hfirst) hgetLeft hleft)
    (kind_mem_takenKinds_of_member hget hplain hreads (hmembers second hsecond) hgetRight hright)

theorem welcomes_of_isPlainUnion (hget : rules.schemas.get? id = some union)
    (hplain : rules.schemas.IsPlainUnion union)
    (hreads : rules.schemas.FirstReads steps union text part value) :
    rules.Welcomes id union part value := by
  obtain ⟨before, behind, hsplit, -, hread⟩ := hreads
  have hpart : part ∈ union.members := by
    rw [hsplit]
    exact List.mem_append_right _ List.mem_cons_self
  obtain ⟨member, type, hmember, htype, hfree, hvalue⟩ :=
    exists_type_of_readMember? hplain hpart hread
  have haccepts : (rules.applyAt [] [id] part value).isAccepted := by
    rw [applyAt_of_reads hmember htype hfree hvalue]
    rfl
  refine ⟨haccepts, fun hne => ?_, fun hnull => ?_⟩
  · have hone : part ∈ union.oneOf := by
      rwa [hplain.members_eq, hplain.single.resolve_left hne, List.append_nil] at hpart
    exact countP_isAccepted_of_isPlainUnion hget hplain hvalue hone haccepts
  · subst hnull
    obtain rfl : type = .null := by cases hvalue; rfl
    exact admitsNull_of_isPlainUnion hplain hpart hmember (Schema.type?_eq_null htype)

end SchemaRules
end ApiContract
