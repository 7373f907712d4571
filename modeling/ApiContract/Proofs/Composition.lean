import ApiContract.Proofs.Termination

/-!
# What composition means

A schema that is met again at the same value accepts it.  In a table whose schemas are not composed
of themselves this never happens, however schemas are nested through properties and items.  So the
members of a composition judge the value as they do on their own, and composition means what its
keywords say.
-/

namespace ApiContract

namespace SchemaTable

/-- A schema may hand its value on to another. -/
def Composes (table : SchemaTable) (whole part : SchemaId) : Prop :=
  ∃ schema, table.get? whole = some schema ∧ part ∈ schema.components

/-- No schema is composed of itself, directly or through others. -/
def IsAcyclic (table : SchemaTable) : Prop :=
  ∀ id, ¬ Relation.TransGen table.Composes id id

theorem lt_of_transGen_composes {table : SchemaTable}
    (hlater : ∀ whole part, table.Composes whole part → whole < part) {whole part : SchemaId}
    (hpath : Relation.TransGen table.Composes whole part) : whole < part := by
  induction hpath with
  | single hcomposes => exact hlater _ _ hcomposes
  | tail _ hcomposes ih => exact ih.trans (hlater _ _ hcomposes)

theorem isAcyclic_of_lt {table : SchemaTable}
    (hlater : ∀ whole part, table.Composes whole part → whole < part) : table.IsAcyclic := by
  intro id hpath
  exact Nat.lt_irrefl id (lt_of_transGen_composes hlater hpath)

theorem isAcyclic_of_components {table : SchemaTable}
    (hlater : ∀ entry ∈ table.schemas.toList.zipIdx, ∀ part ∈ entry.1.components,
      entry.2 < part) : table.IsAcyclic := by
  apply isAcyclic_of_lt
  rintro whole part ⟨schema, hget, hpart⟩
  have hentry : (schema, whole) ∈ table.schemas.toList.zipIdx := by
    rw [List.mem_zipIdx_iff_getElem?, Array.getElem?_toList]
    exact hget
  exact hlater _ hentry part hpart

end SchemaTable

namespace Judgement

variable {α β : Type}

/-- A search that ended has accepted when it could. -/
theorem isAccepted_firstAccepted_iff {judge : β → Judgement α} {otherwise : Violation}
    {candidates : List β} (hended : (firstAccepted judge otherwise candidates).HasEnded) :
    (firstAccepted judge otherwise candidates).isAccepted ↔
      ∃ candidate ∈ candidates, (judge candidate).isAccepted := by
  induction candidates with
  | nil => simp [firstAccepted, refuse, isAccepted]
  | cons candidate rest ih =>
      unfold firstAccepted at hended ⊢
      cases hjudge : judge candidate with
      | unending => simp [hjudge, HasEnded] at hended
      | accepted value => simp [hjudge, isAccepted]
      | rejected found =>
          simp only [hjudge] at hended
          simpa [hjudge, isAccepted] using ih hended

end Judgement

namespace SchemaRules

variable {rules : SchemaRules} {fills trail trail' : List SchemaId} {id part : SchemaId}
  {value : Value} {schema : Schema} {near : Neighbours value} {here : SchemaId → Judgement Value}
  {ids : List SchemaId}

/-! ## The trail -/

/-- The trail makes no difference when it holds nothing that the schema is composed of. -/
theorem applyAt_eq_of_isAcyclic (hacyclic : rules.schemas.IsAcyclic) :
    ∀ fills trail id value, ∀ trail',
      (∀ part, Relation.ReflTransGen rules.schemas.Composes id part →
        part ∉ trail ∧ part ∉ trail') →
      rules.applyAt fills trail id value = rules.applyAt fills trail' id value := by
  refine applyAt.induct rules _ ?_ ?_ ?_
  · intro fills trail id value hget trail' _
    rw [applyAt_of_get?_eq_none hget, applyAt_of_get?_eq_none hget]
  · intro fills trail id value schema hget hmem trail' hfresh
    exact absurd hmem (hfresh id .refl).1
  · intro fills trail id value schema hget hnew hhere _ _ trail' hfresh
    rw [applyAt_eq_judge hget hnew, applyAt_eq_judge hget (hfresh id .refl).2]
    refine judge_eq_of_components (fun part hmem => ?_) rfl rfl
    have hcomposes : rules.schemas.Composes id part := ⟨schema, hget, hmem⟩
    apply hhere part (id :: trail')
    intro other hreach
    have hne : other ≠ id := by
      rintro rfl
      exact hacyclic other (.head' hcomposes hreach)
    have hother := hfresh other (.head hcomposes hreach)
    simp [hne, hother]

/-- The guard against coming back to a schema at the same value is invisible: a schema judges a value
by what the others say on their own. -/
theorem apply_eq_judge_of_isAcyclic (hacyclic : rules.schemas.IsAcyclic)
    (hget : rules.schemas.get? id = some schema) :
    rules.apply id value = rules.judge schema value (rules.neighbours [] [] value) := by
  have hguarded : rules.apply id value =
      rules.judge schema value (rules.neighbours [] [id] value) :=
    applyAt_eq_judge hget List.not_mem_nil
  rw [hguarded]
  refine judge_eq_of_components (fun part hmem => ?_) rfl rfl
  apply applyAt_eq_of_isAcyclic hacyclic
  intro other hreach
  have hne : other ≠ id := by
    rintro rfl
    exact hacyclic other (.head' ⟨schema, hget, hmem⟩ hreach)
  simp [hne]

/-! ## The keywords -/

theorem gather_map_of_hasEnded (hended : ∀ id ∈ ids, (here id).HasEnded) :
    ∃ values found, Judgement.gather (ids.map here) = some (values, found) ∧
      values.length = ids.countP fun id => (here id).isAccepted := by
  refine ⟨_, _, Judgement.gather_of_hasEnded (by simpa using hended), ?_⟩
  rw [List.length_filterMap_eq_countP, List.countP_map]
  simp only [Judgement.isSome_value?]
  rfl

theorem isAccepted_judgeOneOf_iff (hended : (judgeOneOf here ids).HasEnded) :
    (judgeOneOf here ids).isAccepted ↔ ids.countP (fun id => (here id).isAccepted) = 1 := by
  obtain ⟨values, found, hgather, hlength⟩ :=
    gather_map_of_hasEnded (hasEnded_judgeOneOf_iff.1 hended)
  rw [judgeOneOf, hgather, ← hlength]
  rcases values with _ | ⟨first, _ | ⟨second, rest⟩⟩
  · simp [refuse, Judgement.refuse, Judgement.isAccepted]
  · simp [Judgement.isAccepted]
  · simp [refuse, Judgement.refuse, Judgement.isAccepted]

theorem judgeOneOf_of_none (hended : (judgeOneOf here ids).HasEnded)
    (hnone : ids.countP (fun id => (here id).isAccepted) = 0) :
    judgeOneOf here ids = refuse .noneOfOne := by
  obtain ⟨values, found, hgather, hlength⟩ :=
    gather_map_of_hasEnded (hasEnded_judgeOneOf_iff.1 hended)
  rw [hnone, List.length_eq_zero_iff] at hlength
  rw [judgeOneOf, hgather, hlength]

theorem judgeOneOf_of_many (hended : (judgeOneOf here ids).HasEnded)
    (hmany : 2 ≤ ids.countP fun id => (here id).isAccepted) :
    judgeOneOf here ids =
      refuse (.manyOfOne (ids.countP fun id => (here id).isAccepted)) := by
  obtain ⟨values, found, hgather, hlength⟩ :=
    gather_map_of_hasEnded (hasEnded_judgeOneOf_iff.1 hended)
  rw [← hlength] at hmany ⊢
  rw [judgeOneOf, hgather]
  rcases values with _ | ⟨first, _ | ⟨second, rest⟩⟩
  · simp at hmany
  · simp at hmany
  · rfl

theorem isAccepted_judgeTagged_iff {discriminator : Discriminator} :
    (judgeTagged here discriminator value).isAccepted ↔
      ∃ id, discriminator.Picks value id ∧ (here id).isAccepted := by
  simp only [Judgement.isAccepted_iff, judgeTagged_eq_accepted_iff]
  constructor
  · rintro ⟨typed, id, hpicks, haccepted⟩
    exact ⟨id, hpicks, typed, haccepted⟩
  · rintro ⟨id, hpicks, typed, haccepted⟩
    exact ⟨typed, id, hpicks, haccepted⟩

/-- The alternatives of a schema leave room for a value: the tagged one accepts it, or, without a
discriminator, exactly one of `oneOf` and at least one of `anyOf` do. -/
def HasAlternative (here : SchemaId → Judgement Value) (schema : Schema) (value : Value) : Prop :=
  (∃ discriminator part, schema.tagging? = some discriminator ∧ discriminator.Picks value part ∧
    (here part).isAccepted) ∨
  (schema.tagging? = none ∧
    (schema.oneOf ≠ [] → schema.oneOf.countP (fun part => (here part).isAccepted) = 1) ∧
    (schema.anyOf ≠ [] → ∃ part ∈ schema.anyOf, (here part).isAccepted))

theorem isAccepted_judgeAlternatives_iff
    (hended : ∀ judgement ∈ judgeAlternatives schema value here, judgement.HasEnded) :
    (∀ judgement ∈ judgeAlternatives schema value here, judgement.isAccepted) ↔
      HasAlternative here schema value := by
  unfold HasAlternative
  cases htagging : schema.tagging? with
  | some discriminator =>
      rw [judgeAlternatives_of_tagging? htagging, List.forall_mem_singleton,
        isAccepted_judgeTagged_iff]
      simp
  | none =>
      rw [judgeAlternatives_of_tagging?_eq_none htagging, List.forall_mem_append,
        forall_mem_unless_iff, forall_mem_unless_iff] at hended ⊢
      obtain ⟨hone, hany⟩ := hended
      have honeOf : (schema.oneOf ≠ [] → (judgeOneOf here schema.oneOf).isAccepted) ↔
          (schema.oneOf ≠ [] → schema.oneOf.countP (fun part => (here part).isAccepted) = 1) :=
        forall_congr' fun hne => isAccepted_judgeOneOf_iff (hone hne)
      have hanyOf : (schema.anyOf ≠ [] → (judgeAnyOf here schema.anyOf).isAccepted) ↔
          (schema.anyOf ≠ [] → ∃ part ∈ schema.anyOf, (here part).isAccepted) :=
        forall_congr' fun hne => Judgement.isAccepted_firstAccepted_iff (hany hne)
      rw [honeOf, hanyOf]
      simp

theorem isAccepted_judgeParts_iff (hhere : ∀ id, (near.here id).IsExplained)
    (hended : (rules.judgeParts schema value near).HasEnded) :
    (rules.judgeParts schema value near).isAccepted ↔
      (rules.judgeOwn schema value near).isAccepted ∧
        (∀ part ∈ schema.allOf, (near.here part).isAccepted) ∧
        HasAlternative near.here schema value := by
  have hparts := (hasEnded_judgeParts_iff.1 hended).2
  have hmembers := hasEnded_members_iff.2 hparts
  rw [List.forall_mem_append] at hmembers
  rw [judgeParts, Judgement.isAccepted_map, Judgement.isAccepted_all (isExplained_parts hhere),
    List.cons_append, List.forall_mem_cons, List.forall_mem_append, List.forall_mem_map,
    isAccepted_judgeAlternatives_iff hmembers.1, and_comm (a := HasAlternative _ _ _)]

/-- What is wrong with `oneOf` is reported. -/
theorem violation_mem_of_judgeOneOf {fault : SchemaFault}
    (hended : (rules.judgeParts schema value near).HasEnded) (htagging : schema.tagging? = none)
    (hone : schema.oneOf ≠ []) (hrefuse : judgeOneOf near.here schema.oneOf = refuse fault) :
    fault.violation ∈ (rules.judgeParts schema value near).violations := by
  have hall : ∀ judgement ∈ rules.judgeOwn schema value near ::
      judgeAlternatives schema value near.here ++ schema.allOf.map near.here,
      judgement.HasEnded := by
    rw [← Judgement.hasEnded_all, ← Judgement.hasEnded_map (value.mergeAll ·)]
    exact hended
  rw [judgeParts, Judgement.violations_map, Judgement.violations_all hall, List.mem_flatMap]
  refine ⟨judgeOneOf near.here schema.oneOf, ?_, ?_⟩
  · simp [judgeAlternatives_of_tagging?_eq_none htagging, hone]
  · rw [hrefuse]
    exact List.mem_singleton_self _

/-- Composition means what its keywords say, as far as applying the schema ends.  The judgement is
the one without a trail: it accepts a value when its own keywords, all members of `allOf` and its
alternatives do, each on its own.  A value that several or none of the members of `oneOf` accept is
refused for that reason. -/
theorem isAccepted_apply_iff_of_isAcyclic (rules : SchemaRules)
    (hacyclic : rules.schemas.IsAcyclic) (id : SchemaId) (schema : Schema) (value : Value)
    (hget : rules.schemas.get? id = some schema) (hnull : value ≠ .null)
    (hended : (rules.apply id value).HasEnded) :
    rules.apply id value = rules.judge schema value (rules.neighbours [] [] value) ∧
    ((rules.apply id value).isAccepted ↔
      (rules.judgeOwn schema value (rules.neighbours [] [] value)).isAccepted ∧
        (∀ part ∈ schema.allOf, (rules.apply part value).isAccepted) ∧
        HasAlternative (fun part => rules.apply part value) schema value) ∧
    (schema.tagging? = none → schema.oneOf ≠ [] →
      (2 ≤ schema.oneOf.countP (fun part => (rules.apply part value).isAccepted) →
        ∃ violation ∈ (rules.apply id value).violations, violation.kind = .multipleOneOfMatch) ∧
      (schema.oneOf.countP (fun part => (rules.apply part value).isAccepted) = 0 →
        ∃ violation ∈ (rules.apply id value).violations, violation.kind = .noOneOfMatch)) := by
  have hguard : rules.apply id value = rules.judge schema value (rules.neighbours [] [] value) :=
    apply_eq_judge_of_isAcyclic hacyclic hget
  have happly : rules.apply id value =
      rules.judgeParts schema value (rules.neighbours [] [] value) := by
    rw [hguard, judge_of_ne_null hnull]
  refine ⟨hguard, ?_⟩
  rw [happly] at hended ⊢
  constructor
  · exact isAccepted_judgeParts_iff (fun part => isExplained_applyAt rules [] [] part value) hended
  · intro htagging hone
    have honeOf : (judgeOneOf (fun part => rules.apply part value) schema.oneOf).HasEnded := by
      rw [hasEnded_judgeOneOf_iff]
      intro part hmem
      exact (hasEnded_judgeParts_iff.1 hended).2 part (.oneOf htagging hmem)
    constructor
    · intro hmany
      have hrefuse := judgeOneOf_of_many honeOf hmany
      exact ⟨_, violation_mem_of_judgeOneOf hended htagging hone hrefuse, rfl⟩
    · intro hnone
      have hrefuse := judgeOneOf_of_none honeOf hnone
      exact ⟨_, violation_mem_of_judgeOneOf hended htagging hone hrefuse, rfl⟩

/-- A choice between an integer and an object that refers back to the choice by a property. -/
theorem one_of_nested_choice_accepts_integer :
    let choice : Schema := { oneOf := [1, 2] }
    let node : Schema := { type? := some .object, properties := [("next", 0)] }
    let rules : SchemaRules := {
      schemas := ⟨#[choice, node, .ofType .integer]⟩
      formats := Format.standard }
    rules.schemas.IsAcyclic ∧ (rules.apply 0 (.integer 1)).HasEnded ∧
      (rules.apply 0 (.integer 1)).isAccepted := by
  intro choice node rules
  have hacyclic : rules.schemas.IsAcyclic := by
    apply SchemaTable.isAcyclic_of_lt
    rintro whole part ⟨schema, hget, hmem⟩
    have hlt : whole < 3 := SchemaTable.lt_size_of_get? hget
    interval_cases whole
    · obtain rfl : choice = schema := Option.some.inj hget
      have hpart : part = 1 ∨ part = 2 := by simpa [Schema.components, choice] using hmem
      rcases hpart with rfl | rfl <;> decide
    · obtain rfl : node = schema := Option.some.inj hget
      simp [Schema.components, node] at hmem
    · obtain rfl : Schema.ofType .integer = schema := Option.some.inj hget
      simp [Schema.components, Schema.ofType] at hmem
  have hfree : rules.schemas.IsDefaultFree := by
    simp [SchemaTable.IsDefaultFree, SchemaTable.forall_get?_iff, rules, choice, node,
      Schema.ofType]
  have hended : (rules.apply 0 (.integer 1)).HasEnded :=
    hasEnded_applyAt_of_isDefaultFree hfree [] [] 0 (.integer 1)
  have hnode : (rules.apply 1 (.integer 1)).isAccepted = false := by
    rw [apply, applyAt_eq_judge (show rules.schemas.get? 1 = some node from rfl) List.not_mem_nil]
    rfl
  have hinteger : (rules.apply 2 (.integer 1)).isAccepted = true := by
    rw [apply, applyAt_eq_judge (show rules.schemas.get? 2 = some (.ofType .integer) from rfl)
      List.not_mem_nil]
    rfl
  have hone : HasAlternative (fun part => rules.apply part (.integer 1)) choice (.integer 1) := by
    simp [HasAlternative, choice, Schema.tagging?, hnode, hinteger]
  have hmeaning := isAccepted_apply_iff_of_isAcyclic rules hacyclic 0 choice (.integer 1) rfl
    (by simp) hended
  exact ⟨hacyclic, hended, hmeaning.2.1.2 ⟨rfl, by simp [choice], hone⟩⟩

end SchemaRules

end ApiContract
