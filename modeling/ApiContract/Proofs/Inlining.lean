import ApiContract.Proofs.Agreement
import ApiContract.Proofs.ClosedContracts
import ApiContract.Proofs.Coercion
import ApiContract.Proofs.MergeLaws
import ApiContract.Proofs.Nesting
import ApiContract.Proofs.NullSearch
import ApiContract.Proofs.Sparing

/-!
# Members of members

A schema that asks for nothing but a list of others can be replaced by that list, where it is included
by another schema and named nowhere else.  What it accepts is merged among itself before it is merged
into the rest, which comes to the same, and its violations are those of its members.  Only the search
for null can tell, because it takes one step less.
-/

namespace ApiContract

/-! ## Gathering what was gathered -/

namespace Judgement

variable {α : Type}

/-- Judgements that are gathered on their own count as if they were gathered with the others, if
their values do. -/
theorem all_nested {before inner behind : List (Judgement α)} {whole nested : List α → α}
    (hbefore : ∀ judgement ∈ before, judgement.IsExplained)
    (hinner : ∀ judgement ∈ inner, judgement.IsExplained)
    (hbehind : ∀ judgement ∈ behind, judgement.IsExplained)
    (hvalues : ∀ first values rest : List α, before = first.map .accepted →
      inner = values.map .accepted → behind = rest.map .accepted →
        whole (first ++ nested values :: rest) = whole (first ++ values ++ rest)) :
    (all (before ++ (all inner).map nested :: behind)).map whole =
      (all (before ++ inner ++ behind)).map whole := by
  have hmapped : ((all inner).map nested).HasEnded ↔ ∀ judgement ∈ inner, judgement.HasEnded := by
    rw [hasEnded_map, hasEnded_all]
  have hsame : (∀ judgement ∈ before ++ (all inner).map nested :: behind, judgement.HasEnded) ↔
      ∀ judgement ∈ before ++ inner ++ behind, judgement.HasEnded := by
    rw [List.forall_mem_append, List.forall_mem_cons, hmapped, List.forall_mem_append,
      List.forall_mem_append, and_assoc]
  by_cases hended : ∀ judgement ∈ before ++ inner ++ behind, judgement.HasEnded
  · have hendedInner : ∀ judgement ∈ inner, judgement.HasEnded :=
      fun judgement hmem => hended judgement (by simp [hmem])
    have hviolations : (before ++ (all inner).map nested :: behind).flatMap violations =
        (before ++ inner ++ behind).flatMap violations := by
      simp only [List.flatMap_append, List.flatMap_cons, violations_map, violations_all hendedInner,
        List.append_assoc]
    by_cases hnone : (before ++ inner ++ behind).flatMap violations = []
    · have hexplained : ∀ judgement ∈ before ++ inner ++ behind, judgement.IsExplained :=
        List.forall_mem_append.2 ⟨List.forall_mem_append.2 ⟨hbefore, hinner⟩, hbehind⟩
      obtain ⟨values, hall⟩ := exists_map_accepted hexplained hended hnone
      obtain ⟨front, rest, rfl, hfront, rfl⟩ := List.append_eq_map_iff.1 hall
      obtain ⟨first, values, rfl, rfl, rfl⟩ := List.append_eq_map_iff.1 hfront.symm
      have hleft : first.map accepted ++ (accepted values).map nested :: rest.map accepted =
          (first ++ nested values :: rest).map accepted := by
        rw [List.map_append, List.map_cons, Judgement.map]
      rw [all_map_accepted, hleft, ← List.map_append, ← List.map_append, all_map_accepted,
        all_map_accepted, Judgement.map, Judgement.map, hvalues first values rest rfl rfl rfl]
    · rw [all_of_hasEnded (hsame.2 hended), all_of_hasEnded hended, hviolations, if_neg hnone,
        if_neg hnone]
  · have hleft : all (before ++ (all inner).map nested :: behind) = .unending := by
      by_contra hnot
      exact hended (hsame.1 (hasEnded_all.1 hnot))
    have hright : all (before ++ inner ++ behind) = .unending := by
      by_contra hnot
      exact hended (hasEnded_all.1 hnot)
    rw [hleft, hright]

end Judgement

namespace Schema

variable {schema : Schema} {ids others : List SchemaId} {part : SchemaId} {value child : Value}

/-! ## Schemas that include others -/

/-- The schema with other members of `allOf`. -/
def including (schema : Schema) (ids : List SchemaId) : Schema := { schema with allOf := ids }

theorem isComposed_including (hids : ids ≠ []) : (schema.including ids).isComposed = true := by
  simp [isComposed, including, hids]

theorem mem_references_of_mem_components (hmem : part ∈ schema.components) :
    part ∈ schema.references := by
  simp only [components, references, members, List.mem_append] at hmem ⊢
  rcases hmem with hmem | hmem
  · exact .inl (.inr hmem)
  · right
    cases hdiscriminator : schema.discriminator? with
    | none => simp [hdiscriminator] at hmem
    | some discriminator => simpa [hdiscriminator] using hmem

theorem asks_including (hasks : (schema.including ids).Asks value part child) :
    (schema.including others).Asks value part child := by
  cases hasks with
  | item hitems hmem => exact .item hitems hmem
  | declared hmem hdeclared => exact .declared hmem hdeclared
  | further hmem hundeclared hextras => exact .further hmem hundeclared hextras

/-- The schemas that a schema names for what is inside a value, and those that it includes. -/
def ownParts (schema : Schema) : List SchemaId :=
  Entries.values schema.properties ++ schema.items?.toList ++
    (SchemaTable.furtherSchema? schema).toList ++ schema.allOf

theorem mem_ownParts_of_asks (hasks : schema.Asks value part child) : part ∈ schema.ownParts := by
  simp only [ownParts, List.mem_append, Option.mem_toList]
  cases hasks with
  | item hitems _ => exact .inl (.inl (.inr hitems))
  | declared _ hdeclared =>
      exact .inl (.inl (.inl (List.mem_map_of_mem (Entries.mem_of_get? hdeclared))))
  | further _ _ hextras => exact .inl (.inr (by simp [SchemaTable.furtherSchema?, hextras]))

theorem mem_references_of_mem_ownParts (hmem : part ∈ schema.ownParts) :
    part ∈ schema.references := by
  simp only [ownParts, references, members, List.mem_append] at hmem ⊢
  tauto

theorem mem_references_of_asks (hasks : schema.Asks value part child) :
    part ∈ schema.references :=
  mem_references_of_mem_ownParts (mem_ownParts_of_asks hasks)

end Schema

namespace SchemaRules

variable {rules : SchemaRules} {schema : Schema} {value : Value} {near near' : Neighbours value}
  {here here' : SchemaId → Judgement Value} {ids others : List SchemaId} {table : SchemaTable}

/-! ## One step -/

/-- The same rules for other schemas. -/
def withSchemas (rules : SchemaRules) (table : SchemaTable) : SchemaRules :=
  { rules with schemas := table }

/-- Neighbours agree on what is inside the value and on defaults, as far as the schema asks. -/
structure AgreeInside (rules : SchemaRules) (schema : Schema) (near near' : Neighbours value) :
    Prop where
  inside : ∀ part child, (hasks : schema.Asks value part child) →
    near.inside child (mem_children_of_asks hasks) part =
      near'.inside child (mem_children_of_asks hasks) part
  filled : ∀ missing, rules.FillsIn schema value missing →
    near.filled missing.2.1 missing.2.2 = near'.filled missing.2.1 missing.2.2

theorem judgeItems_of_agreeInside {items : List Value} {near near' : Neighbours (.array items)}
    (hagree : rules.AgreeInside schema near near') :
    judgeItems near schema items (fun _ hmem => hmem) =
      judgeItems near' schema items fun _ hmem => hmem := by
  unfold judgeItems
  cases hitems : schema.items? with
  | none => rfl
  | some part =>
      refine congrArg (fun judged : List (Judgement Value) =>
        (Judgement.all judged).map Value.array) ?_
      refine List.map_congr_left fun entry _ => ?_
      obtain ⟨⟨item, hmem⟩, index⟩ := entry
      exact congrArg (Judgement.under (.index index)) (hagree.inside part item (.item hitems hmem))

theorem judgeMembers_of_agreeInside {members : Entries Value}
    {near near' : Neighbours (.object members)} (hagree : rules.AgreeInside schema near near')
    (hobject : schema.effectiveType? = some .object) :
    judgeMembers rules near schema members
        (fun _ hmem => List.mem_map.2 ⟨_, hmem, rfl⟩) =
      judgeMembers rules near' schema members
        fun _ hmem => List.mem_map.2 ⟨_, hmem, rfl⟩ := by
  unfold judgeMembers
  refine congrArg (fun judged : List (Judgement (String × Value)) =>
    (Judgement.all judged).map Value.object) ?_
  refine congrArg₂ (· ++ ·) (congrArg₂ (· ++ ·) rfl ?_) ?_
  · refine List.map_congr_left ?_
    rintro ⟨⟨name, child⟩, hmem⟩ -
    refine congrArg (named name) ?_
    split
    · next part hpart =>
        exact hagree.inside part child
          (Schema.asks_of_governs hmem (propertySchema_eq_ok_some_iff.1 hpart))
    · rfl
    · rfl
  · refine List.map_congr_left fun missing hmissing => ?_
    exact congrArg (named missing.1) (hagree.filled missing ⟨hobject, members, rfl, hmissing⟩)

theorem judgeOwn_of_agreeInside (hagree : rules.AgreeInside schema near near') :
    rules.judgeOwn schema value near = rules.judgeOwn schema value near' := by
  have htype : rules.judgeType schema value near = rules.judgeType schema value near' := by
    refine judgeType_related (fun _ => rfl) rfl ?_ ?_
    · rintro items rfl hkind
      rw [judgeType_array hkind, judgeType_array hkind]
      exact judgeItems_of_agreeInside hagree
    · rintro members rfl hkind
      rw [judgeType_object hkind, judgeType_object hkind]
      exact judgeMembers_of_agreeInside hagree hkind
  rw [judgeOwn, judgeOwn, htype]

theorem judgeAlternatives_of_components
    (hhere : ∀ part ∈ schema.components, here part = here' part) :
    judgeAlternatives schema value here = judgeAlternatives schema value here' :=
  judgeAlternatives_of_consulted
    (fun _ part htagging hpicks => hhere part (Schema.mem_components_of_picks htagging hpicks))
    (List.forall_mem_append.2
      ⟨fun part hmem => hhere part (Schema.mem_components_of_mem_oneOf hmem),
        fun part hmem => hhere part (Schema.mem_components_of_mem_anyOf hmem)⟩)

theorem missingDefaults_of_defaults
    (hdefaults : ∀ id ∈ Entries.values schema.properties, (table.get? id).bind Schema.default? =
      (rules.schemas.get? id).bind Schema.default?) (members : Entries Value) :
    (rules.withSchemas table).missingDefaults schema members =
      rules.missingDefaults schema members := by
  rw [missingDefaults_eq, missingDefaults_eq]
  refine List.filterMap_congr fun property hmem => ?_
  have hmap : ∀ found : Option Schema, (found.bind fun schema => schema.default?.map fun literal =>
      (property.1, property.2, literal)) =
      (found.bind Schema.default?).map fun literal => (property.1, property.2, literal) := by
    intro found
    cases found <;> rfl
  have hsame : ((rules.withSchemas table).schemas.get? property.2).bind Schema.default? =
      (rules.schemas.get? property.2).bind Schema.default? :=
    hdefaults property.2 (List.mem_map_of_mem hmem)
  unfold missingDefault?
  rw [hmap, hmap, hsame]

theorem judgeOwn_of_defaults
    (hdefaults : ∀ id ∈ Entries.values schema.properties, (table.get? id).bind Schema.default? =
      (rules.schemas.get? id).bind Schema.default?) :
    (rules.withSchemas table).judgeOwn schema value near =
      rules.judgeOwn schema value near := by
  have htype : (rules.withSchemas table).judgeType schema value near =
      rules.judgeType schema value near := by
    refine judgeType_related (fun _ => rfl) rfl ?_ ?_
    · rintro items rfl hkind
      rw [judgeType_array hkind, judgeType_array hkind]
    · rintro members rfl hkind
      rw [judgeType_object hkind, judgeType_object hkind]
      simp only [judgeMembers, missingDefaults_of_defaults hdefaults]
      rfl
  rw [judgeOwn, judgeOwn, htype]
  rfl

theorem judgeParts_of_agreeInside
    (hdefaults : ∀ id ∈ Entries.values schema.properties, (table.get? id).bind Schema.default? =
      (rules.schemas.get? id).bind Schema.default?)
    (hagree : rules.AgreeInside schema near near')
    (halternatives : judgeAlternatives schema value near'.here =
      judgeAlternatives schema value near.here)
    (hincluded : ∀ part ∈ schema.allOf, near'.here part = near.here part) :
    (rules.withSchemas table).judgeParts schema value near' = rules.judgeParts schema value near := by
  rw [judgeParts, judgeParts, judgeOwn_of_defaults hdefaults, ← judgeOwn_of_agreeInside hagree,
    halternatives, List.map_congr_left hincluded]

/-- What a schema says on its own does not depend on what it includes, as long as it includes
something. -/
theorem judgeOwn_including (hids : ids ≠ []) (hothers : others ≠ []) :
    rules.judgeOwn (schema.including ids) value near =
      rules.judgeOwn (schema.including others) value near := by
  have hproperty : ∀ name, rules.propertySchema (schema.including ids) name =
      rules.propertySchema (schema.including others) name := by
    intro name
    unfold propertySchema
    rw [Schema.isComposed_including hids, Schema.isComposed_including hothers]
    rfl
  have htype : rules.judgeType (schema.including ids) value near =
      rules.judgeType (schema.including others) value near := by
    refine judgeType_related (fun _ => rfl) rfl ?_ ?_
    · rintro items rfl hkind
      have hkind' : (schema.including others).effectiveType? = some .array := hkind
      rw [judgeType_array hkind, judgeType_array hkind']
      rfl
    · rintro members rfl hkind
      have hkind' : (schema.including others).effectiveType? = some .object := hkind
      rw [judgeType_object hkind, judgeType_object hkind']
      simp only [judgeMembers, hproperty]
      rfl
  rw [judgeOwn, judgeOwn, htype]
  rfl

end SchemaRules

/-! ## Tables -/

namespace SchemaTable

/-- The second table is the first one, except that the members of a schema take its place where it is
included.  It asks for nothing but these members and is named nowhere else. -/
structure Inlines (nested flat : SchemaTable) (whole part : SchemaId) (schema : Schema)
    (before members behind : List SchemaId) : Prop where
  atWhole : nested.get? whole = some (schema.including (before ++ part :: behind))
  inlined : flat.get? whole = some (schema.including (before ++ members ++ behind))
  atPart : nested.get? part = some { allOf := members }
  atOthers : ∀ id, id ≠ whole → flat.get? id = nested.get? id
  hasMembers : members ≠ []
  apart : part ≠ whole
  once : part ∉ (schema.including (before ++ behind)).references
  elsewhere : ∀ id other, id ≠ whole → nested.get? id = some other → part ∉ other.references

/-- Wherever the judgement of a value comes to null, the search for null finds the same in both
tables. -/
def SearchesAlike (nested flat : SchemaTable) (part id : SchemaId) (value : Value) : Prop :=
  ∀ other, other ≠ part → nested.ComesTo id value other .null →
    SchemaRules.memberAdmitsNull flat SchemaRules.nullSteps other =
      SchemaRules.memberAdmitsNull nested SchemaRules.nullSteps other

variable {nested flat : SchemaTable} {whole part id : SchemaId} {schema : Schema}
  {before members behind : List SchemaId} {value : Value}

theorem SearchesAlike.of_comesTo {next : SchemaId} {inner : Value}
    (halike : nested.SearchesAlike flat part id value) (hcomes : nested.ComesTo id value next inner) :
    nested.SearchesAlike flat part next inner :=
  fun other hother hnull => halike other hother (hcomes.trans hnull)

theorem mem_ids_iff_isSome {table : SchemaTable} : id ∈ table.ids ↔ (table.get? id).isSome := by
  simp [ids, size, get?]

namespace Inlines

variable (hinlines : nested.Inlines flat whole part schema before members behind)

include hinlines

theorem default?_eq (id : SchemaId) :
    (flat.get? id).bind Schema.default? = (nested.get? id).bind Schema.default? := by
  by_cases hid : id = whole
  · rw [hid, hinlines.atWhole, hinlines.inlined]
    rfl
  · rw [hinlines.atOthers id hid]

theorem ne_part_of_default {property : Schema} {literal : Json}
    (hget : nested.get? id = some property) (hdefault : property.default? = some literal) :
    id ≠ part := by
  rintro rfl
  obtain rfl := Option.some.inj (hinlines.atPart.symm.trans hget)
  cases hdefault

theorem mem_ids_iff (id : SchemaId) : id ∈ flat.ids ↔ id ∈ nested.ids := by
  rw [mem_ids_iff_isSome, mem_ids_iff_isSome]
  by_cases hid : id = whole
  · rw [hid, hinlines.atWhole, hinlines.inlined]
    rfl
  · rw [hinlines.atOthers id hid]

theorem isKeyed (htable : nested.IsKeyed) : flat.IsKeyed := by
  constructor
  · intro id found hget
    by_cases hid : id = whole
    · obtain rfl := Option.some.inj (hinlines.inlined.symm.trans (hid ▸ hget))
      have hdistinct := htable.properties whole _ hinlines.atWhole
      exact hdistinct
    · exact htable.properties id found (hinlines.atOthers id hid ▸ hget)
  · intro id found literal hget hdefault
    by_cases hid : id = whole
    · obtain rfl := Option.some.inj (hinlines.inlined.symm.trans (hid ▸ hget))
      have hkeyed := fun literal => htable.default whole _ literal hinlines.atWhole
      exact hkeyed literal hdefault
    · exact htable.default id found literal (hinlines.atOthers id hid ▸ hget) hdefault

end Inlines

end SchemaTable

namespace SchemaRules

variable {rules : SchemaRules} {flat : SchemaTable} {fills trail trail' : List SchemaId}
  {whole part id : SchemaId} {schema schema' : Schema} {before members behind : List SchemaId}
  {value : Value} {near near' : Neighbours value}

theorem judge_of_parts (hnullable : schema'.nullable = schema.nullable)
    (htype : schema'.type? = schema.type?) (hcomposed : schema'.isComposed = schema.isComposed)
    (hnull : value = .null → admitsNull flat nullSteps schema' =
      admitsNull rules.schemas nullSteps schema)
    (hparts : rules.TakesApart schema value →
      (rules.withSchemas flat).judgeParts schema' value near' = rules.judgeParts schema value near) :
    (rules.withSchemas flat).judge schema' value near' = rules.judge schema value near := by
  cases rules.judgeView schema value with
  | taken htakes =>
      have htakes' : (rules.withSchemas flat).TakesNull schema' := by
        have hadmits : admitsNull (rules.withSchemas flat).schemas nullSteps schema' =
          admitsNull rules.schemas nullSteps schema := hnull rfl
        unfold TakesNull
        rwa [hnullable, htype, hcomposed, hadmits]
      rw [judge_null_of_takesNull htakes, judge_null_of_takesNull htakes']
  | refused hrefused =>
      have hrefused' : admitsNull (rules.withSchemas flat).schemas nullSteps schema' = false :=
        (hnull rfl).trans hrefused
      rw [judge_null_of_admitsNull_eq_false hrefused, judge_null_of_admitsNull_eq_false hrefused']
  | apart happart =>
      have happart' : (rules.withSchemas flat).TakesApart schema' value := by
        intro hvalue
        obtain ⟨hfree, hkind, hadmits, halone⟩ := happart hvalue
        refine ⟨hnullable.trans hfree, htype ▸ hkind, ?_, hcomposed.trans halone⟩
        exact (hnull hvalue).trans hadmits
      rw [judge_of_takesApart happart, judge_of_takesApart happart', hparts happart]

/-- Neighbours of two tables agree if the schemas that are asked for judge alike in both. -/
theorem agreeInside_of_alike
    (hids : ∀ missing, rules.FillsIn schema value missing →
      (missing.2.1 ∈ flat.ids ↔ missing.2.1 ∈ rules.schemas.ids))
    (hinside : ∀ next child, schema.Asks value next child →
      (rules.withSchemas flat).applyAt fills [] next child = rules.applyAt fills [] next child)
    (hfilled : ∀ missing, rules.FillsIn schema value missing →
      missing.2.1 ∈ rules.schemas.ids ∧ missing.2.1 ∉ fills →
        (rules.withSchemas flat).applyAt (missing.2.1 :: fills) [] missing.2.1 (.ofJson missing.2.2) =
          rules.applyAt (missing.2.1 :: fills) [] missing.2.1 (.ofJson missing.2.2)) :
    rules.AgreeInside schema (rules.neighbours fills trail value)
      ((rules.withSchemas flat).neighbours fills trail' value) := by
  constructor
  · exact fun next child hasks => (hinside next child hasks).symm
  · intro missing hmissing
    have hidsHere : missing.2.1 ∈ (rules.withSchemas flat).schemas.ids ↔
        missing.2.1 ∈ rules.schemas.ids := hids missing hmissing
    simp only [neighbours, fillAt, hidsHere]
    split
    · next hfree => exact (hfilled missing hmissing hfree).symm
    · rfl

theorem partJudgements_including (rules : SchemaRules) (schema : Schema) (ids : List SchemaId)
    (near : Neighbours value) :
    rules.partJudgements (schema.including ids) value near =
      rules.judgeOwn (schema.including ids) value near ::
        judgeAlternatives schema value near.here ++ ids.map near.here := rfl

/-! ## The judgement of the whole -/

/-- The schemas on the trails are the same, apart from the part, which is there only below the
whole. -/
structure TrailsAlike (whole part : SchemaId) (trail trail' : List SchemaId) : Prop where
  others : ∀ other, other ≠ part → (other ∈ trail' ↔ other ∈ trail)
  below : part ∈ trail → whole ∈ trail

theorem TrailsAlike.nil : TrailsAlike whole part [] [] := ⟨fun _ _ => .rfl, by simp⟩

theorem TrailsAlike.cons (htrails : TrailsAlike whole part trail trail') (hid : id ≠ part) :
    TrailsAlike whole part (id :: trail) (id :: trail') where
  others other hother := by rw [List.mem_cons, List.mem_cons, htrails.others other hother]
  below hmem := by
    rcases List.mem_cons.1 hmem with heq | hmem
    · exact absurd heq.symm hid
    · exact List.mem_cons_of_mem _ (htrails.below hmem)

theorem TrailsAlike.enter (htrails : TrailsAlike whole part trail trail') (hwhole : whole ∈ trail) :
    TrailsAlike whole part (part :: trail) trail' where
  others other hother := by
    rw [htrails.others other hother, List.mem_cons, or_iff_right hother]
  below _ := List.mem_cons_of_mem _ hwhole

/-- What the judgement of a schema in one table has to do with those in the other: it is the same one,
and that of the part is put together from those of its members. -/
structure JudgedAlike (rules : SchemaRules) (flat : SchemaTable) (whole part : SchemaId)
    (members fills trail trail' : List SchemaId) (id : SchemaId) (value : Value) : Prop where
  other : id ≠ part →
    (rules.withSchemas flat).applyAt fills trail' id value = rules.applyAt fills trail id value
  part : id = part → part ∉ trail → whole ∈ trail →
    (value = .null → admitsNull rules.schemas nullSteps { allOf := members } = true) →
      rules.applyAt fills trail part value =
        (Judgement.all (members.map fun member =>
          (rules.withSchemas flat).applyAt fills trail' member value)).map
            fun results => value.mergeAll (value :: results)

section Step

variable (hinlines : rules.schemas.Inlines flat whole part schema before members behind)

include hinlines

/-- A whole says the same with the members of its part in place of the part, if the part gives their
merged results, behind the value as it came in. -/
theorem judgeParts_inlined (hkeyed : value.Keyed)
    (hagree : rules.AgreeInside (schema.including (before ++ part :: behind)) near near')
    (hhere : ∀ next ∈ (schema.including (before ++ behind)).components,
      near'.here next = near.here next)
    (hpart : near.here part = (Judgement.all (members.map near'.here)).map fun results =>
      value.mergeAll (value :: results))
    (hexplained : ∀ next, (near'.here next).IsExplained)
    (hrefines : ∀ results : List Value, (rules.withSchemas flat).partJudgements
        (schema.including (before ++ members ++ behind)) value near' = results.map .accepted →
      ∀ result ∈ results, value.Refines result ∧ result.Keyed) :
    (rules.withSchemas flat).judgeParts (schema.including (before ++ members ++ behind)) value near' =
      rules.judgeParts (schema.including (before ++ part :: behind)) value near := by
  have hown : (rules.withSchemas flat).judgeOwn (schema.including (before ++ members ++ behind)) value
        near' = rules.judgeOwn (schema.including (before ++ part :: behind)) value near := by
    rw [judgeOwn_of_agreeInside hagree,
      ← judgeOwn_of_defaults fun next _ => hinlines.default?_eq next]
    exact judgeOwn_including (by simp [hinlines.hasMembers]) (by simp)
  have halternatives : judgeAlternatives schema value near'.here =
      judgeAlternatives schema value near.here :=
    @judgeAlternatives_of_components (schema.including (before ++ behind)) value near'.here near.here
      hhere
  have hincluded : ∀ next ∈ before ++ behind, near'.here next = near.here next :=
    fun next hmem => hhere next (Schema.mem_components_of_mem_allOf hmem)
  rw [List.forall_mem_append] at hincluded
  -- What comes first, up to the members in front of the part.
  obtain ⟨front, hfront⟩ : ∃ front, front =
      rules.judgeOwn (schema.including (before ++ part :: behind)) value near ::
        judgeAlternatives schema value near.here ++ before.map near'.here := ⟨_, rfl⟩
  have hflat : (rules.withSchemas flat).partJudgements
      (schema.including (before ++ members ++ behind)) value near' =
        front ++ members.map near'.here ++ behind.map near'.here := by
    rw [partJudgements_including, hown, halternatives, hfront]
    simp
  have hnested : rules.partJudgements (schema.including (before ++ part :: behind)) value near =
      front ++ (Judgement.all (members.map near'.here)).map
        (fun results => value.mergeAll (value :: results)) :: behind.map near'.here := by
    rw [partJudgements_including, hfront, ← hpart, List.map_congr_left hincluded.1, List.map_congr_left hincluded.2]
    simp
  rw [hflat] at hrefines
  rw [judgeParts_eq_partJudgements, judgeParts_eq_partJudgements, hflat, hnested]
  have hfrontExplained : ∀ judgement ∈ front, judgement.IsExplained := by
    intro judgement hmem
    refine @isExplained_parts (rules.withSchemas flat) value
      (schema.including (before ++ members ++ behind)) near' hexplained judgement ?_
    change judgement ∈ (rules.withSchemas flat).partJudgements _ value near'
    rw [hflat]
    simp [hmem]
  refine (Judgement.all_nested hfrontExplained ?_ ?_ ?_).symm
  · exact List.forall_mem_map.2 fun next _ => hexplained next
  · exact List.forall_mem_map.2 fun next _ => hexplained next
  · intro first values rest hfirst hvalues hrest
    have hall := hrefines (first ++ values ++ rest) (by simp [hfirst, hvalues, hrest])
    simp only [List.forall_mem_append] at hall
    have hsome : first ≠ [] := by
      rintro rfl
      simp [hfront] at hfirst
    exact Value.mergeAll_nested hkeyed hsome hall.1.1 hall.1.2

/-! ## All steps -/

/-- The part gives the merged results of its members, behind the value as it came in. -/
theorem applyAt_part (hnew : part ∉ trail)
    (hnull : value = .null → admitsNull rules.schemas nullSteps { allOf := members } = true)
    (hhere : ∀ member ∈ members,
      (rules.withSchemas flat).applyAt fills trail' member value =
        rules.applyAt fills (part :: trail) member value) :
    rules.applyAt fills trail part value =
      (Judgement.all (members.map fun member =>
        (rules.withSchemas flat).applyAt fills trail' member value)).map
          fun results => value.mergeAll (value :: results) := by
  have happart : rules.TakesApart { allOf := members } value := by
    intro hvalue
    exact ⟨rfl, by simp, hnull hvalue, by simp [Schema.isComposed, hinlines.hasMembers]⟩
  have hparts : rules.partJudgements { allOf := members } value
      (rules.neighbours fills (part :: trail) value) =
        .accepted value :: members.map fun member =>
          (rules.withSchemas flat).applyAt fills trail' member value := by
    rw [List.map_congr_left hhere]
    refine congrArg₂ List.cons (judgeOwn_of_isUnbounded ⟨rfl, rfl, rfl⟩) rfl
  rw [applyAt_eq_judge hinlines.atPart hnew, judge_of_takesApart happart,
    judgeParts_eq_partJudgements, hparts, Judgement.all_cons_accepted]
  cases Judgement.all (members.map fun member =>
    (rules.withSchemas flat).applyAt fills trail' member value) <;> rfl

/-- The search for null comes to the part when it comes to the whole. -/
theorem admitsNull_part
    (hnull : rules.ComposesNull (schema.including (before ++ part :: behind))) :
    admitsNull rules.schemas nullSteps { allOf := members } = true := by
  obtain ⟨hfree, hkind, hadmits, -⟩ := hnull
  have htyped := effectiveType?_of_admitsNull hfree hkind hadmits
  have hsteps : nullSteps = 32 + 1 := rfl
  rw [hsteps, admitsNull_succ] at hadmits
  simp only [hfree, htyped, Bool.false_or, Option.isSome_none, Bool.false_eq_true, ↓reduceIte]
    at hadmits
  rw [if_neg (by simpa using hkind), Bool.and_eq_true, List.all_eq_true] at hadmits
  have hpart := hadmits.2 part (by simp [Schema.including])
  rw [memberAdmitsNull, hinlines.atPart] at hpart
  exact admitsNull_succ_of_admitsNull hpart

omit hinlines in
theorem admitsNull_eq_of_searchesAlike {found found' : Schema} (hid : id ≠ part)
    (halike : rules.schemas.SearchesAlike flat part id value)
    (hget : rules.schemas.get? id = some found) (hget' : flat.get? id = some found')
    (hvalue : value = .null) :
    admitsNull flat nullSteps found' = admitsNull rules.schemas nullSteps found := by
  subst hvalue
  have hfound := halike id hid .self
  simpa only [memberAdmitsNull, hget, hget'] using hfound

theorem applyAt_elsewhere (hid : id ≠ part) (hwhole : id ≠ whole)
    (hget : rules.schemas.get? id = some schema') (hnew : id ∉ trail)
    (htrails : TrailsAlike whole part trail trail')
    (halike : rules.schemas.SearchesAlike flat part id value)
    (hagree : rules.AgreeInside schema' (rules.neighbours fills (id :: trail) value)
      ((rules.withSchemas flat).neighbours fills (id :: trail') value))
    (hhere : ∀ next ∈ schema'.components, next ≠ part →
      (rules.withSchemas flat).applyAt fills (id :: trail') next value =
        rules.applyAt fills (id :: trail) next value) :
    (rules.withSchemas flat).applyAt fills trail' id value = rules.applyAt fills trail id value := by
  have hget' : flat.get? id = some schema' := (hinlines.atOthers id hwhole).trans hget
  have hnew' : id ∉ trail' := fun hmem => hnew ((htrails.others id hid).1 hmem)
  have hother : ∀ next ∈ schema'.components, next ≠ part := by
    rintro next hmem rfl
    exact hinlines.elsewhere id schema' hwhole hget (Schema.mem_references_of_mem_components hmem)
  rw [applyAt_eq_judge hget hnew,
    applyAt_eq_judge (show (rules.withSchemas flat).schemas.get? id = some schema' from hget') hnew']
  refine judge_of_parts rfl rfl rfl
    (admitsNull_eq_of_searchesAlike hid halike hget hget') fun _ => ?_
  have hcomponents : ∀ next ∈ schema'.components,
      (rules.withSchemas flat).applyAt fills (id :: trail') next value =
        rules.applyAt fills (id :: trail) next value :=
    fun next hmem => hhere next hmem (hother next hmem)
  exact judgeParts_of_agreeInside (fun next _ => hinlines.default?_eq next) hagree
    (judgeAlternatives_of_components hcomponents)
    fun next hmem => hcomponents next (Schema.mem_components_of_mem_allOf hmem)

theorem applyAt_whole (hformats : rules.formats = Format.standard)
    (htable : rules.schemas.IsKeyed) (hkeyed : value.Keyed) (hnew : whole ∉ trail)
    (htrails : TrailsAlike whole part trail trail')
    (halike : rules.schemas.SearchesAlike flat part whole value)
    (hagree : rules.AgreeInside (schema.including (before ++ part :: behind))
      (rules.neighbours fills (whole :: trail) value)
      ((rules.withSchemas flat).neighbours fills (whole :: trail') value))
    (hhere : ∀ next ∈ (schema.including (before ++ part :: behind)).components,
      rules.JudgedAlike flat whole part members fills (whole :: trail) (whole :: trail') next value) :
    (rules.withSchemas flat).applyAt fills trail' whole value =
      rules.applyAt fills trail whole value := by
  have hwhole := hinlines.apart.symm
  have hnew' : whole ∉ trail' := fun hmem => hnew ((htrails.others whole hwhole).1 hmem)
  have hget : (rules.withSchemas flat).schemas.get? whole =
      some (schema.including (before ++ members ++ behind)) := hinlines.inlined
  have hcomposed : (schema.including (before ++ members ++ behind)).isComposed =
      (schema.including (before ++ part :: behind)).isComposed := by
    rw [Schema.isComposed_including (by simp [hinlines.hasMembers]),
      Schema.isComposed_including (by simp)]
  have hformats' : (rules.withSchemas flat).formats = Format.standard := hformats
  have htable' : (rules.withSchemas flat).schemas.IsKeyed := hinlines.isKeyed htable
  rw [applyAt_eq_judge hinlines.atWhole hnew, applyAt_eq_judge hget hnew']
  refine judge_of_parts rfl rfl hcomposed (admitsNull_eq_of_searchesAlike hwhole halike
    hinlines.atWhole hinlines.inlined) fun happart => ?_
  refine judgeParts_inlined hinlines hkeyed hagree (fun next hmem => ?_) ?_
    (fun next => isExplained_applyAt _ _ _ _ _)
    fun results => refines_of_partJudgements hformats' htable' hget hkeyed
  · have hcomponent : next ∈ (schema.including (before ++ part :: behind)).components := by
      simp only [Schema.components, Schema.including, List.mem_append, List.mem_cons] at hmem ⊢
      tauto
    refine (hhere next hcomponent).other ?_
    rintro rfl
    exact hinlines.once (Schema.mem_references_of_mem_components hmem)
  · have hcomponent : part ∈ (schema.including (before ++ part :: behind)).components :=
      Schema.mem_components_of_mem_allOf (by simp [Schema.including])
    refine (hhere part hcomponent).part rfl ?_ List.mem_cons_self fun hvalue =>
      admitsNull_part hinlines (happart hvalue)
    rw [List.mem_cons, not_or]
    exact ⟨hinlines.apart, fun hmem => hnew (htrails.below hmem)⟩

/-- Neighbours agree below a schema that does not ask for the part, if what is asked for is judged
alike. -/
theorem agreeInside_of_judgedAlike (htable : rules.schemas.IsKeyed)
    (hget : rules.schemas.get? id = some schema') (hkeyed : value.Keyed)
    (halike : rules.schemas.SearchesAlike flat part id value)
    (hinside : ∀ child ∈ value.children, ∀ next, child.Keyed →
      rules.schemas.SearchesAlike flat part next child →
        rules.JudgedAlike flat whole part members fills [] [] next child)
    (hfilled : ∀ next literal, next ∈ rules.schemas.ids ∧ next ∉ fills →
      (Value.ofJson literal).Keyed → rules.schemas.SearchesAlike flat part next (.ofJson literal) →
        rules.JudgedAlike flat whole part members (next :: fills) [] [] next (.ofJson literal))
    (hother : ∀ next child, schema'.Asks value next child → next ≠ part) :
    rules.AgreeInside schema' (rules.neighbours fills trail value)
      ((rules.withSchemas flat).neighbours fills trail' value) := by
  refine agreeInside_of_alike (fun missing _ => hinlines.mem_ids_iff missing.2.1)
    (fun next child hasks => ?_) fun missing hmissing hfree => ?_
  · have hchild := mem_children_of_asks hasks
    exact (hinside child hchild next (hkeyed.of_mem_children hchild)
      (halike.of_comesTo (.inside .self hget hasks))).other (hother next child hasks)
  · obtain ⟨property, hproperty, hdefault⟩ := hmissing.exists_default
    have hliteral := Value.keyed_ofJson (htable.default _ property _ hproperty hdefault)
    exact (hfilled _ _ hfree hliteral
      (halike.of_comesTo (.filled .self hget (SchemaTable.fillsIn_iff.1 hmissing)))).other
      (hinlines.ne_part_of_default hproperty hdefault)

theorem judgedAlike (hformats : rules.formats = Format.standard) (htable : rules.schemas.IsKeyed) :
    ∀ fills trail id value, value.Keyed → rules.schemas.SearchesAlike flat part id value →
      ∀ trail', TrailsAlike whole part trail trail' →
        rules.JudgedAlike flat whole part members fills trail trail' id value := by
  refine applyAt.induct rules _ ?_ ?_ ?_
  · intro fills trail id value hget _ _ trail' _
    have hwhole : id ≠ whole := by
      rintro rfl
      simp [hinlines.atWhole] at hget
    have hget' : (rules.withSchemas flat).schemas.get? id = none :=
      (hinlines.atOthers id hwhole).trans hget
    constructor
    · intro _
      rw [applyAt_of_get?_eq_none hget, applyAt_of_get?_eq_none hget']
    · rintro rfl
      simp [hinlines.atPart] at hget
  · intro fills trail id value _ _ hmem _ _ trail' htrails
    constructor
    · intro hid
      rw [applyAt_of_mem hmem, applyAt_of_mem ((htrails.others id hid).2 hmem)]
    · rintro rfl hnew
      exact absurd hmem hnew
  · intro fills trail id value schema' hget hnew hhere hinside hfilled hkeyed halike trail' htrails
    have hhereAlike : ∀ next ∈ schema'.components, ∀ trail'',
        TrailsAlike whole part (id :: trail) trail'' →
          rules.JudgedAlike flat whole part members fills (id :: trail) trail'' next value :=
      fun next hmem trail'' htrails' =>
        hhere next hkeyed (halike.of_comesTo (.here .self hget hmem)) trail'' htrails'
    have hagree : (∀ next child, schema'.Asks value next child → next ≠ part) →
        rules.AgreeInside schema' (rules.neighbours fills (id :: trail) value)
          ((rules.withSchemas flat).neighbours fills (id :: trail') value) :=
      agreeInside_of_judgedAlike hinlines htable hget hkeyed halike
        (fun child hmem next hchild hnext => hinside child hmem next hchild hnext [] .nil)
        fun next literal hfree hliteral hnext => hfilled next literal hfree hliteral hnext [] .nil
    by_cases hpart : id = part
    · subst hpart
      refine ⟨fun hne => absurd rfl hne, fun _ hnew hwhole hnull => ?_⟩
      obtain rfl := Option.some.inj (hinlines.atPart.symm.trans hget)
      refine applyAt_part hinlines hnew hnull fun member hmem => ?_
      have hcomponent : member ∈ ({ allOf := members } : Schema).components :=
        Schema.mem_components_of_mem_allOf hmem
      refine (hhereAlike member hcomponent trail' (htrails.enter hwhole)).other ?_
      rintro rfl
      exact hinlines.elsewhere _ _ hinlines.apart hget
        (Schema.mem_references_of_mem_components hcomponent)
    · refine ⟨fun _ => ?_, fun heq => absurd heq hpart⟩
      by_cases hwhole : id = whole
      · subst hwhole
        obtain rfl := Option.some.inj (hinlines.atWhole.symm.trans hget)
        refine applyAt_whole hinlines hformats htable hkeyed hnew htrails halike (hagree ?_)
          fun next hmem => hhereAlike next hmem _ (htrails.cons hpart)
        rintro next child hasks rfl
        exact hinlines.once (Schema.mem_references_of_asks (Schema.asks_including hasks))
      · refine applyAt_elsewhere hinlines hpart hwhole hget hnew htrails halike (hagree ?_)
          fun next hmem hother => (hhereAlike next hmem _ (htrails.cons hpart)).other hother
        rintro next child hasks rfl
        exact hinlines.elsewhere id schema' hwhole hget (Schema.mem_references_of_asks hasks)

end Step

/-! ## Replacing a part by its members -/

/-- Null comes up only where it is inside the value or inside a default. -/
theorem nullFree_of_comesTo {table : SchemaTable} {next : SchemaId} {inner : Value}
    (hdefaults : ∀ id schema literal, table.get? id = some schema →
      schema.default? = some literal → (Value.ofJson literal).NullFree)
    (hfree : value.NullFree) (hcomes : table.ComesTo id value next inner) : inner.NullFree := by
  induction hcomes with
  | self => exact hfree
  | here _ _ _ ih => exact ih
  | inside _ _ hasks ih =>
      obtain ⟨-, hchildren⟩ := ih
      exact hchildren _ (mem_children_of_asks hasks)
  | filled _ _ hfills _ =>
      obtain ⟨-, _, -, -, -, -, property, hproperty, hdefault⟩ := hfills
      exact hdefaults _ property _ hproperty hdefault

theorem searchesAlike_of_nullFree {table : SchemaTable}
    (hdefaults : ∀ id schema literal, table.get? id = some schema →
      schema.default? = some literal → (Value.ofJson literal).NullFree)
    (hfree : value.NullFree) : table.SearchesAlike flat part id value :=
  fun _ _ hcomes => absurd rfl (nullFree_of_comesTo hdefaults hfree hcomes).ne_null

/-- A schema that asks for nothing but its members and is named only where another schema includes it
can be replaced by these members there: every value gets the same judgement, with the same members in
the same order or the same violations in the same order.  Only the search for null goes one step less
far without it, so it has to find the same wherever null comes up. -/
theorem included_members_replace_part (rules : SchemaRules)
    (hformats : rules.formats = Format.standard) (htable : rules.schemas.IsKeyed)
    (flat : SchemaTable) (whole part : SchemaId) (schema : Schema)
    (before members behind : List SchemaId)
    (hinlines : rules.schemas.Inlines flat whole part schema before members behind)
    (id : SchemaId) (hid : id ≠ part) (value : Value) (hkeyed : value.Keyed)
    (hnull : rules.schemas.SearchesAlike flat part id value) :
    (rules.withSchemas flat).apply id value = rules.apply id value :=
  (judgedAlike hinlines hformats htable [] [] id value hkeyed hnull [] .nil).other hid

/-- The days and the note of a stay, which are put together in two steps or in one. -/
theorem stay_needs_no_intermediate_schema :
    let arrival : Schema := { type? := some .object, properties := [("from", 5)] }
    let rest : Schema := { allOf := [3, 4] }
    let departure : Schema := { type? := some .object, properties := [("to", 5)] }
    let remark : Schema := { type? := some .object, properties := [("note", 6)] }
    let day : Schema := { type? := some .string, format? := some "date" }
    let note : Schema := { type? := some .string, default? := some (.string "-") }
    let table (whole : Schema) : SchemaTable := ⟨#[whole, arrival, rest, departure, remark, day, note]⟩
    let rules : SchemaRules := {
      schemas := table (.including {} [1, 2]), formats := Format.standard }
    let value := Value.object [("from", .string "2024-02-29"), ("to", .string "2024-03-01")]
    rules.schemas.IsKeyed ∧
      rules.schemas.Inlines (table (.including {} [1, 3, 4])) 0 2 {} [1] [3, 4] [] ∧
      value.Keyed ∧ rules.schemas.SearchesAlike (table (.including {} [1, 3, 4])) 2 0 value ∧
      (rules.withSchemas (table (.including {} [1, 3, 4]))).apply 0 value = rules.apply 0 value := by
  intro arrival rest departure remark day note table rules value
  have htable : rules.schemas.IsKeyed := by
    simp [SchemaTable.isKeyed_iff, rules, table, arrival, rest, departure, remark, day, note,
      Entries.Distinct, Entries.keys, Schema.including, Json.Keyed.string]
  have hinlines :
      rules.schemas.Inlines (table (.including {} [1, 3, 4])) 0 2 {} [1] [3, 4] [] := by
    refine ⟨rfl, rfl, rfl, fun id hid => ?_, by simp, by simp, by decide, ?_⟩
    · cases id with
      | zero => exact absurd rfl hid
      | succ id => rfl
    · intro id other hid hget
      cases id with
      | zero => exact absurd rfl hid
      | succ id =>
          have hfound : [arrival, rest, departure, remark, day, note][id]? = some other := by
            simpa [rules, table, SchemaTable.get?] using hget
          have hnone : ∀ found ∈ [arrival, rest, departure, remark, day, note],
              2 ∉ found.references := by
            simp [Schema.references, Schema.members, SchemaTable.furtherSchema?, Entries.values,
              arrival, rest, departure, remark, day, note]
          exact hnone other (List.mem_of_getElem? hfound)
  have hkeyed : value.Keyed := by
    simp only [value, Value.keyed_object_iff, List.forall_mem_cons]
    exact ⟨by decide, Value.keyed_of_not_isContainer rfl, Value.keyed_of_not_isContainer rfl,
      by simp⟩
  have hnull : rules.schemas.SearchesAlike (table (.including {} [1, 3, 4])) 2 0 value := by
    have htext : ∀ text, (Value.string text).NullFree :=
      fun text => ⟨by simp, by simp [Value.children]⟩
    have hdefaults : ∀ id schema, rules.schemas.get? id = some schema →
        ∀ literal, schema.default? = some literal → (Value.ofJson literal).NullFree := by
      rw [SchemaTable.forall_get?_iff]
      simp [rules, table, arrival, rest, departure, remark, day, note, Schema.including,
        Value.ofJson, htext]
    refine searchesAlike_of_nullFree (fun id schema literal hget => hdefaults id schema hget literal) ?_
    simp only [value, Value.nullFree_object, List.forall_mem_cons]
    exact ⟨htext _, htext _, by simp⟩
  exact ⟨htable, hinlines, hkeyed, hnull, included_members_replace_part rules rfl htable _ 0 2 {} [1]
    [3, 4] [] hinlines 0 (by simp) value hkeyed hnull⟩

/-! ## Where the intermediate schema shows -/

section Chain

variable {ids : List SchemaId} {fills trail : List SchemaId} {id link : ℕ} {value : Value}

/-- A schema whose default is null and that includes others, a detour, an object that has the first
schema as a property, and a chain of detours that ends at a schema without keywords. -/
def chainedSchema (ids : List SchemaId) : SchemaId → Schema
  | 0 => .including { default? := some .null } ids
  | 1 => .detour 3
  | 2 => { nullable := true, properties := [("x", 0)] }
  | id => if id = 34 then {} else .detour (id + 1)

def chainedTable (ids : List SchemaId) : SchemaTable :=
  ⟨((List.range 35).map (chainedSchema ids)).toArray⟩

def chainedRules (ids : List SchemaId) : SchemaRules :=
  { schemas := chainedTable ids, formats := Format.standard }

theorem get?_chainedTable :
    (chainedTable ids).get? id = if id < 35 then some (chainedSchema ids id) else none := by
  by_cases hlt : id < 35 <;> simp [chainedTable, SchemaTable.get?, hlt]

theorem get?_chainedTable_of_lt (hlt : id < 35) :
    (chainedTable ids).get? id = some (chainedSchema ids id) := by
  rw [get?_chainedTable, if_pos hlt]

/-- The schemas other than the first one are the same for all lists, and none refers to the first
detour. -/
theorem chainedSchema_cases (hid : id ≠ 0) : ∃ schema, (∀ ids, chainedSchema ids id = schema) ∧
    (schema = {} ∨ schema = { nullable := true, properties := [("x", 0)] } ∨
      ∃ target, target ≠ 1 ∧ schema = .detour target) := by
  match id, hid with
  | 1, _ => exact ⟨_, fun _ => rfl, .inr (.inr ⟨3, by decide, rfl⟩)⟩
  | 2, _ => exact ⟨_, fun _ => rfl, .inr (.inl rfl)⟩
  | link + 3, _ =>
      refine ⟨_, fun _ => rfl, ?_⟩
      by_cases hend : link + 3 = 34
      · exact .inl (if_pos hend)
      · exact .inr (.inr ⟨link + 4, Nat.succ_succ_ne_one _, if_neg hend⟩)

theorem inlines_chainedTable : (chainedTable [1, 2]).Inlines (chainedTable [3, 2]) 0 1
    { default? := some .null } [] [3] [2] := by
  refine ⟨rfl, rfl, rfl, fun id hid => ?_, by simp, by simp, by decide, fun id other hid hget => ?_⟩
  · obtain ⟨schema, hsame, -⟩ := chainedSchema_cases hid
    rw [get?_chainedTable, get?_chainedTable, hsame, hsame]
  · obtain ⟨schema, hsame, hschema⟩ := chainedSchema_cases hid
    rw [get?_chainedTable, hsame] at hget
    obtain ⟨-, hother⟩ := Option.ite_none_right_eq_some.1 hget
    obtain rfl := Option.some.inj hother
    rcases hschema with rfl | rfl | ⟨target, htarget, rfl⟩ <;>
      simp [Schema.references, Schema.detour, Schema.members, SchemaTable.furtherSchema?,
        Entries.values]
    exact Ne.symm htarget

theorem isKeyed_chainedTable : (chainedTable ids).IsKeyed := by
  rw [SchemaTable.isKeyed_iff]
  simp only [chainedTable, List.forall_mem_map]
  intro id _
  rcases eq_or_ne id 0 with rfl | hid
  · exact ⟨List.nodup_nil, fun literal hliteral => Option.some.inj hliteral ▸ .null⟩
  obtain ⟨schema, hsame, rfl | rfl | ⟨target, -, rfl⟩⟩ := chainedSchema_cases hid
  · rw [hsame]
    exact ⟨List.nodup_nil, by simp⟩
  · rw [hsame]
    exact ⟨List.nodup_singleton _, by simp⟩
  · rw [hsame]
    exact ⟨List.nodup_nil, by simp [Schema.detour]⟩

theorem chainedSchema_of_lt (hle : 3 ≤ link) (hlt : link < 34) :
    chainedSchema ids link = .detour (link + 1) := by
  obtain ⟨offset, rfl⟩ := Nat.exists_eq_add_of_le' hle
  have hinner : ¬ offset + 3 = 34 := by omega
  exact if_neg hinner

theorem leadsIn_chain (left : ℕ) (hlink : link + left = 34) (hle : 3 ≤ link) :
    (chainedTable ids).LeadsIn 34 left link := by
  induction left generalizing link with
  | zero =>
      obtain rfl : link = 34 := hlink
      exact .here
  | succ left ih =>
      have hlt : link < 35 := by omega
      have hget : (chainedTable ids).get? link = some (.detour (link + 1)) := by
        rw [get?_chainedTable_of_lt hlt, chainedSchema_of_lt hle (by omega)]
      exact .detour hget (ih (by omega) (by omega))

/-- Every link of the chain accepts what the schema without keywords accepts. -/
theorem applyAt_chain {count : ℕ} (hleads : (chainedTable ids).LeadsIn 34 count id)
    (hcount : count < nullSteps) (hmerge : value.merge value value = value)
    (hend : ∀ near, (chainedRules ids).judge {} value near = .accepted value)
    (trail : List SchemaId) : (chainedRules ids).applyAt fills trail id value = .accepted value := by
  have hget : (chainedRules ids).schemas.get? 34 = some {} := get?_chainedTable_of_lt (by decide)
  refine applyAt_of_leadsIn hleads (fun _ => ⟨hcount.le, fun steps hsteps => ?_⟩) hmerge
    (fun trail => ?_) trail
  · obtain ⟨before, rfl⟩ : ∃ before, steps = before + 1 := ⟨steps - 1, by omega⟩
    rw [memberAdmitsNull, hget]
    rfl
  · by_cases hmem : 34 ∈ trail
    · exact applyAt_of_mem hmem
    · rw [applyAt_eq_judge hget hmem]
      exact hend _

/-- The first schema, when the first of its two members accepts. -/
theorem applyAt_chained_zero {first : SchemaId}
    (happart : (chainedRules [first, 2]).TakesApart (chainedSchema [first, 2] 0) value)
    (hfirst : (chainedRules [first, 2]).applyAt fills [0] first value = .accepted value) :
    (chainedRules [first, 2]).applyAt fills [] 0 value =
      (Judgement.all [.accepted value, .accepted value,
        (chainedRules [first, 2]).applyAt fills [0] 2 value]).map value.mergeAll := by
  have hget : (chainedRules [first, 2]).schemas.get? 0 = some (chainedSchema [first, 2] 0) := rfl
  have hparts : (chainedRules [first, 2]).partJudgements (chainedSchema [first, 2] 0) value
      ((chainedRules [first, 2]).neighbours fills [0] value) =
        [.accepted value, .accepted value, (chainedRules [first, 2]).applyAt fills [0] 2 value] := by
    nth_rewrite 2 [← hfirst]
    exact congrArg₂ List.cons (judgeOwn_of_isUnbounded ⟨rfl, rfl, rfl⟩) rfl
  rw [applyAt_eq_judge hget List.not_mem_nil, judge_of_takesApart happart,
    judgeParts_eq_partJudgements, hparts]

/-- The object gets the default of the first schema. -/
theorem applyAt_chained_two :
    (chainedRules ids).applyAt [] [0] 2 (.object []) =
      (Judgement.all [(Judgement.all [(((chainedRules ids).apply 0 .null).under (.key "x")).map
        fun typed => ("x", typed)]).map .object]).map (Value.object []).mergeAll := by
  have hget : (chainedRules ids).schemas.get? 2 = some (chainedSchema ids 2) := rfl
  have hfirst : (chainedRules ids).schemas.get? 0 = some (chainedSchema ids 0) := rfl
  have hfilled : (chainedRules ids).fillAt [] 0 .null = (chainedRules ids).apply 0 .null :=
    fillAt_nil_eq_apply hfirst rfl
  have hparts : (chainedRules ids).partJudgements (chainedSchema ids 2) (.object [])
      ((chainedRules ids).neighbours [] [2, 0] (.object [])) =
        [(Judgement.all [(((chainedRules ids).apply 0 .null).under (.key "x")).map
          fun typed => ("x", typed)]).map .object] := by
    rw [← hfilled]
    exact congrArg₂ List.cons (judgeOwn_of_isUnbounded ⟨rfl, rfl, rfl⟩) rfl
  rw [applyAt_eq_judge hget (by simp), judge_of_ne_null (by simp), judgeParts_eq_partJudgements,
    hparts]

end Chain

/-- The intermediate schema can be told where its absence lets the search for null get to the end of
a chain of members, because a default is null there.  It can also be told if it includes itself, as
its members are then judged twice without it. -/
theorem search_for_null_tells_intermediate_schema :
    (let nested := chainedRules [1, 2]
      let flat := chainedTable [3, 2]
      let value := Value.object []
      nested.schemas.IsKeyed ∧ value.Keyed ∧ value.NullFree ∧
        nested.schemas.Inlines flat 0 1 { default? := some .null } [] [3] [2] ∧
        nested.apply 0 value =
          .rejected [(SchemaFault.nullNotAllowed.violation).under (.key "x")] ∧
        (nested.withSchemas flat).apply 0 value = .accepted (.object [("x", .null)])) ∧
    (let number : Schema := { type? := some .integer }
      let table (whole : List SchemaId) : SchemaTable := ⟨#[{ allOf := whole }, number]⟩
      let nested : SchemaRules := { schemas := table [1, 0], formats := Format.standard }
      let fault := (SchemaFault.wrongType .integer .string).violation
      nested.apply 0 (.string "x") = .rejected [fault] ∧
        (nested.withSchemas (table [1, 1, 0])).apply 0 (.string "x") = .rejected [fault, fault]) := by
  refine ⟨?_, ?_⟩
  · intro nested flat value
    have hleads : ∀ ids, (chainedTable ids).LeadsIn 34 31 3 := fun _ => leadsIn_chain 31 rfl le_rfl
    have hdetour : nested.applyAt [] [0] 1 value = .accepted value :=
      applyAt_chain (.detour rfl (hleads _)) (by decide) rfl (fun _ => rfl) [0]
    have hrefused : nested.apply 0 .null = refuse .nullNotAllowed := by
      have hget : nested.schemas.get? 0 = some (chainedSchema [1, 2] 0) := rfl
      rw [apply, applyAt_eq_judge hget List.not_mem_nil]
      exact judge_null_of_admitsNull_eq_false (by decide +kernel)
    have haccepted : (chainedRules [3, 2]).apply 0 .null = .accepted .null := by
      have hthree : (chainedRules [3, 2]).applyAt [] [0] 3 .null = .accepted .null :=
        applyAt_chain (hleads _) (by decide) rfl (fun _ => rfl) [0]
      have htwo : (chainedRules [3, 2]).applyAt [] [0] 2 .null = .accepted .null := by
        have hget : (chainedRules [3, 2]).schemas.get? 2 = some (chainedSchema [3, 2] 2) := rfl
        rw [applyAt_eq_judge hget (by simp)]
        rfl
      rw [apply, applyAt_chained_zero (fun _ => ⟨rfl, by decide, by decide +kernel, rfl⟩) hthree, htwo]
      rfl
    refine ⟨isKeyed_chainedTable, ?_, ?_, inlines_chainedTable, ?_, ?_⟩
    · exact Value.keyed_object_iff.2 ⟨List.nodup_nil, by simp⟩
    · exact Value.nullFree_object.2 (by simp)
    · rw [apply, applyAt_chained_zero (by simp [TakesApart, value]) hdetour, applyAt_chained_two,
        hrefused]
      rfl
    · have hthree : (chainedRules [3, 2]).applyAt [] [0] 3 value = .accepted value :=
        applyAt_chain (hleads _) (by decide) rfl (fun _ => rfl) [0]
      have hflat : nested.withSchemas flat = chainedRules [3, 2] := rfl
      rw [hflat, apply, applyAt_chained_zero (by simp [TakesApart, value]) hthree,
        applyAt_chained_two, haccepted]
      rfl
  · intro number table nested fault
    have hnumber : ∀ members, SchemaRules.applyAt
        { schemas := table members, formats := Format.standard } [] [0] 1 (.string "x") =
          .rejected [fault] := by
      intro members
      have hget : (table members).get? 1 = some number := rfl
      rw [applyAt_eq_judge hget (by simp)]
      rfl
    have hself : ∀ members, SchemaRules.applyAt
        { schemas := table members, formats := Format.standard } [] [0] 0 (.string "x") =
          .accepted (.string "x") := fun members => applyAt_of_mem (List.mem_singleton_self 0)
    have hwhole : ∀ members, SchemaRules.apply
        { schemas := table members, formats := Format.standard } 0 (.string "x") =
          (Judgement.all (.accepted (.string "x") :: members.map fun member =>
            SchemaRules.applyAt { schemas := table members, formats := Format.standard } [] [0] member
              (.string "x"))).map (Value.string "x").mergeAll := by
      intro members
      have hget : (table members).get? 0 = some { allOf := members } := rfl
      rw [apply, applyAt_eq_judge hget List.not_mem_nil, judge_of_ne_null (by simp)]
      rfl
    constructor
    · rw [hwhole [1, 0], List.map_cons, List.map_cons, hnumber, hself]
      rfl
    · refine (hwhole [1, 1, 0]).trans ?_
      rw [List.map_cons, List.map_cons, List.map_cons, hnumber, hself]
      rfl

end SchemaRules

end ApiContract
