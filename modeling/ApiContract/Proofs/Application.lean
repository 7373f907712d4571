import ApiContract.Proofs.Judgement
import ApiContract.Schema.Application

/-!
# One step of applying a schema

What a schema says about a value depends on other schemas only through the judgements of its
neighbours: at the same value, inside it, and at a default.  This file names the neighbours that
the application of schemas provides, so that one equation opens a step of it, and shows that no
step refuses a value without giving a reason.
-/

namespace ApiContract

/-- A value has no form that the type takes. -/
structure SchemaType.Refuses (type : SchemaType) (value : Value) : Prop where
  array : ∀ items, value = .array items → type ≠ .array
  object : ∀ members, value = .object members → type ≠ .object
  primitive : SchemaRules.primitive? type value = none

/-- How the type of a schema and a value stand to each other: there is no type, or the value is a
container of the type, or a primitive type takes it as some value, or the type refuses it. -/
inductive Schema.TypeView (schema : Schema) : Value → Prop
  | untyped {value : Value} (htype : schema.effectiveType? = none) : TypeView schema value
  | items {items : List Value} (htype : schema.effectiveType? = some .array) :
      TypeView schema (.array items)
  | members {members : Entries Value} (htype : schema.effectiveType? = some .object) :
      TypeView schema (.object members)
  | primitive {type : SchemaType} {value typed : Value} (htype : schema.effectiveType? = some type)
      (harray : type ≠ .array) (hobject : type ≠ .object)
      (hprimitive : SchemaRules.primitive? type value = some typed) : TypeView schema value
  | wrong {type : SchemaType} {value : Value} (htype : schema.effectiveType? = some type)
      (hrefuses : type.Refuses value) : TypeView schema value

theorem Schema.typeView (schema : Schema) (value : Value) : schema.TypeView value := by
  cases htype : schema.effectiveType? with
  | none => exact .untyped htype
  | some type =>
      cases hprimitive : SchemaRules.primitive? type value with
      | some typed =>
          refine .primitive htype ?_ ?_ hprimitive
          · rintro rfl
            cases hprimitive
          · rintro rfl
            cases hprimitive
      | none =>
          by_cases harray : ∃ items, value = .array items ∧ type = .array
          · obtain ⟨items, rfl, rfl⟩ := harray
            exact .items htype
          · by_cases hobject : ∃ members, value = .object members ∧ type = .object
            · obtain ⟨members, rfl, rfl⟩ := hobject
              exact .members htype
            · exact .wrong htype ⟨by simpa using harray, by simpa using hobject, hprimitive⟩

namespace SchemaRules

variable {rules : SchemaRules} {fills trail : List SchemaId} {id : SchemaId} {value : Value}
  {schema : Schema}

/-- A schema at its own default, which must not be filled in already. -/
def fillAt (rules : SchemaRules) (fills : List SchemaId) (property : SchemaId) (literal : Json) :
    Judgement Value :=
  if property ∈ rules.schemas.ids ∧ property ∉ fills then
    rules.applyAt (property :: fills) [] property (Value.ofJson literal)
  else
    .unending

/-- The judgements that a schema may ask for while the schemas of `trail` judge the value. -/
def neighbours (rules : SchemaRules) (fills trail : List SchemaId) (value : Value) :
    Neighbours value where
  here := fun member => rules.applyAt fills trail member value
  inside := fun child _ member => rules.applyAt fills [] member child
  filled := rules.fillAt fills

theorem applyAt_of_get?_eq_none (hget : rules.schemas.get? id = none) :
    rules.applyAt fills trail id value = .accepted value := by
  rw [applyAt]
  split <;> simp_all

theorem applyAt_of_mem (hmem : id ∈ trail) :
    rules.applyAt fills trail id value = .accepted value := by
  rw [applyAt]
  split
  · rfl
  · simp [hmem]

/-- A schema that is new at a value judges it by its own keywords and by its neighbours. -/
theorem applyAt_eq_judge (hget : rules.schemas.get? id = some schema) (hnew : id ∉ trail) :
    rules.applyAt fills trail id value =
      rules.judge schema value (rules.neighbours fills (id :: trail) value) := by
  rw [applyAt]
  split
  · simp_all
  · next found hfound =>
      obtain rfl : found = schema := Option.some.inj (hfound.symm.trans hget)
      simp only [hnew, ↓reduceDIte]
      rfl

/-! ## The type of a schema -/

variable {near : Neighbours value}

theorem judgeType_of_none (htype : schema.effectiveType? = none) :
    rules.judgeType schema value near = .accepted value := by
  simp [judgeType, htype]

theorem judgeType_array {items : List Value} {near : Neighbours (.array items)}
    (htype : schema.effectiveType? = some .array) :
    rules.judgeType schema (.array items) near =
      judgeItems near schema items fun _ hmem => hmem := by
  simp [judgeType, htype]

theorem judgeType_object {members : Entries Value} {near : Neighbours (.object members)}
    (htype : schema.effectiveType? = some .object) :
    rules.judgeType schema (.object members) near =
      judgeMembers rules near schema members
        fun _ hmem => List.mem_map.2 ⟨_, hmem, rfl⟩ := by
  simp [judgeType, htype]

theorem judgeType_of_primitive? {type : SchemaType} {typed : Value}
    (htype : schema.effectiveType? = some type) (hprimitive : primitive? type value = some typed) :
    rules.judgeType schema value near = .accepted typed := by
  cases type with
  | array => cases hprimitive
  | object => cases hprimitive
  | _ => simp [judgeType, htype, hprimitive]

theorem judgeType_of_refuses {type : SchemaType} (htype : schema.effectiveType? = some type)
    (hrefuses : type.Refuses value) :
    rules.judgeType schema value near = refuse (.wrongType type value.kind) := by
  cases type with
  | array =>
      cases value with
      | array items => exact absurd rfl (hrefuses.array items rfl)
      | _ => simp [judgeType, htype]
  | object =>
      cases value with
      | object members => exact absurd rfl (hrefuses.object members rfl)
      | _ => simp [judgeType, htype]
  | _ => simp [judgeType, htype, hrefuses.primitive]

/-- Only containers of the type are judged by the rules and the neighbours. -/
theorem judgeType_related {rules' : SchemaRules} {schema' : Schema} {near' : Neighbours value}
    {related : Judgement Value → Judgement Value → Prop}
    (hrefl : ∀ judgement, related judgement judgement)
    (hsame : schema'.effectiveType? = schema.effectiveType?)
    (hitems : ∀ items, value = .array items → schema.effectiveType? = some .array →
      related (rules.judgeType schema value near) (rules'.judgeType schema' value near'))
    (hmembers : ∀ members, value = .object members → schema.effectiveType? = some .object →
      related (rules.judgeType schema value near) (rules'.judgeType schema' value near')) :
    related (rules.judgeType schema value near) (rules'.judgeType schema' value near') := by
  cases schema.typeView value with
  | untyped htype =>
      rw [judgeType_of_none htype, judgeType_of_none (hsame.trans htype)]
      exact hrefl _
  | @items items htype => exact hitems items rfl htype
  | @members members htype => exact hmembers members rfl htype
  | primitive htype _ _ hprimitive =>
      rw [judgeType_of_primitive? htype hprimitive,
        judgeType_of_primitive? (hsame.trans htype) hprimitive]
      exact hrefl _
  | wrong htype hrefuses =>
      rw [judgeType_of_refuses htype hrefuses, judgeType_of_refuses (hsame.trans htype) hrefuses]
      exact hrefl _

/-! ## Null -/

/-- Null is accepted at once. -/
def TakesNull (rules : SchemaRules) (schema : Schema) : Prop :=
  schema.nullable ∨ schema.type? = some .null ∨
    (admitsNull rules.schemas nullSteps schema ∧ schema.isComposed = false)

/-- Null is left to the composition. -/
def ComposesNull (rules : SchemaRules) (schema : Schema) : Prop :=
  schema.nullable = false ∧ schema.type? ≠ some .null ∧
    admitsNull rules.schemas nullSteps schema ∧ schema.isComposed

/-- A schema judges a value by its parts: the value is not null, or null is left to them. -/
def TakesApart (rules : SchemaRules) (schema : Schema) (value : Value) : Prop :=
  value = .null → rules.ComposesNull schema

/-- How a schema comes to a judgement: null is accepted or refused at once, and any other value, or
null where it is left to the composition, is judged by all parts of the schema. -/
inductive JudgeView (rules : SchemaRules) (schema : Schema) : Value → Prop
  | taken (htakes : rules.TakesNull schema) : JudgeView rules schema .null
  | refused (hrefused : admitsNull rules.schemas nullSteps schema = false) :
      JudgeView rules schema .null
  | apart {value : Value} (happart : rules.TakesApart schema value) : JudgeView rules schema value

theorem judgeView (rules : SchemaRules) (schema : Schema) (value : Value) :
    rules.JudgeView schema value := by
  by_cases hnull : value = .null
  · subst hnull
    by_cases htakes : rules.TakesNull schema
    · exact .taken htakes
    · simp only [TakesNull, not_or, Bool.not_eq_true, not_and] at htakes
      cases hadmits : admitsNull rules.schemas nullSteps schema with
      | false => exact .refused hadmits
      | true =>
          have hcomposed := htakes.2.2 hadmits
          exact .apart fun _ => ⟨htakes.1, htakes.2.1, hadmits, by simpa using hcomposed⟩
  · exact .apart fun heq => absurd heq hnull

theorem admitsNull_of_free {table : SchemaTable} {steps : Nat}
    (hfree : (schema.nullable || schema.type? == some .null) = true) :
    admitsNull table steps schema = true := by
  rw [admitsNull.eq_def]
  exact if_pos hfree

theorem TakesNull.admitsNull (htakes : rules.TakesNull schema) :
    admitsNull rules.schemas nullSteps schema = true := by
  rw [TakesNull, ← or_assoc] at htakes
  rcases htakes with hfree | ⟨hadmits, -⟩
  · exact admitsNull_of_free (by simpa using hfree)
  · exact hadmits

theorem ComposesNull.not_takesNull (hcomposes : rules.ComposesNull schema) :
    ¬ rules.TakesNull schema := by
  obtain ⟨hnullable, htype, -, hcomposed⟩ := hcomposes
  simp [TakesNull, hnullable, htype, hcomposed]

theorem judge_null_of_takesNull {near : Neighbours .null} (htakes : rules.TakesNull schema) :
    rules.judge schema .null near = .accepted .null := by
  have hadmits := htakes.admitsNull
  rw [TakesNull, ← or_assoc] at htakes
  rcases htakes with hfree | ⟨-, hcomposed⟩
  · simp [judge, Value.isNull, hfree]
  · simp [judge, Value.isNull, hadmits, hcomposed]

theorem judge_null_of_admitsNull_eq_false {near : Neighbours .null}
    (hrefused : admitsNull rules.schemas nullSteps schema = false) :
    rules.judge schema .null near = refuse .nullNotAllowed := by
  have hfree : (schema.nullable || schema.type? == some .null) = false := by
    rw [← Bool.not_eq_true]
    intro hfree
    rw [admitsNull_of_free hfree] at hrefused
    cases hrefused
  simp [judge, Value.isNull, hfree, hrefused]

theorem judge_of_takesApart (happart : rules.TakesApart schema value) :
    rules.judge schema value near = rules.judgeParts schema value near := by
  unfold judge
  by_cases hnull : value = .null
  · obtain ⟨hnullable, htype, hadmits, hcomposed⟩ := happart hnull
    simp [hnullable, htype, hadmits, hcomposed]
  · have hnot : value.isNull = false := by
      cases value <;> simp_all [Value.isNull]
    simp [hnot]

theorem judge_of_ne_null (hnull : value ≠ .null) :
    rules.judge schema value near = rules.judgeParts schema value near :=
  judge_of_takesApart fun heq => absurd heq hnull

/-! ## Reasons -/

theorem isExplained_refuse (fault : SchemaFault) : (refuse fault).IsExplained :=
  Judgement.isExplained_refuse fault.violation

theorem isExplained_judgeItems {items : List Value}
    {hitems : ∀ item ∈ items, item ∈ value.children} :
    (judgeItems near schema items hitems).IsExplained := by
  unfold judgeItems
  split
  · exact Judgement.isExplained_accepted _
  · exact (Judgement.isExplained_map _ _).2 (Judgement.isExplained_all _)

theorem isExplained_judgeMembers {members : Entries Value}
    {hmembers : ∀ member ∈ members, member.2 ∈ value.children} :
    (judgeMembers rules near schema members hmembers).IsExplained :=
  (Judgement.isExplained_map _ _).2 (Judgement.isExplained_all _)

theorem isExplained_judgeType : (rules.judgeType schema value near).IsExplained := by
  cases schema.typeView value with
  | untyped htype =>
      rw [judgeType_of_none htype]
      exact Judgement.isExplained_accepted value
  | items htype =>
      rw [judgeType_array htype]
      exact isExplained_judgeItems
  | members htype =>
      rw [judgeType_object htype]
      exact isExplained_judgeMembers
  | primitive htype _ _ hprimitive =>
      rw [judgeType_of_primitive? htype hprimitive]
      exact Judgement.isExplained_accepted _
  | wrong htype hrefuses =>
      rw [judgeType_of_refuses htype hrefuses]
      exact isExplained_refuse _

/-- A format accepts a value as some value, or refuses it for one fault. -/
theorem judgeFormat_elim {typed : Value} (holds : Judgement Value → Prop)
    (haccepted : ∀ result, holds (.accepted result)) (hrefused : ∀ fault, holds (refuse fault)) :
    holds (rules.judgeFormat schema typed) := by
  unfold judgeFormat
  split
  · split
    · exact haccepted typed
    · split
      · exact haccepted _
      · exact hrefused _
  · exact haccepted typed

theorem isExplained_judgeFormat {typed : Value} : (rules.judgeFormat schema typed).IsExplained :=
  judgeFormat_elim _ Judgement.isExplained_accepted isExplained_refuse

theorem isExplained_judgeOwn : (rules.judgeOwn schema value near).IsExplained := by
  apply isExplained_judgeType.andThen
  intro typed
  split
  · exact isExplained_judgeFormat
  · next hfaults => simpa [Judgement.IsExplained] using hfaults

theorem isExplained_judgeOneOf {here : SchemaId → Judgement Value} {ids : List SchemaId} :
    (judgeOneOf here ids).IsExplained := by
  unfold judgeOneOf
  split
  · exact Judgement.isExplained_unending
  · exact Judgement.isExplained_accepted _
  · exact isExplained_refuse _
  · exact isExplained_refuse _

theorem isExplained_judgeAnyOf {here : SchemaId → Judgement Value} {ids : List SchemaId} :
    (judgeAnyOf here ids).IsExplained :=
  Judgement.isExplained_firstAccepted

theorem isExplained_judgeTagged {here : SchemaId → Judgement Value}
    {discriminator : Discriminator} (hhere : ∀ member, (here member).IsExplained) :
    (judgeTagged here discriminator value).IsExplained := by
  unfold judgeTagged
  split
  · split
    · exact isExplained_refuse _
    · split
      · exact hhere _
      · exact isExplained_refuse _
  · exact isExplained_refuse _

theorem judgeAlternatives_of_discriminator {here : SchemaId → Judgement Value}
    {discriminator : Discriminator} (hsome : schema.discriminator? = some discriminator) :
    judgeAlternatives schema value here =
      if schema.oneOf = [] ∧ schema.anyOf = [] then [] else
        [judgeTagged here discriminator value] := by
  simp [judgeAlternatives, hsome]

theorem judgeAlternatives_of_none {here : SchemaId → Judgement Value}
    (hnone : schema.discriminator? = none) :
    judgeAlternatives schema value here =
      (if schema.oneOf = [] then [] else [judgeOneOf here schema.oneOf]) ++
        (if schema.anyOf = [] then [] else [judgeAnyOf here schema.anyOf]) := by
  simp [judgeAlternatives, hnone]

theorem isExplained_judgeAlternatives {here : SchemaId → Judgement Value}
    (hhere : ∀ member, (here member).IsExplained) :
    ∀ judgement ∈ judgeAlternatives schema value here, judgement.IsExplained := by
  intro judgement hmem
  cases hdiscriminator : schema.discriminator? with
  | some discriminator =>
      rw [judgeAlternatives_of_discriminator hdiscriminator] at hmem
      split at hmem
      · simp at hmem
      · obtain rfl := List.mem_singleton.1 hmem
        exact isExplained_judgeTagged hhere
  | none =>
      rw [judgeAlternatives_of_none hdiscriminator, List.mem_append] at hmem
      rcases hmem with hone | hany
      · split at hone
        · simp at hone
        · obtain rfl := List.mem_singleton.1 hone
          exact isExplained_judgeOneOf
      · split at hany
        · simp at hany
        · obtain rfl := List.mem_singleton.1 hany
          exact isExplained_judgeAnyOf

theorem isExplained_judgeParts : (rules.judgeParts schema value near).IsExplained :=
  (Judgement.isExplained_map _ _).2 (Judgement.isExplained_all _)

theorem isExplained_judge : (rules.judge schema value near).IsExplained := by
  cases rules.judgeView schema value with
  | taken htakes =>
      rw [judge_null_of_takesNull htakes]
      exact Judgement.isExplained_accepted _
  | refused hrefused =>
      rw [judge_null_of_admitsNull_eq_false hrefused]
      exact isExplained_refuse _
  | apart happart =>
      rw [judge_of_takesApart happart]
      exact isExplained_judgeParts

/-- However a schema comes to judge a value, it does not refuse it without a reason. -/
theorem isExplained_applyAt (rules : SchemaRules) (fills trail : List SchemaId) (id : SchemaId)
    (value : Value) : (rules.applyAt fills trail id value).IsExplained := by
  cases hget : rules.schemas.get? id with
  | none =>
      rw [applyAt_of_get?_eq_none hget]
      exact Judgement.isExplained_accepted value
  | some schema =>
      by_cases hmem : id ∈ trail
      · rw [applyAt_of_mem hmem]
        exact Judgement.isExplained_accepted value
      · rw [applyAt_eq_judge hget hmem]
        exact isExplained_judge

theorem isExplained_fillAt (property : SchemaId) (literal : Json) :
    (rules.fillAt fills property literal).IsExplained := by
  unfold fillAt
  split
  · exact isExplained_applyAt _ _ _ _ _
  · exact Judgement.isExplained_unending

/-! ## Accepted steps -/

/-- A property that is present, judged by the schema for its name. -/
def judgeMember (rules : SchemaRules) (fills : List SchemaId) (schema : Schema)
    (member : String × Value) : Judgement Value :=
  match rules.propertySchema schema member.1 with
  | .ok (some id) => rules.applyAt fills [] id member.2
  | .ok none => .accepted member.2
  | .error fault => refuse fault

theorem isExplained_judgeMember (member : String × Value) :
    (rules.judgeMember fills schema member).IsExplained := by
  unfold judgeMember
  split
  · exact isExplained_applyAt _ _ _ _ _
  · exact Judgement.isExplained_accepted _
  · exact isExplained_refuse _

/-- An accepted property conforms to the schema for its name, or it is kept as it came in. -/
theorem judgeMember_eq_accepted {member : String × Value} {result : Value}
    (haccepted : rules.judgeMember fills schema member = .accepted result) :
    (∃ part, rules.propertySchema schema member.1 = .ok (some part) ∧
      rules.applyAt fills [] part member.2 = .accepted result) ∨ result = member.2 := by
  unfold judgeMember at haccepted
  split at haccepted
  · next part hpart => exact .inl ⟨part, hpart, haccepted⟩
  · exact .inr (Judgement.accepted.inj haccepted).symm
  · simp [refuse, Judgement.refuse] at haccepted

theorem judgeItems_of_none {items : List Value}
    {hitems : ∀ item ∈ items, item ∈ value.children} (hnone : schema.items? = none) :
    judgeItems near schema items hitems = .accepted (.array items) := by
  simp [judgeItems, hnone]

theorem judgeItems_eq_accepted_iff {items : List Value} {item : SchemaId} {typed : Value}
    {hitems : ∀ item ∈ items, item ∈ value.children} (hsome : schema.items? = some item) :
    judgeItems (rules.neighbours fills trail value) schema items hitems = .accepted typed ↔
      ∃ results, List.Forall₂ (fun x y => rules.applyAt fills [] item x = .accepted y)
        items results ∧ .array results = typed := by
  have hvalues : (items.attach.zipIdx.map Prod.fst).map Subtype.val = items := by
    rw [List.zipIdx_map_fst, List.attach_map_subtype_val]
  unfold judgeItems
  simp only [hsome, Judgement.map_eq_accepted_iff]
  apply exists_congr
  intro results
  apply and_congr_left'
  rw [Judgement.all_map_eq_accepted_iff]
  · simp only [Judgement.under_eq_accepted_iff, neighbours]
    conv_rhs => rw [← hvalues, List.forall₂_map_left_iff, List.forall₂_map_left_iff]
  · intro candidate _
    simp only [Judgement.isExplained_under, neighbours]
    exact isExplained_applyAt _ _ _ _ _

/-- The judgement of a property under its name. -/
def named (name : String) (judgement : Judgement Value) : Judgement (String × Value) :=
  (judgement.under (.key name)).map fun typed => (name, typed)

theorem named_eq_accepted_iff {name : String} {judgement : Judgement Value}
    {result : String × Value} :
    named name judgement = .accepted result ↔
      judgement = .accepted result.2 ∧ name = result.1 := by
  cases judgement <;> simp [named, Judgement.under, Judgement.map, Prod.ext_iff, and_comm]

theorem isExplained_named {name : String} {judgement : Judgement Value}
    (hjudgement : judgement.IsExplained) : (named name judgement).IsExplained := by
  simpa [named] using hjudgement

theorem map_named_eq_iff {ι : Type} {name : ι → String} {judge : ι → Judgement Value}
    {candidates : List ι} {results : Entries Value} :
    candidates.map (fun candidate => named (name candidate) (judge candidate)) =
        results.map .accepted ↔
      List.Forall₂ (fun candidate result =>
        judge candidate = .accepted result.2 ∧ name candidate = result.1) candidates results := by
  rw [← List.forall₂_eq_eq_eq, List.forall₂_map_left_iff, List.forall₂_map_right_iff]
  simp only [named_eq_accepted_iff]

/-- The judgements that an object is put together from: the required properties that are absent,
the properties that are present, and those that are filled in. -/
def memberJudgements (rules : SchemaRules) (fills : List SchemaId) (schema : Schema)
    (members : Entries Value) : List (Judgement (String × Value)) :=
  (schema.required.filter fun name => !Entries.contains members name).map
      (fun name =>
        (Judgement.refuse (SchemaFault.missingProperty name).violation).under (.key name)) ++
    members.map (fun member => named member.1 (rules.judgeMember fills schema member)) ++
    (rules.missingDefaults schema members).map fun missing =>
      named missing.1 (rules.fillAt fills missing.2.1 missing.2.2)

theorem judgeMembers_eq_all {members : Entries Value}
    {hmembers : ∀ member ∈ members, member.2 ∈ value.children} :
    judgeMembers rules (rules.neighbours fills trail value) schema members hmembers =
      (Judgement.all (rules.memberJudgements fills schema members)).map .object := by
  have hpresent : ∀ f : String × Value → Judgement (String × Value),
      members.attach.map (fun member => f member.1) = members.map f := by
    intro f
    exact List.attach_map_val
  rw [memberJudgements, ← hpresent]
  rfl

theorem isExplained_of_mem_memberJudgements {members : Entries Value} :
    ∀ judgement ∈ rules.memberJudgements fills schema members, judgement.IsExplained := by
  intro judgement hmem
  simp only [memberJudgements, List.mem_append, List.mem_map] at hmem
  rcases hmem with (⟨name, -, rfl⟩ | ⟨member, -, rfl⟩) | ⟨missing, -, rfl⟩
  · simp
  · exact isExplained_named (isExplained_judgeMember member)
  · exact isExplained_named (isExplained_fillAt _ _)

theorem map_absent_eq_map_accepted_iff {names : List String} {results : Entries Value} :
    names.map (fun name =>
        (Judgement.refuse (SchemaFault.missingProperty name).violation).under (.key name)) =
      results.map .accepted ↔ names = [] ∧ results = [] := by
  cases names <;> cases results <;> simp [Judgement.refuse, Judgement.under]

theorem judgeMembers_eq_accepted_iff {members : Entries Value} {typed : Value}
    {hmembers : ∀ member ∈ members, member.2 ∈ value.children} :
    judgeMembers rules (rules.neighbours fills trail value) schema members hmembers =
        .accepted typed ↔
      (∀ name ∈ schema.required, Entries.contains members name) ∧
      ∃ present filled,
        List.Forall₂ (fun member result =>
          rules.judgeMember fills schema member = .accepted result.2 ∧ member.1 = result.1)
          members present ∧
        List.Forall₂ (fun missing result =>
          rules.fillAt fills missing.2.1 missing.2.2 = .accepted result.2 ∧ missing.1 = result.1)
          (rules.missingDefaults schema members) filled ∧
        .object (present ++ filled) = typed := by
  have hrequired : (schema.required.filter fun name => !Entries.contains members name) = [] ↔
      ∀ name ∈ schema.required, Entries.contains members name := by
    simp
  rw [judgeMembers_eq_all, Judgement.map_eq_accepted_iff]
  constructor
  · rintro ⟨values, hall, rfl⟩
    rw [Judgement.all_eq_accepted_iff isExplained_of_mem_memberJudgements] at hall
    obtain ⟨front, filled, rfl, hfront, hfilled⟩ := List.append_eq_map_iff.1 hall
    obtain ⟨none, present, rfl, hnone, hpresent⟩ := List.append_eq_map_iff.1 hfront.symm
    obtain ⟨hnames, rfl⟩ := map_absent_eq_map_accepted_iff.1 hnone.symm
    exact ⟨hrequired.1 hnames, present, filled, map_named_eq_iff.1 hpresent.symm,
      map_named_eq_iff.1 hfilled.symm, rfl⟩
  · rintro ⟨hnames, present, filled, hpresent, hfilled, rfl⟩
    refine ⟨present ++ filled, ?_, rfl⟩
    rw [Judgement.all_eq_accepted_iff isExplained_of_mem_memberJudgements, memberJudgements,
      List.map_append, hrequired.2 hnames, map_named_eq_iff.2 hpresent, map_named_eq_iff.2 hfilled]
    rfl

theorem isExplained_parts (hhere : ∀ id, (near.here id).IsExplained) :
    ∀ judgement ∈ rules.judgeOwn schema value near ::
      judgeAlternatives schema value near.here ++ schema.allOf.map near.here,
      judgement.IsExplained := by
  intro judgement hmem
  rcases List.mem_append.1 hmem with hmem | hmem
  · rcases List.mem_cons.1 hmem with rfl | hmem
    · exact isExplained_judgeOwn
    · exact isExplained_judgeAlternatives hhere judgement hmem
  · obtain ⟨id, -, rfl⟩ := List.mem_map.1 hmem
    exact hhere id

/-- All parts of a schema are accepted, and their results are merged. -/
theorem judgeParts_eq_accepted_iff {typed : Value} (hhere : ∀ id, (near.here id).IsExplained) :
    rules.judgeParts schema value near = .accepted typed ↔
      ∃ own alternatives included, rules.judgeOwn schema value near = .accepted own ∧
        judgeAlternatives schema value near.here = alternatives.map .accepted ∧
        List.Forall₂ (fun id result => near.here id = .accepted result) schema.allOf included ∧
        value.mergeAll (own :: alternatives ++ included) = typed := by
  have hincluded : ∀ included : List Value, schema.allOf.map near.here = included.map .accepted ↔
      List.Forall₂ (fun id result => near.here id = .accepted result) schema.allOf included := by
    intro included
    rw [← List.forall₂_eq_eq_eq, List.forall₂_map_left_iff, List.forall₂_map_right_iff]
  rw [judgeParts, Judgement.map_eq_accepted_iff]
  constructor
  · rintro ⟨results, hall, rfl⟩
    rw [Judgement.all_eq_accepted_iff (isExplained_parts hhere)] at hall
    cases results with
    | nil => simp at hall
    | cons own rest =>
        obtain ⟨hown, hrest⟩ := List.cons.inj hall
        obtain ⟨alternatives, included, rfl, halternatives, hallOf⟩ :=
          List.append_eq_map_iff.1 hrest
        exact ⟨own, alternatives, included, hown, halternatives.symm,
          (hincluded included).1 hallOf.symm, rfl⟩
  · rintro ⟨own, alternatives, included, hown, halternatives, hall, rfl⟩
    refine ⟨own :: alternatives ++ included, ?_, rfl⟩
    rw [Judgement.all_eq_accepted_iff (isExplained_parts hhere), hown, halternatives,
      (hincluded included).2 hall]
    simp

theorem judge_eq_accepted {typed : Value} (haccepted : rules.judge schema value near = .accepted typed) :
    typed = value ∨ rules.judgeParts schema value near = .accepted typed := by
  cases rules.judgeView schema value with
  | taken htakes =>
      rw [judge_null_of_takesNull htakes] at haccepted
      exact .inl (Judgement.accepted.inj haccepted).symm
  | refused hrefused =>
      rw [judge_null_of_admitsNull_eq_false hrefused] at haccepted
      cases haccepted
  | apart happart => exact .inr ((judge_of_takesApart happart).symm.trans haccepted)

end SchemaRules
end ApiContract
