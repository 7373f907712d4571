import ApiContract.Proofs.Choices
import ApiContract.Proofs.Composition
import ApiContract.Proofs.TypeListReading

/-!
# Lists of types beside other keywords

A list of several types is meant as one condition among those of a schema.  Since the listed types
become members of `anyOf`, it is one as long as the schema has no members of its own there: then a
value has to be of a listed type.  With such members, the types and they are alternatives of each
other, and with a discriminator, neither counts.  A schema with a list has no declared type either,
so keywords for objects or arrays imply one, which every value has to have whatever the list says.
-/

namespace ApiContract

/-- A value is of a type. -/
def SchemaType.Admits (type : SchemaType) (value : Value) : Prop :=
  ((Schema.ofType type).typed? value).isSome

namespace SchemaRules

/-- A value meets the keywords of a schema that apply to its kind. -/
structure MeetsKeywords (rules : SchemaRules) (schema : Schema) (value : Value) : Prop where
  bounds : boundFaults schema value = []
  format : value.isContainer = false → (rules.judgeFormat schema value).isAccepted
  items : ∀ items, value = .array items → ∀ part, schema.items? = some part →
    ∀ item ∈ items, (rules.apply part item).isAccepted
  required : ∀ members, value = .object members →
    ∀ name ∈ schema.required, Entries.contains members name
  governed : ∀ members, value = .object members → ∀ member ∈ members, ∀ part,
    schema.Governs member.1 part → (rules.apply part member.2).isAccepted
  closed : ∀ members, value = .object members → ∀ member ∈ members,
    Entries.get? schema.properties member.1 = none → schema.extras? ≠ some (.allowed false)
  defaults : ∀ members, value = .object members → ∀ missing ∈ rules.missingDefaults schema members,
    (rules.fillAt [] missing.2.1 missing.2.2).isAccepted

/-- A schema that has nothing but a type accepts a value.  It declares no properties, so unless
undeclared ones are allowed, it accepts no object but the empty one. -/
def TakesBare (rules : SchemaRules) (type : SchemaType) (value : Value) : Prop :=
  type.Admits value ∧ (type = .object → rules.allowsExtras ∨ value = .object [])

/-- A list of types is one condition among those that the rest of the schema makes.  The members of
the schema at a position judge a value under the guard against coming back to that position. -/
structure AcceptsAsConjunct (rules : SchemaRules) (types : List SchemaType) (beside : Schema)
    (id : SchemaId) (value : Value) : Prop where
  listed : ∃ type ∈ types, type.Admits value
  keywords : rules.MeetsKeywords beside value
  allOf : ∀ part ∈ beside.allOf, (rules.applyAt [] [id] part value).isAccepted
  oneOf : beside.oneOf ≠ [] →
    beside.oneOf.countP (fun part => (rules.applyAt [] [id] part value).isAccepted) = 1
  anyOf : beside.anyOf ≠ [] → ∃ part ∈ beside.anyOf, (rules.applyAt [] [id] part value).isAccepted

/-- The listed types are alternatives of the members of `anyOf`, and a type that the rest of the
schema implies is asked for besides. -/
structure AcceptsAsAlternative (rules : SchemaRules) (types : List SchemaType) (beside : Schema)
    (id : SchemaId) (value : Value) : Prop where
  implied : ∀ type, beside.effectiveType? = some type → type.Admits value
  keywords : rules.MeetsKeywords beside value
  allOf : ∀ part ∈ beside.allOf, (rules.applyAt [] [id] part value).isAccepted
  tagged : ∀ discriminator, beside.discriminator? = some discriminator →
    ∃ part, discriminator.Picks value part ∧ (rules.applyAt [] [id] part value).isAccepted
  oneOf : beside.discriminator? = none → beside.oneOf ≠ [] →
    beside.oneOf.countP (fun part => (rules.applyAt [] [id] part value).isAccepted) = 1
  anyOf : beside.discriminator? = none → (∃ type ∈ types, rules.TakesBare type value) ∨
    ∃ part ∈ beside.anyOf, (rules.applyAt [] [id] part value).isAccepted

variable {rules : SchemaRules} {fills trail : List SchemaId} {id : SchemaId} {value : Value}
  {schema beside : Schema} {type : SchemaType} {types : List SchemaType}

/-! ## Keywords -/

/-- A type that is not declared can only be implied by keywords for objects or arrays. -/
theorem effectiveType?_of_untyped (huntyped : schema.type? = none) :
    schema.effectiveType? = none ∨ schema.effectiveType? = some .object ∨
      schema.effectiveType? = some .array := by
  unfold Schema.effectiveType?
  rw [huntyped]
  dsimp only
  split
  · exact .inr (.inl rfl)
  · split
    · exact .inr (.inr rfl)
    · exact .inl rfl

/-- A composed schema permits properties that it does not mention, unless it says otherwise. -/
theorem isAccepted_judgeMember_iff_of_isComposed (hcomposed : schema.isComposed)
    {member : String × Value} :
    (rules.judgeMember fills schema member).isAccepted ↔
      (∀ part, schema.Governs member.1 part →
        (rules.applyAt fills [] part member.2).isAccepted) ∧
      (Entries.get? schema.properties member.1 = none →
        schema.extras? ≠ some (.allowed false)) := by
  rw [isAccepted_judgeMember_iff]
  unfold Schema.Governs PermitsExtras
  cases Entries.get? schema.properties member.1 with
  | some part => simp
  | none =>
      cases schema.extras? with
      | none => simp [hcomposed]
      | some extras =>
          cases extras with
          | conforming part => simp
          | allowed isAllowed => cases isAllowed <;> simp

theorem admits_object_iff : SchemaType.object.Admits value ↔ value.kind = .object := by
  simp [SchemaType.Admits, Schema.typed?, Schema.effectiveType?, Schema.ofType]

theorem admits_array_iff : SchemaType.array.Admits value ↔ value.kind = .array := by
  simp [SchemaType.Admits, Schema.typed?, Schema.effectiveType?, Schema.ofType]

theorem meetsKeywords_array_iff {items : List Value} :
    rules.MeetsKeywords schema (.array items) ↔
      (∀ part, schema.items? = some part → ∀ item ∈ items, (rules.apply part item).isAccepted) ∧
        boundFaults schema (.array items) = [] := by
  constructor
  · intro hmeets
    exact ⟨hmeets.items items rfl, hmeets.bounds⟩
  · intro ⟨hitems, hbounds⟩
    constructor
    case bounds => exact hbounds
    case items =>
      intro others heq
      obtain rfl := Value.array.inj heq
      exact hitems
    all_goals simp [Value.isContainer]

theorem meetsKeywords_object_iff (hcomposed : schema.isComposed) {members : Entries Value} :
    rules.MeetsKeywords schema (.object members) ↔
      ((∀ name ∈ schema.required, Entries.contains members name) ∧
        (∀ member ∈ members, (rules.judgeMember [] schema member).isAccepted) ∧
        ∀ missing ∈ rules.missingDefaults schema members,
          (rules.fillAt [] missing.2.1 missing.2.2).isAccepted) ∧
        boundFaults schema (.object members) = [] := by
  simp only [isAccepted_judgeMember_iff_of_isComposed hcomposed]
  constructor
  · intro hmeets
    refine ⟨⟨hmeets.required members rfl, ?_, hmeets.defaults members rfl⟩, hmeets.bounds⟩
    intro member hmember
    exact ⟨hmeets.governed members rfl member hmember, hmeets.closed members rfl member hmember⟩
  · intro ⟨⟨hrequired, hmembers, hdefaults⟩, hbounds⟩
    constructor
    case bounds => exact hbounds
    case format => simp [Value.isContainer]
    case items => simp
    all_goals
      intro others heq
      obtain rfl := Value.object.inj heq
    case required => exact hrequired
    case governed => exact fun member hmember => (hmembers member hmember).1
    case closed => exact fun member hmember => (hmembers member hmember).2
    case defaults => exact hdefaults

theorem meetsKeywords_iff_of_scalar (hscalar : value.isContainer = false) :
    rules.MeetsKeywords schema value ↔
      (rules.judgeFormat schema value).isAccepted ∧ boundFaults schema value = [] := by
  constructor
  · intro hmeets
    exact ⟨hmeets.format hscalar, hmeets.bounds⟩
  · intro ⟨hformat, hbounds⟩
    constructor
    case bounds => exact hbounds
    case format => exact fun _ => hformat
    all_goals
      intro _ heq
      rw [heq] at hscalar
      cases hscalar

/-- The type that keywords imply is asked for. -/
theorem admits_of_judgeType (huntyped : schema.type? = none) {near : Neighbours value}
    {typed : Value} (hjudge : rules.judgeType schema value near = .accepted typed)
    (hemployed : schema.effectiveType? = some type) : type.Admits value := by
  rcases effectiveType?_of_untyped huntyped with htype | htype | htype
  · rw [htype] at hemployed
    cases hemployed
  · obtain rfl := Option.some.inj (htype.symm.trans hemployed)
    obtain ⟨members, rfl⟩ := eq_object_of_judgeType htype hjudge
    exact admits_object_iff.2 rfl
  · obtain rfl := Option.some.inj (htype.symm.trans hemployed)
    obtain ⟨items, rfl⟩ := eq_array_of_judgeType htype hjudge
    exact admits_array_iff.2 rfl

theorem isAccepted_judgeType_array_iff (huntyped : schema.type? = none) {items : List Value}
    (himplied : ∀ type, schema.effectiveType? = some type → type.Admits (.array items)) :
    (rules.judgeType schema (.array items) (rules.neighbours [] trail (.array items))).isAccepted ↔
      ∀ part, schema.items? = some part → ∀ item ∈ items, (rules.apply part item).isAccepted := by
  rcases effectiveType?_of_untyped huntyped with htype | htype | htype
  · obtain ⟨-, -, -, hitems⟩ := nothing_inside_of_none htype
    simp [judgeType_of_none htype, hitems, Judgement.isAccepted]
  · have hkind := admits_object_iff.1 (himplied .object htype)
    cases hkind
  · rw [judgeType_array htype]
    exact isAccepted_judgeItems_iff

theorem isAccepted_judgeType_object_iff (huntyped : schema.type? = none)
    (hcomposed : schema.isComposed) {members : Entries Value}
    (himplied : ∀ type, schema.effectiveType? = some type → type.Admits (.object members)) :
    (rules.judgeType schema (.object members)
        (rules.neighbours [] trail (.object members))).isAccepted ↔
      (∀ name ∈ schema.required, Entries.contains members name) ∧
        (∀ member ∈ members, (rules.judgeMember [] schema member).isAccepted) ∧
        ∀ missing ∈ rules.missingDefaults schema members,
          (rules.fillAt [] missing.2.1 missing.2.2).isAccepted := by
  rcases effectiveType?_of_untyped huntyped with htype | htype | htype
  · obtain ⟨hproperties, hrequired, hextras, -⟩ := nothing_inside_of_none htype
    simp only [judgeType_of_none htype, isAccepted_judgeMember_iff_of_isComposed hcomposed,
      Schema.Governs, missingDefaults, hproperties, hrequired, hextras]
    simp [Judgement.isAccepted]
  · rw [judgeType_object htype]
    exact isAccepted_judgeMembers_iff_filled
  · have hkind := admits_array_iff.1 (himplied .array htype)
    cases hkind

/-- An implied type is that of arrays or objects. -/
theorem isContainer_of_implied (huntyped : schema.type? = none)
    (hemployed : schema.effectiveType? = some type) (hadmits : type.Admits value) :
    value.isContainer := by
  rcases effectiveType?_of_untyped huntyped with htype | htype | htype
  · rw [htype] at hemployed
    cases hemployed
  · obtain rfl := Option.some.inj (htype.symm.trans hemployed)
    have hkind := admits_object_iff.1 hadmits
    cases value with
    | object members => rfl
    | _ => cases hkind
  · obtain rfl := Option.some.inj (htype.symm.trans hemployed)
    have hkind := admits_array_iff.1 hadmits
    cases value with
    | array items => rfl
    | _ => cases hkind

/-- What a composed schema without a declared type says on its own: a value has the type that its
keywords imply, if any, and meets the keywords. -/
theorem isAccepted_judgeOwn_iff_meetsKeywords (huntyped : schema.type? = none)
    (hcomposed : schema.isComposed) :
    (rules.judgeOwn schema value (rules.neighbours [] trail value)).isAccepted ↔
      (∀ type, schema.effectiveType? = some type → type.Admits value) ∧
        rules.MeetsKeywords schema value := by
  by_cases himplied : ∀ type, schema.effectiveType? = some type → type.Admits value
  · rw [and_iff_right himplied]
    cases hcontainer : value.isContainer with
    | true =>
        rw [isAccepted_judgeOwn_iff_of_isContainer hcontainer]
        cases value with
        | array items =>
            rw [meetsKeywords_array_iff, isAccepted_judgeType_array_iff huntyped himplied]
        | object members =>
            rw [meetsKeywords_object_iff hcomposed,
              isAccepted_judgeType_object_iff huntyped hcomposed himplied]
        | _ => cases hcontainer
    | false =>
        have htype : schema.effectiveType? = none := by
          rw [Option.eq_none_iff_forall_ne_some]
          intro type htype
          have hinside := isContainer_of_implied huntyped htype (himplied type htype)
          simp [hcontainer] at hinside
        rw [meetsKeywords_iff_of_scalar hcontainer, isAccepted_judgeOwn, judgeType_of_none htype]
        simp
  · refine iff_of_false ?_ fun hboth => himplied hboth.1
    intro haccepted
    obtain ⟨⟨typed, hjudge, -⟩, -⟩ := isAccepted_judgeOwn.1 haccepted
    exact himplied fun type htype => admits_of_judgeType huntyped hjudge htype

/-! ## Alternatives -/

/-- A schema that has nothing but a type. -/
theorem isAccepted_applyAt_ofType {part : SchemaId}
    (hget : rules.schemas.get? part = some (.ofType type)) (hnew : part ∉ trail)
    (hnull : value ≠ .null) :
    (rules.applyAt fills trail part value).isAccepted ↔ rules.TakesBare type value := by
  rw [applyAt_of_isUnconstrained hget hnew hnull (Schema.isUnconstrained_ofType type)]
  unfold TakesBare
  have htype : (Schema.ofType type).effectiveType? = some type := rfl
  by_cases harray : type = .array
  · subst harray
    rw [admits_array_iff]
    cases value with
    | array items =>
        rw [judgeType_array htype]
        refine iff_of_true (isAccepted_judgeItems_iff.2 ?_) ⟨rfl, by simp⟩
        intro part hpart
        cases hpart
    | _ => simp [judgeType, htype, refuse, Judgement.refuse, Judgement.isAccepted, Value.kind]
  by_cases hobject : type = .object
  · subst hobject
    rw [admits_object_iff]
    cases value with
    | object members =>
        rw [judgeType_object htype]
        refine (isAccepted_judgeMembers_iff rfl).trans ?_
        simp only [isAccepted_judgeMember_iff]
        cases hallows : rules.allowsExtras with
        | true => simp [PermitsExtras, Schema.ofType, Value.kind, hallows]
        | false =>
            cases members with
            | nil => simp [Schema.ofType, Value.kind]
            | cons member rest =>
                rw [List.forall_mem_cons]
                simp [PermitsExtras, Schema.ofType, Schema.isComposed, Value.kind, hallows]
    | _ => simp [judgeType, htype, refuse, Judgement.refuse, Judgement.isAccepted, Value.kind]
  · unfold SchemaType.Admits
    rw [Judgement.isAccepted_iff, typed?_of_primitive htype harray hobject,
      Option.isSome_iff_exists]
    simp only [judgeType_eq_accepted_iff_of_primitive htype harray hobject, hobject, false_imp_iff,
      and_true]

theorem exists_accepted_iff_of_holdsTypes {ids : List SchemaId}
    (hholds : Schema.HoldsTypes rules.schemas ids types) (hnew : ∀ part ∈ ids, part ∉ trail)
    (hnull : value ≠ .null) :
    (∃ part ∈ ids, (rules.applyAt fills trail part value).isAccepted) ↔
      ∃ type ∈ types, rules.TakesBare type value := by
  induction hholds with
  | nil => simp
  | cons hget _ ih =>
      rw [List.forall_mem_cons] at hnew
      rw [List.exists_mem_cons_iff, List.exists_mem_cons_iff, ih hnew.2,
        isAccepted_applyAt_ofType hget hnew.1 hnull]

/-- With further members of `anyOf` in front, a schema leaves room for a value if the tagged member
accepts it, or, without a discriminator, exactly one of `oneOf` and at least one of either kind of
members of `anyOf` do. -/
theorem hasAlternative_iff_of_front {here : SchemaId → Judgement Value} {nullable : Bool}
    {ids : List SchemaId} (hne : ids ≠ []) :
    HasAlternative here (beside.withFront nullable ids) value ↔
      (∀ discriminator, beside.discriminator? = some discriminator →
        ∃ part, discriminator.Picks value part ∧ (here part).isAccepted) ∧
      (beside.discriminator? = none → beside.oneOf ≠ [] →
        beside.oneOf.countP (fun part => (here part).isAccepted) = 1) ∧
      (beside.discriminator? = none → (∃ part ∈ ids, (here part).isAccepted) ∨
        ∃ part ∈ beside.anyOf, (here part).isAccepted) := by
  have htagging : (beside.withFront nullable ids).tagging? = beside.discriminator? := by
    simp [Schema.tagging?, Schema.withFront, hne]
  unfold HasAlternative
  rw [htagging]
  cases beside.discriminator? with
  | some discriminator => simp
  | none => simp [Schema.withFront, hne, or_and_right, exists_or]

theorem meetsKeywords_withFront_iff {nullable : Bool} {ids : List SchemaId} :
    rules.MeetsKeywords (beside.withFront nullable ids) value ↔ rules.MeetsKeywords beside value :=
  ⟨fun ⟨hbounds, hformat, hitems, hrequired, hgoverned, hclosed, hdefaults⟩ =>
      ⟨hbounds, hformat, hitems, hrequired, hgoverned, hclosed, hdefaults⟩,
    fun ⟨hbounds, hformat, hitems, hrequired, hgoverned, hclosed, hdefaults⟩ =>
      ⟨hbounds, hformat, hitems, hrequired, hgoverned, hclosed, hdefaults⟩⟩

/-- A schema that has the listed types in front of its members of `anyOf`. -/
theorem isAccepted_apply_iff_acceptsAsAlternative {nullable : Bool} {ids : List SchemaId}
    (hget : rules.schemas.get? id = some (beside.withFront nullable ids))
    (huntyped : beside.type? = none) (hholds : Schema.HoldsTypes rules.schemas ids types)
    (hne : types ≠ []) (hnull : value ≠ .null) (hended : (rules.apply id value).HasEnded) :
    (rules.apply id value).isAccepted ↔ rules.AcceptsAsAlternative types beside id value := by
  have hids : ids ≠ [] := by
    rintro rfl
    cases hholds
    exact hne rfl
  have hcomposed : (beside.withFront nullable ids).isComposed := by
    simp [Schema.isComposed, Schema.withFront, hids]
  have huntypedFront : (beside.withFront nullable ids).type? = none := huntyped
  -- A listed type stands at another position than the schema, which is more than a type.
  have hnew : ∀ part ∈ ids, part ∉ [id] := by
    intro part hpart hmem
    obtain rfl := List.mem_singleton.1 hmem
    obtain ⟨type, hbare⟩ := exists_of_forall₂ hholds part hpart
    have hsame : beside.withFront nullable ids = .ofType type :=
      Option.some.inj (hget.symm.trans hbare)
    have hnone : ids ++ beside.anyOf = [] := congrArg Schema.anyOf hsame
    exact hids (List.append_eq_nil_iff.1 hnone).1
  have hparts : rules.apply id value =
      rules.judgeParts (beside.withFront nullable ids) value
        (rules.neighbours [] [id] value) := by
    rw [apply, applyAt_eq_judge hget List.not_mem_nil, judge_of_ne_null hnull]
  have hexplained : ∀ part, ((rules.neighbours [] [id] value).here part).IsExplained :=
    fun part => isExplained_applyAt _ _ _ _ _
  have htypes : (∃ part ∈ ids, ((rules.neighbours [] [id] value).here part).isAccepted) ↔
      ∃ type ∈ types, rules.TakesBare type value :=
    exists_accepted_iff_of_holdsTypes hholds hnew hnull
  rw [hparts] at hended ⊢
  rw [isAccepted_judgeParts_iff hexplained hended,
    isAccepted_judgeOwn_iff_meetsKeywords huntypedFront hcomposed, meetsKeywords_withFront_iff,
    hasAlternative_iff_of_front hids, htypes]
  constructor
  · rintro ⟨⟨himplied, hkeywords⟩, hallOf, htagged, honeOf, hanyOf⟩
    exact ⟨himplied, hkeywords, hallOf, htagged, honeOf, hanyOf⟩
  · rintro ⟨himplied, hkeywords, hallOf, htagged, honeOf, hanyOf⟩
    exact ⟨⟨himplied, hkeywords⟩, hallOf, htagged, honeOf, hanyOf⟩

/-- The list is a condition of its own for values that have the implied type, if the schema has no
members of `anyOf` and no discriminator and undeclared properties are allowed. -/
theorem acceptsAsAlternative_iff_acceptsAsConjunct (hanyOf : beside.anyOf = [])
    (htagless : beside.discriminator? = none) (hallows : rules.allowsExtras)
    (himplied : ∀ type, beside.effectiveType? = some type → type.Admits value) :
    rules.AcceptsAsAlternative types beside id value ↔
      rules.AcceptsAsConjunct types beside id value := by
  have hbare : ∀ type, rules.TakesBare type value ↔ type.Admits value :=
    fun type => and_iff_left fun _ => .inl hallows
  constructor
  · intro haccepts
    have hlisted := haccepts.anyOf htagless
    simp only [hanyOf, List.not_mem_nil, false_and, exists_false, or_false, hbare] at hlisted
    exact ⟨hlisted, haccepts.keywords, haccepts.allOf, haccepts.oneOf htagless,
      fun hne => absurd hanyOf hne⟩
  · intro haccepts
    refine ⟨himplied, haccepts.keywords, haccepts.allOf, ?_, fun _ => haccepts.oneOf, fun _ => ?_⟩
    · intro discriminator htagged
      rw [htagless] at htagged
      cases htagged
    · simp only [hbare]
      exact .inl haccepts.listed

/-- Wherever a description has a schema with a list of several types, a value is judged by what the
rest of the schema is read as, with the listed types for alternatives of the members of `anyOf`. -/
theorem list_of_types_joins_anyOf {scope : Scope} {members : Entries Json} {names : List Json}
    (hfilled : scope.IsFilledIn rules.schemas id (.object members))
    (htype : Entries.get? members "type" = some (.array names))
    (hseveral : 2 ≤ (Schema.listedTypes names).length) :
    ∃ beside, scope.IsReadAs rules.schemas (.object (Schema.withoutType members)) beside ∧
      ∀ value, value ≠ .null → (rules.apply id value).HasEnded →
        ((rules.apply id value).isAccepted ↔
          rules.AcceptsAsAlternative (Schema.listedTypes names) beside id value) ∧
        (beside.anyOf = [] → beside.discriminator? = none → rules.allowsExtras →
          (∀ type, beside.effectiveType? = some type → type.Admits value) →
          ((rules.apply id value).isAccepted ↔
            rules.AcceptsAsConjunct (Schema.listedTypes names) beside id value)) := by
  obtain ⟨beside, nullable, ids, hread, hget, huntyped, hholds⟩ :=
    hfilled.exists_beside htype hseveral
  have hne : Schema.listedTypes names ≠ [] := by
    intro hnil
    rw [hnil] at hseveral
    simp at hseveral
  refine ⟨beside, hread, fun value hnull hended => ?_⟩
  have haccepted := isAccepted_apply_iff_acceptsAsAlternative hget huntyped hholds hne hnull hended
  refine ⟨haccepted, fun hanyOf htagless hallows himplied => ?_⟩
  rw [haccepted, acceptsAsAlternative_iff_acceptsAsConjunct hanyOf htagless hallows himplied]

end SchemaRules

/-! ## A flag and a code -/

/-- A flag has a name or a number, or is a truth value. -/
def flagMembers : Entries Json :=
  [("type", .array [.string "string", .string "integer"]),
    ("anyOf", .array [.object [("type", .string "boolean")]])]

/-- A code is a number or a text of at least two characters. -/
def codeMembers : Entries Json :=
  [("type", .array [.string "string", .string "integer"]), ("minLength", .integer 2)]

def listingDocument : Json := .object [("openapi", .string "3.1.0"), ("components", .object [
  ("schemas", .object [("Flag", .object flagMembers), ("Code", .object codeMembers)])])]

def listingTable : SchemaTable :=
  ⟨#[{ anyOf := [2, 3, 4] }, { anyOf := [5, 6], constraints := { minLength? := some 2 } },
    .ofType .string, .ofType .integer, .ofType .boolean, .ofType .string, .ofType .integer]⟩

/-- The document as a record. -/
def listing : Document where
  openapi? := some "3.1.0"
  swagger? := none
  self? := none
  servers := []
  paths := []
  components := { schemas := [("Flag", .object flagMembers), ("Code", .object codeMembers)] }
  security? := none

theorem readComponent_flag : listing.scope.readComponent (.object flagMembers) = (do
    let text ← Compilation.push (.ofType .string)
    let number ← Compilation.push (.ofType .integer)
    let truth ← Compilation.push (.ofType .boolean)
    return { anyOf := [text, number, truth] }) := by
  unfold Scope.readComponent
  simp only [Scope.placeSchema_eq]
  rfl

theorem readComponent_code : listing.scope.readComponent (.object codeMembers) = (do
    let text ← Compilation.push (.ofType .string)
    let number ← Compilation.push (.ofType .integer)
    return { anyOf := [text, number], constraints := { minLength? := some 2 } }) := by
  unfold Scope.readComponent
  simp only [Scope.placeSchema_eq]
  rfl

theorem run_readComponents_listing :
    StateT.run listing.scope.readComponents {} = .ok ((), listingTable) := by
  have hschemas : listing.scope.components.schemas =
    [("Flag", .object flagMembers), ("Code", .object codeMembers)] := rfl
  simp only [Scope.readComponents, hschemas, List.zipIdx_cons, List.zipIdx_nil,
    List.forM_eq_forM, List.forM_cons, List.forM_nil, readComponent_flag, readComponent_code]
  rfl

theorem ofJson_listingDocument :
    Contract.ofJson listingDocument = .ok { schemas := listingTable } :=
  Contract.ofJson_schemas run_readComponents_listing

namespace SchemaRules

/-- A code is a value of a listed type that meets the bound, as far as the bound applies. -/
theorem code_is_of_listed_type :
    let rules : SchemaRules := { schemas := listingTable, formats := Format.standard }
    let beside : Schema := { constraints := { minLength? := some 2 } }
    Contract.ofJson listingDocument = .ok { schemas := listingTable } ∧
      listing.scope.IsFilledIn listingTable 1 (.object codeMembers) ∧
      ((rules.apply 1 (.string "ab")).isAccepted ↔
        rules.AcceptsAsConjunct [.string, .integer] beside 1 (.string "ab")) := by
  intro rules beside
  have hfilled : listing.scope.IsFilledIn rules.schemas 1 (.object codeMembers) :=
    listing.isFilledIn_of_readComponents (by decide) run_readComponents_listing rfl
  refine ⟨ofJson_listingDocument, hfilled, ?_⟩
  obtain ⟨other, hread, hjudged⟩ := list_of_types_joins_anyOf hfilled rfl (by decide)
  have hbeside : listing.scope.readComponent (.object (Schema.withoutType codeMembers)) =
    pure beside := rfl
  obtain ⟨before, after, -, hrun, -⟩ := hread
  rw [hbeside] at hrun
  obtain ⟨rfl, -⟩ := Prod.mk.inj (Except.ok.inj hrun)
  have hfree : rules.schemas.IsDefaultFree := by
    simp [SchemaTable.IsDefaultFree, SchemaTable.forall_get?_iff, rules, listingTable,
      Schema.ofType]
  have hended : (rules.apply 1 (.string "ab")).HasEnded :=
    hasEnded_applyAt_of_isDefaultFree hfree [] [] 1 (.string "ab")
  exact (hjudged (.string "ab") (by simp) hended).2 rfl rfl rfl (by rintro type ⟨⟩)

/-- A flag can be a truth value, which is not of a listed type. -/
theorem flag_is_accepted_of_no_listed_type :
    let rules : SchemaRules := { schemas := listingTable, formats := Format.standard }
    Contract.ofJson listingDocument = .ok { schemas := listingTable } ∧
      Entries.get? flagMembers "type" = some (.array [.string "string", .string "integer"]) ∧
      (rules.apply 0 (.bool true)).isAccepted ∧
      ¬ ∃ type ∈ Schema.listedTypes [.string "string", .string "integer"],
        type.Admits (.bool true) := by
  intro rules
  have hflag : rules.schemas.get? 0 = some { anyOf := [2, 3, 4] } := rfl
  have htruth : rules.schemas.get? 4 = some (.ofType .boolean) := rfl
  have hchoice : ({ anyOf := [2, 3, 4] } : Schema).IsChoice :=
    ⟨⟨rfl, rfl, rfl⟩, rfl, rfl, rfl, .inl rfl⟩
  refine ⟨ofJson_listingDocument, rfl, ?_, ?_⟩
  · rw [apply, isAccepted_applyAt_iff_hasAlternative hflag hchoice rfl (by simp)]
    have haccepts : (rules.applyAt [] [0] 4 (.bool true)).isAccepted := by
      rw [applyAt_eq_judge htruth (by simp)]
      rfl
    exact .inr ⟨rfl, fun hne => absurd rfl hne, fun _ => ⟨4, by simp, haccepts⟩⟩
  · have hlisted : Schema.listedTypes [.string "string", .string "integer"] =
      [.string, .integer] := rfl
    rw [hlisted]
    rintro ⟨type, hmem, hadmits⟩
    simp only [List.mem_cons, List.not_mem_nil, or_false] at hmem
    rcases hmem with rfl | rfl
    · cases hadmits
    · cases hadmits

end SchemaRules

end ApiContract
