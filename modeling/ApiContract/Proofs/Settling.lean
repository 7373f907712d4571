import ApiContract.Proofs.Retyping

/-!
# Values that a schema leaves alone

A schema may give back the value that it was given.  `Settled` says keyword by keyword what it must
not find in a value for that: a type that the value does not have, a bound that its text on the wire
exceeds, a default that is still missing, or an alternative that types it differently.  The main
statement is that applying a schema leaves a value exactly when the value is settled.
-/

namespace ApiContract

namespace SchemaRules

/-- A value has the type of a schema, with all properties that the schema asks for or fills in. -/
structure HasType (rules : SchemaRules) (schema : Schema) (value : Value) : Prop where
  kind : schema.typed? value = some value
  required : ∀ members, value = .object members →
    ∀ name ∈ schema.required, Entries.contains members name
  filled : ∀ members, value = .object members → rules.missingDefaults schema members = []
  extras : ∀ members, value = .object members → schema.effectiveType? = some .object →
    ∀ name ∈ Entries.keys members, Entries.get? schema.properties name = none →
      (∃ id, schema.extras? = some (.conforming id)) ∨ rules.PermitsExtras schema

/-- The keywords of a schema neither object to a value nor change it, apart from the values
inside. -/
structure LeavesAlone (rules : SchemaRules) (schema : Schema) (value : Value) : Prop where
  type : rules.HasType schema value
  bounds : boundFaults schema value = []
  format : ∀ format, schema.format? = some format → value.isContainer = false →
    rules.formats.cast format value = .ok value

/-- A schema that is reached below those of the trail leaves a value as it is. -/
inductive Settled (rules : SchemaRules) : List SchemaId → SchemaId → Value → Prop
  | dangling {trail : List SchemaId} {id : SchemaId} {value : Value}
      (hget : rules.schemas.get? id = none) : Settled rules trail id value
  | visited {trail : List SchemaId} {id : SchemaId} {value : Value} (hmem : id ∈ trail) :
      Settled rules trail id value
  | null {trail : List SchemaId} {id : SchemaId} {schema : Schema}
      (hget : rules.schemas.get? id = some schema) (hnull : rules.TakesNull schema) :
      Settled rules trail id .null
  | judged {trail : List SchemaId} {id : SchemaId} {value : Value} {schema : Schema}
      {chosen : List SchemaId} (hget : rules.schemas.get? id = some schema)
      (hnull : value = .null → rules.ComposesNull schema) (halone : rules.LeavesAlone schema value)
      (hinside : ∀ part child, schema.Asks value part child → Settled rules [] part child)
      (hchosen : Chooses (fun part => rules.applyAt [] (id :: trail) part value) schema value chosen)
      (hhere : ∀ part ∈ schema.allOf ++ chosen, Settled rules (id :: trail) part value) :
      Settled rules trail id value

variable {rules : SchemaRules} {fills trail : List SchemaId} {id : SchemaId} {value typed : Value}
  {schema : Schema} {here : SchemaId → Judgement Value}

/-! ## One schema on its own -/

theorem judgeFormat_eq_accepted_self_iff :
    rules.judgeFormat schema value = .accepted value ↔
      ∀ format, schema.format? = some format → value.isContainer = false →
        rules.formats.cast format value = .ok value := by
  unfold judgeFormat
  cases schema.format? with
  | none => simp
  | some format =>
      cases value.isContainer with
      | true => simp
      | false =>
          cases hcast : rules.formats.cast format value <;>
            simp [hcast, refuse, Judgement.refuse]

theorem eq_of_judgeFormat (hformats : rules.formats = Format.standard) {type : SchemaType}
    (htyped : primitive? type value = some typed)
    (haccepted : rules.judgeFormat schema typed = .accepted value) : typed = value := by
  rcases primitive?_cases htyped with heq | ⟨number, integer, rfl, rfl⟩
  · exact heq
  · rcases (judgeFormat_cases hformats haccepted).1 with heq | ⟨text, htext, -⟩
    · exact heq.symm
    · simp at htext

theorem judgeMember_eq_accepted_self_iff {member : String × Value} :
    rules.judgeMember fills schema member = .accepted member.2 ↔
      (∀ id, Entries.get? schema.properties member.1 = some id →
        rules.applyAt fills [] id member.2 = .accepted member.2) ∧
      (Entries.get? schema.properties member.1 = none →
        (∀ id, schema.extras? = some (.conforming id) →
          rules.applyAt fills [] id member.2 = .accepted member.2) ∧
        ((∃ id, schema.extras? = some (.conforming id)) ∨ rules.PermitsExtras schema)) :=
  judgeMember_iff (fun judgement => judgement = .accepted member.2) rfl fun _ => nofun

theorem judgeItems_eq_accepted_self_iff {items : List Value}
    {hitems : ∀ item ∈ items, item ∈ value.children} :
    judgeItems (rules.neighbours fills trail value) schema items hitems =
        .accepted (.array items) ↔
      ∀ id, schema.items? = some id → ∀ item ∈ items,
        rules.applyAt fills [] id item = .accepted item := by
  cases hschema : schema.items? with
  | none => simp [judgeItems_of_none hschema]
  | some id =>
      rw [judgeItems_eq_accepted_iff hschema]
      constructor
      · rintro ⟨results, hall, heq⟩ _ ⟨⟩
        obtain rfl := Value.array.inj heq
        exact List.forall₂_same.1 hall
      · intro hall
        exact ⟨items, List.forall₂_same.2 (hall id rfl), rfl⟩

theorem judgeMembers_eq_accepted_self_iff {members : Entries Value}
    {hmembers : ∀ member ∈ members, member.2 ∈ value.children} :
    judgeMembers rules (rules.neighbours fills trail value) schema members hmembers =
        .accepted (.object members) ↔
      (∀ name ∈ schema.required, Entries.contains members name) ∧
        rules.missingDefaults schema members = [] ∧
        ∀ member ∈ members, rules.judgeMember fills schema member = .accepted member.2 := by
  rw [judgeMembers_eq_accepted_iff]
  apply and_congr_right'
  constructor
  · rintro ⟨present, filled, hpresent, hfilled, heq⟩
    have happend := Value.object.inj heq
    have hnone : filled = [] := by
      have hlength := congrArg List.length happend
      rw [List.length_append, hpresent.length_eq] at hlength
      exact List.length_eq_zero_iff.1 (by omega)
    subst hnone
    rw [List.append_nil] at happend
    subst happend
    exact ⟨List.length_eq_zero_iff.1 hfilled.length_eq,
      fun member hmem => (List.forall₂_same.1 hpresent member hmem).1⟩
  · rintro ⟨hdefaults, hall⟩
    rw [hdefaults]
    exact ⟨members, [], List.forall₂_same.2 fun member hmem => ⟨hall member hmem, rfl⟩, .nil,
      by rw [List.append_nil]⟩

theorem missingDefaults_of_properties_eq_nil (hnone : schema.properties = [])
    (members : Entries Value) : rules.missingDefaults schema members = [] := by
  rw [missingDefaults, hnone]
  rfl

theorem hasType_of_none (htype : schema.effectiveType? = none) : rules.HasType schema value := by
  obtain ⟨hproperties, hrequired, -, -⟩ := nothing_inside_of_none htype
  exact ⟨by simp [Schema.typed?, htype], by simp [hrequired],
    fun members _ => missingDefaults_of_properties_eq_nil hproperties members, by simp [htype]⟩

theorem hasType_iff_of_primitive {type : SchemaType} (htype : schema.effectiveType? = some type)
    (harray : type ≠ .array) (hobject : type ≠ .object) :
    rules.HasType schema value ↔ primitive? type value = some value := by
  have htyped : schema.typed? value = primitive? type value :=
    typed?_of_primitive htype harray hobject
  constructor
  · intro hvalue
    exact htyped.symm.trans hvalue.kind
  · intro hprimitive
    have hnone : ∀ members, value ≠ .object members := ne_object_of_primitive? hprimitive
    exact ⟨htyped.trans hprimitive, fun members heq => absurd heq (hnone members),
      fun members heq => absurd heq (hnone members), fun members heq => absurd heq (hnone members)⟩

theorem hasType_array {items : List Value} (htype : schema.effectiveType? = some .array) :
    rules.HasType schema (.array items) :=
  ⟨by simp [Schema.typed?, htype, Value.kind], by simp, by simp, by simp⟩

theorem hasType_object_iff {members : Entries Value}
    (htype : schema.effectiveType? = some .object) :
    rules.HasType schema (.object members) ↔
      (∀ name ∈ schema.required, Entries.contains members name) ∧
        rules.missingDefaults schema members = [] ∧
        ∀ name ∈ Entries.keys members, Entries.get? schema.properties name = none →
          (∃ id, schema.extras? = some (.conforming id)) ∨ rules.PermitsExtras schema := by
  constructor
  · intro hvalue
    exact ⟨hvalue.required members rfl, hvalue.filled members rfl, hvalue.extras members rfl htype⟩
  · rintro ⟨hrequired, hfilled, hextras⟩
    refine ⟨by simp [Schema.typed?, htype, Value.kind], ?_, ?_, ?_⟩
    · intro _ heq
      obtain rfl := Value.object.inj heq
      exact hrequired
    · intro _ heq
      obtain rfl := Value.object.inj heq
      exact hfilled
    · intro _ heq _
      obtain rfl := Value.object.inj heq
      exact hextras

theorem judgeItems_eq_accepted_self_iff_asks {items : List Value}
    {hitems : ∀ item ∈ items, item ∈ value.children} :
    judgeItems (rules.neighbours fills trail value) schema items hitems =
        .accepted (.array items) ↔
      ∀ part child, schema.Asks (.array items) part child →
        rules.applyAt fills [] part child = .accepted child := by
  rw [judgeItems_eq_accepted_self_iff]
  constructor
  · intro hall part child hasks
    cases hasks with
    | item hid hmem => exact hall _ hid _ hmem
  · intro hall id hid item hmem
    exact hall id item (.item hid hmem)

theorem judgeMember_of_get? {member : String × Value}
    (hdeclared : Entries.get? schema.properties member.1 = some id) :
    rules.judgeMember fills schema member = rules.applyAt fills [] id member.2 := by
  simp [judgeMember, propertySchema, hdeclared]

theorem judgeMember_of_conforming {member : String × Value}
    (hundeclared : Entries.get? schema.properties member.1 = none)
    (hextras : schema.extras? = some (.conforming id)) :
    rules.judgeMember fills schema member = rules.applyAt fills [] id member.2 := by
  simp [judgeMember, propertySchema, hundeclared, hextras]

theorem judgeMembers_eq_accepted_self_iff_asks {members : Entries Value}
    {hmembers : ∀ member ∈ members, member.2 ∈ value.children}
    (htype : schema.effectiveType? = some .object) :
    judgeMembers rules (rules.neighbours fills trail value) schema members hmembers =
        .accepted (.object members) ↔
      rules.HasType schema (.object members) ∧
        ∀ part child, schema.Asks (.object members) part child →
          rules.applyAt fills [] part child = .accepted child := by
  rw [judgeMembers_eq_accepted_self_iff, hasType_object_iff htype]
  constructor
  · rintro ⟨hrequired, hfilled, hmember⟩
    have hcases := fun member hmem => judgeMember_eq_accepted_self_iff.1 (hmember member hmem)
    refine ⟨⟨hrequired, hfilled, fun name hname hnone => ?_⟩, fun part child hasks => ?_⟩
    · obtain ⟨member, hmem, rfl⟩ := List.mem_map.1 hname
      exact ((hcases member hmem).2 hnone).2
    · cases hasks with
      | declared hmem hid => exact (hcases _ hmem).1 _ hid
      | further hmem hnone hid => exact ((hcases _ hmem).2 hnone).1 _ hid
  · rintro ⟨⟨hrequired, hfilled, hextras⟩, hasked⟩
    refine ⟨hrequired, hfilled, fun member hmem => ?_⟩
    refine judgeMember_eq_accepted_self_iff.2 ⟨fun id hid => ?_, fun hnone => ⟨fun id hid => ?_, ?_⟩⟩
    · exact hasked id member.2 (.declared hmem hid)
    · exact hasked id member.2 (.further hmem hnone hid)
    · exact hextras member.1 (List.mem_map_of_mem hmem) hnone

/-- The type of a schema leaves the values that have it, if all that it looks into is left. -/
theorem judgeType_eq_accepted_self_iff :
    rules.judgeType schema value (rules.neighbours fills trail value) = .accepted value ↔
      rules.HasType schema value ∧ ∀ part child, schema.Asks value part child →
        rules.applyAt fills [] part child = .accepted child := by
  cases schema.typeView value with
  | untyped htype =>
      exact iff_of_true (judgeType_of_none htype) ⟨hasType_of_none htype,
        fun part child hasks => absurd hasks (not_asks_of_none htype)⟩
  | items htype =>
      rw [judgeType_array htype, and_iff_right (hasType_array htype)]
      exact judgeItems_eq_accepted_self_iff_asks
  | members htype =>
      rw [judgeType_object htype]
      exact judgeMembers_eq_accepted_self_iff_asks htype
  | primitive htype harray hobject hprimitive =>
      rw [judgeType_of_primitive? htype hprimitive, hasType_iff_of_primitive htype harray hobject,
        hprimitive, Judgement.accepted.injEq, Option.some.injEq, iff_self_and]
      exact fun _ part child hasks => absurd hasks (not_asks_of_primitive? hprimitive)
  | wrong htype hrefuses =>
      rw [judgeType_of_refuses htype hrefuses]
      refine iff_of_false (by simp [refuse, Judgement.refuse]) fun hboth => ?_
      simpa [typed?_of_refuses htype hrefuses] using hboth.1.kind

theorem judgeFormat_of_isContainer (hcontainer : typed.isContainer = true) :
    rules.judgeFormat schema typed = .accepted typed := by
  unfold judgeFormat
  split
  · rw [if_pos hcontainer]
  · rfl

theorem eq_of_judgeFormat_of_isContainer {result : Value} (hcontainer : typed.isContainer = true)
    (hformat : rules.judgeFormat schema typed = .accepted result) : typed = result := by
  rw [judgeFormat_of_isContainer hcontainer] at hformat
  exact Judgement.accepted.inj hformat

theorem eq_of_judgeType (hformats : rules.formats = Format.standard)
    (htyped : rules.judgeType schema value (rules.neighbours fills trail value) = .accepted typed)
    (hformat : rules.judgeFormat schema typed = .accepted value) : typed = value := by
  cases typesAs_of_judgeType htyped with
  | untyped => rfl
  | items _ hitems =>
      exact eq_of_judgeFormat_of_isContainer (isContainer_of_judgeItems hitems) hformat
  | members _ hmembers =>
      exact eq_of_judgeFormat_of_isContainer (isContainer_of_judgeMembers hmembers) hformat
  | primitive _ _ _ hprimitive => exact eq_of_judgeFormat hformats hprimitive hformat

theorem judgeOwn_eq_accepted_self_iff (hformats : rules.formats = Format.standard) :
    rules.judgeOwn schema value (rules.neighbours fills trail value) = .accepted value ↔
      rules.LeavesAlone schema value ∧ ∀ part child, schema.Asks value part child →
        rules.applyAt fills [] part child = .accepted child := by
  have hown : rules.judgeOwn schema value (rules.neighbours fills trail value) =
      .accepted value ↔
        rules.judgeType schema value (rules.neighbours fills trail value) = .accepted value ∧
        boundFaults schema value = [] ∧ rules.judgeFormat schema value = .accepted value := by
    rw [judgeOwn, Judgement.andThen_eq_accepted_iff]
    constructor
    · rintro ⟨typed, htyped, hrest⟩
      split at hrest
      · next hbounds =>
          obtain rfl := eq_of_judgeType hformats htyped hrest
          exact ⟨htyped, hbounds, hrest⟩
      · simp at hrest
    · rintro ⟨htyped, hbounds, hformat⟩
      exact ⟨value, htyped, by rw [hbounds]; exact hformat⟩
  rw [hown, judgeFormat_eq_accepted_self_iff, judgeType_eq_accepted_self_iff]
  constructor
  · rintro ⟨⟨htype, hinside⟩, hbounds, hformat⟩
    exact ⟨⟨htype, hbounds, hformat⟩, hinside⟩
  · rintro ⟨halone, hinside⟩
    exact ⟨⟨halone.type, hinside⟩, halone.bounds, halone.format⟩

/-! ## A schema and those that it is composed of -/

theorem judge_eq_accepted_self_iff {near : Neighbours value} :
    rules.judge schema value near = .accepted value ↔
      (value = .null ∧ rules.TakesNull schema) ∨
        ((value = .null → rules.ComposesNull schema) ∧
          rules.judgeParts schema value near = .accepted value) := by
  cases rules.judgeView schema value with
  | taken htakes => exact iff_of_true (judge_null_of_takesNull htakes) (.inl ⟨rfl, htakes⟩)
  | refused hrefused =>
      rw [judge_null_of_admitsNull_eq_false hrefused]
      refine iff_of_false (by simp [refuse, Judgement.refuse]) ?_
      rintro (⟨-, htakes⟩ | ⟨hcomposes, -⟩)
      · simp [htakes.admitsNull] at hrefused
      · simp [(hcomposes rfl).2.2.1] at hrefused
  | apart happart =>
      rw [judge_of_takesApart happart]
      refine ⟨fun haccepted => .inr ⟨happart, haccepted⟩, ?_⟩
      rintro (⟨rfl, htakes⟩ | ⟨-, haccepted⟩)
      · exact absurd htakes (happart rfl).not_takesNull
      · exact haccepted

theorem eq_of_forall₂_accepted {ids : List SchemaId} {results : List Value}
    (hall : List.Forall₂ (fun id result => here id = .accepted result) ids results)
    (hresults : ∀ result ∈ results, result = value) : ∀ id ∈ ids, here id = .accepted value :=
  forall_mem_of_forall₂ hall.flip fun result hmem _ hid => hresults result hmem ▸ hid

theorem forall₂_accepted_of_eq {ids : List SchemaId}
    (hall : ∀ id ∈ ids, here id = .accepted value) :
    List.Forall₂ (fun id result => here id = .accepted result) ids (ids.map fun _ => value) := by
  rw [List.forall₂_map_right_iff, List.forall₂_same]
  exact hall

/-- The parts of a schema together leave a value when each of them does. -/
theorem judgeParts_eq_accepted_self_iff (hformats : rules.formats = Format.standard)
    (htable : rules.schemas.IsKeyed) (hget : rules.schemas.get? id = some schema)
    (hkeyed : value.Keyed) (hsame : value.same value) :
    rules.judgeParts schema value (rules.neighbours fills trail value) = .accepted value ↔
      rules.judgeOwn schema value (rules.neighbours fills trail value) = .accepted value ∧
      ∃ chosen, Chooses (fun part => rules.applyAt fills trail part value) schema value chosen ∧
        ∀ part ∈ schema.allOf ++ chosen, rules.applyAt fills trail part value = .accepted value := by
  have hrefines := refines_of_applyAt hformats htable
  rw [judgeParts_eq_accepted_iff fun _ => isExplained_applyAt _ _ _ _ _]
  constructor
  · rintro ⟨own, alternatives, included, hown, halternatives, hincluded, hmerged⟩
    have hparts := refines_of_judgeParts hformats htable hget hkeyed
      (fun part result hresult => hrefines fills trail part value hkeyed result hresult)
      (fun child hchild part result hresult => by
        obtain ⟨-, hchildren⟩ := hkeyed
        exact hrefines fills [] part child (hchildren child hchild) result hresult)
      (fun part literal result hresult hliteral =>
        keyed_of_fillAt hformats htable hliteral hresult) hown halternatives hincluded
    have hall := (Value.mergeAll_eq_raw_iff hkeyed hsame hparts).1 hmerged
    obtain ⟨chosen, hchosen, hresults⟩ := judgeAlternatives_eq_accepted_iff.1 halternatives
    obtain rfl : own = value := hall own (by simp)
    refine ⟨hown, chosen, hchosen, fun part hmem => ?_⟩
    rcases List.mem_append.1 hmem with hmem | hmem
    · exact eq_of_forall₂_accepted hincluded (fun result hresult => hall result (by simp [hresult]))
        part hmem
    · exact eq_of_forall₂_accepted hresults (fun result hresult => hall result (by simp [hresult]))
        part hmem
  · rintro ⟨hown, chosen, hchosen, hall⟩
    have hincluded := forall₂_accepted_of_eq fun part hmem =>
      hall part (List.mem_append_left chosen hmem)
    have hresults := forall₂_accepted_of_eq fun part hmem =>
      hall part (List.mem_append_right schema.allOf hmem)
    refine ⟨value, _, _, hown, judgeAlternatives_eq_accepted_iff.2 ⟨chosen, hchosen, hresults⟩,
      hincluded, ?_⟩
    have hself : ∀ result ∈ value :: (chosen.map fun _ => value) ++
        (schema.allOf.map fun _ => value), result = value := by
      intro result hmem
      simp only [List.cons_append, List.mem_cons, List.mem_append, List.mem_map] at hmem
      rcases hmem with rfl | ⟨_, -, rfl⟩ | ⟨_, -, rfl⟩ <;> rfl
    refine (Value.mergeAll_eq_raw_iff hkeyed hsame fun result hmem => ?_).2 hself
    rw [hself result hmem]
    exact ⟨.unchanged value, hkeyed⟩

theorem same_of_mem_children (hkeyed : value.Keyed) (hsame : value.same value) {child : Value}
    (hchild : child ∈ value.children) : child.same child := by
  cases value with
  | array items =>
      rw [Value.same, Value.sameItems_iff] at hsame
      obtain ⟨index, hindex, rfl⟩ := List.mem_iff_getElem.1 hchild
      exact hsame.2 index _ _ (List.getElem?_eq_getElem hindex) (List.getElem?_eq_getElem hindex)
  | object members =>
      obtain ⟨member, hmem, rfl⟩ := List.mem_map.1 hchild
      exact Value.same_member hsame
        ((Value.keyed_object_iff.1 hkeyed).1.get?_eq_some_iff.2 hmem)
  | _ => simp [Value.children] at hchild

/-- A schema leaves a value exactly when the value is settled under it. -/
theorem applyAt_eq_accepted_self_iff (hformats : rules.formats = Format.standard)
    (htable : rules.schemas.IsKeyed) :
    ∀ fills trail id value, fills = [] → value.Keyed → value.same value →
      (rules.applyAt fills trail id value = .accepted value ↔ rules.Settled trail id value) := by
  -- Only what is judged at the value itself meets the trail; inside it every schema is new again.
  refine applyAt.induct rules _ ?_ ?_ ?_
  · intro fills trail id value hget _ _ _
    exact iff_of_true (applyAt_of_get?_eq_none hget) (.dangling hget)
  · intro fills trail id value _ _ hmem _ _ _
    exact iff_of_true (applyAt_of_mem hmem) (.visited hmem)
  · intro fills trail id value schema hget hnew hhere hinside _ hfills hkeyed hsame
    subst hfills
    have hinside' : (∀ part child, schema.Asks value part child →
        rules.applyAt [] [] part child = .accepted child) ↔
        ∀ part child, schema.Asks value part child → rules.Settled [] part child := by
      refine forall₃_congr fun part child hasks => ?_
      have hchild := mem_children_of_asks hasks
      have hchildKeyed : child.Keyed := by
        obtain ⟨-, hchildren⟩ := hkeyed
        exact hchildren child hchild
      exact hinside child hchild part rfl hchildKeyed (same_of_mem_children hkeyed hsame hchild)
    rw [applyAt_eq_judge hget hnew, judge_eq_accepted_self_iff,
      judgeParts_eq_accepted_self_iff hformats htable hget hkeyed hsame,
      judgeOwn_eq_accepted_self_iff hformats, hinside']
    constructor
    · rintro (⟨rfl, hnull⟩ | ⟨hnull, ⟨halone, hsettled⟩, chosen, hchosen, hall⟩)
      · exact .null hget hnull
      · refine .judged hget hnull halone hsettled hchosen fun part hmem => ?_
        exact (hhere part rfl hkeyed hsame).1 (hall part hmem)
    · intro hsettled
      cases hsettled with
      | dangling hnone => simp [hget] at hnone
      | visited hmem => exact absurd hmem hnew
      | null hget' hnull =>
          obtain rfl := Option.some.inj (hget.symm.trans hget')
          exact .inl ⟨rfl, hnull⟩
      | judged hget' hnull halone hsettled hchosen hall =>
          obtain rfl := Option.some.inj (hget.symm.trans hget')
          exact .inr ⟨hnull, ⟨halone, hsettled⟩, _, hchosen, fun part hmem =>
            (hhere part rfl hkeyed hsame).2 (hall part hmem)⟩

end SchemaRules

end ApiContract
