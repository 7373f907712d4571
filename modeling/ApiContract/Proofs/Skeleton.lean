import ApiContract.Proofs.Nesting
import Mathlib.Tactic

/-!
# The skeleton of a typed value

Applying a schema loses nothing of a value and invents nothing.  The typed value has the skeleton of
the value, and where an object has further properties behind its own, each of them is the default of a
property that one of the schemas applied at this place declares and does not require.
-/

namespace ApiContract

namespace SchemaRules

/-- A schema has a part in the result of applying another to a value: it is that schema itself, or it
is included or chosen by one that has a part in it. -/
inductive Contributes (rules : SchemaRules) (value : Value) :
    (trail : List SchemaId) → (id part : SchemaId) → Prop
  | itself {trail : List SchemaId} {id : SchemaId} (hnew : id ∉ trail) :
      Contributes rules value trail id id
  | included {trail : List SchemaId} {id part other : SchemaId} {schema : Schema}
      (hget : rules.schemas.get? id = some schema) (hnew : id ∉ trail) (hmem : part ∈ schema.allOf)
      (hpart : Contributes rules value (id :: trail) part other) :
      Contributes rules value trail id other
  | chosen {trail chosen : List SchemaId} {id part other : SchemaId} {schema : Schema}
      (hget : rules.schemas.get? id = some schema) (hnew : id ∉ trail)
      (hchooses : Chooses (fun next => rules.applyAt [] (id :: trail) next value) schema value chosen)
      (hmem : part ∈ chosen) (hpart : Contributes rules value (id :: trail) part other) :
      Contributes rules value trail id other

/-- The schemas that have a part in the result for an item, below those applied to the array. -/
def AppliedToItem (rules : SchemaRules) (applied : SchemaId → Prop) (item : Value)
    (part : SchemaId) : Prop :=
  ∃ id schema inner, applied id ∧ rules.schemas.get? id = some schema ∧
    schema.effectiveType? = some .array ∧ schema.items? = some inner ∧
    rules.Contributes item [] inner part

/-- The schemas that have a part in the result for a property, below those applied to the object. -/
def AppliedToMember (rules : SchemaRules) (applied : SchemaId → Prop) (name : String)
    (member : Value) (part : SchemaId) : Prop :=
  ∃ id schema inner, applied id ∧ rules.schemas.get? id = some schema ∧
    schema.effectiveType? = some .object ∧ schema.Governs name inner ∧
    rules.Contributes member [] inner part

/-- A schema declares a property that is not required, and this is its default, typed. -/
def SuppliesDefault (rules : SchemaRules) (id : SchemaId) (name : String) (filled : Value) : Prop :=
  ∃ schema part property literal, rules.schemas.get? id = some schema ∧
    (name, part) ∈ schema.properties ∧ name ∉ schema.required ∧
    rules.schemas.get? part = some property ∧ property.default? = some literal ∧
    rules.apply part (.ofJson literal) = .accepted filled

/-- A typed value has the skeleton of a value to which some schemas were applied. -/
inductive Skeleton (rules : SchemaRules) : (applied : SchemaId → Prop) → Value → Value → Prop
  | null {applied : SchemaId → Prop} : Skeleton rules applied .null .null
  | bool {applied : SchemaId → Prop} (value : Bool) : Skeleton rules applied (.bool value) (.bool value)
  | integer {applied : SchemaId → Prop} (value : Int64) :
      Skeleton rules applied (.integer value) (.integer value)
  | number {applied : SchemaId → Prop} (value : Binary64) :
      Skeleton rules applied (.number value) (.number value)
  | integral {applied : SchemaId → Prop} (value : Binary64) (integer : Int64) :
      Skeleton rules applied (.number value) (.integer integer)
  | textual {applied : SchemaId → Prop} {value : Value} (htextual : value.isTextual) :
      Skeleton rules applied value value
  | text {applied : SchemaId → Prop} (text : String) {typed : Value} (htextual : typed.isTextual) :
      Skeleton rules applied (.string text) typed
  | items {applied : SchemaId → Prop} {items typed : List Value}
      (hlength : items.length = typed.length)
      (hitems : ∀ (index : Nat) (item other : Value), items[index]? = some item →
        typed[index]? = some other →
        Skeleton rules (rules.AppliedToItem applied item) item other) :
      Skeleton rules applied (.array items) (.array typed)
  | members {applied : SchemaId → Prop} {members typed : Entries Value}
      (hdistinct : Entries.Distinct typed) (hkeys : Entries.keys members <+: Entries.keys typed)
      (hmembers : ∀ (name : String) (member other : Value),
        Entries.get? members name = some member → Entries.get? typed name = some other →
        Skeleton rules (rules.AppliedToMember applied name member) member other)
      (hfurther : ∀ (name : String) (filled : Value), name ∉ Entries.keys members →
        Entries.get? typed name = some filled → ∃ id, applied id ∧
          rules.SuppliesDefault id name filled) :
      Skeleton rules applied (.object members) (.object typed)

namespace Skeleton

variable {rules : SchemaRules} {applied applied' : SchemaId → Prop} {value raw typed : Value}

theorem exists_object {members : Entries Value}
    (hskeleton : rules.Skeleton applied (.object members) typed) :
    ∃ others, typed = .object others ∧ Entries.Distinct others ∧
      Entries.keys members <+: Entries.keys others ∧
      (∀ name member other, Entries.get? members name = some member →
        Entries.get? others name = some other →
        rules.Skeleton (rules.AppliedToMember applied name member) member other) ∧
      ∀ name filled, name ∉ Entries.keys members → Entries.get? others name = some filled →
        ∃ id, applied id ∧ rules.SuppliesDefault id name filled := by
  cases hskeleton with
  | textual htextual => simp [Value.isTextual] at htextual
  | members hdistinct hkeys hmembers hfurther =>
      exact ⟨_, rfl, hdistinct, hkeys, hmembers, hfurther⟩

theorem ne_object (hskeleton : rules.Skeleton applied raw typed)
    (hraw : ∀ members, raw ≠ .object members) : ∀ members, typed ≠ .object members := by
  cases hskeleton with
  | textual => exact hraw
  | text _ htextual =>
      rintro members rfl
      simp [Value.isTextual] at htextual
  | members => exact absurd rfl (hraw _)
  | _ => simp

theorem exists_string {text : String} (hskeleton : rules.Skeleton applied value (.string text)) :
    ∃ other, value = .string other := by
  cases hskeleton with
  | textual => exact ⟨text, rfl⟩
  | text other _ => exact ⟨other, rfl⟩

theorem refl (hkeyed : value.Keyed) (applied : SchemaId → Prop) :
    rules.Skeleton applied value value := by
  induction hkeyed generalizing applied with
  | @intro value hdistinct _ ih =>
      cases value with
      | null => exact .null
      | bool value => exact .bool value
      | integer value => exact .integer value
      | number value => exact .number value
      | array items =>
          refine .items rfl fun index item other hitem hother => ?_
          obtain rfl : item = other := Option.some.inj (hitem.symm.trans hother)
          exact ih item (List.mem_of_getElem? hitem) _
      | object members =>
          refine .members (hdistinct members rfl) List.prefix_rfl ?_ ?_
          · intro name member other hmember hother
            obtain rfl : member = other := Option.some.inj (hmember.symm.trans hother)
            exact ih member (List.mem_map_of_mem (Entries.mem_of_get? hmember)) _
          · intro name filled hnew hget
            simp [Entries.get?_eq_none_iff.2 hnew] at hget
      | _ => exact .textual rfl

theorem mono (hskeleton : rules.Skeleton applied value typed)
    (himp : ∀ id, applied id → applied' id) : rules.Skeleton applied' value typed := by
  induction hskeleton generalizing applied' with
  | null => exact .null
  | bool value => exact .bool value
  | integer value => exact .integer value
  | number value => exact .number value
  | integral value integer => exact .integral value integer
  | textual htextual => exact .textual htextual
  | text text htextual => exact .text text htextual
  | items hlength _ ih =>
      refine .items hlength fun index item other hitem hother => ?_
      apply ih index item other hitem hother
      rintro part ⟨id, schema, inner, happlied, hrest⟩
      exact ⟨id, schema, inner, himp id happlied, hrest⟩
  | members hdistinct hkeys _ hfurther ih =>
      refine .members hdistinct hkeys ?_ ?_
      · intro name member other hmember hother
        apply ih name member other hmember hother
        rintro part ⟨id, schema, inner, happlied, hrest⟩
        exact ⟨id, schema, inner, himp id happlied, hrest⟩
      · intro name filled hnew hget
        obtain ⟨id, happlied, hsupplies⟩ := hfurther name filled hnew hget
        exact ⟨id, himp id happlied, hsupplies⟩

/-- Merging two results neither drops a property nor adds one that neither of them has. -/
theorem merge {earlier later : Value} (hraw : raw.Keyed)
    (hearlier : rules.Skeleton applied raw earlier) (hlater : rules.Skeleton applied raw later) :
    rules.Skeleton applied raw (Value.merge raw earlier later) := by
  induction hraw generalizing applied earlier later with
  | @intro raw hdistinct _ ih =>
      by_cases hobject : ∃ members, raw = .object members
      · obtain ⟨members, rfl⟩ := hobject
        obtain ⟨left, rfl, hdistinctLeft, hleft, hlefts, hfurtherLeft⟩ := hearlier.exists_object
        obtain ⟨right, rfl, hdistinctRight, hright, hrights, hfurtherRight⟩ :=
          hlater.exists_object
        rw [Value.merge_object]
        refine .members (Value.distinct_mergeMembers hdistinctLeft hdistinctRight)
          (Value.keys_prefix_mergeMembers hdistinctRight hleft) ?_ ?_
        · intro name member other hmember hother
          obtain ⟨earlier, later, hearlier, hlater, rfl⟩ :=
            Value.exists_merge_of_get?_mergeMembers hdistinctRight hleft hright hmember hother
          exact ih member (List.mem_map_of_mem (Entries.mem_of_get? hmember))
            (hlefts name member earlier hmember hearlier)
            (hrights name member later hmember hlater)
        · intro name filled hnew hget
          rcases Value.get?_mergeMembers_cases hdistinctRight hget with
            hget | hget | ⟨member, -, -, hmember, -⟩
          · exact hfurtherLeft name filled hnew hget
          · exact hfurtherRight name filled hnew hget
          · have hname : name ∈ Entries.keys members :=
              Entries.mem_keys_iff.2 ⟨member, Entries.mem_of_get? hmember⟩
            exact absurd hname hnew
      · rw [Value.merge_of_ne_object (hlater.ne_object (by simpa using hobject))]
        split
        · exact hlater
        · exact hearlier

theorem mergeAll {results : List Value} (hraw : raw.Keyed)
    (hresults : ∀ result ∈ results, rules.Skeleton applied raw result) :
    rules.Skeleton applied raw (Value.mergeAll raw results) :=
  Value.mergeAll_induction (.refl hraw applied)
    (fun _ _ hearlier hlater => hearlier.merge hraw hlater) hresults

end Skeleton

variable {rules : SchemaRules} {trail : List SchemaId} {id : SchemaId} {value typed : Value}
  {schema : Schema} {applied : SchemaId → Prop}

/-! ## One schema -/

theorem skeleton_of_judgeItems (hget : rules.schemas.get? id = some schema) (happlied : applied id)
    (htype : schema.effectiveType? = some .array) {items : List Value}
    (hkeyed : (Value.array items).Keyed)
    (hinside : ∀ child ∈ items, ∀ part result, rules.applyAt [] [] part child = .accepted result →
      rules.Skeleton (rules.Contributes child [] part) child result)
    {hitems : ∀ item ∈ items, item ∈ value.children}
    (haccepted : judgeItems (rules.neighbours [] trail value) schema items hitems =
      .accepted typed) : rules.Skeleton applied (.array items) typed := by
  cases hschema : schema.items? with
  | none =>
      obtain rfl := Judgement.accepted.inj ((judgeItems_of_none hschema).symm.trans haccepted)
      exact .refl hkeyed applied
  | some part =>
      obtain ⟨results, hall, rfl⟩ := (judgeItems_eq_accepted_iff hschema).1 haccepted
      refine .items hall.length_eq fun index item other hitem hother => ?_
      obtain ⟨hindex, rfl⟩ := List.getElem?_eq_some_iff.1 hitem
      obtain ⟨hindex', rfl⟩ := List.getElem?_eq_some_iff.1 hother
      have hresult := (List.forall₂_iff_get.1 hall).2 index hindex hindex'
      have hskeleton := hinside _ (List.getElem_mem hindex) part _ hresult
      exact hskeleton.mono fun other hother =>
        ⟨id, schema, part, happlied, hget, htype, hschema, hother⟩

theorem skeleton_of_judgeMember (hget : rules.schemas.get? id = some schema)
    (happlied : applied id) (htype : schema.effectiveType? = some .object)
    {member : String × Value} {result : Value} (hkeyed : member.2.Keyed)
    (hinside : ∀ part result, rules.applyAt [] [] part member.2 = .accepted result →
      rules.Skeleton (rules.Contributes member.2 [] part) member.2 result)
    (haccepted : rules.judgeMember [] schema member = .accepted result) :
    rules.Skeleton (rules.AppliedToMember applied member.1 member.2) member.2 result := by
  rcases judgeMember_eq_accepted haccepted with ⟨part, hpart, hresult⟩ | rfl
  · have hgoverns : schema.Governs member.1 part := propertySchema_eq_ok_some_iff.1 hpart
    exact (hinside part result hresult).mono fun other hother =>
      ⟨id, schema, part, happlied, hget, htype, hgoverns, hother⟩
  · exact .refl hkeyed _

theorem skeleton_of_judgeMembers (htable : rules.schemas.IsKeyed)
    (hget : rules.schemas.get? id = some schema) (happlied : applied id)
    (htype : schema.effectiveType? = some .object) {members : Entries Value}
    (hkeyed : (Value.object members).Keyed)
    (hinside : ∀ child ∈ (Value.object members).children, ∀ part result,
      rules.applyAt [] [] part child = .accepted result →
      rules.Skeleton (rules.Contributes child [] part) child result)
    {hmembers : ∀ member ∈ members, member.2 ∈ value.children}
    (haccepted : judgeMembers rules (rules.neighbours [] trail value) schema members hmembers =
      .accepted typed) : rules.Skeleton applied (.object members) typed := by
  obtain ⟨-, present, filled, hpresent, hfills, rfl⟩ := judgeMembers_eq_accepted_iff.1 haccepted
  obtain ⟨hdistinctMembers, hkeyedMembers⟩ := Value.keyed_object_iff.1 hkeyed
  have hnames : List.Forall₂ (fun member result => member.1 = result.1) members present :=
    hpresent.imp fun _ _ hresult => hresult.2
  have hsupplies : ∀ entry ∈ filled, rules.SuppliesDefault id entry.1 entry.2 := by
    refine forall_mem_of_forall₂ hfills fun missing hmissing entry hentry => ?_
    obtain ⟨hdeclared, -, hoptional, property, hproperty, hdefault⟩ :=
      mem_missingDefaults_iff.1 hmissing
    rw [fillAt_nil_eq_apply hproperty hdefault] at hentry
    rw [← hentry.2]
    exact ⟨schema, missing.2.1, property, missing.2.2, hget, hdeclared, hoptional, hproperty,
      hdefault, hentry.1⟩
  refine .members (distinct_append_of_fills htable hget hdistinctMembers hnames hfills)
    (Entries.keys_prefix_append_of_forall₂ hnames) ?_ ?_
  · intro name member other hmember hother
    refine Entries.related_of_forall₂_append (fun member result => rules.Skeleton
      (rules.AppliedToMember applied member.1 member.2) member.2 result) ?_ hmember hother
    refine forall₂_imp_of_mem hpresent fun member hmem result _ hresult => ⟨hresult.2, ?_⟩
    exact skeleton_of_judgeMember hget happlied htype (hkeyedMembers member hmem)
      (hinside member.2 (List.mem_map_of_mem hmem)) hresult.1
  · intro name value hnew hvalue
    rw [← Entries.keys_eq_of_forall₂ hnames] at hnew
    rw [Entries.get?_append_of_notMem_keys hnew] at hvalue
    exact ⟨id, happlied, hsupplies _ (Entries.mem_of_get? hvalue)⟩

theorem skeleton_of_judgeType (htable : rules.schemas.IsKeyed)
    (hget : rules.schemas.get? id = some schema) (happlied : applied id) (hkeyed : value.Keyed)
    (hinside : ∀ child ∈ value.children, ∀ part result,
      rules.applyAt [] [] part child = .accepted result →
      rules.Skeleton (rules.Contributes child [] part) child result)
    (haccepted : rules.judgeType schema value (rules.neighbours [] trail value) =
      .accepted typed) : rules.Skeleton applied value typed := by
  cases typesAs_of_judgeType haccepted with
  | untyped => exact .refl hkeyed applied
  | items htype hitems => exact skeleton_of_judgeItems hget happlied htype hkeyed hinside hitems
  | members htype hmembers =>
      exact skeleton_of_judgeMembers htable hget happlied htype hkeyed hinside hmembers
  | primitive _ _ _ hprimitive =>
      rcases primitive?_cases hprimitive with rfl | ⟨number, integer, rfl, rfl⟩
      · exact .refl hkeyed applied
      · exact .integral number integer

/-- A format only types a text. -/
theorem skeleton_of_judgeFormat (hformats : rules.formats = Format.standard) {result : Value}
    (htyped : rules.Skeleton applied value typed)
    (haccepted : rules.judgeFormat schema typed = .accepted result) :
    rules.Skeleton applied value result := by
  rcases (judgeFormat_cases hformats haccepted).1 with rfl | ⟨text, rfl, htextual, -⟩
  · exact htyped
  · obtain ⟨other, rfl⟩ := htyped.exists_string
    exact .text other htextual

theorem skeleton_of_judgeOwn (hformats : rules.formats = Format.standard)
    (htable : rules.schemas.IsKeyed) (hget : rules.schemas.get? id = some schema)
    (happlied : applied id) (hkeyed : value.Keyed)
    (hinside : ∀ child ∈ value.children, ∀ part result,
      rules.applyAt [] [] part child = .accepted result →
      rules.Skeleton (rules.Contributes child [] part) child result)
    (haccepted : rules.judgeOwn schema value (rules.neighbours [] trail value) =
      .accepted typed) : rules.Skeleton applied value typed := by
  obtain ⟨kind, hkind, hrest⟩ := Judgement.andThen_eq_accepted_iff.1 haccepted
  have hskeleton := skeleton_of_judgeType htable hget happlied hkeyed hinside hkind
  split at hrest
  · exact skeleton_of_judgeFormat hformats hskeleton hrest
  · simp at hrest

/-! ## All schemas at a value -/

theorem skeleton_of_applyAt (hformats : rules.formats = Format.standard)
    (htable : rules.schemas.IsKeyed) :
    ∀ fills trail id value, fills = [] → value.Keyed →
      ∀ typed, rules.applyAt fills trail id value = .accepted typed →
        rules.Skeleton (rules.Contributes value trail id) value typed := by
  refine applyAt.induct rules _ ?_ ?_ ?_
  · intro fills trail id value hget _ hkeyed typed haccepted
    rw [applyAt_of_get?_eq_none hget] at haccepted
    obtain rfl := Judgement.accepted.inj haccepted
    exact .refl hkeyed _
  · intro fills trail id value _ _ hmem _ hkeyed typed haccepted
    rw [applyAt_of_mem hmem] at haccepted
    obtain rfl := Judgement.accepted.inj haccepted
    exact .refl hkeyed _
  · intro fills trail id value schema hget hnew hhere hinside _ hnil hkeyed typed haccepted
    subst hnil
    rw [applyAt_eq_judge hget hnew] at haccepted
    rcases judge_eq_accepted haccepted with rfl | hparts
    · exact .refl hkeyed _
    · obtain ⟨own, alternatives, included, hown, halternatives, hincluded, rfl⟩ :=
        (judgeParts_eq_accepted_iff fun _ => isExplained_applyAt _ _ _ _ _).1 hparts
      obtain ⟨chosen, hchooses, hchosen⟩ := judgeAlternatives_eq_accepted_iff.1 halternatives
      have hchildren : ∀ child ∈ value.children, ∀ part result,
          rules.applyAt [] [] part child = .accepted result →
          rules.Skeleton (rules.Contributes child [] part) child result := by
        intro child hchild part result hresult
        obtain ⟨-, hkeyedChildren⟩ := hkeyed
        exact hinside child hchild part rfl (hkeyedChildren child hchild) result hresult
      apply Skeleton.mergeAll hkeyed
      rw [List.cons_append, List.forall_mem_cons, List.forall_mem_append]
      refine ⟨?_, ?_, ?_⟩
      · exact skeleton_of_judgeOwn hformats htable hget (.itself hnew) hkeyed hchildren hown
      · refine forall_mem_of_forall₂ hchosen fun part hmem result hresult => ?_
        exact (hhere part rfl hkeyed result hresult).mono fun other hother =>
          .chosen hget hnew hchooses hmem hother
      · refine forall_mem_of_forall₂ hincluded fun part hmem result hresult => ?_
        exact (hhere part rfl hkeyed result hresult).mono fun other hother =>
          .included hget hnew hmem hother

/-- Whatever schema accepts a value, the typed value has the skeleton of the value. -/
theorem skeleton_of_apply (rules : SchemaRules) (hformats : rules.formats = Format.standard)
    (htable : rules.schemas.IsKeyed) (id : SchemaId) (value typed : Value) (hkeyed : value.Keyed)
    (haccepted : rules.apply id value = .accepted typed) :
    rules.Skeleton (rules.Contributes value [] id) value typed :=
  skeleton_of_applyAt hformats htable [] [] id value rfl hkeyed typed haccepted

/-- An object with a date, to which an included schema adds a note. -/
theorem included_note_is_filled_behind_date :
    let whole : Schema := { type? := some .object, properties := [("day", 1)], allOf := [2] }
    let day : Schema := { type? := some .string, format? := some "date" }
    let noted : Schema := { properties := [("note", 3)] }
    let note : Schema := { default? := some (.string "-") }
    let rules : SchemaRules := {
      schemas := ⟨#[whole, day, noted, note]⟩
      formats := Format.standard }
    let value := Value.object [("day", .string "2024-02-29")]
    let typed := Value.object [("day", .date ⟨2024, 2, 29, by decide⟩), ("note", .string "-")]
    rules.schemas.IsKeyed ∧ value.Keyed ∧ rules.apply 0 value = .accepted typed ∧
      rules.Skeleton (rules.Contributes value [] 0) value typed := by
  intro whole day noted note rules value typed
  have htable : rules.schemas.IsKeyed := by
    have hwhole : Entries.Distinct whole.properties := by decide
    have hnoted : Entries.Distinct noted.properties := by decide
    have hempty : Entries.Distinct ([] : Entries SchemaId) := by decide
    simp [SchemaTable.isKeyed_iff, rules, hwhole, hnoted, day, note, hempty, whole, noted,
      Json.Keyed.string]
  have hkeyed : value.Keyed := by
    rw [Value.keyed_object_iff, List.forall_mem_singleton]
    exact ⟨by decide, Value.keyed_of_not_isContainer rfl⟩
  have haccepted : rules.apply 0 value = .accepted typed := by cbv
  exact ⟨htable, hkeyed, haccepted,
    skeleton_of_apply rules rfl htable 0 value typed hkeyed haccepted⟩

end SchemaRules

end ApiContract
