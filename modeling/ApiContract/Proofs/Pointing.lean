import ApiContract.Proofs.Nesting
import ApiContract.Proofs.Pointer

/-!
# Where violations point

A violation is moved one step down from the root for each value that its judgement was inside of.  So
its path leads into the value, to a value inside or to an object that lacks a property: one that is
required, or one whose default was filled in and is at fault itself.
-/

namespace ApiContract

namespace Judgement

variable {α β : Type}

@[simp] theorem violations_under (segment : Segment) (judgement : Judgement α) :
    (judgement.under segment).violations =
      judgement.violations.map fun violation => violation.under segment := by
  cases judgement <;> rfl

@[simp] theorem violations_accepted (value : α) : (accepted value).violations = [] := rfl

@[simp] theorem violations_rejected (found : List Violation) :
    (rejected found : Judgement α).violations = found := rfl

@[simp] theorem violations_refuse (violation : Violation) :
    (refuse violation : Judgement α).violations = [violation] := rfl

/-- A gathering has no violations of its own. -/
theorem exists_of_mem_violations_all {judgements : List (Judgement α)} {violation : Violation}
    (hmem : violation ∈ (all judgements).violations) :
    ∃ judgement ∈ judgements, violation ∈ judgement.violations := by
  have hended : (all judgements).HasEnded := by
    intro hunending
    simp [hunending, violations] at hmem
  rw [violations_all (hasEnded_all.1 hended)] at hmem
  exact List.mem_flatMap.1 hmem

theorem mem_violations_andThen {f : α → Judgement β} {judgement : Judgement α}
    {violation : Violation} (hmem : violation ∈ (judgement.andThen f).violations) :
    violation ∈ judgement.violations ∨
      ∃ value, judgement = .accepted value ∧ violation ∈ (f value).violations := by
  cases judgement with
  | accepted value => exact .inr ⟨value, rfl, hmem⟩
  | rejected found => exact .inl hmem
  | unending => exact .inl hmem

/-- A search that finds nothing gives its own reason. -/
theorem mem_violations_firstAccepted {judge : β → Judgement α} {otherwise : Violation}
    {candidates : List β} {violation : Violation}
    (hmem : violation ∈ (firstAccepted judge otherwise candidates).violations) :
    violation = otherwise := by
  induction candidates with
  | nil => simpa [firstAccepted] using hmem
  | cons candidate rest ih =>
      unfold firstAccepted at hmem
      split at hmem
      · simp at hmem
      · exact ih hmem
      · simp [violations] at hmem

end Judgement

/-- A violation seen from further up. -/
def Violation.below (violation : Violation) (path : InstancePath) : Violation :=
  { violation with path := path ++ violation.path }

/-- The value behind a step is judged by another schema: an item by the schema for items, a property
by the schema for its name. -/
inductive Schema.Passes (schema : Schema) : Value → Segment → SchemaId → Prop
  | item {items : List Value} {position : Nat} {part : SchemaId}
      (htype : schema.effectiveType? = some .array) (hitems : schema.items? = some part) :
      Passes schema (.array items) (.index position) part
  | member {members : Entries Value} {name : String} {part : SchemaId}
      (htype : schema.effectiveType? = some .object) (hgoverns : schema.Governs name part) :
      Passes schema (.object members) (.key name) part

namespace SchemaRules

/-- Applying a schema to a value applies one at the end of a path that fills in a default there: for a
property that it declares and does not require, and that the object lacks. -/
inductive FillsAt (rules : SchemaRules) :
    SchemaId → Value → InstancePath → String × SchemaId × Json → Prop
  | own {id : SchemaId} {value : Value} {schema : Schema} {missing : String × SchemaId × Json}
      (hget : rules.schemas.get? id = some schema)
      (hfills : rules.FillsIn schema value missing) : FillsAt rules id value [] missing
  | here {id part : SchemaId} {value : Value} {schema : Schema} {path : InstancePath}
      {missing : String × SchemaId × Json} (hget : rules.schemas.get? id = some schema)
      (hpart : part ∈ schema.components) (hfills : FillsAt rules part value path missing) :
      FillsAt rules id value path missing
  | inside {id part : SchemaId} {value child : Value} {schema : Schema} {segment : Segment}
      {path : InstancePath} {missing : String × SchemaId × Json}
      (hget : rules.schemas.get? id = some schema) (hpasses : schema.Passes value segment part)
      (hstep : value.step? segment = some child) (hfills : FillsAt rules part child path missing) :
      FillsAt rules id value (segment :: path) missing

/-- Where the path of a violation leads when it is followed in the value: to a value inside, or to an
object without the name of the next step.  That step is the last one for a required property; for a
property with a default, the rest is the path of a violation of the default. -/
inductive PointsInto (rules : SchemaRules) (id : SchemaId) (value : Value) : Violation → Prop
  | inside {violation : Violation} {place : Value}
      (hwalk : value.walk Value.step? violation.path = (place, [])) :
      PointsInto rules id value violation
  | missing {violation : Violation} {members : Entries Value} {name : String}
      (hwalk : value.walk Value.step? violation.path = (.object members, [.key name]))
      (habsent : name ∉ Entries.keys members) (hkind : violation.kind = .missingProperty) :
      PointsInto rules id value violation
  | filled {inner : Violation} {members : Entries Value} {path : InstancePath} {name : String}
      {property : SchemaId} {literal : Json}
      (hwalk : value.walk Value.step? (inner.below (path ++ [.key name])).path =
        (.object members, .key name :: inner.path))
      (habsent : name ∉ Entries.keys members)
      (hfills : rules.FillsAt id value path (name, property, literal))
      (hinner : inner ∈ (rules.apply property (.ofJson literal)).violations) :
      PointsInto rules id value (inner.below (path ++ [.key name]))

variable {rules : SchemaRules} {trail : List SchemaId} {id part : SchemaId} {value child : Value}
  {schema : Schema} {violation : Violation} {segment : Segment}

namespace PointsInto

theorem of_path_eq_nil (hpath : violation.path = []) : rules.PointsInto id value violation := by
  apply inside
  rw [hpath, Value.walk_nil]

theorem of_fault (fault : SchemaFault) : rules.PointsInto id value fault.violation :=
  of_path_eq_nil rfl

theorem here (hget : rules.schemas.get? id = some schema) (hpart : part ∈ schema.components)
    (hpoints : rules.PointsInto part value violation) : rules.PointsInto id value violation := by
  cases hpoints with
  | inside hwalk => exact .inside hwalk
  | missing hwalk habsent hkind => exact .missing hwalk habsent hkind
  | filled hwalk habsent hfills hinner =>
      exact .filled hwalk habsent (.here hget hpart hfills) hinner

theorem under (hget : rules.schemas.get? id = some schema)
    (hpasses : schema.Passes value segment part) (hstep : value.step? segment = some child)
    (hpoints : rules.PointsInto part child violation) :
    rules.PointsInto id value (violation.under segment) := by
  cases hpoints with
  | inside hwalk => exact .inside ((Value.walk_cons_of_some hstep).trans hwalk)
  | missing hwalk habsent hkind =>
      exact .missing ((Value.walk_cons_of_some hstep).trans hwalk) habsent hkind
  | @filled inner members path name property literal hwalk habsent hfills hinner =>
      have hfillsAt : rules.FillsAt id value (segment :: path) (name, property, literal) :=
        .inside hget hpasses hstep hfills
      exact .filled ((Value.walk_cons_of_some hstep).trans hwalk) habsent hfillsAt hinner

/-- A walk stops at an object that lacks the name of the first step. -/
theorem walk_absent {members : Entries Value} {name : String} {rest : InstancePath}
    (habsent : name ∉ Entries.keys members) :
    (Value.object members).walk Value.step? (.key name :: rest) =
      (.object members, .key name :: rest) :=
  Value.walk_cons_of_none (Entries.get?_eq_none_iff.2 habsent)

theorem of_missing {members : Entries Value} {name : String}
    (habsent : name ∉ Entries.keys members) :
    rules.PointsInto id (.object members)
      ((SchemaFault.missingProperty name).violation.under (.key name)) :=
  .missing (walk_absent habsent) habsent rfl

theorem of_filled {members : Entries Value} {missing : String × SchemaId × Json}
    (hget : rules.schemas.get? id = some schema)
    (hfills : rules.FillsIn schema (.object members) missing)
    (habsent : missing.1 ∉ Entries.keys members)
    (hinner : violation ∈ (rules.apply missing.2.1 (.ofJson missing.2.2)).violations) :
    rules.PointsInto id (.object members) (violation.under (.key missing.1)) :=
  .filled (walk_absent habsent) habsent (.own hget hfills) hinner

/-- A violation of a property that is not declared points at that property. -/
theorem of_undeclared {members : Entries Value} {name : String} {member : Value}
    (hmember : Entries.get? members name = some member) (hpath : violation.path = []) :
    rules.PointsInto id (.object members) (violation.under (.key name)) := by
  have hstep : (Value.object members).step? (.key name) = some member := hmember
  apply inside
  rw [show (violation.under (.key name)).path = .key name :: violation.path from rfl, hpath,
    Value.walk_cons_of_some hstep, Value.walk_nil]

end PointsInto

/-! ## One schema -/

theorem pointsInto_of_judgeItems (hget : rules.schemas.get? id = some schema)
    (htype : schema.effectiveType? = some .array) {items : List Value}
    {hitems : ∀ item ∈ items, item ∈ value.children}
    (hinside : ∀ child ∈ items, ∀ part, ∀ violation ∈ (rules.applyAt [] [] part child).violations,
      rules.PointsInto part child violation) :
    ∀ violation ∈ (judgeItems (rules.neighbours [] trail value) schema items hitems).violations,
      rules.PointsInto id (.array items) violation := by
  intro violation hviolation
  cases hschema : schema.items? with
  | none =>
      rw [judgeItems_of_none hschema] at hviolation
      simp at hviolation
  | some part =>
      simp only [judgeItems, hschema, Judgement.violations_map] at hviolation
      obtain ⟨judgement, hjudgement, hmem⟩ := Judgement.exists_of_mem_violations_all hviolation
      obtain ⟨⟨⟨item, hitem⟩, position⟩, hpair, rfl⟩ := List.mem_map.1 hjudgement
      rw [Judgement.violations_under, List.mem_map] at hmem
      obtain ⟨inner, hinner, rfl⟩ := hmem
      have hposition : (items.attach.map Subtype.val)[position]? = some item := by
        rw [List.getElem?_map, List.mem_zipIdx_iff_getElem?.1 hpair]
        rfl
      rw [List.attach_map_subtype_val] at hposition
      exact (hinside item hitem part inner hinner).under hget (.item htype hschema) hposition

theorem pointsInto_of_judgeMember (hget : rules.schemas.get? id = some schema)
    (htype : schema.effectiveType? = some .object) {members : Entries Value}
    {member : String × Value} (hmember : Entries.get? members member.1 = some member.2)
    (hinside : ∀ part, ∀ violation ∈ (rules.applyAt [] [] part member.2).violations,
      rules.PointsInto part member.2 violation) :
    ∀ violation ∈ (rules.judgeMember [] schema member).violations,
      rules.PointsInto id (.object members) (violation.under (.key member.1)) := by
  intro violation hviolation
  unfold judgeMember at hviolation
  split at hviolation
  · next part hpart =>
      have hpasses : schema.Passes (.object members) (.key member.1) part :=
        .member htype (propertySchema_eq_ok_some_iff.1 hpart)
      exact (hinside part violation hviolation).under hget hpasses hmember
  · simp at hviolation
  · next fault _ =>
      obtain rfl := List.mem_singleton.1 hviolation
      exact .of_undeclared hmember rfl

theorem pointsInto_of_judgeMembers (hget : rules.schemas.get? id = some schema)
    (htype : schema.effectiveType? = some .object) {members : Entries Value}
    (hdistinct : Entries.Distinct members)
    {hmembers : ∀ member ∈ members, member.2 ∈ value.children}
    (hinside : ∀ child ∈ (Value.object members).children, ∀ part,
      ∀ violation ∈ (rules.applyAt [] [] part child).violations,
      rules.PointsInto part child violation) :
    ∀ violation ∈
        (judgeMembers rules (rules.neighbours [] trail value) schema members hmembers).violations,
      rules.PointsInto id (.object members) violation := by
  intro violation hviolation
  rw [judgeMembers_eq_all, Judgement.violations_map] at hviolation
  obtain ⟨judgement, hjudgement, hmem⟩ := Judgement.exists_of_mem_violations_all hviolation
  simp only [memberJudgements, List.mem_append, List.mem_map, List.mem_filter] at hjudgement
  rcases hjudgement with
    (⟨name, ⟨-, habsent⟩, rfl⟩ | ⟨member, hmember, rfl⟩) | ⟨missing, hmissing, rfl⟩
  · have hname : name ∉ Entries.keys members := by
      rw [← Entries.contains_iff]
      simpa using habsent
    obtain rfl : violation = (SchemaFault.missingProperty name).violation.under (.key name) := by
      simpa using hmem
    exact .of_missing hname
  · simp only [named, Judgement.violations_map, Judgement.violations_under, List.mem_map] at hmem
    obtain ⟨inner, hinner, rfl⟩ := hmem
    have hfound : Entries.get? members member.1 = some member.2 :=
      hdistinct.get?_eq_some_iff.2 hmember
    exact pointsInto_of_judgeMember hget htype hfound
      (hinside member.2 (List.mem_map_of_mem hmember)) inner hinner
  · simp only [named, Judgement.violations_map, Judgement.violations_under, List.mem_map] at hmem
    obtain ⟨inner, hinner, rfl⟩ := hmem
    obtain ⟨-, habsent, -, property, hproperty, hdefault⟩ := mem_missingDefaults_iff.1 hmissing
    rw [fillAt_nil_eq_apply hproperty hdefault] at hinner
    exact .of_filled hget ⟨htype, members, rfl, hmissing⟩ habsent hinner

theorem path_eq_nil_of_refuse {fault : SchemaFault}
    (hmem : violation ∈ (refuse fault).violations) : violation.path = [] := by
  obtain rfl := List.mem_singleton.1 hmem
  rfl

theorem pointsInto_of_judgeType (hget : rules.schemas.get? id = some schema)
    (hkeyed : value.Keyed)
    (hinside : ∀ child ∈ value.children, ∀ part,
      ∀ violation ∈ (rules.applyAt [] [] part child).violations,
      rules.PointsInto part child violation) :
    ∀ violation ∈ (rules.judgeType schema value (rules.neighbours [] trail value)).violations,
      rules.PointsInto id value violation := by
  intro violation hviolation
  cases schema.typeView value with
  | untyped htype =>
      rw [judgeType_of_none htype] at hviolation
      simp at hviolation
  | items htype =>
      rw [judgeType_array htype] at hviolation
      exact pointsInto_of_judgeItems hget htype hinside violation hviolation
  | members htype =>
      rw [judgeType_object htype] at hviolation
      exact pointsInto_of_judgeMembers hget htype (Value.keyed_object_iff.1 hkeyed).1 hinside
        violation hviolation
  | primitive htype _ _ hprimitive =>
      rw [judgeType_of_primitive? htype hprimitive] at hviolation
      simp at hviolation
  | wrong htype hrefuses =>
      rw [judgeType_of_refuses htype hrefuses] at hviolation
      exact .of_path_eq_nil (path_eq_nil_of_refuse hviolation)

theorem path_eq_nil_of_judgeFormat {typed : Value}
    (hmem : violation ∈ (rules.judgeFormat schema typed).violations) : violation.path = [] :=
  judgeFormat_elim (fun judgement => violation ∈ judgement.violations → violation.path = [])
    (fun _ haccepted => by simp at haccepted) (fun _ => path_eq_nil_of_refuse) hmem

theorem pointsInto_of_judgeOwn (hget : rules.schemas.get? id = some schema)
    (hkeyed : value.Keyed)
    (hinside : ∀ child ∈ value.children, ∀ part,
      ∀ violation ∈ (rules.applyAt [] [] part child).violations,
      rules.PointsInto part child violation) :
    ∀ violation ∈ (rules.judgeOwn schema value (rules.neighbours [] trail value)).violations,
      rules.PointsInto id value violation := by
  intro violation hviolation
  rcases Judgement.mem_violations_andThen hviolation with htype | ⟨typed, -, hrest⟩
  · exact pointsInto_of_judgeType hget hkeyed hinside violation htype
  · split at hrest
    · exact .of_path_eq_nil (path_eq_nil_of_judgeFormat hrest)
    · obtain ⟨fault, -, rfl⟩ := List.mem_map.1 hrest
      exact .of_fault fault

/-! ## All schemas at a value -/

/-- Of the alternatives, only the one that a property picks has its violations reported. -/
theorem mem_violations_judgeAlternatives {here : SchemaId → Judgement Value}
    {judgement : Judgement Value} (hjudgement : judgement ∈ judgeAlternatives schema value here)
    (hmem : violation ∈ judgement.violations) :
    violation.path = [] ∨ ∃ part ∈ schema.components, violation ∈ (here part).violations := by
  cases htagging : schema.tagging? with
  | some discriminator =>
      rw [judgeAlternatives_of_tagging? htagging, List.mem_singleton] at hjudgement
      subst hjudgement
      unfold judgeTagged at hmem
      split at hmem
      · split at hmem
        · exact .inl (path_eq_nil_of_refuse hmem)
        · next tag htag =>
            split at hmem
            · next part hmapped =>
                exact .inr ⟨part, Schema.mem_components_of_picks htagging ⟨_, tag, rfl, htag, hmapped⟩,
                  hmem⟩
            · exact .inl (path_eq_nil_of_refuse hmem)
      · exact .inl (path_eq_nil_of_refuse hmem)
  | none =>
      rw [judgeAlternatives_of_tagging?_eq_none htagging, List.mem_append] at hjudgement
      rcases hjudgement with hone | hany
      · split at hone
        · simp at hone
        · obtain rfl := List.mem_singleton.1 hone
          unfold judgeOneOf at hmem
          split at hmem
          · simp [Judgement.violations] at hmem
          · simp at hmem
          · exact .inl (path_eq_nil_of_refuse hmem)
          · exact .inl (path_eq_nil_of_refuse hmem)
      · split at hany
        · simp at hany
        · obtain rfl := List.mem_singleton.1 hany
          obtain rfl := Judgement.mem_violations_firstAccepted hmem
          exact .inl rfl

theorem pointsInto_of_judgeParts (hget : rules.schemas.get? id = some schema)
    (hkeyed : value.Keyed)
    (hhere : ∀ part, ∀ violation ∈ (rules.applyAt [] trail part value).violations,
      rules.PointsInto part value violation)
    (hinside : ∀ child ∈ value.children, ∀ part,
      ∀ violation ∈ (rules.applyAt [] [] part child).violations,
      rules.PointsInto part child violation) :
    ∀ violation ∈ (rules.judgeParts schema value (rules.neighbours [] trail value)).violations,
      rules.PointsInto id value violation := by
  intro violation hviolation
  simp only [judgeParts, Judgement.violations_map] at hviolation
  obtain ⟨judgement, hjudgement, hmem⟩ := Judgement.exists_of_mem_violations_all hviolation
  rw [List.cons_append, List.mem_cons, List.mem_append] at hjudgement
  rcases hjudgement with rfl | hjudgement | hjudgement
  · exact pointsInto_of_judgeOwn hget hkeyed hinside violation hmem
  · rcases mem_violations_judgeAlternatives hjudgement hmem with hpath | ⟨part, hpart, hinner⟩
    · exact .of_path_eq_nil hpath
    · exact (hhere part violation hinner).here hget hpart
  · obtain ⟨part, hpart, rfl⟩ := List.mem_map.1 hjudgement
    exact (hhere part violation hmem).here hget (Schema.mem_components_of_mem_allOf hpart)

theorem mem_violations_judge {near : Neighbours value}
    (hmem : violation ∈ (rules.judge schema value near).violations) :
    violation.path = [] ∨ violation ∈ (rules.judgeParts schema value near).violations := by
  cases rules.judgeView schema value with
  | taken htakes => simp [judge_null_of_takesNull htakes] at hmem
  | refused hrefused =>
      rw [judge_null_of_admitsNull_eq_false hrefused] at hmem
      exact .inl (path_eq_nil_of_refuse hmem)
  | apart happart => exact .inr (judge_of_takesApart happart ▸ hmem)

theorem pointsInto_of_applyAt : ∀ fills trail id value, fills = [] → value.Keyed →
    ∀ violation ∈ (rules.applyAt fills trail id value).violations,
      rules.PointsInto id value violation := by
  refine applyAt.induct rules _ ?_ ?_ ?_
  · intro fills trail id value hget _ _ violation hviolation
    rw [applyAt_of_get?_eq_none hget] at hviolation
    simp at hviolation
  · intro fills trail id value _ _ hmem _ _ violation hviolation
    rw [applyAt_of_mem hmem] at hviolation
    simp at hviolation
  · intro fills trail id value schema hget hnew hhere hinside _ hnil hkeyed violation hviolation
    subst hnil
    rw [applyAt_eq_judge hget hnew] at hviolation
    have hchildren : ∀ child ∈ value.children, ∀ part,
        ∀ violation ∈ (rules.applyAt [] [] part child).violations,
        rules.PointsInto part child violation := by
      intro child hchild part
      obtain ⟨-, hkeyedChildren⟩ := hkeyed
      exact hinside child hchild part rfl (hkeyedChildren child hchild)
    rcases mem_violations_judge hviolation with hpath | hparts
    · exact .of_path_eq_nil hpath
    · exact pointsInto_of_judgeParts hget hkeyed (fun part => hhere part rfl hkeyed) hchildren
        violation hparts

/-- A path that leads to the place of a violation and its pointer stop at the same place. -/
theorem PointsInto.stopsWell (hpoints : rules.PointsInto id value violation) :
    Value.StopsWell (value.walk Value.step? violation.path) := by
  cases hpoints with
  | inside hwalk => exact .inl (by rw [hwalk])
  | missing hwalk => exact .inr ⟨_, _, _, hwalk⟩
  | filled hwalk => exact .inr ⟨_, _, _, hwalk⟩

/-- Every violation points into the value that the schema was applied to, and the pointer of its path
spells the steps to where the path leads. -/
theorem violation_points_into (rules : SchemaRules) (id : SchemaId) (value : Value)
    (hkeyed : value.Keyed) (violation : Violation)
    (hviolation : violation ∈ (rules.apply id value).violations) :
    rules.PointsInto id value violation ∧
      ∃ tokens, Pointer.tokens? violation.path.pointer = some tokens ∧
        value.walk Value.named? tokens = ((value.walk Value.step? violation.path).1,
          (value.walk Value.step? violation.path).2.map Segment.text) := by
  have hpoints : rules.PointsInto id value violation :=
    pointsInto_of_applyAt [] [] id value rfl hkeyed violation hviolation
  exact ⟨hpoints, _, Pointer.tokens?_pointer _, Value.walk_named? hpoints.stopsWell⟩

/-- The default of a property with a slash in its name lacks a required property. -/
theorem default_lacks_required_property :
    let outer : Schema := { type? := some .object, properties := [("x", 1)] }
    let inner : Schema := { type? := some .object, properties := [("a/b", 2)] }
    let filled : Schema := {
      type? := some .object
      required := ["~"]
      default? := some (.object []) }
    let rules : SchemaRules := {
      schemas := ⟨#[outer, inner, filled]⟩
      formats := Format.standard }
    let value := Value.object [("x", .object [])]
    let missing := (SchemaFault.missingProperty "~").violation.under (.key "~")
    let violation := missing.below [.key "x", .key "a/b"]
    value.Keyed ∧ rules.apply 0 value = .rejected [violation] ∧
      violation.path.pointer = "/x/a~1b/~0" ∧ rules.PointsInto 0 value violation ∧
      ∃ tokens, Pointer.tokens? violation.path.pointer = some tokens ∧
        value.walk Value.named? tokens = ((value.walk Value.step? violation.path).1,
          (value.walk Value.step? violation.path).2.map Segment.text) := by
  intro outer inner filled rules value missing violation
  have hkeyed : value.Keyed := by
    rw [Value.keyed_object_iff, List.forall_mem_singleton, Value.keyed_object_iff]
    exact ⟨by decide, by decide, by simp⟩
  have houterGet : rules.schemas.get? 0 = some outer := rfl
  have hinnerGet : rules.schemas.get? 1 = some inner := rfl
  have hfilledGet : rules.schemas.get? 2 = some filled := rfl
  have hfilled : rules.fillAt [] 2 (.object []) = .rejected [missing] := by
    rw [fillAt_nil_eq_apply hfilledGet rfl, apply, applyAt_eq_judge hfilledGet List.not_mem_nil]
    rfl
  have hinner : rules.applyAt [] [] 1 (.object []) = .rejected [missing.under (.key "a/b")] := by
    rw [applyAt_eq_judge hinnerGet List.not_mem_nil]
    change Judgement.map _ (.all [Judgement.andThen (Judgement.map _
      (.all [named "a/b" (rules.fillAt [] 2 (.object []))])) _]) = _
    rw [hfilled]
    rfl
  have hrejected : rules.apply 0 value = .rejected [violation] := by
    rw [apply, applyAt_eq_judge houterGet List.not_mem_nil]
    change Judgement.map _ (.all [Judgement.andThen (Judgement.map _
      (.all [named "x" (rules.applyAt [] [] 1 (.object []))])) _]) = _
    rw [hinner]
    rfl
  have hpointer : violation.path.pointer = "/x/a~1b/~0" := rfl
  have hmem : violation ∈ (rules.apply 0 value).violations := by
    rw [hrejected]
    exact List.mem_singleton.2 rfl
  exact ⟨hkeyed, hrejected, hpointer,
    violation_points_into rules 0 value hkeyed violation hmem⟩

end SchemaRules

end ApiContract
