import ApiContract.Proofs.Composition

/-!
# Equal verdicts

A schema takes nothing from the judgements that it asks for but their verdicts, as long as only its
own verdict counts.  So two arrays, or two objects with the same names, get the same verdict if all
schemas that join in judging them pass the same verdict on what is inside, find the same bounds
respected and are picked by the same tags.
-/

namespace ApiContract

namespace Judgement

variable {α β : Type} {left right : Judgement α}

/-- Both judgements have ended or neither has, and both accept or neither does. -/
structure AgreesWith (left right : Judgement α) : Prop where
  hasEnded : left.HasEnded ↔ right.HasEnded
  isAccepted : left.isAccepted ↔ right.isAccepted

theorem AgreesWith.refl (judgement : Judgement α) : judgement.AgreesWith judgement := ⟨.rfl, .rfl⟩

theorem AgreesWith.symm (hagrees : left.AgreesWith right) : right.AgreesWith left :=
  ⟨hagrees.hasEnded.symm, hagrees.isAccepted.symm⟩

theorem hasEnded_of_isAccepted (haccepted : left.isAccepted) : left.HasEnded := by
  obtain ⟨value, rfl⟩ := isAccepted_iff.1 haccepted
  exact hasEnded_accepted value

theorem agreesWith_of_isAccepted (hleft : left.isAccepted) (hright : right.isAccepted) :
    left.AgreesWith right :=
  ⟨iff_of_true (hasEnded_of_isAccepted hleft) (hasEnded_of_isAccepted hright),
    iff_of_true hleft hright⟩

theorem isRejected_iff_not_isAccepted :
    left.IsRejected ↔ left.HasEnded ∧ ¬ left.isAccepted := by
  cases left <;> simp [IsRejected, HasEnded, isAccepted]

theorem AgreesWith.isRejected (hagrees : left.AgreesWith right) :
    left.IsRejected ↔ right.IsRejected := by
  rw [isRejected_iff_not_isAccepted, isRejected_iff_not_isAccepted, hagrees.hasEnded,
    hagrees.isAccepted]

theorem AgreesWith.map (hagrees : left.AgreesWith right) (f g : α → β) :
    (left.map f).AgreesWith (right.map g) := by
  constructor
  · rw [hasEnded_map, hasEnded_map, hagrees.hasEnded]
  · rw [isAccepted_map, isAccepted_map, hagrees.isAccepted]

theorem AgreesWith.under (hagrees : left.AgreesWith right) (segment : Segment) :
    (left.under segment).AgreesWith (right.under segment) := by
  constructor
  · rw [hasEnded_under, hasEnded_under, hagrees.hasEnded]
  · rw [isAccepted_under, isAccepted_under, hagrees.isAccepted]

theorem forall_mem_iff_of_forall₂ {related : α → β → Prop} {first : α → Prop} {second : β → Prop}
    {lefts : List α} {rights : List β} (hrelated : List.Forall₂ related lefts rights)
    (hiff : ∀ left right, related left right → (first left ↔ second right)) :
    (∀ left ∈ lefts, first left) ↔ ∀ right ∈ rights, second right := by
  induction hrelated with
  | nil => simp
  | cons hhead _ ih => rw [List.forall_mem_cons, List.forall_mem_cons, ih, hiff _ _ hhead]

theorem AgreesWith.all {lefts rights : List (Judgement α)}
    (hlefts : ∀ judgement ∈ lefts, judgement.IsExplained)
    (hrights : ∀ judgement ∈ rights, judgement.IsExplained)
    (hagree : List.Forall₂ AgreesWith lefts rights) :
    (Judgement.all lefts).AgreesWith (Judgement.all rights) := by
  constructor
  · rw [hasEnded_all, hasEnded_all]
    exact forall_mem_iff_of_forall₂ hagree fun _ _ hpair => hpair.hasEnded
  · rw [isAccepted_all hlefts, isAccepted_all hrights]
    exact forall_mem_iff_of_forall₂ hagree fun _ _ hpair => hpair.isAccepted

end Judgement

/-- The members of an object, each with the value that is read for it. -/
def Entries.reread (read : String × Value → Value) (members : Entries Value) : Entries Value :=
  members.map fun member => (member.1, read member)

theorem Entries.keys_reread (read : String × Value → Value) (members : Entries Value) :
    keys (reread read members) = keys members := by
  simp [keys, reread]

theorem Entries.contains_reread (read : String × Value → Value) (members : Entries Value)
    (name : String) : contains (reread read members) name = contains members name := by
  rw [Bool.eq_iff_iff, contains_iff, contains_iff, keys_reread]

namespace SchemaRules

variable {rules : SchemaRules} {fills trail : List SchemaId} {id part : SchemaId}
  {value left right : Value} {schema : Schema}

/-! ## What is inside a value -/

theorem hasEnded_judgeItems_neighbours {items : List Value} :
    (judgeItems (rules.neighbours fills trail (.array items)) schema items
        fun _ hmem => hmem).HasEnded ↔
      ∀ part, schema.items? = some part → ∀ item ∈ items,
        (rules.applyAt fills [] part item).HasEnded := by
  rw [hasEnded_judgeItems_iff]
  constructor
  · exact fun hall part hitems item hitem => hall part item (.item hitems hitem)
  · intro hall part child hasks
    cases hasks with
    | item hitems hitem => exact hall part hitems child hitem

theorem judgeItems_agrees {items : List Value} {read : Value → Value}
    (hitems : ∀ part, schema.items? = some part → ∀ item ∈ items,
      (rules.applyAt fills [] part item).AgreesWith (rules.applyAt fills [] part (read item))) :
    (judgeItems (rules.neighbours fills trail (.array items)) schema items
        fun _ hmem => hmem).AgreesWith
      (judgeItems (rules.neighbours fills trail (.array (items.map read))) schema (items.map read)
        fun _ hmem => hmem) := by
  constructor
  · rw [hasEnded_judgeItems_neighbours, hasEnded_judgeItems_neighbours]
    refine forall₂_congr fun part hpart => ?_
    rw [List.forall_mem_map]
    exact forall₂_congr fun item hitem => (hitems part hpart item hitem).hasEnded
  · refine isAccepted_judgeItems_iff.trans (.trans ?_ isAccepted_judgeItems_iff.symm)
    refine forall₂_congr fun part hpart => ?_
    rw [List.forall_mem_map]
    exact forall₂_congr fun item hitem => (hitems part hpart item hitem).isAccepted

/-- Whether a property is welcome depends on its name alone. -/
theorem judgeMember_agrees {name : String} {before after : Value}
    (hgoverned : ∀ part, schema.Governs name part →
      (rules.applyAt fills [] part before).AgreesWith (rules.applyAt fills [] part after)) :
    (rules.judgeMember fills schema (name, before)).AgreesWith
      (rules.judgeMember fills schema (name, after)) := by
  unfold judgeMember
  dsimp only
  split
  · next part hpart => exact hgoverned part (propertySchema_eq_ok_some_iff.1 hpart)
  · exact Judgement.agreesWith_of_isAccepted rfl rfl
  · exact .refl _

theorem missingDefaults_reread (read : String × Value → Value) (members : Entries Value) :
    rules.missingDefaults schema (Entries.reread read members) =
      rules.missingDefaults schema members := by
  simp only [missingDefaults, Entries.contains_reread]

theorem memberJudgements_agree {members : Entries Value} {read : String × Value → Value}
    (hmembers : ∀ member ∈ members, ∀ part, schema.Governs member.1 part →
      (rules.applyAt fills [] part member.2).AgreesWith
        (rules.applyAt fills [] part (read member))) :
    List.Forall₂ Judgement.AgreesWith (rules.memberJudgements fills schema members)
      (rules.memberJudgements fills schema (Entries.reread read members)) := by
  unfold memberJudgements
  simp only [missingDefaults_reread, Entries.contains_reread]
  refine List.rel_append (List.rel_append ?_ ?_) ?_
  · exact List.forall₂_same.2 fun judgement _ => .refl judgement
  · rw [Entries.reread, List.map_map, List.forall₂_map_left_iff, List.forall₂_map_right_iff,
      List.forall₂_same]
    intro member hmember
    exact ((judgeMember_agrees (hmembers member hmember)).under _).map _ _
  · exact List.forall₂_same.2 fun judgement _ => .refl judgement

theorem judgeMembers_agrees {members : Entries Value} {read : String × Value → Value}
    (hmembers : ∀ member ∈ members, ∀ part, schema.Governs member.1 part →
      (rules.applyAt fills [] part member.2).AgreesWith
        (rules.applyAt fills [] part (read member)))
    {hleft : ∀ member ∈ members, member.2 ∈ left.children}
    {hright : ∀ member ∈ Entries.reread read members, member.2 ∈ right.children} :
    (judgeMembers rules (rules.neighbours fills trail left) schema members hleft).AgreesWith
      (judgeMembers rules (rules.neighbours fills trail right) schema
        (Entries.reread read members) hright) := by
  rw [judgeMembers_eq_all, judgeMembers_eq_all]
  exact (Judgement.AgreesWith.all isExplained_of_mem_memberJudgements
    isExplained_of_mem_memberJudgements (memberJudgements_agree hmembers)).map _ _

/-! ## A schema on its own -/

/-- A schema on its own does not ask others about the same value. -/
theorem judgeOwn_neighbours {trail' : List SchemaId} :
    rules.judgeOwn schema value (rules.neighbours fills trail value) =
      rules.judgeOwn schema value (rules.neighbours fills trail' value) := by
  have htype : rules.judgeType schema value (rules.neighbours fills trail value) =
      rules.judgeType schema value (rules.neighbours fills trail' value) := by
    refine judgeType_related (fun _ => rfl) rfl ?_ ?_
    · rintro items rfl htype
      rw [judgeType_array htype, judgeType_array htype]
      rfl
    · rintro members rfl htype
      rw [judgeType_object htype, judgeType_object htype]
      rfl
  unfold judgeOwn
  rw [htype]

theorem judgeType_array_of_ne {type : SchemaType} {items : List Value}
    {near : Neighbours (.array items)} (htype : schema.effectiveType? = some type)
    (hother : type ≠ .array) :
    rules.judgeType schema (.array items) near = refuse (.wrongType type .array) := by
  refine judgeType_of_refuses htype ⟨fun _ _ => hother, by simp, ?_⟩
  cases type <;> rfl

theorem judgeType_object_of_ne {type : SchemaType} {members : Entries Value}
    {near : Neighbours (.object members)} (htype : schema.effectiveType? = some type)
    (hother : type ≠ .object) :
    rules.judgeType schema (.object members) near = refuse (.wrongType type .object) := by
  refine judgeType_of_refuses htype ⟨by simp, fun _ _ => hother, ?_⟩
  cases type <;> rfl

theorem judgeType_array_agrees {items : List Value} {read : Value → Value}
    (hitems : ∀ part, schema.items? = some part → ∀ item ∈ items,
      (rules.applyAt fills [] part item).AgreesWith (rules.applyAt fills [] part (read item))) :
    (rules.judgeType schema (.array items) (rules.neighbours fills trail (.array items))).AgreesWith
      (rules.judgeType schema (.array (items.map read))
        (rules.neighbours fills trail (.array (items.map read)))) := by
  cases htype : schema.effectiveType? with
  | none =>
      rw [judgeType_of_none htype, judgeType_of_none htype]
      exact Judgement.agreesWith_of_isAccepted rfl rfl
  | some type =>
      by_cases harray : type = .array
      · subst harray
        rw [judgeType_array htype, judgeType_array htype]
        exact judgeItems_agrees hitems
      · rw [judgeType_array_of_ne htype harray, judgeType_array_of_ne htype harray]
        exact .refl _

theorem judgeType_object_agrees {members : Entries Value} {read : String × Value → Value}
    (hmembers : ∀ member ∈ members, ∀ part, schema.Governs member.1 part →
      (rules.applyAt fills [] part member.2).AgreesWith
        (rules.applyAt fills [] part (read member))) :
    (rules.judgeType schema (.object members)
        (rules.neighbours fills trail (.object members))).AgreesWith
      (rules.judgeType schema (.object (Entries.reread read members))
        (rules.neighbours fills trail (.object (Entries.reread read members)))) := by
  cases htype : schema.effectiveType? with
  | none =>
      rw [judgeType_of_none htype, judgeType_of_none htype]
      exact Judgement.agreesWith_of_isAccepted rfl rfl
  | some type =>
      by_cases hobject : type = .object
      · subst hobject
        rw [judgeType_object htype, judgeType_object htype]
        exact judgeMembers_agrees hmembers
      · rw [judgeType_object_of_ne htype hobject, judgeType_object_of_ne htype hobject]
        exact .refl _

theorem isContainer_of_judgeType {typed : Value} (hcontainer : value.isContainer = true)
    (htyped : rules.judgeType schema value (rules.neighbours fills trail value) =
      .accepted typed) : typed.isContainer = true := by
  cases typesAs_of_judgeType htyped with
  | untyped _ => exact hcontainer
  | items _ hjudge => exact isContainer_of_judgeItems hjudge
  | members _ hjudge => exact isContainer_of_judgeMembers hjudge
  | @primitive type _ _ htype harray hobject hprimitive =>
      cases type <;> cases value <;> simp_all [primitive?, Value.isTextual, Value.isContainer]

theorem isAccepted_judgeOwn_iff_of_isContainer (hcontainer : value.isContainer = true) :
    (rules.judgeOwn schema value (rules.neighbours fills trail value)).isAccepted ↔
      (rules.judgeType schema value (rules.neighbours fills trail value)).isAccepted ∧
        boundFaults schema value = [] := by
  rw [isAccepted_judgeOwn, Judgement.isAccepted_iff]
  refine and_congr_left fun _ => exists_congr fun typed => and_iff_left_of_imp fun htyped => ?_
  exact isAccepted_judgeFormat_of_isContainer (isContainer_of_judgeType hcontainer htyped)

theorem judgeOwn_agrees (hleft : left.isContainer = true) (hright : right.isContainer = true)
    (htype : (rules.judgeType schema left (rules.neighbours fills trail left)).AgreesWith
      (rules.judgeType schema right (rules.neighbours fills trail right)))
    (hbounds : boundFaults schema left = [] ↔ boundFaults schema right = []) :
    (rules.judgeOwn schema left (rules.neighbours fills trail left)).AgreesWith
      (rules.judgeOwn schema right (rules.neighbours fills trail right)) := by
  constructor
  · rw [hasEnded_judgeOwn_iff, hasEnded_judgeOwn_iff, htype.hasEnded]
  · rw [isAccepted_judgeOwn_iff_of_isContainer hleft, isAccepted_judgeOwn_iff_of_isContainer hright,
      htype.isAccepted, hbounds]

/-! ## A whole schema -/

theorem Consults.of_agrees {here here' : SchemaId → Judgement Value}
    (hagree : ∀ part ∈ schema.components, (here part).AgreesWith (here' part))
    (hpicks : ∀ discriminator, schema.tagging? = some discriminator →
      ∀ part, discriminator.Picks left part ↔ discriminator.Picks right part)
    (hconsults : Consults here schema left part) : Consults here' schema right part := by
  cases hconsults with
  | included hmem => exact .included hmem
  | tagged htagging hpicked => exact .tagged htagging ((hpicks _ htagging part).1 hpicked)
  | oneOf htagging hmem => exact .oneOf htagging hmem
  | anyOf htagging hsplit hbefore =>
      refine .anyOf htagging hsplit fun other hother => ?_
      have hmem : other ∈ schema.components :=
        Schema.mem_components_of_mem_anyOf (by simp [hsplit, hother])
      exact (hagree other hmem).isRejected.1 (hbefore other hother)

theorem hasAlternative_of_agrees {here here' : SchemaId → Judgement Value}
    (hagree : ∀ part ∈ schema.components, (here part).AgreesWith (here' part))
    (hpicks : ∀ discriminator, schema.tagging? = some discriminator →
      ∀ part, discriminator.Picks left part ↔ discriminator.Picks right part)
    (halternative : HasAlternative here schema left) : HasAlternative here' schema right := by
  rcases halternative with ⟨discriminator, part, htagging, hpicked, haccepted⟩ |
    ⟨htagging, hone, hany⟩
  · have hmem := Schema.mem_components_of_picks htagging hpicked
    exact .inl ⟨discriminator, part, htagging, (hpicks _ htagging part).1 hpicked,
      (hagree part hmem).isAccepted.1 haccepted⟩
  · refine .inr ⟨htagging, fun hne => ?_, fun hne => ?_⟩
    · rw [← hone hne]
      refine List.countP_congr fun other hother => ?_
      exact (hagree other (Schema.mem_components_of_mem_oneOf hother)).isAccepted.symm
    · obtain ⟨other, hother, haccepted⟩ := hany hne
      have hmem := Schema.mem_components_of_mem_anyOf hother
      exact ⟨other, hother, (hagree other hmem).isAccepted.1 haccepted⟩

/-- A schema finds no difference between two values: its own keywords do not, and its tag picks the
same alternatives. -/
structure JudgesAlike (rules : SchemaRules) (fills : List SchemaId) (schema : Schema)
    (left right : Value) : Prop where
  own : (rules.judgeOwn schema left (rules.neighbours fills [] left)).AgreesWith
    (rules.judgeOwn schema right (rules.neighbours fills [] right))
  picks : ∀ discriminator, schema.tagging? = some discriminator →
    ∀ part, discriminator.Picks left part ↔ discriminator.Picks right part

theorem JudgesAlike.symm (halike : rules.JudgesAlike fills schema left right) :
    rules.JudgesAlike fills schema right left :=
  ⟨halike.own.symm, fun discriminator htagging part =>
    (halike.picks discriminator htagging part).symm⟩

theorem hasEnded_judgeParts_of_alike (halike : rules.JudgesAlike fills schema left right)
    (hagree : ∀ part ∈ schema.components,
      (rules.applyAt fills trail part left).AgreesWith (rules.applyAt fills trail part right))
    (hended : (rules.judgeParts schema left (rules.neighbours fills trail left)).HasEnded) :
    (rules.judgeParts schema right (rules.neighbours fills trail right)).HasEnded := by
  obtain ⟨hown, hconsulted⟩ := hasEnded_judgeParts_iff.1 hended
  refine hasEnded_judgeParts_iff.2 ⟨?_, fun part hconsults => ?_⟩
  · rw [judgeOwn_neighbours] at hown ⊢
    exact halike.own.hasEnded.1 hown
  · have hconsulted' : Consults (rules.neighbours fills trail left).here schema left part :=
      hconsults.of_agrees (fun other hmem => (hagree other hmem).symm) halike.symm.picks
    exact (hagree part hconsults.mem_components).hasEnded.1 (hconsulted part hconsulted')

theorem isAccepted_judgeParts_of_alike (halike : rules.JudgesAlike fills schema left right)
    (hagree : ∀ part ∈ schema.components,
      (rules.applyAt fills trail part left).AgreesWith (rules.applyAt fills trail part right))
    (haccepted : (rules.judgeParts schema left (rules.neighbours fills trail left)).isAccepted) :
    (rules.judgeParts schema right (rules.neighbours fills trail right)).isAccepted := by
  have hended := Judgement.hasEnded_of_isAccepted haccepted
  have hended' := hasEnded_judgeParts_of_alike halike hagree hended
  have hexplained : ∀ value part, ((rules.neighbours fills trail value).here part).IsExplained :=
    fun value part => isExplained_applyAt _ _ _ _ _
  obtain ⟨hown, hincluded, halternative⟩ :=
    (isAccepted_judgeParts_iff (hexplained left) hended).1 haccepted
  refine (isAccepted_judgeParts_iff (hexplained right) hended').2 ⟨?_, fun part hmem => ?_, ?_⟩
  · rw [judgeOwn_neighbours] at hown ⊢
    exact halike.own.isAccepted.1 hown
  · have hcomponent := Schema.mem_components_of_mem_allOf hmem
    exact (hagree part hcomponent).isAccepted.1 (hincluded part hmem)
  · exact hasAlternative_of_agrees hagree halike.picks halternative

theorem judgeParts_agrees (halike : rules.JudgesAlike fills schema left right)
    (hagree : ∀ part ∈ schema.components,
      (rules.applyAt fills trail part left).AgreesWith (rules.applyAt fills trail part right)) :
    (rules.judgeParts schema left (rules.neighbours fills trail left)).AgreesWith
      (rules.judgeParts schema right (rules.neighbours fills trail right)) := by
  have hagree' : ∀ part ∈ schema.components,
      (rules.applyAt fills trail part right).AgreesWith (rules.applyAt fills trail part left) :=
    fun part hmem => (hagree part hmem).symm
  exact ⟨⟨hasEnded_judgeParts_of_alike halike hagree,
      hasEnded_judgeParts_of_alike halike.symm hagree'⟩,
    ⟨isAccepted_judgeParts_of_alike halike hagree,
      isAccepted_judgeParts_of_alike halike.symm hagree'⟩⟩

/-- Two values get the same verdict if none of the schemas that join in judging them finds a
difference. -/
theorem applyAt_agrees : ∀ fills trail id left, ∀ right, left ≠ .null → right ≠ .null →
    (∀ part schema, Relation.ReflTransGen rules.schemas.Composes id part →
      rules.schemas.get? part = some schema → rules.JudgesAlike fills schema left right) →
    (rules.applyAt fills trail id left).AgreesWith (rules.applyAt fills trail id right) := by
  refine applyAt.induct rules _ ?_ ?_ ?_
  · intro fills trail id left hget right _ _ _
    rw [applyAt_of_get?_eq_none hget, applyAt_of_get?_eq_none hget]
    exact Judgement.agreesWith_of_isAccepted rfl rfl
  · intro fills trail id left _ _ hmem right _ _ _
    rw [applyAt_of_mem hmem, applyAt_of_mem hmem]
    exact Judgement.agreesWith_of_isAccepted rfl rfl
  · intro fills trail id left schema hget hnew hhere _ _ right hleft hright hall
    rw [applyAt_eq_judge hget hnew, applyAt_eq_judge hget hnew, judge_of_ne_null hleft,
      judge_of_ne_null hright]
    refine judgeParts_agrees (hall id schema .refl hget) fun part hmem => ?_
    refine hhere part right hleft hright fun other found hpath hother => ?_
    exact hall other found (.head ⟨schema, hget, hmem⟩ hpath) hother

end SchemaRules
end ApiContract
