import ApiContract.Proofs.Agreement

/-!
# Allowing properties that are not declared

An object may have properties that no keyword mentions, unless the validator or a schema says
otherwise.  A validator that allows them accepts whatever one accepts that does not, as long as no
schema asks for exactly one of several: of the members of `anyOf`, an earlier one may accept then, but
that does no harm, and nothing is asked for that was not asked for before.
-/

namespace ApiContract

namespace Judgement

variable {α : Type} {strict lenient : Judgement α}

/-- The second judgement ends if the first one does, and accepts if the first one does. -/
structure Widens (strict lenient : Judgement α) : Prop where
  hasEnded : strict.HasEnded → lenient.HasEnded
  isAccepted : strict.isAccepted → lenient.isAccepted

theorem Widens.refl (judgement : Judgement α) : judgement.Widens judgement := ⟨id, id⟩

theorem Widens.isRejected (hwidens : strict.Widens lenient) (hended : strict.HasEnded)
    (hrejected : lenient.IsRejected) : strict.IsRejected := by
  rw [isRejected_iff_not_isAccepted] at hrejected ⊢
  exact ⟨hended, fun haccepted => hrejected.2 (hwidens.isAccepted haccepted)⟩

end Judgement

namespace SchemaRules

variable {rules : SchemaRules} {fills trail : List SchemaId} {id : SchemaId} {schema : Schema}
  {value typed : Value}

/-- The same rules, where properties that no keyword mentions are allowed or not. -/
def withExtras (rules : SchemaRules) (allowed : Bool) : SchemaRules :=
  { rules with allowsExtras := allowed }

/-- All that a schema asks for is judged more leniently where further properties are allowed. -/
structure NeighboursWiden (rules : SchemaRules) (fills trail : List SchemaId) (schema : Schema)
    (value : Value) : Prop where
  here : ∀ part ∈ schema.components,
    ((rules.withExtras false).applyAt fills trail part value).Widens
      ((rules.withExtras true).applyAt fills trail part value)
  inside : ∀ part child, schema.Asks value part child →
    ((rules.withExtras false).applyAt fills [] part child).Widens
      ((rules.withExtras true).applyAt fills [] part child)
  filled : ∀ missing, rules.FillsIn schema value missing →
    ((rules.withExtras false).fillAt fills missing.2.1 missing.2.2).Widens
      ((rules.withExtras true).fillAt fills missing.2.1 missing.2.2)

/-! ## A schema on its own -/

theorem PermitsExtras.withExtras (hpermits : (rules.withExtras false).PermitsExtras schema) :
    (rules.withExtras true).PermitsExtras schema := by
  rcases hpermits with hallowed | ⟨hnone, -⟩
  · exact .inl hallowed
  · exact .inr ⟨hnone, .inl rfl⟩

section Step

variable (hwiden : rules.NeighboursWiden fills trail schema value)

include hwiden

theorem isAccepted_judgeMember_withExtras {members : Entries Value} (hvalue : value = .object members)
    {member : String × Value} (hmem : member ∈ members)
    (haccepted : ((rules.withExtras false).judgeMember fills schema member).isAccepted) :
    ((rules.withExtras true).judgeMember fills schema member).isAccepted := by
  have hgoverned : ∀ part, schema.Governs member.1 part →
      ((rules.withExtras false).applyAt fills [] part member.2).isAccepted →
        ((rules.withExtras true).applyAt fills [] part member.2).isAccepted := by
    intro part hgoverns
    subst hvalue
    exact (hwiden.inside part member.2 (Schema.asks_of_governs hmem hgoverns)).isAccepted
  rw [isAccepted_judgeMember_iff] at haccepted ⊢
  obtain ⟨hdeclared, hfurther⟩ := haccepted
  refine ⟨fun part hpart => hgoverned part (.inl hpart) (hdeclared part hpart), fun hundeclared => ?_⟩
  obtain ⟨hconforming, hpermitted⟩ := hfurther hundeclared
  exact ⟨fun part hpart => hgoverned part (.inr ⟨hundeclared, hpart⟩) (hconforming part hpart),
    hpermitted.imp_right PermitsExtras.withExtras⟩

/-- What the type makes of a value stays, unless it is put together from typed parts. -/
theorem exists_judgeType_withExtras
    (htyped : (rules.withExtras false).judgeType schema value
      ((rules.withExtras false).neighbours fills trail value) = .accepted typed) :
    ∃ typed', (rules.withExtras true).judgeType schema value
        ((rules.withExtras true).neighbours fills trail value) = .accepted typed' ∧
      (typed' = typed ∨ typed'.isContainer = true) := by
  cases typesAs_of_judgeType htyped with
  | untyped htype => exact ⟨value, judgeType_of_none htype, .inl rfl⟩
  | @items items _ htype hitems =>
      have hall := isAccepted_judgeItems_iff.1 (Judgement.isAccepted_iff.2 ⟨typed, hitems⟩)
      have hlenient : (judgeItems ((rules.withExtras true).neighbours fills trail (.array items))
          schema items fun _ hmem => hmem).isAccepted :=
        isAccepted_judgeItems_iff.2 fun part hpart item hmem =>
          (hwiden.inside part item (.item hpart hmem)).isAccepted (hall part hpart item hmem)
      obtain ⟨typed', htyped'⟩ := Judgement.isAccepted_iff.1 hlenient
      exact ⟨typed', (judgeType_array htype).trans htyped', .inr (isContainer_of_judgeItems htyped')⟩
  | @members members _ htype hmembers =>
      obtain ⟨hrequired, hpresent, hfilled⟩ :=
        isAccepted_judgeMembers_iff_filled.1 (Judgement.isAccepted_iff.2 ⟨typed, hmembers⟩)
      have hlenient : (judgeMembers (rules.withExtras true)
          ((rules.withExtras true).neighbours fills trail (.object members)) schema members
          fun _ hmem => List.mem_map.2 ⟨_, hmem, rfl⟩).isAccepted := by
        refine isAccepted_judgeMembers_iff_filled.2 ⟨hrequired, fun member hmem => ?_,
          fun missing hmissing => ?_⟩
        · exact isAccepted_judgeMember_withExtras hwiden rfl hmem (hpresent member hmem)
        · exact (hwiden.filled missing ⟨htype, members, rfl, hmissing⟩).isAccepted
            (hfilled missing hmissing)
      obtain ⟨typed', htyped'⟩ := Judgement.isAccepted_iff.1 hlenient
      exact ⟨typed', (judgeType_object htype).trans htyped',
        .inr (isContainer_of_judgeMembers htyped')⟩
  | primitive htype harray hobject hprimitive =>
      exact ⟨typed, (judgeType_eq_accepted_iff_of_primitive htype harray hobject).2 hprimitive,
        .inl rfl⟩

theorem isAccepted_judgeOwn_withExtras
    (haccepted : ((rules.withExtras false).judgeOwn schema value
      ((rules.withExtras false).neighbours fills trail value)).isAccepted) :
    ((rules.withExtras true).judgeOwn schema value
      ((rules.withExtras true).neighbours fills trail value)).isAccepted := by
  obtain ⟨⟨typed, htyped, hformat⟩, hbounds⟩ := isAccepted_judgeOwn.1 haccepted
  obtain ⟨typed', htyped', hsame | hcontainer⟩ := exists_judgeType_withExtras hwiden htyped
  · subst hsame
    exact isAccepted_judgeOwn.2 ⟨⟨typed', htyped', hformat⟩, hbounds⟩
  · exact isAccepted_judgeOwn.2
      ⟨⟨typed', htyped', isAccepted_judgeFormat_of_isContainer hcontainer⟩, hbounds⟩

/-! ## A whole schema -/

theorem Consults.of_withExtras {part : SchemaId}
    (hended : ∀ other, Consults ((rules.withExtras false).neighbours fills trail value).here schema
      value other → (((rules.withExtras false).neighbours fills trail value).here other).HasEnded)
    (hconsults : Consults ((rules.withExtras true).neighbours fills trail value).here schema value
      part) :
    Consults ((rules.withExtras false).neighbours fills trail value).here schema value part :=
  hconsults.of_isRejected (fun other hmem => (hwiden.here other hmem).isRejected) hended

theorem hasEnded_judge_withExtras
    (hended : ((rules.withExtras false).judge schema value
      ((rules.withExtras false).neighbours fills trail value)).HasEnded) :
    ((rules.withExtras true).judge schema value
      ((rules.withExtras true).neighbours fills trail value)).HasEnded := by
  rw [hasEnded_judge_iff] at hended ⊢
  intro happart
  obtain ⟨hconsulted, hinside, hfilled⟩ := hended happart
  refine ⟨fun part hconsults => ?_, fun part child hlooks => ?_, fun missing hmissing => ?_⟩
  · have hstrict := Consults.of_withExtras hwiden hconsulted hconsults
    exact (hwiden.here part hstrict.mem_components).hasEnded (hconsulted part hstrict)
  · exact (hwiden.inside part child hlooks.2).hasEnded (hinside part child hlooks)
  · exact (hwiden.filled missing hmissing).hasEnded (hfilled missing hmissing)

/-- Without `oneOf`, an alternative that is found is found if more is accepted. -/
theorem hasAlternative_withExtras (honeOf : schema.oneOf = [])
    (halternative : HasAlternative ((rules.withExtras false).neighbours fills trail value).here schema
      value) :
    HasAlternative ((rules.withExtras true).neighbours fills trail value).here schema value := by
  rcases halternative with ⟨discriminator, part, htagging, hpicks, haccepted⟩ | ⟨htagging, -, hany⟩
  · have hmem := Schema.mem_components_of_picks htagging hpicks
    exact .inl ⟨discriminator, part, htagging, hpicks, (hwiden.here part hmem).isAccepted haccepted⟩
  · refine .inr ⟨htagging, fun hne => absurd honeOf hne, fun hne => ?_⟩
    obtain ⟨part, hmem, haccepted⟩ := hany hne
    have hcomponent := Schema.mem_components_of_mem_anyOf hmem
    exact ⟨part, hmem, (hwiden.here part hcomponent).isAccepted haccepted⟩

theorem isAccepted_judgeParts_withExtras (honeOf : schema.oneOf = [])
    (hended : ((rules.withExtras true).judgeParts schema value
      ((rules.withExtras true).neighbours fills trail value)).HasEnded)
    (haccepted : ((rules.withExtras false).judgeParts schema value
      ((rules.withExtras false).neighbours fills trail value)).isAccepted) :
    ((rules.withExtras true).judgeParts schema value
      ((rules.withExtras true).neighbours fills trail value)).isAccepted := by
  have hexplained : ∀ allowed part,
      (((rules.withExtras allowed).neighbours fills trail value).here part).IsExplained :=
    fun allowed part => isExplained_applyAt _ _ _ _ _
  obtain ⟨hown, hincluded, halternative⟩ := (isAccepted_judgeParts_iff (hexplained false)
    (Judgement.hasEnded_of_isAccepted haccepted)).1 haccepted
  refine (isAccepted_judgeParts_iff (hexplained true) hended).2 ⟨?_, fun part hmem => ?_, ?_⟩
  · exact isAccepted_judgeOwn_withExtras hwiden hown
  · exact (hwiden.here part (Schema.mem_components_of_mem_allOf hmem)).isAccepted (hincluded part hmem)
  · exact hasAlternative_withExtras hwiden honeOf halternative

theorem judge_withExtras (honeOf : schema.oneOf = []) :
    ((rules.withExtras false).judge schema value
        ((rules.withExtras false).neighbours fills trail value)).Widens
      ((rules.withExtras true).judge schema value
        ((rules.withExtras true).neighbours fills trail value)) := by
  have hended := hasEnded_judge_withExtras hwiden
  refine ⟨hended, fun haccepted => ?_⟩
  by_cases happart : rules.TakesApart schema value
  · have hstrict : (rules.withExtras false).TakesApart schema value := happart
    have hlenient : (rules.withExtras true).TakesApart schema value := happart
    have hendedParts := hended (Judgement.hasEnded_of_isAccepted haccepted)
    rw [judge_of_takesApart hlenient] at hendedParts ⊢
    rw [judge_of_takesApart hstrict] at haccepted
    exact isAccepted_judgeParts_withExtras hwiden honeOf hendedParts haccepted
  · obtain ⟨rfl, -⟩ := Classical.not_imp.1 happart
    rcases judge_of_not_takesApart (show ¬ (rules.withExtras false).TakesApart schema .null from happart)
      with heq | heq
    · rcases judge_eq_accepted_self_iff.1 heq with ⟨-, htakes⟩ | ⟨hcomposes, -⟩
      · have htakes' : (rules.withExtras true).TakesNull schema := htakes
        rw [judge_eq_accepted_self_iff.2 (.inl ⟨rfl, htakes'⟩)]
        rfl
      · exact absurd hcomposes happart
    · rw [heq] at haccepted
      cases haccepted

end Step

/-! ## All steps -/

/-- However schemas come to judge a value, allowing further properties only widens what they accept, and
what ended still ends. -/
theorem applyAt_withExtras (rules : SchemaRules)
    (hnone : ∀ id schema, rules.schemas.get? id = some schema → schema.oneOf = []) :
    ∀ fills trail id value, ((rules.withExtras false).applyAt fills trail id value).Widens
      ((rules.withExtras true).applyAt fills trail id value) := by
  refine applyAt.induct (rules.withExtras false) _ ?_ ?_ ?_
  · intro fills trail id value hget
    have hget' : (rules.withExtras true).schemas.get? id = none := hget
    rw [applyAt_of_get?_eq_none hget, applyAt_of_get?_eq_none hget']
    exact .refl _
  · intro fills trail id value _ _ hmem
    rw [applyAt_of_mem hmem, applyAt_of_mem hmem]
    exact .refl _
  · intro fills trail id value schema hget hnew hhere hinside hfilled
    have hget' : (rules.withExtras true).schemas.get? id = some schema := hget
    rw [applyAt_eq_judge hget hnew, applyAt_eq_judge hget' hnew]
    refine judge_withExtras ⟨fun part _ => hhere part, fun part child hasks => ?_,
      fun missing _ => ?_⟩ (hnone id schema hget)
    · exact hinside child (mem_children_of_asks hasks) part
    · by_cases hfree : missing.2.1 ∈ rules.schemas.ids ∧ missing.2.1 ∉ fills
      · have hfill : ∀ allowed, (rules.withExtras allowed).fillAt fills missing.2.1 missing.2.2 =
            (rules.withExtras allowed).applyAt (missing.2.1 :: fills) [] missing.2.1
              (.ofJson missing.2.2) := fun _ => if_pos hfree
        rw [hfill, hfill]
        exact hfilled missing.2.1 missing.2.2 hfree
      · have hstuck : ∀ allowed, (rules.withExtras allowed).fillAt fills missing.2.1 missing.2.2 =
            .unending := fun _ => if_neg hfree
        rw [hstuck, hstuck]
        exact .refl _

/-- Allowing properties that no keyword mentions only widens what is accepted, in any table without
`oneOf`: its schemas may include each other, offer alternatives by `anyOf` or by a tag, come back to
themselves and fill in defaults. -/
theorem allowing_extras_only_widens (rules : SchemaRules)
    (hnone : ∀ id schema, rules.schemas.get? id = some schema → schema.oneOf = [])
    (id : SchemaId) (value : Value) (haccepted : ((rules.withExtras false).apply id value).isAccepted) :
    ((rules.withExtras true).apply id value).isAccepted :=
  (applyAt_withExtras rules hnone [] [] id value).isAccepted haccepted

/-- A remark has a text, or it is any object with a tone.  Where further properties are refused, the
first kind does not take a remark with a text and a tone, but the second one does.  Where they are
allowed, the first kind takes it already. -/
theorem remark_with_tone_is_accepted_either_way :
    let remark : Schema := { anyOf := [1, 2] }
    let plain : Schema := { type? := some .object, properties := [("text", 3)] }
    let toned : Schema := {
      type? := some .object, required := ["tone"], extras? := some (.allowed true) }
    let text : Schema := { type? := some .string }
    let rules : SchemaRules := {
      schemas := ⟨#[remark, plain, toned, text]⟩, formats := Format.standard }
    let value := Value.object [("text", .string "hello"), ("tone", .string "kind")]
    (∀ id schema, rules.schemas.get? id = some schema → schema.oneOf = []) ∧
      ¬ ((rules.withExtras false).apply 1 value).isAccepted ∧
      ((rules.withExtras false).apply 0 value).isAccepted ∧
      ((rules.withExtras true).apply 1 value).isAccepted ∧
      ((rules.withExtras true).apply 0 value).isAccepted := by
  intro remark plain toned text rules value
  have hnone : ∀ id schema, rules.schemas.get? id = some schema → schema.oneOf = [] := by
    rw [SchemaTable.forall_get?_iff]
    simp [rules, remark, plain, toned, text]
  have hexplained : ∀ trail part,
      (((rules.withExtras false).neighbours [] trail value).here part).IsExplained :=
    fun trail part => isExplained_applyAt _ _ _ _ _
  have hplain : ¬ ((rules.withExtras false).apply 1 value).isAccepted := by
    have hget : (rules.withExtras false).schemas.get? 1 = some plain := rfl
    intro haccepted
    rw [apply, applyAt_eq_judge hget List.not_mem_nil,
      isAccepted_judge_iff (by simp [value]) (hexplained [1]) rfl rfl,
      isAccepted_judgeOwn_iff_of_isContainer rfl, judgeType_object rfl] at haccepted
    obtain ⟨-, hpresent, -⟩ := isAccepted_judgeMembers_iff_filled.1 haccepted.1.1
    have htone := hpresent ("tone", .string "kind") (by simp)
    cases htone
  have hremark : ((rules.withExtras false).apply 0 value).isAccepted := by
    have hget : (rules.withExtras false).schemas.get? 0 = some remark := rfl
    have hfree : (rules.withExtras false).schemas.IsDefaultFree := by
      simp [SchemaTable.IsDefaultFree, SchemaTable.forall_get?_iff, withExtras, rules, remark, plain,
        toned, text]
    have hended := hasEnded_applyAt_of_isDefaultFree hfree [] [] 0 value
    rw [apply]
    rw [applyAt_eq_judge hget List.not_mem_nil, judge_of_ne_null (by simp [value])] at hended ⊢
    refine (isAccepted_judgeParts_iff (hexplained [0]) hended).2 ⟨rfl, by simp [remark], ?_⟩
    exact .inr ⟨rfl, by simp [remark], fun _ => ⟨2, by simp [remark], by cbv⟩⟩
  exact ⟨hnone, hplain, hremark, by cbv, allowing_extras_only_widens rules hnone 0 _ hremark⟩

end SchemaRules

end ApiContract
