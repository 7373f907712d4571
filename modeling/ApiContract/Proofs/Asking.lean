import ApiContract.Proofs.Settling

/-!
# What a schema asks of other schemas

A schema judges a value with the help of its neighbours: other schemas at the same value, schemas at
the values inside, and schemas at their own defaults.  This file says which of them it asks, and draws
two consequences.  Its judgement ends exactly when those that it asks for end.  And a judgement that
ends does not change when the neighbours that did not end yet are replaced by better ones.
-/

namespace ApiContract

namespace Judgement

variable {α β : Type}

/-- The second judgement is the first one, unless the first one has not ended. -/
def Approximates (early late : Judgement α) : Prop := early.HasEnded → early = late

theorem Approximates.refl (judgement : Judgement α) : judgement.Approximates judgement :=
  fun _ => rfl

theorem approximates_unending (late : Judgement α) : (unending : Judgement α).Approximates late :=
  fun hended => absurd rfl hended

theorem Approximates.trans {first second third : Judgement α} (hfirst : first.Approximates second)
    (hsecond : second.Approximates third) : first.Approximates third := by
  intro hended
  have heq : first = second := hfirst hended
  rw [heq] at hended ⊢
  exact hsecond hended

theorem Approximates.antisymm {early late : Judgement α} (happrox : early.Approximates late)
    (hback : late.Approximates early) : early = late := by
  by_cases hended : early.HasEnded
  · exact happrox hended
  · by_cases hlate : late.HasEnded
    · exact (hback hlate).symm
    · rw [not_not.1 hended, not_not.1 hlate]

theorem Approximates.hasEnded {early late : Judgement α} (happrox : early.Approximates late)
    (hended : early.HasEnded) : late.HasEnded := by
  rw [← happrox hended]
  exact hended

theorem Approximates.map {early late : Judgement α} (f : α → β) (happrox : early.Approximates late) :
    (early.map f).Approximates (late.map f) := by
  intro hended
  rw [happrox ((hasEnded_map f early).1 hended)]

theorem Approximates.under {early late : Judgement α} (segment : Segment)
    (happrox : early.Approximates late) : (early.under segment).Approximates (late.under segment) := by
  intro hended
  rw [happrox ((hasEnded_under segment early).1 hended)]

theorem Approximates.andThen {early late : Judgement α} (f : α → Judgement β)
    (happrox : early.Approximates late) : (early.andThen f).Approximates (late.andThen f) := by
  cases early with
  | unending => exact approximates_unending _
  | accepted value => rw [← happrox (hasEnded_accepted value)]; exact .refl _
  | rejected found => rw [← happrox (hasEnded_rejected found)]; exact .refl _

theorem eq_of_forall₂_approximates {early late : List (Judgement α)}
    (happrox : List.Forall₂ Approximates early late)
    (hended : ∀ judgement ∈ early, judgement.HasEnded) : early = late := by
  rw [← List.forall₂_eq_eq_eq]
  exact forall₂_imp_of_mem happrox fun judgement hmem _ _ heq => heq (hended judgement hmem)

theorem Approximates.all {early late : List (Judgement α)}
    (happrox : List.Forall₂ Approximates early late) :
    (Judgement.all early).Approximates (Judgement.all late) := by
  intro hended
  rw [eq_of_forall₂_approximates happrox (hasEnded_all.1 hended)]

theorem forall₂_map_approximates {early late : β → Judgement α} {candidates : List β}
    (happrox : ∀ candidate ∈ candidates, (early candidate).Approximates (late candidate)) :
    List.Forall₂ Approximates (candidates.map early) (candidates.map late) := by
  rw [List.forall₂_map_left_iff, List.forall₂_map_right_iff, List.forall₂_same]
  exact happrox

theorem Approximates.firstAccepted {early late : β → Judgement α} {otherwise : Violation}
    {candidates : List β}
    (happrox : ∀ candidate ∈ candidates, (early candidate).Approximates (late candidate)) :
    (firstAccepted early otherwise candidates).Approximates
      (firstAccepted late otherwise candidates) := by
  induction candidates with
  | nil => exact .refl _
  | cons candidate rest ih =>
      rw [List.forall_mem_cons] at happrox
      unfold Judgement.firstAccepted
      cases hearly : early candidate with
      | unending => exact approximates_unending _
      | accepted value =>
          rw [← happrox.1 (by simp [hearly]), hearly]
          exact .refl _
      | rejected found =>
          rw [← happrox.1 (by simp [hearly]), hearly]
          exact ih happrox.2

/-- A search asks for a candidate as long as none in front of it was accepted. -/
theorem hasEnded_firstAccepted_iff {judge : β → Judgement α} {otherwise : Violation}
    {candidates : List β} :
    (firstAccepted judge otherwise candidates).HasEnded ↔
      ∀ before candidate behind, candidates = before ++ candidate :: behind →
        (∀ other ∈ before, (judge other).IsRejected) → (judge candidate).HasEnded := by
  induction candidates with
  | nil => simp [firstAccepted]
  | cons first rest ih =>
      unfold firstAccepted
      constructor
      · intro hended before candidate behind hsplit hbefore
        cases before with
        | nil =>
            obtain ⟨rfl, -⟩ := List.cons.inj hsplit
            intro hunending
            simp [hunending, HasEnded] at hended
        | cons head tail =>
            obtain ⟨rfl, hrest⟩ := List.cons.inj hsplit
            rw [List.forall_mem_cons] at hbefore
            obtain ⟨⟨violations, hviolations⟩, htail⟩ := hbefore
            rw [hviolations] at hended
            exact ih.1 hended tail candidate behind hrest htail
      · intro hall
        have hfirst : (judge first).HasEnded := hall [] first rest rfl (by simp)
        cases hjudge : judge first with
        | unending => exact absurd hjudge hfirst
        | accepted value => exact hasEnded_accepted value
        | rejected found =>
            refine ih.2 fun before candidate behind hsplit hbefore => ?_
            refine hall (first :: before) candidate behind (by rw [hsplit]; rfl) ?_
            rw [List.forall_mem_cons]
            exact ⟨⟨found, hjudge⟩, hbefore⟩

end Judgement

/-! ## Other schemas at the same value -/

namespace Schema

/-- The schemas that a schema may hand its value on to. -/
def components (schema : Schema) : List SchemaId :=
  schema.allOf ++ schema.oneOf ++ schema.anyOf ++
    (schema.discriminator?.map fun discriminator => Entries.values discriminator.mapping).getD []

/-- The discriminator that picks among the alternatives, if there are any. -/
def tagging? (schema : Schema) : Option Discriminator :=
  if schema.oneOf = [] ∧ schema.anyOf = [] then none else schema.discriminator?

/-- The schema that a property of a name has to conform to. -/
def Governs (schema : Schema) (name : String) (part : SchemaId) : Prop :=
  Entries.get? schema.properties name = some part ∨
    (Entries.get? schema.properties name = none ∧ schema.extras? = some (.conforming part))

variable {schema : Schema} {part : SchemaId}

theorem mem_components_of_mem_allOf (hmem : part ∈ schema.allOf) : part ∈ schema.components := by
  simp [components, hmem]

theorem mem_components_of_mem_oneOf (hmem : part ∈ schema.oneOf) : part ∈ schema.components := by
  simp [components, hmem]

theorem mem_components_of_mem_anyOf (hmem : part ∈ schema.anyOf) : part ∈ schema.components := by
  simp [components, hmem]

theorem discriminator?_of_tagging? {discriminator : Discriminator}
    (htagging : schema.tagging? = some discriminator) :
    schema.discriminator? = some discriminator := by
  unfold tagging? at htagging
  split at htagging
  · simp at htagging
  · exact htagging

theorem mem_components_of_picks {discriminator : Discriminator} {value : Value}
    (htagging : schema.tagging? = some discriminator) (hpicks : discriminator.Picks value part) :
    part ∈ schema.components := by
  obtain ⟨members, tag, -, -, hmapped⟩ := hpicks
  have hmem : part ∈ Entries.values discriminator.mapping :=
    List.mem_map_of_mem (Entries.mem_of_get? hmapped)
  simp [components, discriminator?_of_tagging? htagging, hmem]

theorem asks_of_governs {members : Entries Value} {member : String × Value}
    (hmem : member ∈ members) (hgoverns : schema.Governs member.1 part) :
    schema.Asks (.object members) part member.2 := by
  rcases hgoverns with hdeclared | ⟨hundeclared, hextras⟩
  · exact .declared hmem hdeclared
  · exact .further hmem hundeclared hextras

end Schema

namespace SchemaRules

/-- The schemas that a schema does hand its value on to, given what they say about it: those of
`anyOf` one after the other, until one accepts. -/
inductive Consults (here : SchemaId → Judgement Value) (schema : Schema) (value : Value) :
    SchemaId → Prop
  | included {part : SchemaId} (hmem : part ∈ schema.allOf) : Consults here schema value part
  | tagged {discriminator : Discriminator} {part : SchemaId}
      (htagging : schema.tagging? = some discriminator)
      (hpicks : discriminator.Picks value part) : Consults here schema value part
  | oneOf {part : SchemaId} (htagging : schema.tagging? = none) (hmem : part ∈ schema.oneOf) :
      Consults here schema value part
  | anyOf {before behind : List SchemaId} {part : SchemaId} (htagging : schema.tagging? = none)
      (hsplit : schema.anyOf = before ++ part :: behind)
      (hbefore : ∀ other ∈ before, (here other).IsRejected) : Consults here schema value part

variable {rules : SchemaRules} {schema : Schema} {value : Value} {near near' : Neighbours value}
  {here here' : SchemaId → Judgement Value} {part : SchemaId}

theorem Consults.mem_components (hconsults : Consults here schema value part) :
    part ∈ schema.components := by
  cases hconsults with
  | included hmem => exact Schema.mem_components_of_mem_allOf hmem
  | tagged htagging hpicks => exact Schema.mem_components_of_picks htagging hpicks
  | oneOf _ hmem => exact Schema.mem_components_of_mem_oneOf hmem
  | anyOf _ hsplit _ => exact Schema.mem_components_of_mem_anyOf (by simp [hsplit])

theorem judgeAlternatives_of_tagging? {discriminator : Discriminator}
    (htagging : schema.tagging? = some discriminator) :
    judgeAlternatives schema value here = [judgeTagged here discriminator value] := by
  have hsome := Schema.discriminator?_of_tagging? htagging
  have hmembers : ¬ (schema.oneOf = [] ∧ schema.anyOf = []) := by
    intro hnone
    simp [Schema.tagging?, hnone] at htagging
  rw [judgeAlternatives_of_discriminator hsome, if_neg hmembers]

theorem judgeAlternatives_of_tagging?_eq_none (htagging : schema.tagging? = none) :
    judgeAlternatives schema value here =
      (if schema.oneOf = [] then [] else [judgeOneOf here schema.oneOf]) ++
        (if schema.anyOf = [] then [] else [judgeAnyOf here schema.anyOf]) := by
  cases hsome : schema.discriminator? with
  | none => exact judgeAlternatives_of_none hsome
  | some discriminator =>
      have hmembers : schema.oneOf = [] ∧ schema.anyOf = [] := by
        by_contra hnot
        simp [Schema.tagging?, hnot, hsome] at htagging
      simp [judgeAlternatives_of_discriminator hsome, hmembers]

theorem hasEnded_judgeOneOf_iff {ids : List SchemaId} :
    (judgeOneOf here ids).HasEnded ↔ ∀ id ∈ ids, (here id).HasEnded := by
  constructor
  · intro hended id hmem hunending
    have hgather : Judgement.gather (ids.map here) = none :=
      Judgement.gather_eq_none_iff.2 (List.mem_map.2 ⟨id, hmem, hunending⟩)
    simp [judgeOneOf, hgather, Judgement.HasEnded] at hended
  · intro hall
    unfold judgeOneOf
    rw [Judgement.gather_of_hasEnded (by simpa using hall)]
    split
    · next hnone => simp at hnone
    · exact Judgement.hasEnded_accepted _
    · exact Judgement.hasEnded_refuse _
    · exact Judgement.hasEnded_refuse _

theorem hasEnded_judgeTagged_iff {discriminator : Discriminator} :
    (judgeTagged here discriminator value).HasEnded ↔
      ∀ id, discriminator.Picks value id → (here id).HasEnded := by
  constructor
  · rintro hended id ⟨members, tag, rfl, htag, hmapped⟩
    simpa only [judgeTagged, htag, hmapped] using hended
  · intro hall
    unfold judgeTagged
    split
    · split
      · exact Judgement.hasEnded_refuse _
      · next tag htag =>
          split
          · next id hmapped => exact hall id ⟨_, tag, rfl, htag, hmapped⟩
          · exact Judgement.hasEnded_refuse _
    · exact Judgement.hasEnded_refuse _

theorem forall_mem_unless_iff {α : Type} {holds : α → Prop} {condition : Prop}
    [Decidable condition] {only : α} :
    (∀ member ∈ (if condition then [] else [only]), holds member) ↔ (¬ condition → holds only) := by
  split <;> simp_all

/-- The alternatives and the included schemas have been judged when those that are consulted
have. -/
theorem hasEnded_members_iff :
    (∀ judgement ∈ judgeAlternatives schema value here ++ schema.allOf.map here,
        judgement.HasEnded) ↔
      ∀ part, Consults here schema value part → (here part).HasEnded := by
  rw [List.forall_mem_append, List.forall_mem_map]
  cases htagging : schema.tagging? with
  | some discriminator =>
      rw [judgeAlternatives_of_tagging? htagging, List.forall_mem_singleton,
        hasEnded_judgeTagged_iff]
      constructor
      · rintro ⟨htagged, hincluded⟩ part hconsults
        cases hconsults with
        | included hmem => exact hincluded part hmem
        | tagged htagging' hpicks =>
            obtain rfl := Option.some.inj (htagging.symm.trans htagging')
            exact htagged part hpicks
        | oneOf htagging' _ => simp [htagging] at htagging'
        | anyOf htagging' _ _ => simp [htagging] at htagging'
      · intro hall
        exact ⟨fun part hpicks => hall part (.tagged htagging hpicks),
          fun part hmem => hall part (.included hmem)⟩
  | none =>
      rw [judgeAlternatives_of_tagging?_eq_none htagging, List.forall_mem_append,
        forall_mem_unless_iff, forall_mem_unless_iff, hasEnded_judgeOneOf_iff, judgeAnyOf,
        Judgement.hasEnded_firstAccepted_iff]
      constructor
      · rintro ⟨⟨hone, hany⟩, hincluded⟩ part hconsults
        cases hconsults with
        | included hmem => exact hincluded part hmem
        | tagged htagging' _ => simp [htagging] at htagging'
        | oneOf _ hmem => exact hone (List.ne_nil_of_mem hmem) part hmem
        | anyOf _ hsplit hbefore => exact hany (by simp [hsplit]) _ part _ hsplit hbefore
      · intro hall
        exact ⟨⟨fun _ part hmem => hall part (.oneOf htagging hmem),
          fun _ before part behind hsplit hbefore => hall part (.anyOf htagging hsplit hbefore)⟩,
          fun part hmem => hall part (.included hmem)⟩

theorem judgeOneOf_approximates {ids : List SchemaId}
    (happrox : ∀ id ∈ ids, (here id).Approximates (here' id)) :
    (judgeOneOf here ids).Approximates (judgeOneOf here' ids) := by
  intro hended
  have hall := hasEnded_judgeOneOf_iff.1 hended
  have heq : ids.map here = ids.map here' :=
    List.map_congr_left fun id hmem => happrox id hmem (hall id hmem)
  simp only [judgeOneOf, heq]

theorem judgeTagged_approximates {discriminator : Discriminator}
    (happrox : ∀ id, discriminator.Picks value id → (here id).Approximates (here' id)) :
    (judgeTagged here discriminator value).Approximates (judgeTagged here' discriminator value) := by
  unfold judgeTagged
  split
  · split
    · exact .refl _
    · next tag htag =>
        split
        · next id hmapped => exact happrox id ⟨_, tag, rfl, htag, hmapped⟩
        · exact .refl _
  · exact .refl _

theorem members_approximate
    (happrox : ∀ part ∈ schema.components, (here part).Approximates (here' part)) :
    List.Forall₂ Judgement.Approximates
      (judgeAlternatives schema value here ++ schema.allOf.map here)
      (judgeAlternatives schema value here' ++ schema.allOf.map here') := by
  apply List.rel_append
  · cases htagging : schema.tagging? with
    | some discriminator =>
        rw [judgeAlternatives_of_tagging? htagging, judgeAlternatives_of_tagging? htagging]
        refine .cons (judgeTagged_approximates fun id hpicks => ?_) .nil
        exact happrox id (Schema.mem_components_of_picks htagging hpicks)
    | none =>
        rw [judgeAlternatives_of_tagging?_eq_none htagging,
          judgeAlternatives_of_tagging?_eq_none htagging]
        apply List.rel_append
        · split
          · exact .nil
          · refine .cons (judgeOneOf_approximates fun id hmem => ?_) .nil
            exact happrox id (Schema.mem_components_of_mem_oneOf hmem)
        · split
          · exact .nil
          · refine .cons (.firstAccepted fun id hmem => ?_) .nil
            exact happrox id (Schema.mem_components_of_mem_anyOf hmem)
  · exact Judgement.forall₂_map_approximates fun id hmem =>
      happrox id (Schema.mem_components_of_mem_allOf hmem)

/-- Schemas that are consulted with some judgements are consulted with others as well, once those that
are consulted with the others have ended, if the others reject what the first ones do. -/
theorem Consults.of_isRejected
    (hrejected : ∀ part ∈ schema.components, (here part).HasEnded → (here' part).IsRejected →
      (here part).IsRejected)
    (hended : ∀ part, Consults here schema value part → (here part).HasEnded)
    (hconsults : Consults here' schema value part) : Consults here schema value part := by
  cases hconsults with
  | included hmem => exact .included hmem
  | tagged htagging hpicks => exact .tagged htagging hpicks
  | oneOf htagging hmem => exact .oneOf htagging hmem
  | @anyOf before behind _ htagging hsplit hbefore =>
      -- Those in front are rejected one after the other, from the front.
      have hfront : ∀ rest done, before = done ++ rest →
          (∀ other ∈ done, (here other).IsRejected) → ∀ other ∈ before, (here other).IsRejected := by
        intro rest
        induction rest with
        | nil =>
            intro done hdone hall
            rw [hdone, List.append_nil]
            exact hall
        | cons next rest ih =>
            intro done hdone hall
            have hnext : next ∈ before := by simp [hdone]
            have hsplitNext : schema.anyOf = done ++ next :: (rest ++ part :: behind) := by
              simp [hsplit, hdone]
            have hmem : next ∈ schema.components :=
              Schema.mem_components_of_mem_anyOf (by simp [hsplitNext])
            have hendedNext : (here next).HasEnded := hended next (.anyOf htagging hsplitNext hall)
            apply ih (done ++ [next]) (by simp [hdone])
            rw [List.forall_mem_append, List.forall_mem_singleton]
            exact ⟨hall, hrejected next hmem hendedNext (hbefore next hnext)⟩
      exact .anyOf htagging hsplit (hfront before [] rfl (by simp))

/-- The schemas that are consulted are the same for judgements that approximate others, once those
that are consulted have ended. -/
theorem Consults.of_approximates
    (happrox : ∀ part ∈ schema.components, (here part).Approximates (here' part))
    (hended : ∀ part, Consults here schema value part → (here part).HasEnded)
    (hconsults : Consults here' schema value part) : Consults here schema value part := by
  refine hconsults.of_isRejected (fun next hmem hendedNext hrejected => ?_) hended
  have hsame : here next = here' next := happrox next hmem hendedNext
  rw [hsame]
  exact hrejected

/-! ## Schemas inside the value and at defaults -/

/-- What a schema has looked at inside a value, if the value is of the right kind. -/
def LooksInto (schema : Schema) (value : Value) (part : SchemaId) (child : Value) : Prop :=
  (schema.typed? value).isSome ∧ schema.Asks value part child

/-- A schema fills in a default of a value. -/
def FillsIn (rules : SchemaRules) (schema : Schema) (value : Value)
    (missing : String × SchemaId × Json) : Prop :=
  schema.effectiveType? = some .object ∧
    ∃ members, value = .object members ∧ missing ∈ rules.missingDefaults schema members

theorem FillsIn.exists_default {missing : String × SchemaId × Json}
    (hfills : rules.FillsIn schema value missing) :
    ∃ property, rules.schemas.get? missing.2.1 = some property ∧
      property.default? = some missing.2.2 := by
  obtain ⟨-, members, -, hmissing⟩ := hfills
  exact (mem_missingDefaults_iff.1 hmissing).2.2.2

theorem propertySchema_eq_ok_some_iff {name : String} :
    rules.propertySchema schema name = .ok (some part) ↔ schema.Governs name part := by
  unfold propertySchema Schema.Governs
  cases Entries.get? schema.properties name with
  | some id => simp
  | none =>
      cases hextras : schema.extras? with
      | none =>
          cases rules.allowsExtras || schema.isComposed <;> simp
      | some extras =>
          cases extras with
          | conforming id => simp
          | allowed isAllowed => cases isAllowed <;> simp

theorem hasEnded_judgeItems_iff {items : List Value} {near : Neighbours (.array items)} :
    (judgeItems near schema items fun _ hmem => hmem).HasEnded ↔
      ∀ part child, (hasks : schema.Asks (.array items) part child) →
        (near.inside child (mem_children_of_asks hasks) part).HasEnded := by
  unfold judgeItems
  cases hitems : schema.items? with
  | none =>
      refine iff_of_true (Judgement.hasEnded_accepted _) fun part child hasks => ?_
      cases hasks with
      | item hsome _ => simp [hitems] at hsome
  | some id =>
      simp only [Judgement.hasEnded_map, Judgement.hasEnded_all, List.forall_mem_map,
        Judgement.hasEnded_under]
      constructor
      · intro hall part child hasks
        cases hasks with
        | item hsome hmem =>
            obtain rfl := Option.some.inj (hitems.symm.trans hsome)
            obtain ⟨index, hindex, rfl⟩ := List.mem_iff_getElem.1 hmem
            have hpair : (⟨items[index], hmem⟩, index) ∈ items.attach.zipIdx := by
              rw [List.mem_zipIdx_iff_getElem?]
              simp
            exact hall _ hpair
      · rintro hall ⟨⟨child, hmem⟩, index⟩ -
        exact hall id child (.item hitems hmem)

theorem hasEnded_judgeMembers_iff {members : Entries Value} {near : Neighbours (.object members)} :
    (judgeMembers rules near schema members
        fun _ hmem => List.mem_map.2 ⟨_, hmem, rfl⟩).HasEnded ↔
      (∀ part child, (hasks : schema.Asks (.object members) part child) →
        (near.inside child (mem_children_of_asks hasks) part).HasEnded) ∧
      ∀ missing ∈ rules.missingDefaults schema members,
        (near.filled missing.2.1 missing.2.2).HasEnded := by
  unfold judgeMembers
  simp only [Judgement.hasEnded_map, Judgement.hasEnded_all, List.forall_mem_append,
    List.forall_mem_map, Judgement.hasEnded_under, Judgement.hasEnded_refuse, implies_true, true_and]
  refine and_congr ⟨?_, ?_⟩ Iff.rfl
  · intro hall part child hasks
    have hmember : ∀ name, (hmem : (name, child) ∈ members) → schema.Governs name part →
        (near.inside child (mem_children_of_asks hasks) part).HasEnded := by
      intro name hmem hgoverns
      have hended := hall ⟨(name, child), hmem⟩ (List.mem_attach members _)
      simpa only [propertySchema_eq_ok_some_iff.2 hgoverns] using hended
    cases hasks with
    | declared hmem hdeclared => exact hmember _ hmem (.inl hdeclared)
    | further hmem hundeclared hextras => exact hmember _ hmem (.inr ⟨hundeclared, hextras⟩)
  · rintro hall ⟨⟨name, child⟩, hmem⟩ -
    dsimp only
    split
    · next part hpart =>
        exact hall part child (Schema.asks_of_governs hmem (propertySchema_eq_ok_some_iff.1 hpart))
    · exact Judgement.hasEnded_accepted _
    · exact Judgement.hasEnded_refuse _

theorem typed?_array {items : List Value} (htype : schema.effectiveType? = some .array) :
    (schema.typed? (.array items)).isSome := by
  simp [Schema.typed?, htype, Value.kind]

theorem typed?_object {members : Entries Value} (htype : schema.effectiveType? = some .object) :
    (schema.typed? (.object members)).isSome := by
  simp [Schema.typed?, htype, Value.kind]

/-- The type of a schema has been judged when all that it looks into and fills in has. -/
theorem hasEnded_judgeType_iff :
    (rules.judgeType schema value near).HasEnded ↔
      (∀ part child, (hlooks : LooksInto schema value part child) →
        (near.inside child (mem_children_of_asks hlooks.2) part).HasEnded) ∧
      ∀ missing, rules.FillsIn schema value missing →
        (near.filled missing.2.1 missing.2.2).HasEnded := by
  cases schema.typeView value with
  | untyped htype =>
      rw [judgeType_of_none htype]
      refine iff_of_true (Judgement.hasEnded_accepted value) ⟨fun part child hlooks => ?_, ?_⟩
      · exact absurd hlooks.2 (not_asks_of_none htype)
      · rintro missing ⟨hobject, -⟩
        simp [htype] at hobject
  | items htype =>
      rw [judgeType_array htype, hasEnded_judgeItems_iff]
      constructor
      · refine fun hall => ⟨fun part child hlooks => hall part child hlooks.2, ?_⟩
        rintro missing ⟨-, members, heq, -⟩
        cases heq
      · exact fun hall part child hasks => hall.1 part child ⟨typed?_array htype, hasks⟩
  | members htype =>
      rw [judgeType_object htype, hasEnded_judgeMembers_iff]
      constructor
      · rintro ⟨hinside, hfilled⟩
        refine ⟨fun part child hlooks => hinside part child hlooks.2, ?_⟩
        rintro missing ⟨-, others, heq, hmissing⟩
        obtain rfl := Value.object.inj heq
        exact hfilled missing hmissing
      · rintro ⟨hinside, hfilled⟩
        exact ⟨fun part child hasks => hinside part child ⟨typed?_object htype, hasks⟩,
          fun missing hmissing => hfilled missing ⟨htype, _, rfl, hmissing⟩⟩
  | primitive htype _ _ hprimitive =>
      rw [judgeType_of_primitive? htype hprimitive]
      refine iff_of_true (Judgement.hasEnded_accepted _) ⟨fun part child hlooks => ?_, ?_⟩
      · exact absurd hlooks.2 (not_asks_of_primitive? hprimitive)
      · rintro missing ⟨-, members, heq, -⟩
        exact absurd heq (ne_object_of_primitive? hprimitive members)
  | wrong htype hrefuses =>
      rw [judgeType_of_refuses htype hrefuses]
      refine iff_of_true (Judgement.hasEnded_refuse _) ⟨fun part child hlooks => ?_, ?_⟩
      · have hkind := hlooks.1
        simp [typed?_of_refuses htype hrefuses] at hkind
      · rintro missing ⟨hobject, members, heq, -⟩
        exact absurd (Option.some.inj (htype.symm.trans hobject)) (hrefuses.object members heq)

/-! ## A whole schema -/

theorem hasEnded_judgeFormat {typed : Value} : (rules.judgeFormat schema typed).HasEnded :=
  judgeFormat_elim _ Judgement.hasEnded_accepted fun _ => Judgement.hasEnded_refuse _

theorem hasEnded_judgeOwn_iff :
    (rules.judgeOwn schema value near).HasEnded ↔ (rules.judgeType schema value near).HasEnded := by
  unfold judgeOwn
  cases rules.judgeType schema value near with
  | unending => simp [Judgement.andThen, Judgement.HasEnded]
  | rejected found => simp [Judgement.andThen]
  | accepted typed =>
      refine iff_of_true ?_ (Judgement.hasEnded_accepted typed)
      simp only [Judgement.andThen]
      split
      · exact hasEnded_judgeFormat
      · exact Judgement.hasEnded_rejected _

theorem hasEnded_judgeParts_iff :
    (rules.judgeParts schema value near).HasEnded ↔
      (rules.judgeOwn schema value near).HasEnded ∧
        ∀ part, Consults near.here schema value part → (near.here part).HasEnded := by
  unfold judgeParts
  rw [Judgement.hasEnded_map, Judgement.hasEnded_all, List.cons_append, List.forall_mem_cons,
    hasEnded_members_iff]

theorem judge_of_not_takesApart (hwhole : ¬ rules.TakesApart schema value) :
    rules.judge schema value near = .accepted .null ∨
      rules.judge schema value near = refuse .nullNotAllowed := by
  cases rules.judgeView schema value with
  | taken htakes => exact .inl (judge_null_of_takesNull htakes)
  | refused hrefused => exact .inr (judge_null_of_admitsNull_eq_false hrefused)
  | apart happart => exact absurd happart hwhole

/-- A schema has judged a value when all has been judged that it consults, looks into or
fills in. -/
theorem hasEnded_judge_iff :
    (rules.judge schema value near).HasEnded ↔ (rules.TakesApart schema value →
      (∀ part, Consults near.here schema value part → (near.here part).HasEnded) ∧
      (∀ part child, (hlooks : LooksInto schema value part child) →
        (near.inside child (mem_children_of_asks hlooks.2) part).HasEnded) ∧
      ∀ missing, rules.FillsIn schema value missing →
        (near.filled missing.2.1 missing.2.2).HasEnded) := by
  by_cases happart : rules.TakesApart schema value
  · rw [judge_of_takesApart happart, hasEnded_judgeParts_iff, hasEnded_judgeOwn_iff,
      hasEnded_judgeType_iff, forall_prop_of_true happart, and_comm]
  · refine iff_of_true ?_ fun htakes => absurd htakes happart
    rcases judge_of_not_takesApart happart with heq | heq
    · rw [heq]
      exact Judgement.hasEnded_accepted _
    · rw [heq]
      exact Judgement.hasEnded_refuse _

/-! ## Better neighbours -/

/-- Neighbours that agree with others as far as they have ended and as far as a schema asks. -/
structure NeighboursApproximate (rules : SchemaRules) (schema : Schema)
    (near near' : Neighbours value) : Prop where
  here : ∀ part ∈ schema.components, (near.here part).Approximates (near'.here part)
  inside : ∀ part child, (hasks : schema.Asks value part child) →
    (near.inside child (mem_children_of_asks hasks) part).Approximates
      (near'.inside child (mem_children_of_asks hasks) part)
  filled : ∀ part property literal, rules.schemas.get? part = some property →
    property.default? = some literal →
    (near.filled part literal).Approximates (near'.filled part literal)

theorem judgeItems_approximates {items : List Value} {near near' : Neighbours (.array items)}
    (happrox : rules.NeighboursApproximate schema near near') :
    (judgeItems near schema items fun _ hmem => hmem).Approximates
      (judgeItems near' schema items fun _ hmem => hmem) := by
  unfold judgeItems
  cases hitems : schema.items? with
  | none => exact .refl _
  | some id =>
      refine (Judgement.Approximates.all ?_).map _
      refine Judgement.forall₂_map_approximates fun ⟨⟨child, hmem⟩, index⟩ _ => ?_
      exact (happrox.inside id child (.item hitems hmem)).under _

theorem judgeMembers_approximates {members : Entries Value}
    {near near' : Neighbours (.object members)}
    (happrox : rules.NeighboursApproximate schema near near') :
    (judgeMembers rules near schema members
        fun _ hmem => List.mem_map.2 ⟨_, hmem, rfl⟩).Approximates
      (judgeMembers rules near' schema members
        fun _ hmem => List.mem_map.2 ⟨_, hmem, rfl⟩) := by
  unfold judgeMembers
  refine (Judgement.Approximates.all (List.rel_append (List.rel_append ?_ ?_) ?_)).map _
  · exact Judgement.forall₂_map_approximates fun _ _ => .refl _
  · refine Judgement.forall₂_map_approximates fun ⟨⟨name, child⟩, hmem⟩ _ => ?_
    refine Judgement.Approximates.map _ (.under _ ?_)
    split
    · next part hpart =>
        exact happrox.inside part child
          (Schema.asks_of_governs hmem (propertySchema_eq_ok_some_iff.1 hpart))
    · exact .refl _
    · exact .refl _
  · refine Judgement.forall₂_map_approximates fun missing hmissing => ?_
    obtain ⟨-, -, -, property, hproperty, hdefault⟩ := mem_missingDefaults_iff.1 hmissing
    exact ((happrox.filled missing.2.1 property missing.2.2 hproperty hdefault).under _).map _

theorem judgeType_approximates (happrox : rules.NeighboursApproximate schema near near') :
    (rules.judgeType schema value near).Approximates (rules.judgeType schema value near') := by
  refine judgeType_related (fun _ => .refl _) rfl ?_ ?_
  · rintro items rfl htype
    rw [judgeType_array htype, judgeType_array htype]
    exact judgeItems_approximates happrox
  · rintro members rfl htype
    rw [judgeType_object htype, judgeType_object htype]
    exact judgeMembers_approximates happrox

theorem judgeParts_approximates (happrox : rules.NeighboursApproximate schema near near') :
    (rules.judgeParts schema value near).Approximates (rules.judgeParts schema value near') := by
  have hown : (rules.judgeOwn schema value near).Approximates
      (rules.judgeOwn schema value near') := (judgeType_approximates happrox).andThen _
  exact (Judgement.Approximates.all (.cons hown (members_approximate happrox.here))).map _

/-- A judgement that ended stays when the neighbours are replaced by ones that they approximate. -/
theorem judge_approximates (happrox : rules.NeighboursApproximate schema near near') :
    (rules.judge schema value near).Approximates (rules.judge schema value near') := by
  cases rules.judgeView schema value with
  | taken htakes =>
      rw [judge_null_of_takesNull htakes, judge_null_of_takesNull htakes]
      exact .refl _
  | refused hrefused =>
      rw [judge_null_of_admitsNull_eq_false hrefused, judge_null_of_admitsNull_eq_false hrefused]
      exact .refl _
  | apart happart =>
      rw [judge_of_takesApart happart, judge_of_takesApart happart]
      exact judgeParts_approximates happrox

theorem neighboursApproximate_of_eq
    (hhere : ∀ part ∈ schema.components, near.here part = near'.here part)
    (hinside : near.inside = near'.inside) (hfilled : near.filled = near'.filled) :
    rules.NeighboursApproximate schema near near' where
  here part hmem := by
    rw [hhere part hmem]
    exact .refl _
  inside _ _ _ := by
    rw [hinside]
    exact .refl _
  filled _ _ _ _ _ := by
    rw [hfilled]
    exact .refl _

/-- Of the neighbours at the same value only the components matter. -/
theorem judge_eq_of_components
    (hhere : ∀ part ∈ schema.components, near.here part = near'.here part)
    (hinside : near.inside = near'.inside) (hfilled : near.filled = near'.filled) :
    rules.judge schema value near = rules.judge schema value near' := by
  apply Judgement.Approximates.antisymm
  · exact judge_approximates (neighboursApproximate_of_eq hhere hinside hfilled)
  · have hback : ∀ part ∈ schema.components, near'.here part = near.here part :=
      fun part hmem => (hhere part hmem).symm
    exact judge_approximates (neighboursApproximate_of_eq hback hinside.symm hfilled.symm)

end SchemaRules

end ApiContract
