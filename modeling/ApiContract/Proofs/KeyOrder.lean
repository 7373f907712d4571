import ApiContract.Proofs.Agreement
import ApiContract.Proofs.Reordering

/-!
# The order of keys in a value

Judging a value does not see the order in which its objects list their members.  Of two values that
differ in nothing else both are accepted, with typed values that differ in nothing else, or both are
refused, for violations at the same places and of the same kinds.  The violations come in another
order, and a message may show the value as it was written.
-/

namespace ApiContract

/-- What a violation says apart from its message: where it is and of what kind. -/
def Violation.finding (violation : Violation) : InstancePath × ViolationKind :=
  (violation.path, violation.kind)

/-! ## Judgements that come to the same -/

namespace Judgement

variable {α β γ δ : Type} {related : α → β → Prop} {related' : γ → δ → Prop}
  {left : Judgement α} {right : Judgement β} {lefts middle : List (Judgement α)}
  {rights : List (Judgement β)}

/-- Both judgements accept, with related values, or both refuse, with the same findings in any order,
or neither ends. -/
inductive Parallels (related : α → β → Prop) : Judgement α → Judgement β → Prop
  | accepted {value : α} {other : β} (hrelated : related value other) :
      Parallels related (.accepted value) (.accepted other)
  | rejected {found others : List Violation}
      (hfindings : (found.map Violation.finding).Perm (others.map Violation.finding)) :
      Parallels related (.rejected found) (.rejected others)
  | unending : Parallels related .unending .unending

theorem parallels_self {related : α → α → Prop}
    (hself : ∀ value, left = .accepted value → related value value) : left.Parallels related left := by
  cases left with
  | accepted value => exact .accepted (hself value rfl)
  | rejected found => exact .rejected (.refl _)
  | unending => exact .unending

theorem Parallels.imp {implied : α → β → Prop} (hparallel : left.Parallels related right)
    (himplied : ∀ value other, left = .accepted value → right = .accepted other →
      related value other → implied value other) : left.Parallels implied right := by
  cases hparallel with
  | accepted hrelated => exact .accepted (himplied _ _ rfl rfl hrelated)
  | rejected hfindings => exact .rejected hfindings
  | unending => exact .unending

theorem Parallels.map (hparallel : left.Parallels related right) {f : α → γ} {g : β → δ}
    (hrelated : ∀ value other, related value other → related' (f value) (g other)) :
    (left.map f).Parallels related' (right.map g) := by
  cases hparallel with
  | accepted h => exact .accepted (hrelated _ _ h)
  | rejected hfindings => exact .rejected hfindings
  | unending => exact .unending

theorem Parallels.andThen (hparallel : left.Parallels related right) {f : α → Judgement γ}
    {g : β → Judgement δ}
    (hrelated : ∀ value other, related value other → (f value).Parallels related' (g other)) :
    (left.andThen f).Parallels related' (right.andThen g) := by
  cases hparallel with
  | accepted h => exact hrelated _ _ h
  | rejected hfindings => exact .rejected hfindings
  | unending => exact .unending

theorem Parallels.under (hparallel : left.Parallels related right) (segment : Segment) :
    (left.under segment).Parallels related (right.under segment) := by
  cases hparallel with
  | accepted h => exact .accepted h
  | unending => exact .unending
  | @rejected found others hfindings =>
      have hunder : ∀ violations : List Violation,
          (violations.map fun violation => violation.under segment).map Violation.finding =
            (violations.map Violation.finding).map fun finding =>
              (segment :: finding.1, finding.2) := by
        intro violations
        rw [List.map_map, List.map_map]
        rfl
      refine .rejected ?_
      rw [hunder, hunder]
      exact hfindings.map _

theorem Parallels.hasEnded_iff (hparallel : left.Parallels related right) :
    left.HasEnded ↔ right.HasEnded := by
  cases hparallel <;> simp [HasEnded]

theorem Parallels.findings_perm (hparallel : left.Parallels related right) :
    (left.violations.map Violation.finding).Perm (right.violations.map Violation.finding) := by
  cases hparallel with
  | rejected hfindings => exact hfindings
  | _ => exact .refl _

theorem values_of_forall₂ (hparallel : List.Forall₂ (Parallels related) lefts rights) :
    List.Forall₂ related (lefts.filterMap value?) (rights.filterMap value?) := by
  induction hparallel with
  | nil => exact .nil
  | cons hhead _ ih =>
      cases hhead with
      | accepted hrelated => exact .cons hrelated ih
      | _ => exact ih

theorem findings_of_forall₂ (hparallel : List.Forall₂ (Parallels related) lefts rights) :
    ((lefts.flatMap violations).map Violation.finding).Perm
      ((rights.flatMap violations).map Violation.finding) := by
  induction hparallel with
  | nil => exact .refl _
  | cons hhead _ ih =>
      rw [List.flatMap_cons, List.flatMap_cons, List.map_append, List.map_append]
      exact hhead.findings_perm.append ih

theorem hasEnded_of_forall₂ (hparallel : List.Forall₂ (Parallels related) lefts rights) :
    (∀ judgement ∈ lefts, judgement.HasEnded) ↔ ∀ judgement ∈ rights, judgement.HasEnded := by
  induction hparallel with
  | nil => simp
  | cons hhead _ ih => rw [List.forall_mem_cons, List.forall_mem_cons, ih, hhead.hasEnded_iff]

/-- Gathered judgements come to the same if their values and their findings do. -/
theorem all_parallels {gathered : List α → List β → Prop}
    (hended : (∀ judgement ∈ lefts, judgement.HasEnded) ↔
      ∀ judgement ∈ rights, judgement.HasEnded)
    (hfindings : ((lefts.flatMap violations).map Violation.finding).Perm
      ((rights.flatMap violations).map Violation.finding))
    (hvalues : gathered (lefts.filterMap value?) (rights.filterMap value?)) :
    (all lefts).Parallels gathered (all rights) := by
  by_cases hright : ∀ judgement ∈ rights, judgement.HasEnded
  · have hlength := hfindings.length_eq
    rw [List.length_map, List.length_map] at hlength
    have hnone : lefts.flatMap violations = [] ↔ rights.flatMap violations = [] := by
      rw [← List.length_eq_zero_iff, hlength, List.length_eq_zero_iff]
    rw [all_of_hasEnded (hended.2 hright), all_of_hasEnded hright]
    simp only [hnone]
    split
    · exact .accepted hvalues
    · exact .rejected hfindings
  · have hleft : ¬ (all lefts).HasEnded := fun h => hright (hended.1 (hasEnded_all.1 h))
    have hright' : ¬ (all rights).HasEnded := fun h => hright (hasEnded_all.1 h)
    rw [not_not.1 hleft, not_not.1 hright']
    exact .unending

theorem all_parallels_of_forall₂ (hparallel : List.Forall₂ (Parallels related) lefts rights) :
    (all lefts).Parallels (List.Forall₂ related) (all rights) :=
  all_parallels (hasEnded_of_forall₂ hparallel) (findings_of_forall₂ hparallel)
    (values_of_forall₂ hparallel)

/-- Judgements that come to the same in another order give their values in another order. -/
theorem all_parallels_of_perm (hperm : lefts.Perm middle)
    (hparallel : List.Forall₂ (Parallels related) middle rights) :
    (all lefts).Parallels
      (fun values others => ∃ between, values.Perm between ∧ List.Forall₂ related between others)
      (all rights) := by
  refine all_parallels ?_ ?_ ⟨_, hperm.filterMap _, values_of_forall₂ hparallel⟩
  · rw [← hasEnded_of_forall₂ hparallel]
    exact forall_congr' fun judgement => by rw [hperm.mem_iff]
  · exact ((hperm.flatMap_right _).map _).trans (findings_of_forall₂ hparallel)

theorem firstAccepted_parallels {ι : Type} {judge : ι → Judgement α} {judge' : ι → Judgement β}
    (otherwise : Violation) (candidates : List ι)
    (hparallel : ∀ candidate ∈ candidates, (judge candidate).Parallels related (judge' candidate)) :
    (firstAccepted judge otherwise candidates).Parallels related
      (firstAccepted judge' otherwise candidates) := by
  induction candidates with
  | nil => exact .rejected (.refl _)
  | cons first rest ih =>
      obtain ⟨hfirst, hrest⟩ := List.forall_mem_cons.1 hparallel
      rw [firstAccepted, firstAccepted]
      revert hfirst
      generalize judge first = left, judge' first = right
      intro hfirst
      cases hfirst with
      | accepted hrelated => exact .accepted hrelated
      | rejected => exact ih hrest
      | unending => exact .unending

end Judgement

/-! ## A step of the judgement -/

/-- No format makes a value with two members of one name in an object. -/
def FormatRegistry.KeepsKeyed (formats : FormatRegistry) : Prop :=
  ∀ format value typed, value.Keyed → formats.cast format value = .ok typed → typed.Keyed

theorem FormatRegistry.keepsKeyed_standard : Format.standard.KeepsKeyed := by
  intro format value typed hkeyed hcast
  rcases (Format.isSettling_cast format value typed hcast).1 with rfl | ⟨text, rfl, htextual, -⟩
  · exact hkeyed
  · exact Value.keyed_of_not_isContainer (SchemaRules.isContainer_of_isTextual htextual)

namespace SchemaRules

variable {rules : SchemaRules} {fills trail : List SchemaId} {id : SchemaId} {schema : Schema}
  {value other typed typed' : Value} {here here' : SchemaId → Judgement Value}

theorem judgeFormat_parallels (hformats : rules.formats.KeepsKeyed)
    (hreordered : typed.Reordered typed') :
    (rules.judgeFormat schema typed).Parallels Value.Reordered (rules.judgeFormat schema typed') := by
  unfold judgeFormat
  cases schema.format? with
  | none => exact .accepted hreordered
  | some format =>
      cases hreordered with
      | items hlength hitems => exact .accepted (.items hlength hitems)
      | members hdistinct hkeys hmembers => exact .accepted (.members hdistinct hkeys hmembers)
      | leaf hleaf =>
          refine Judgement.parallels_self fun result hresult => ?_
          simp only [hleaf, Bool.false_eq_true, ↓reduceIte] at hresult
          split at hresult
          · next cast hcast =>
              obtain rfl := Judgement.accepted.inj hresult
              have hkeyed := Value.keyed_of_not_isContainer hleaf
              exact (hformats format _ cast hkeyed hcast).reordered
          · cases hresult

theorem boundFaults_of_reordered (hreordered : value.Reordered other) :
    (boundFaults schema value).map SchemaFault.kind =
      (boundFaults schema other).map SchemaFault.kind := by
  have hmatches : value.matchesLiteral = other.matchesLiteral :=
    funext fun literal => Value.matchesLiteral_eq_of_reordered hreordered literal
  unfold boundFaults
  rw [Value.excesses_eq_of_reordered _ hreordered, hmatches]
  cases schema.literals? with
  | none => rfl
  | some literals =>
      dsimp only
      split <;> simp [SchemaFault.kind]

theorem judgeOneOf_parallels (ids : List SchemaId)
    (hhere : ∀ part, (here part).Parallels Value.Reordered (here' part)) :
    (judgeOneOf here ids).Parallels Value.Reordered (judgeOneOf here' ids) := by
  have hall : List.Forall₂ (Judgement.Parallels Value.Reordered) (ids.map here) (ids.map here') := by
    rw [List.forall₂_map_left_iff, List.forall₂_map_right_iff, List.forall₂_same]
    exact fun part _ => hhere part
  unfold judgeOneOf
  by_cases hended : ∀ judgement ∈ ids.map here', judgement.HasEnded
  · rw [Judgement.gather_of_hasEnded ((Judgement.hasEnded_of_forall₂ hall).2 hended),
      Judgement.gather_of_hasEnded hended]
    have hvalues := Judgement.values_of_forall₂ hall
    revert hvalues
    generalize (ids.map here).filterMap Judgement.value? = values,
      (ids.map here').filterMap Judgement.value? = others
    intro hvalues
    cases hvalues with
    | nil => exact .rejected (.refl _)
    | cons hfirst hrest =>
        cases hrest with
        | nil => exact .accepted hfirst
        | cons => exact .rejected (.refl _)
  · have hnone : ∀ judgements : List (Judgement Value),
        (¬ ∀ judgement ∈ judgements, judgement.HasEnded) → Judgement.gather judgements = none := by
      intro judgements hnot
      obtain ⟨judgement, hmem, hunending⟩ : ∃ judgement ∈ judgements, ¬ judgement.HasEnded := by
        simpa using hnot
      exact Judgement.gather_eq_none_iff.2 (not_not.1 hunending ▸ hmem)
    rw [hnone _ hended, hnone _ fun h => hended ((Judgement.hasEnded_of_forall₂ hall).1 h)]
    exact .unending

theorem judgeTagged_parallels (discriminator : Discriminator) (hreordered : value.Reordered other)
    (hhere : ∀ part, (here part).Parallels Value.Reordered (here' part)) :
    (judgeTagged here discriminator value).Parallels Value.Reordered
      (judgeTagged here' discriminator other) := by
  cases hreordered with
  | leaf hleaf =>
      cases value with
      | object => simp [Value.isContainer] at hleaf
      | _ => exact .rejected (.refl _)
  | items => exact .rejected (.refl _)
  | @members members others hdistinct hkeys hmembers =>
      have haligned := Value.reordered_object_iff.1 (.members hdistinct hkeys hmembers)
      have htag : (Entries.get? members discriminator.property).bind Value.asString? =
          (Entries.get? others discriminator.property).bind Value.asString? := by
        cases hget : Entries.get? members discriminator.property with
        | none => rw [haligned.get?_eq_none_iff.1 hget]
        | some tag =>
            obtain ⟨tag', hget', htags⟩ := haligned.exists_of_get? hget
            rw [hget']
            cases htags <;> rfl
      unfold judgeTagged
      dsimp only
      rw [htag]
      split
      · exact .rejected (.refl _)
      · split
        · exact hhere _
        · exact .rejected (.refl _)

theorem judgeAlternatives_parallels (hreordered : value.Reordered other)
    (hhere : ∀ part, (here part).Parallels Value.Reordered (here' part)) :
    List.Forall₂ (Judgement.Parallels Value.Reordered) (judgeAlternatives schema value here)
      (judgeAlternatives schema other here') := by
  unfold judgeAlternatives
  cases schema.discriminator? with
  | some discriminator =>
      dsimp only
      split
      · exact .nil
      · exact .cons (judgeTagged_parallels discriminator hreordered hhere) .nil
  | none =>
      refine List.rel_append ?_ ?_
      · split
        · exact .nil
        · exact .cons (judgeOneOf_parallels schema.oneOf hhere) .nil
      · split
        · exact .nil
        · exact .cons (Judgement.firstAccepted_parallels _ _ fun part _ => hhere part) .nil

/-! ## What is inside a value -/

theorem judgeItems_eq_all {items : List Value} {part : SchemaId}
    {hitems : ∀ item ∈ items, item ∈ value.children} (hsome : schema.items? = some part) :
    judgeItems (rules.neighbours fills trail value) schema items hitems =
      (Judgement.all (items.zipIdx.map fun entry =>
        (rules.applyAt fills [] part entry.1).under (.index entry.2))).map .array := by
  have hvalues : items.zipIdx = items.attach.zipIdx.map (Prod.map Subtype.val id) := by
    rw [← List.zipIdx_map, List.attach_map_subtype_val]
  unfold judgeItems
  simp only [hsome]
  rw [hvalues, List.map_map]
  rfl

theorem judgeItems_parallels {items others : List Value}
    (hreordered : List.Forall₂ Value.Reordered items others)
    (hinside : ∀ item ∈ items, ∀ part other, item.Reordered other →
      (rules.applyAt fills [] part item).Parallels Value.Reordered
        (rules.applyAt fills [] part other))
    {hitems : ∀ item ∈ items, item ∈ value.children}
    {hothers : ∀ item ∈ others, item ∈ other.children} :
    (judgeItems (rules.neighbours fills trail value) schema items hitems).Parallels Value.Reordered
      (judgeItems (rules.neighbours fills trail other) schema others hothers) := by
  cases hsome : schema.items? with
  | none =>
      rw [judgeItems_of_none hsome, judgeItems_of_none hsome]
      exact .accepted (Value.reordered_array_iff.2 hreordered)
  | some part =>
      rw [judgeItems_eq_all hsome, judgeItems_eq_all hsome]
      refine (Judgement.all_parallels_of_forall₂ ?_).map fun _ _ => Value.reordered_array_iff.2
      refine List.forall₂_iff_get.2 ⟨by simp [hreordered.length_eq], fun index hindex hindex' => ?_⟩
      simp only [List.get_eq_getElem, List.getElem_map, List.getElem_zipIdx, Nat.zero_add]
      refine (hinside _ (List.getElem_mem _) part _ ?_).under _
      exact (List.forall₂_iff_get.1 hreordered).2 index _ _

theorem judgeMember_parallels {name : String} (hreordered : value.Reordered other)
    (hinside : ∀ part, (rules.applyAt fills [] part value).Parallels Value.Reordered
      (rules.applyAt fills [] part other)) :
    (rules.judgeMember fills schema (name, value)).Parallels Value.Reordered
      (rules.judgeMember fills schema (name, other)) := by
  unfold judgeMember
  dsimp only
  split
  · exact hinside _
  · exact .accepted hreordered
  · exact .rejected (.refl _)

/-- Members of one name with values that differ in the order of keys at most. -/
def NamedAlike (member other : String × Value) : Prop :=
  member.1 = other.1 ∧ member.2.Reordered other.2

theorem named_parallels {name : String} {left right : Judgement Value}
    (hparallel : left.Parallels Value.Reordered right) :
    (named name left).Parallels NamedAlike (named name right) :=
  (hparallel.under (.key name)).map fun _ _ hreordered => ⟨rfl, hreordered⟩

theorem memberJudgements_parallel {members others : Entries Value}
    (haligned : Entries.Aligned Value.Reordered members others)
    (hinside : ∀ member ∈ members, ∀ part other, member.2.Reordered other →
      (rules.applyAt fills [] part member.2).Parallels Value.Reordered
        (rules.applyAt fills [] part other))
    (hfilled : ∀ missing ∈ rules.missingDefaults schema members, ∀ filled,
      rules.fillAt fills missing.2.1 missing.2.2 = .accepted filled → filled.Keyed) :
    ∃ middle, (rules.memberJudgements fills schema members).Perm middle ∧
      List.Forall₂ (Judgement.Parallels NamedAlike) middle
        (rules.memberJudgements fills schema others) := by
  have hdefaults : rules.missingDefaults schema members = rules.missingDefaults schema others := by
    simp only [missingDefaults, haligned.contains_eq]
  obtain ⟨middle, hperm, hmiddle⟩ := haligned.exists_perm
  unfold memberJudgements
  simp only [← hdefaults, haligned.contains_eq]
  refine ⟨_, ((hperm.map _).append_left _).append_right _, List.rel_append (List.rel_append ?_ ?_) ?_⟩
  · refine List.forall₂_same.2 fun judgement hmem => ?_
    obtain ⟨name, -, rfl⟩ := List.mem_map.1 hmem
    exact .rejected (.refl _)
  · rw [List.forall₂_map_left_iff, List.forall₂_map_right_iff]
    refine forall₂_imp_of_mem hmiddle fun member hmem other _ halike => ?_
    obtain ⟨name, child⟩ := member
    obtain ⟨name', child'⟩ := other
    obtain ⟨rfl, hreordered⟩ := halike
    exact named_parallels (judgeMember_parallels hreordered fun part =>
      hinside (name, child) (hperm.mem_iff.2 hmem) part child' hreordered)
  · rw [List.forall₂_map_left_iff, List.forall₂_map_right_iff, List.forall₂_same]
    exact fun missing hmem => named_parallels (Judgement.parallels_self fun filled hfill =>
      (hfilled missing hmem filled hfill).reordered)

/-- Defaults are filled in under new names. -/
theorem distinct_of_memberJudgements (htable : rules.schemas.IsKeyed)
    (hget : rules.schemas.get? id = some schema) {members results : Entries Value}
    (hmembers : Entries.Distinct members)
    (haccepted : Judgement.all (rules.memberJudgements fills schema members) = .accepted results) :
    Entries.Distinct results := by
  have hchildren : ∀ member ∈ members, member.2 ∈ (Value.object members).children :=
    fun _ hmem => List.mem_map_of_mem hmem
  have hjudged : judgeMembers rules (rules.neighbours fills [] (.object members)) schema members
      hchildren = .accepted (.object results) := by
    rw [judgeMembers_eq_all, haccepted]
    rfl
  obtain ⟨-, present, filled, hpresent, hfills, hresults⟩ := judgeMembers_eq_accepted_iff.1 hjudged
  obtain rfl := Value.object.inj hresults
  exact distinct_append_of_fills htable hget hmembers (hpresent.imp fun _ _ hpair => hpair.2) hfills

theorem judgeMembers_parallels (htable : rules.schemas.IsKeyed)
    (hget : rules.schemas.get? id = some schema) {members others : Entries Value}
    (haligned : Entries.Aligned Value.Reordered members others)
    (hinside : ∀ member ∈ members, ∀ part other, member.2.Reordered other →
      (rules.applyAt fills [] part member.2).Parallels Value.Reordered
        (rules.applyAt fills [] part other))
    (hfilled : ∀ missing ∈ rules.missingDefaults schema members, ∀ filled,
      rules.fillAt fills missing.2.1 missing.2.2 = .accepted filled → filled.Keyed)
    {hmembers : ∀ member ∈ members, member.2 ∈ value.children}
    {hothers : ∀ member ∈ others, member.2 ∈ other.children} :
    (judgeMembers rules (rules.neighbours fills trail value) schema members hmembers).Parallels
      Value.Reordered
      (judgeMembers rules (rules.neighbours fills trail other) schema others hothers) := by
  obtain ⟨middle, hperm, hparallel⟩ := memberJudgements_parallel haligned hinside hfilled
  rw [judgeMembers_eq_all, judgeMembers_eq_all]
  refine ((Judgement.all_parallels_of_perm hperm hparallel).imp ?_).map fun _ _ =>
    Value.reordered_object_iff.2
  rintro results results' haccepted - ⟨between, hbetween, hrelated⟩
  exact Entries.aligned_of_perm (distinct_of_memberJudgements htable hget haligned.distinct haccepted)
    hbetween hrelated

/-! ## A schema at a value -/

theorem keyed_of_judgeType_leaf (hleaf : value.isContainer = false)
    (haccepted : rules.judgeType schema value (rules.neighbours fills trail value) =
      .accepted typed) : typed.Keyed := by
  cases typesAs_of_judgeType haccepted with
  | untyped => exact Value.keyed_of_not_isContainer hleaf
  | items => simp [Value.isContainer] at hleaf
  | members => simp [Value.isContainer] at hleaf
  | primitive _ _ _ hprimitive =>
      exact Value.keyed_of_not_isContainer (isContainer_of_primitive? hprimitive)

/-- What is inside a value is judged alike in every order of its keys, and what is filled in has no
two members of one name in an object. -/
structure InsideParallels (rules : SchemaRules) (fills : List SchemaId) (schema : Schema)
    (value : Value) : Prop where
  inside : ∀ child ∈ value.children, ∀ part other, child.Reordered other →
    (rules.applyAt fills [] part child).Parallels Value.Reordered (rules.applyAt fills [] part other)
  filled : ∀ missing, rules.FillsIn schema value missing → ∀ typed,
    rules.fillAt fills missing.2.1 missing.2.2 = .accepted typed → typed.Keyed

theorem judgeType_parallels (htable : rules.schemas.IsKeyed)
    (hget : rules.schemas.get? id = some schema) (hreordered : value.Reordered other)
    (hinside : rules.InsideParallels fills schema value) :
    (rules.judgeType schema value (rules.neighbours fills trail value)).Parallels Value.Reordered
      (rules.judgeType schema other (rules.neighbours fills trail other)) := by
  cases hreordered with
  | leaf hleaf =>
      exact Judgement.parallels_self fun typed htyped =>
        (keyed_of_judgeType_leaf hleaf htyped).reordered
  | @items items others hlength hitems =>
      have hall := Value.reordered_array_iff.1 (.items hlength hitems)
      cases htype : schema.effectiveType? with
      | none =>
          rw [judgeType_of_none htype, judgeType_of_none htype]
          exact .accepted (Value.reordered_array_iff.2 hall)
      | some type =>
          by_cases harray : type = .array
          · subst harray
            rw [judgeType_array htype, judgeType_array htype]
            exact judgeItems_parallels hall hinside.inside
          · rw [judgeType_array_of_ne htype harray, judgeType_array_of_ne htype harray]
            exact .rejected (.refl _)
  | @members members others hdistinct hkeys hmembers =>
      have haligned := Value.reordered_object_iff.1 (.members hdistinct hkeys hmembers)
      cases htype : schema.effectiveType? with
      | none =>
          rw [judgeType_of_none htype, judgeType_of_none htype]
          exact .accepted (Value.reordered_object_iff.2 haligned)
      | some type =>
          by_cases hobject : type = .object
          · subst hobject
            rw [judgeType_object htype, judgeType_object htype]
            refine judgeMembers_parallels htable hget haligned ?_ ?_
            · exact fun member hmem => hinside.inside member.2 (List.mem_map_of_mem hmem)
            · exact fun missing hmissing => hinside.filled missing ⟨htype, members, rfl, hmissing⟩
          · rw [judgeType_object_of_ne htype hobject, judgeType_object_of_ne htype hobject]
            exact .rejected (.refl _)

theorem judgeOwn_parallels (htable : rules.schemas.IsKeyed) (hformats : rules.formats.KeepsKeyed)
    (hget : rules.schemas.get? id = some schema) (hreordered : value.Reordered other)
    (hinside : rules.InsideParallels fills schema value) :
    (rules.judgeOwn schema value (rules.neighbours fills trail value)).Parallels Value.Reordered
      (rules.judgeOwn schema other (rules.neighbours fills trail other)) := by
  refine (judgeType_parallels htable hget hreordered hinside).andThen fun typed typed' htyped => ?_
  have hkinds := @boundFaults_of_reordered schema value other hreordered
  have hfindings : ∀ faults : List SchemaFault,
      (faults.map SchemaFault.violation).map Violation.finding =
        (faults.map SchemaFault.kind).map fun kind => ([], kind) := by
    intro faults
    rw [List.map_map, List.map_map]
    rfl
  revert hkinds
  generalize boundFaults schema value = faults, boundFaults schema other = faults'
  intro hkinds
  cases faults with
  | nil =>
      obtain rfl : faults' = [] := by simpa using hkinds.symm
      exact judgeFormat_parallels hformats htyped
  | cons first rest =>
      cases faults' with
      | nil => simp at hkinds
      | cons first' rest' =>
          refine .rejected ?_
          rw [hfindings, hfindings, hkinds]

theorem judge_parallels (htable : rules.schemas.IsKeyed) (hformats : rules.formats.KeepsKeyed)
    (hget : rules.schemas.get? id = some schema) (hreordered : value.Reordered other)
    (hhere : ∀ part, (rules.applyAt fills trail part value).Parallels Value.Reordered
      (rules.applyAt fills trail part other))
    (hinside : rules.InsideParallels fills schema value) :
    (rules.judge schema value (rules.neighbours fills trail value)).Parallels Value.Reordered
      (rules.judge schema other (rules.neighbours fills trail other)) := by
  have hparts : (rules.judgeParts schema value (rules.neighbours fills trail value)).Parallels
      Value.Reordered (rules.judgeParts schema other (rules.neighbours fills trail other)) := by
    unfold judgeParts
    -- The parts come in the order of the schema for both values.
    refine (Judgement.all_parallels_of_forall₂ (.cons ?_ (List.rel_append ?_ ?_))).map
      fun _ _ => Value.mergeAll_reordered hreordered
    · exact judgeOwn_parallels htable hformats hget hreordered hinside
    · exact judgeAlternatives_parallels hreordered hhere
    · rw [List.forall₂_map_left_iff, List.forall₂_map_right_iff, List.forall₂_same]
      exact fun part _ => hhere part
  cases rules.judgeView schema value with
  | taken htakes =>
      obtain rfl : other = .null := by cases hreordered; rfl
      rw [judge_null_of_takesNull htakes]
      exact .accepted (.leaf rfl)
  | refused hrefused =>
      obtain rfl : other = .null := by cases hreordered; rfl
      rw [judge_null_of_admitsNull_eq_false hrefused]
      exact .rejected (.refl _)
  | apart happart =>
      have happart' : rules.TakesApart schema other := by
        rintro rfl
        cases hreordered
        exact happart rfl
      rwa [judge_of_takesApart happart, judge_of_takesApart happart']

theorem applyAt_parallels (htable : rules.schemas.IsKeyed) (hformats : rules.formats.KeepsKeyed) :
    ∀ fills trail id value, ∀ other, value.Reordered other →
      (rules.applyAt fills trail id value).Parallels Value.Reordered
        (rules.applyAt fills trail id other) := by
  refine applyAt.induct rules _ ?_ ?_ ?_
  · intro fills trail id value hget other hreordered
    rw [applyAt_of_get?_eq_none hget, applyAt_of_get?_eq_none hget]
    exact .accepted hreordered
  · intro fills trail id value _ _ hmem other hreordered
    rw [applyAt_of_mem hmem, applyAt_of_mem hmem]
    exact .accepted hreordered
  · intro fills trail id value schema hget hnew hhere hinside hfilled other hreordered
    rw [applyAt_eq_judge hget hnew, applyAt_eq_judge hget hnew]
    refine judge_parallels htable hformats hget hreordered (fun part => hhere part other hreordered) ?_
    refine ⟨fun child hchild part other => hinside child hchild part other, ?_⟩
    intro missing hmissing typed htyped
    -- A default is judged alike for both values, so compared with itself it shows that it is keyed.
    obtain ⟨property, hproperty, hdefault⟩ := hmissing.exists_default
    have hliteral := Value.keyed_ofJson (htable.default _ property _ hproperty hdefault)
    unfold fillAt at htyped
    split at htyped
    · next hfree =>
        have hself := hfilled _ _ hfree _ hliteral.reordered
        rw [htyped] at hself
        cases hself with
        | accepted hreordered => exact hreordered.keyed
    · cases htyped

/-- The order of the keys of a value is irrelevant, at any depth: both values are accepted, with
results that differ in the order of keys at most, or both are refused, with violations that are the
same up to their order and their messages, or neither judgement ends. -/
theorem key_order_is_irrelevant (rules : SchemaRules) (htable : rules.schemas.IsKeyed)
    (hformats : rules.formats.KeepsKeyed) (id : SchemaId) (value other : Value)
    (hreordered : value.Reordered other) :
    (rules.apply id value).Parallels Value.Reordered (rules.apply id other) :=
  applyAt_parallels htable hformats [] [] id value other hreordered

/-- A booking with all its keys the other way round, also those of the guest and of a room. -/
theorem booking_with_keys_the_other_way_round :
    let booking : Schema := { type? := some .object, properties := [("guest", 1), ("rooms", 3)] }
    let guest : Schema := { type? := some .object, properties := [("since", 2)] }
    let day : Schema := { type? := some .string, format? := some "date" }
    let rooms : Schema := { type? := some .array, constraints := { uniqueItems := true } }
    let rules : SchemaRules := {
      schemas := ⟨#[booking, guest, day, rooms]⟩, formats := Format.standard }
    let pair (first second : String × Value) : Value := .object [first, second]
    let name := ("name", Value.string "A")
    let since := ("since", Value.string "2024-02-29")
    let floor := ("floor", Value.integer 1)
    let door := ("door", Value.integer 2)
    let value := pair ("guest", pair name since) ("rooms", .array [pair floor door])
    let other := pair ("rooms", .array [pair door floor]) ("guest", pair since name)
    rules.schemas.IsKeyed ∧ rules.formats.KeepsKeyed ∧ value.Reordered other ∧
      (rules.apply 0 value).Parallels Value.Reordered (rules.apply 0 other) := by
  intro booking guest day rooms rules pair name since floor door value other
  have htable : rules.schemas.IsKeyed := by
    simp [SchemaTable.isKeyed_iff, rules, booking, guest, day, rooms, Entries.Distinct, Entries.keys]
  have hpair : ∀ first second first' second' : String × Value, first.1 ≠ second.1 →
      NamedAlike first first' → NamedAlike second second' →
        (pair first second).Reordered (pair second' first') := by
    intro first second first' second' hnames hfirst hsecond
    have hdistinct : Entries.Distinct [first, second] := by
      simp [Entries.Distinct, Entries.keys, hnames]
    exact Value.reordered_object_iff.2 (Entries.aligned_of_perm hdistinct (.swap _ _ _)
      (.cons hsecond (.cons hfirst .nil)))
  have hguest : (pair name since).Reordered (pair since name) :=
    hpair _ _ _ _ (by decide) ⟨rfl, .leaf rfl⟩ ⟨rfl, .leaf rfl⟩
  have hroom : (pair floor door).Reordered (pair door floor) :=
    hpair _ _ _ _ (by decide) ⟨rfl, .leaf rfl⟩ ⟨rfl, .leaf rfl⟩
  have hrooms : (Value.array [pair floor door]).Reordered (.array [pair door floor]) :=
    Value.reordered_array_iff.2 (.cons hroom .nil)
  have hvalue : value.Reordered other := hpair _ _ _ _ (by decide) ⟨rfl, hguest⟩ ⟨rfl, hrooms⟩
  exact ⟨htable, FormatRegistry.keepsKeyed_standard, hvalue,
    key_order_is_irrelevant rules htable
      FormatRegistry.keepsKeyed_standard 0 value other hvalue⟩

end SchemaRules

end ApiContract
