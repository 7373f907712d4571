import ApiContract.Proofs.Detours
import ApiContract.Proofs.ListedLiterals

/-!
# The search for null

Before null is judged by the parts of a schema, a bounded search through the members of compositions
says whether it may have a place there.  The search asks for less than the parts do, since one member
of `oneOf` is enough for it.  So it hides no null that the parts accept, as long as the compositions
are not deeper than the search goes, and null is accepted by a composition exactly if its literals,
all members of `allOf`, one member of `oneOf` and some member of `anyOf` accept it.
-/

namespace ApiContract

/-! ## Compositions of bounded depth -/

namespace SchemaTable

variable {table : SchemaTable} {depth : ℕ} {schema : Schema}

theorem MembersNestWithin.succ (hnests : table.MembersNestWithin depth schema) :
    table.MembersNestWithin (depth + 1) schema := by
  induction depth generalizing schema with
  | zero =>
      have hnone : schema.members = [] := hnests
      intro id hid
      simp [hnone] at hid
  | succ depth ih => exact fun id hid member hget => ih (hnests id hid member hget)

theorem membersNestWithin_of_members_eq_nil (hnone : schema.members = []) (depth : ℕ) :
    table.MembersNestWithin depth schema := by
  induction depth with
  | zero => exact hnone
  | succ depth ih => exact ih.succ

theorem membersNestWithin_succ (hmembers : ∀ id ∈ schema.members, ∃ member,
    table.get? id = some member ∧ table.MembersNestWithin depth member) :
    table.MembersNestWithin (depth + 1) schema := by
  intro id hid member hget
  obtain ⟨found, hfound, hnests⟩ := hmembers id hid
  rwa [← Option.some.inj (hfound.symm.trans hget)]

end SchemaTable

theorem Judgement.firstAccepted_congr {α β : Type} {judge judge' : β → Judgement α}
    {otherwise : Violation} {candidates : List β}
    (hsame : ∀ candidate ∈ candidates, judge candidate = judge' candidate) :
    firstAccepted judge otherwise candidates = firstAccepted judge' otherwise candidates := by
  induction candidates with
  | nil => rfl
  | cons candidate rest ih =>
      rw [List.forall_mem_cons] at hsame
      rw [firstAccepted, firstAccepted, hsame.1, ih hsame.2]

namespace SchemaRules

variable {rules : SchemaRules} {fills trail : List SchemaId} {id : SchemaId} {schema : Schema}
  {depth : ℕ}

/-! ## Null at one schema -/

theorem cast_null (format : String) : Format.standard.cast format .null = .ok .null := by
  have hcasters : ∀ entry ∈ Format.standard.casters, entry.2 .null = .ok .null := by
    simp only [Format.standard, List.forall_mem_cons]
    refine ⟨rfl, rfl, rfl, rfl, rfl, rfl, rfl, rfl, rfl, rfl, rfl, rfl, rfl, rfl, ?_⟩
    simp
  unfold FormatRegistry.cast
  cases hget : Entries.get? Format.standard.casters format with
  | none => rfl
  | some caster => exact hcasters _ (Entries.mem_of_get? hget)

theorem matchesLiteral_null_iff {literal : Json} :
    Value.null.matchesLiteral literal ↔ literal = .null := by
  cases literal <;> simp [Value.matchesLiteral, Value.toJson, Value.sameJson]

theorem judgeOwn_null_congr (near near' : Neighbours .null) :
    rules.judgeOwn schema .null near = rules.judgeOwn schema .null near' := by
  have htype : rules.judgeType schema .null near = rules.judgeType schema .null near' :=
    judgeType_related (fun _ => rfl) rfl (by rintro items ⟨⟩) (by rintro members ⟨⟩)
  unfold judgeOwn
  rw [htype]

/-- A schema without a type accepts null on its own unless it lists other literals. -/
theorem isAccepted_judgeOwn_null_iff (hformats : rules.formats = Format.standard)
    (huntyped : schema.effectiveType? = none) {near : Neighbours .null} :
    (rules.judgeOwn schema .null near).isAccepted ↔
      ∀ literals, schema.literals? = some literals → .null ∈ literals := by
  have hexcesses : schema.constraints.excesses .null = [] := rfl
  have hformat : (rules.judgeFormat schema .null).isAccepted := by
    refine isAccepted_judgeFormat_iff.2 fun format _ _ => ⟨.null, ?_⟩
    rw [hformats, cast_null]
  rw [isAccepted_judgeOwn, judgeType_of_none huntyped, boundFaults_eq_nil_iff,
    and_iff_right ⟨.null, rfl, hformat⟩, and_iff_right hexcesses]
  refine forall₂_congr fun literals _ => ?_
  simp [matchesLiteral_null_iff]

/-- The alternatives depend on what is said by the schemas that are listed or picked by a tag. -/
theorem judgeAlternatives_of_consulted {value : Value} {here here' : SchemaId → Judgement Value}
    (hpicked : ∀ discriminator part, schema.tagging? = some discriminator →
      discriminator.Picks value part → here part = here' part)
    (hlisted : ∀ part ∈ schema.oneOf ++ schema.anyOf, here part = here' part) :
    judgeAlternatives schema value here = judgeAlternatives schema value here' := by
  rw [List.forall_mem_append] at hlisted
  obtain ⟨honeOf, hanyOf⟩ := hlisted
  cases htagging : schema.tagging? with
  | some discriminator =>
      have htagged : judgeTagged here discriminator value = judgeTagged here' discriminator value := by
        unfold judgeTagged
        cases value with
        | object members =>
            dsimp only
            cases htag : (Entries.get? members discriminator.property).bind Value.asString? with
            | none => rfl
            | some tag =>
                dsimp only
                cases hmapped : Entries.get? discriminator.mapping tag with
                | none => rfl
                | some part =>
                    exact hpicked discriminator part htagging ⟨members, tag, rfl, htag, hmapped⟩
        | _ => rfl
      rw [judgeAlternatives_of_tagging? htagging, judgeAlternatives_of_tagging? htagging, htagged]
  | none =>
      have hone : judgeOneOf here schema.oneOf = judgeOneOf here' schema.oneOf := by
        rw [judgeOneOf, List.map_congr_left honeOf]
        rfl
      have hany : judgeAnyOf here schema.anyOf = judgeAnyOf here' schema.anyOf :=
        Judgement.firstAccepted_congr hanyOf
      rw [judgeAlternatives_of_tagging?_eq_none htagging,
        judgeAlternatives_of_tagging?_eq_none htagging, hone, hany]

/-- Nothing inside null is looked at, and no tag of it is read. -/
theorem judge_null_congr {near near' : Neighbours .null}
    (hhere : ∀ part ∈ schema.members, near.here part = near'.here part) :
    rules.judge schema .null near = rules.judge schema .null near' := by
  rw [Schema.members, List.append_assoc, List.forall_mem_append] at hhere
  obtain ⟨hallOf, hlisted⟩ := hhere
  have halternatives : judgeAlternatives schema .null near.here =
      judgeAlternatives schema .null near'.here := by
    refine judgeAlternatives_of_consulted ?_ hlisted
    rintro _ _ - ⟨_, _, hnull, -⟩
    cases hnull
  have hparts : rules.judgeParts schema .null near = rules.judgeParts schema .null near' := by
    unfold judgeParts
    rw [judgeOwn_null_congr near near', halternatives, List.map_congr_left hallOf]
  unfold judge
  rw [hparts]

theorem admitsNull_zero (table : SchemaTable) (schema : Schema) :
    admitsNull table 0 schema =
      if schema.nullable || schema.type? == some .null then true
      else if schema.effectiveType?.isSome then false else false :=
  admitsNull.eq_def table 0 schema

/-- What is found with some steps is found with more. -/
theorem admitsNull_succ_of_admitsNull {table : SchemaTable} {steps : ℕ}
    (hadmits : admitsNull table steps schema = true) :
    admitsNull table (steps + 1) schema = true := by
  induction steps generalizing schema with
  | zero =>
      rw [admitsNull_zero, ite_self] at hadmits
      rw [admitsNull_succ]
      split at hadmits
      · next hfree => rw [if_pos hfree]
      · cases hadmits
  | succ steps ih =>
      have hmember : ∀ id, memberAdmitsNull table steps id = true →
          memberAdmitsNull table (steps + 1) id = true := by
        intro id hfound
        cases hget : table.get? id with
        | none => rw [memberAdmitsNull, hget]
        | some member =>
            rw [memberAdmitsNull, hget] at hfound ⊢
            exact ih hfound
      rw [admitsNull_succ] at hadmits ⊢
      split
      · rfl
      · next hfree =>
          rw [if_neg hfree] at hadmits
          split at hadmits
          · cases hadmits
          · next htyped =>
              rw [if_neg htyped]
              simp only [Bool.and_eq_true, Bool.or_eq_true, List.any_eq_true, List.all_eq_true]
                at hadmits ⊢
              obtain ⟨⟨hone, hany⟩, hall⟩ := hadmits
              refine ⟨⟨hone.imp_right ?_, hany.imp_right ?_⟩, fun id hid => hmember id (hall id hid)⟩
              · rintro ⟨id, hid, hfound⟩
                exact ⟨id, hid, hmember id hfound⟩
              · rintro ⟨id, hid, hfound⟩
                exact ⟨id, hid, hmember id hfound⟩

/-! ## Null at a composition -/

/-- No default is filled in for null, so every judgement of it ends. -/
theorem hasEnded_applyAt_null (rules : SchemaRules) : ∀ fills trail id value, value = .null →
    (rules.applyAt fills trail id value).HasEnded := by
  refine applyAt.induct rules _ ?_ ?_ ?_
  · rintro fills trail id value hget rfl
    rw [applyAt_of_get?_eq_none hget]
    exact Judgement.hasEnded_accepted _
  · rintro fills trail id value _ _ hmem rfl
    rw [applyAt_of_mem hmem]
    exact Judgement.hasEnded_accepted _
  · rintro fills trail id value schema hget hnew hhere - - rfl
    rw [applyAt_eq_judge hget hnew, hasEnded_judge_iff]
    refine fun _ => ⟨fun part _ => hhere part rfl, ?_, ?_⟩
    · rintro part child ⟨-, hasks⟩
      cases hasks
    · rintro missing ⟨-, members, hvalue, -⟩
      cases hvalue

/-- The members of a composition judge null as they do on their own if the compositions of the schemas
on the trail are deeper. -/
theorem applyAt_member_null (hget : rules.schemas.get? id = some schema)
    (hnests : rules.schemas.MembersNestWithin depth schema)
    (htrail : ∀ other ∈ trail, ∀ found, rules.schemas.get? other = some found →
      ¬ rules.schemas.MembersNestWithin depth found) :
    ∀ part ∈ schema.members,
      rules.applyAt fills (id :: trail) part .null = rules.applyAt fills [] part .null := by
  induction depth generalizing id schema trail with
  | zero =>
      have hnone : schema.members = [] := hnests
      simp [hnone]
  | succ depth ih =>
      have hdeeper : ∀ other ∈ trail, ∀ found, rules.schemas.get? other = some found →
          ¬ rules.schemas.MembersNestWithin depth found :=
        fun other hother found hfound hless => htrail other hother found hfound hless.succ
      by_cases hless : rules.schemas.MembersNestWithin depth schema
      · exact ih hget hless hdeeper
      · -- The schema itself, now on the trail, nests deeper than its members.
        intro part hpart
        cases hmember : rules.schemas.get? part with
        | none => rw [applyAt_of_get?_eq_none hmember, applyAt_of_get?_eq_none hmember]
        | some member =>
            have hwithin := hnests part hpart member hmember
            have hall : ∀ other ∈ id :: trail, ∀ found, rules.schemas.get? other = some found →
                ¬ rules.schemas.MembersNestWithin depth found := by
              rw [List.forall_mem_cons]
              refine ⟨fun found hfound => ?_, hdeeper⟩
              rwa [Option.some.inj (hfound.symm.trans hget)]
            have hnew : part ∉ id :: trail := fun hmem => hall part hmem member hmember hwithin
            rw [applyAt_eq_judge hmember hnew, applyAt_eq_judge hmember List.not_mem_nil]
            refine judge_null_congr fun inner hinner => ?_
            exact (ih hmember hwithin hall inner hinner).trans
              (ih hmember hwithin (by simp) inner hinner).symm

theorem apply_null_eq_judge (hget : rules.schemas.get? id = some schema)
    (hnests : rules.schemas.MembersNestWithin depth schema) :
    rules.apply id .null = rules.judge schema .null (rules.neighbours [] [] .null) := by
  rw [apply, applyAt_eq_judge hget List.not_mem_nil]
  exact judge_null_congr (applyAt_member_null hget hnests (by simp))

/-- The search finds null in a member that accepts it, with the steps that are left for the member. -/
theorem memberAdmitsNull_of_isAccepted {steps : ℕ}
    (hnests : ∀ member, rules.schemas.get? id = some member →
      rules.schemas.MembersNestWithin depth member) (hlt : depth < steps)
    (hnull : steps + 1 = nullSteps) (haccepted : (rules.apply id .null).isAccepted) :
    memberAdmitsNull rules.schemas steps id := by
  unfold memberAdmitsNull
  cases hget : rules.schemas.get? id with
  | none => rfl
  | some member =>
      dsimp only
      rw [← SchemaTable.admitsNull_of_membersNestWithin (hnests member hget) hlt, hnull]
      by_contra hrefused
      rw [apply, applyAt_eq_judge hget List.not_mem_nil,
        judge_null_of_admitsNull_eq_false (by simpa using hrefused)] at haccepted
      cases haccepted

/-- The search finds null in a composition that leaves room for it on all sides. -/
theorem admitsNull_of_hasAlternative (huntyped : schema.effectiveType? = none)
    (hnests : rules.schemas.MembersNestWithin 32 schema) (htagging : schema.tagging? = none)
    (hincluded : ∀ part ∈ schema.allOf, (rules.apply part .null).isAccepted)
    (halternative : HasAlternative (fun part => rules.apply part .null) schema .null) :
    admitsNull rules.schemas nullSteps schema = true := by
  have hmember : ∀ part ∈ schema.members, (rules.apply part .null).isAccepted →
      memberAdmitsNull rules.schemas 32 part := by
    intro part hpart haccepted
    have hwithin : ∀ member, rules.schemas.get? part = some member →
        rules.schemas.MembersNestWithin 31 member := hnests part hpart
    exact memberAdmitsNull_of_isAccepted hwithin (by decide) rfl haccepted
  obtain ⟨_, _, htagging', -⟩ | ⟨-, hone, hany⟩ := halternative
  · simp [htagging] at htagging'
  · have hoptional : ∀ ids : List SchemaId, (∀ part ∈ ids, part ∈ schema.members) →
        (ids ≠ [] → ∃ part ∈ ids, (rules.apply part .null).isAccepted) →
        (ids.isEmpty || ids.any (memberAdmitsNull rules.schemas 32)) = true := by
      intro ids hids hsome
      by_cases hempty : ids = []
      · simp [hempty]
      · obtain ⟨part, hpart, haccepted⟩ := hsome hempty
        simp only [Bool.or_eq_true, List.any_eq_true]
        exact .inr ⟨part, hpart, hmember part (hids part hpart) haccepted⟩
    have hexists : schema.oneOf ≠ [] →
        ∃ part ∈ schema.oneOf, (rules.apply part .null).isAccepted := by
      intro hne
      exact List.countP_pos_iff.1 (by rw [hone hne]; exact Nat.one_pos)
    have hsteps : nullSteps = 32 + 1 := rfl
    rw [hsteps, admitsNull_succ, huntyped,
      hoptional schema.oneOf (by simp +contextual [Schema.members]) hexists,
      hoptional schema.anyOf (by simp +contextual [Schema.members]) hany]
    simp only [Option.isSome_none, Bool.false_eq_true, ↓reduceIte, Bool.and_true, Bool.true_and,
      ite_eq_left_iff, List.all_eq_true]
    exact fun _ part hpart =>
      hmember part (by simp [Schema.members, hpart]) (hincluded part hpart)

/-- A composition without a type accepts null exactly if null is among its literals and its members
accept null on their own: all of `allOf`, exactly one of `oneOf` and at least one of `anyOf`.  The
search that comes first hides nothing if the compositions go at most as deep as it does. -/
theorem accepts_null_iff_members_do (rules : SchemaRules)
    (hformats : rules.formats = Format.standard) (id : SchemaId) (schema : Schema)
    (hget : rules.schemas.get? id = some schema)
    (hnests : rules.schemas.MembersNestWithin 32 schema) (hnullable : schema.nullable = false)
    (huntyped : schema.effectiveType? = none) (huntagged : schema.discriminator? = none)
    (hcomposed : schema.isComposed = true) :
    (rules.apply id .null).isAccepted ↔
      (∀ literals, schema.literals? = some literals → .null ∈ literals) ∧
      (∀ part ∈ schema.allOf, (rules.apply part .null).isAccepted) ∧
      (schema.oneOf ≠ [] →
        schema.oneOf.countP (fun part => (rules.apply part .null).isAccepted) = 1) ∧
      (schema.anyOf ≠ [] → ∃ part ∈ schema.anyOf, (rules.apply part .null).isAccepted) := by
  have htagging : schema.tagging? = none := by simp [Schema.tagging?, huntagged]
  have htype : schema.type? ≠ some .null := by
    intro hnull
    simp [Schema.effectiveType?, hnull] at huntyped
  have hparts : (rules.judgeParts schema .null (rules.neighbours [] [] .null)).isAccepted ↔
      (∀ literals, schema.literals? = some literals → .null ∈ literals) ∧
      (∀ part ∈ schema.allOf, (rules.apply part .null).isAccepted) ∧
      HasAlternative (fun part => rules.apply part .null) schema .null := by
    have hended : (rules.judgeParts schema .null (rules.neighbours [] [] .null)).HasEnded := by
      rw [hasEnded_judgeParts_iff, hasEnded_judgeOwn_iff, judgeType_of_none huntyped]
      exact ⟨Judgement.hasEnded_accepted _,
        fun part _ => hasEnded_applyAt_null rules [] [] part .null rfl⟩
    rw [isAccepted_judgeParts_iff (fun part => isExplained_applyAt _ _ _ _ _) hended,
      isAccepted_judgeOwn_null_iff hformats huntyped]
    rfl
  have halternative : HasAlternative (fun part => rules.apply part .null) schema .null ↔
      (schema.oneOf ≠ [] →
        schema.oneOf.countP (fun part => (rules.apply part .null).isAccepted) = 1) ∧
      (schema.anyOf ≠ [] → ∃ part ∈ schema.anyOf, (rules.apply part .null).isAccepted) := by
    simp [HasAlternative, htagging]
  rw [apply_null_eq_judge hget hnests, ← halternative, ← hparts]
  constructor
  · intro haccepted
    obtain ⟨-, halone | hjudged⟩ := judge_null_cases hnullable htype haccepted
    · simp [halone] at hcomposed
    · exact hjudged
  · intro hjudged
    obtain ⟨-, hincluded, hroom⟩ := hparts.1 hjudged
    have hadmits := admitsNull_of_hasAlternative huntyped hnests htagging hincluded hroom
    have hapart : rules.TakesApart schema .null := fun _ => ⟨hnullable, htype, hadmits, hcomposed⟩
    rwa [judge_of_takesApart hapart]

/-- A remark is a listed text or null, and null has to find its place two levels down. -/
theorem remark_accepts_null :
    let remark : Schema := { literals? := some [.string "none", .null], allOf := [1], oneOf := [2, 3] }
    let lenient : Schema := { anyOf := [2, 4] }
    let blank : Schema := { nullable := true, allOf := [2] }
    let rules : SchemaRules := {
      schemas := ⟨#[remark, lenient, .ofType .string, .ofType .null, blank]⟩
      formats := Format.standard }
    rules.schemas.get? 0 = some remark ∧ rules.schemas.MembersNestWithin 32 remark ∧
      remark.nullable = false ∧ remark.effectiveType? = none ∧ remark.discriminator? = none ∧
      remark.isComposed = true ∧ (rules.apply 0 .null).isAccepted := by
  intro remark lenient blank rules
  have htyped : ∀ depth type, rules.schemas.MembersNestWithin depth (.ofType type) :=
    fun depth type => SchemaTable.membersNestWithin_of_members_eq_nil rfl depth
  have hblank : ∀ depth, rules.schemas.MembersNestWithin (depth + 1) blank := by
    refine fun depth => SchemaTable.membersNestWithin_succ fun id hid => ?_
    obtain rfl := List.mem_singleton.1 hid
    exact ⟨_, rfl, htyped _ _⟩
  have hlenient : ∀ depth, rules.schemas.MembersNestWithin (depth + 2) lenient := by
    refine fun depth => SchemaTable.membersNestWithin_succ fun id hid => ?_
    obtain rfl | rfl := List.mem_pair.1 hid
    · exact ⟨_, rfl, htyped _ _⟩
    · exact ⟨_, rfl, hblank depth⟩
  have hremark : rules.schemas.MembersNestWithin 32 remark := by
    refine SchemaTable.membersNestWithin_succ fun id hid => ?_
    have hcases : id = 1 ∨ id = 2 ∨ id = 3 := by simpa [remark, Schema.members] using hid
    obtain rfl | rfl | rfl := hcases
    · exact ⟨_, rfl, hlenient 29⟩
    · exact ⟨_, rfl, htyped _ _⟩
    · exact ⟨_, rfl, htyped _ _⟩
  have happly : ∀ id schema, rules.schemas.get? id = some schema → rules.apply id .null =
      rules.judge schema .null (rules.neighbours [] [id] .null) :=
    fun _ _ hget => applyAt_eq_judge hget List.not_mem_nil
  have htext : (rules.apply 2 .null).isAccepted = false := by
    rw [happly 2 _ rfl]
    rfl
  have hnothing : (rules.apply 3 .null).isAccepted = true := by
    rw [happly 3 _ rfl]
    rfl
  have hleft : (rules.apply 4 .null).isAccepted = true := by
    rw [happly 4 _ rfl]
    rfl
  have hroom : (rules.apply 1 .null).isAccepted = true := by
    refine (accepts_null_iff_members_do rules rfl 1 lenient rfl (hlenient 30) rfl rfl rfl rfl).2 ?_
    simp [lenient, htext, hleft]
  refine ⟨rfl, hremark, rfl, rfl, rfl, rfl, ?_⟩
  refine (accepts_null_iff_members_do rules rfl 0 remark rfl hremark rfl rfl rfl rfl).2 ?_
  simp [remark, hroom, htext, hnothing]

end SchemaRules
end ApiContract
