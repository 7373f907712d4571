import ApiContract.Proofs.Application

/-!
# Alternatives of a schema

A schema offers alternatives by `oneOf`, by `anyOf` or by the tag of an object.  `Chooses` says which
of them count for a value, in terms of what the other schemas say about the value, and the
alternatives are accepted exactly with the results of those.
-/

namespace ApiContract

/-- The schema that the text of a value's tag picks. -/
def Discriminator.Picks (discriminator : Discriminator) (value : Value) (id : SchemaId) : Prop :=
  ∃ members tag, value = .object members ∧
    (Entries.get? members discriminator.property).bind Value.asString? = some tag ∧
    Entries.get? discriminator.mapping tag = some id

namespace Judgement

variable {α β : Type}

def IsRejected (judgement : Judgement α) : Prop := ∃ violations, judgement = .rejected violations

/-- One candidate is accepted and all others are rejected. -/
def IsOnlyAccepted (judge : β → Judgement α) (candidates : List β) (candidate : β) : Prop :=
  ∃ before behind, candidates = before ++ candidate :: behind ∧ (judge candidate).isAccepted ∧
    ∀ other ∈ before ++ behind, (judge other).IsRejected

/-- A candidate is accepted and those in front of it are rejected. -/
def IsFirstAccepted (judge : β → Judgement α) (candidates : List β) (candidate : β) : Prop :=
  ∃ before behind, candidates = before ++ candidate :: behind ∧ (judge candidate).isAccepted ∧
    ∀ other ∈ before, (judge other).IsRejected

theorem isRejected_iff {judgement : Judgement α} :
    judgement.IsRejected ↔ judgement.HasEnded ∧ judgement.value? = none := by
  cases judgement <;> simp [IsRejected, HasEnded, value?]

theorem value?_eq_some_iff {judgement : Judgement α} {value : α} :
    judgement.value? = some value ↔ judgement = .accepted value := by
  cases judgement <;> simp [value?]

theorem exists_gather_eq_singleton_iff {judge : β → Judgement α} {candidates : List β}
    {value : α} :
    (∃ found, gather (candidates.map judge) = some ([value], found)) ↔
      ∃ candidate, IsOnlyAccepted judge candidates candidate ∧
        judge candidate = .accepted value := by
  have hgather : (∃ found, gather (candidates.map judge) = some ([value], found)) ↔
      (∀ candidate ∈ candidates, (judge candidate).HasEnded) ∧
        candidates.filterMap (fun candidate => (judge candidate).value?) = [value] := by
    constructor
    · rintro ⟨found, hgather⟩
      have hended := hasEnded_of_gather hgather
      rw [gather_of_hasEnded hended, List.filterMap_map] at hgather
      exact ⟨List.forall_mem_map.1 hended, (Prod.mk.inj (Option.some.inj hgather)).1⟩
    · rintro ⟨hended, hvalues⟩
      refine ⟨(candidates.map judge).flatMap violations, ?_⟩
      rw [gather_of_hasEnded (List.forall_mem_map.2 hended), List.filterMap_map, ← hvalues]
      rfl
  rw [hgather, List.filterMap_eq_cons_iff]
  constructor
  · rintro ⟨hended, before, candidate, behind, rfl, hbefore, hcandidate, hbehind⟩
    have haccepted : judge candidate = .accepted value := value?_eq_some_iff.1 hcandidate
    rw [List.filterMap_eq_nil_iff] at hbehind
    refine ⟨candidate, ⟨before, behind, rfl, isAccepted_iff.2 ⟨value, haccepted⟩, ?_⟩, haccepted⟩
    intro other hmem
    rw [isRejected_iff]
    rcases List.mem_append.1 hmem with hmem | hmem
    · exact ⟨hended other (by simp [hmem]), hbefore other hmem⟩
    · exact ⟨hended other (by simp [hmem]), hbehind other hmem⟩
  · rintro ⟨candidate, ⟨before, behind, rfl, -, hothers⟩, haccepted⟩
    have hrejected : ∀ other ∈ before ++ behind,
        (judge other).HasEnded ∧ (judge other).value? = none :=
      fun other hmem => isRejected_iff.1 (hothers other hmem)
    rw [List.forall_mem_append] at hrejected
    obtain ⟨hbefore, hbehind⟩ := hrejected
    constructor
    · rw [List.forall_mem_append, List.forall_mem_cons]
      refine ⟨fun other hmem => (hbefore other hmem).1, ?_, fun other hmem => (hbehind other hmem).1⟩
      rw [haccepted]
      exact hasEnded_accepted value
    · refine ⟨before, candidate, behind, rfl, fun other hmem => (hbefore other hmem).2,
        value?_eq_some_iff.2 haccepted, ?_⟩
      exact List.filterMap_eq_nil_iff.2 fun other hmem => (hbehind other hmem).2

theorem firstAccepted_eq_accepted_iff {judge : β → Judgement α} {otherwise : Violation}
    {candidates : List β} {value : α} :
    firstAccepted judge otherwise candidates = .accepted value ↔
      ∃ candidate, IsFirstAccepted judge candidates candidate ∧
        judge candidate = .accepted value := by
  induction candidates with
  | nil =>
      refine iff_of_false (by simp [firstAccepted, refuse]) ?_
      rintro ⟨candidate, ⟨before, behind, hsplit, -⟩, -⟩
      simp at hsplit
  | cons first rest ih =>
      unfold firstAccepted
      constructor
      · intro haccepted
        split at haccepted
        · next found hfound =>
            obtain rfl := accepted.inj haccepted
            exact ⟨first, ⟨[], rest, rfl, isAccepted_iff.2 ⟨found, hfound⟩, by simp⟩, hfound⟩
        · next violations hviolations =>
            obtain ⟨candidate, ⟨before, behind, rfl, hcandidate, hbefore⟩, hvalue⟩ :=
              ih.1 haccepted
            refine ⟨candidate, ⟨first :: before, behind, rfl, hcandidate, ?_⟩, hvalue⟩
            rw [List.forall_mem_cons]
            exact ⟨⟨violations, hviolations⟩, hbefore⟩
        · simp at haccepted
      · rintro ⟨candidate, ⟨before, behind, hsplit, hcandidate, hbefore⟩, hvalue⟩
        cases before with
        | nil =>
            obtain ⟨rfl, rfl⟩ := List.cons.inj hsplit
            rw [hvalue]
        | cons head tail =>
            obtain ⟨rfl, rfl⟩ := List.cons.inj hsplit
            rw [List.forall_mem_cons] at hbefore
            obtain ⟨⟨violations, hviolations⟩, htail⟩ := hbefore
            rw [hviolations]
            exact ih.2 ⟨candidate, ⟨tail, behind, rfl, hcandidate, htail⟩, hvalue⟩

end Judgement

namespace SchemaRules

/-- The alternatives of a schema that count for a value. -/
def Chooses (here : SchemaId → Judgement Value) (schema : Schema) (value : Value)
    (chosen : List SchemaId) : Prop :=
  match schema.discriminator? with
  | some discriminator =>
    if schema.oneOf = [] ∧ schema.anyOf = [] then chosen = []
    else ∃ id, chosen = [id] ∧ discriminator.Picks value id
  | none => ∃ one any, chosen = one ++ any ∧
    (if schema.oneOf = [] then one = []
      else ∃ id, one = [id] ∧ Judgement.IsOnlyAccepted here schema.oneOf id) ∧
    (if schema.anyOf = [] then any = []
      else ∃ id, any = [id] ∧ Judgement.IsFirstAccepted here schema.anyOf id)

variable {here : SchemaId → Judgement Value} {schema : Schema} {value typed : Value}

theorem judgeOneOf_eq_accepted_iff {ids : List SchemaId} :
    judgeOneOf here ids = .accepted typed ↔
      ∃ id, Judgement.IsOnlyAccepted here ids id ∧ here id = .accepted typed := by
  rw [← Judgement.exists_gather_eq_singleton_iff]
  unfold judgeOneOf
  constructor
  · intro haccepted
    split at haccepted
    · simp at haccepted
    · next found hgather =>
        obtain rfl := Judgement.accepted.inj haccepted
        exact ⟨found, hgather⟩
    · simp [refuse, Judgement.refuse] at haccepted
    · simp [refuse, Judgement.refuse] at haccepted
  · rintro ⟨found, hgather⟩
    rw [hgather]

theorem judgeTagged_eq_accepted_iff {discriminator : Discriminator} :
    judgeTagged here discriminator value = .accepted typed ↔
      ∃ id, discriminator.Picks value id ∧ here id = .accepted typed := by
  unfold judgeTagged
  constructor
  · intro haccepted
    split at haccepted
    · split at haccepted
      · simp [refuse, Judgement.refuse] at haccepted
      · next tag htag =>
          split at haccepted
          · next id hid => exact ⟨id, ⟨_, tag, rfl, htag, hid⟩, haccepted⟩
          · simp [refuse, Judgement.refuse] at haccepted
    · simp [refuse, Judgement.refuse] at haccepted
  · rintro ⟨id, ⟨members, tag, rfl, htag, hid⟩, haccepted⟩
    simp only [htag, hid, haccepted]

/-- A judgement that is asked for under some condition, with the result of a schema it picks. -/
theorem singleton_eq_map_accepted_iff {judgement : Judgement Value} {picked : SchemaId → Prop}
    {results : List Value} (condition : Prop) [Decidable condition]
    (hjudgement : ∀ typed, judgement = .accepted typed ↔
      ∃ id, picked id ∧ here id = .accepted typed) :
    (if condition then [] else [judgement]) = results.map .accepted ↔
      ∃ chosen, (if condition then chosen = [] else ∃ id, chosen = [id] ∧ picked id) ∧
        List.Forall₂ (fun id result => here id = .accepted result) chosen results := by
  by_cases hcondition : condition
  · simp [hcondition]
  · simp only [if_neg hcondition]
    constructor
    · intro heq
      obtain ⟨result, rest, rfl, hresult, hrest⟩ := List.map_eq_cons_iff.1 heq.symm
      obtain rfl := List.map_eq_nil_iff.1 hrest
      obtain ⟨id, hpicked, hid⟩ := (hjudgement result).1 hresult.symm
      exact ⟨[id], ⟨id, rfl, hpicked⟩, .cons hid .nil⟩
    · rintro ⟨_, ⟨id, rfl, hpicked⟩, hresults⟩
      cases hresults with
      | cons hid hrest =>
          cases hrest
          rw [(hjudgement _).2 ⟨id, hpicked, hid⟩]
          rfl

/-- Every alternative that a schema asks for is accepted with the result of a chosen schema. -/
theorem judgeAlternatives_eq_accepted_iff {results : List Value} :
    judgeAlternatives schema value here = results.map .accepted ↔
      ∃ chosen, Chooses here schema value chosen ∧
        List.Forall₂ (fun id result => here id = .accepted result) chosen results := by
  unfold Chooses
  cases hdiscriminator : schema.discriminator? with
  | some discriminator =>
      rw [judgeAlternatives_of_discriminator hdiscriminator]
      exact singleton_eq_map_accepted_iff _ fun _ => judgeTagged_eq_accepted_iff
  | none =>
      have hone := fun results : List Value => @singleton_eq_map_accepted_iff here
        (judgeOneOf here schema.oneOf) _ results (schema.oneOf = []) _
        fun _ => judgeOneOf_eq_accepted_iff
      have hany := fun results : List Value => @singleton_eq_map_accepted_iff here
        (judgeAnyOf here schema.anyOf) _ results (schema.anyOf = []) _
        fun _ => Judgement.firstAccepted_eq_accepted_iff
      rw [judgeAlternatives_of_none hdiscriminator]
      constructor
      · intro heq
        obtain ⟨front, behind, rfl, hfront, hbehind⟩ := List.append_eq_map_iff.1 heq
        obtain ⟨one, hchooseOne, hallOne⟩ := (hone front).1 hfront.symm
        obtain ⟨any, hchooseAny, hallAny⟩ := (hany behind).1 hbehind.symm
        exact ⟨one ++ any, ⟨one, any, rfl, hchooseOne, hchooseAny⟩, List.rel_append hallOne hallAny⟩
      · rintro ⟨_, ⟨one, any, rfl, hchooseOne, hchooseAny⟩, hall⟩
        have hallOne := List.forall₂_take_append _ one any hall.flip
        have hallAny := List.forall₂_drop_append _ one any hall.flip
        rw [(hone _).2 ⟨one, hchooseOne, hallOne.flip⟩, (hany _).2 ⟨any, hchooseAny, hallAny.flip⟩,
          ← List.map_append, List.take_append_drop]

end SchemaRules

end ApiContract
