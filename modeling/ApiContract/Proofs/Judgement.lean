import ApiContract.Violation.Judgement
import Mathlib.Tactic

/-!
# What gathered judgements say

Judgements that are all needed are gathered without stopping at the first refusal.  This file
computes the outcome in closed form: once every judgement has ended, the violations are those of
the judgements one after the other, and the values are there exactly when no violation is.

A refusal without violations would be passed over by such a gathering.  `IsExplained` rules it out;
under it an accepted gathering lists the value of every single judgement.
-/

namespace ApiContract
namespace Judgement

variable {α β : Type}

/-- The judgement is not caught in a default that asks for itself. -/
def HasEnded (judgement : Judgement α) : Prop := judgement ≠ .unending

/-- A refusal gives at least one reason. -/
def IsExplained (judgement : Judgement α) : Prop := judgement ≠ .rejected []

/-- A value is there exactly when there are no violations, unless nothing comes of the judgement
at all. -/
def IsDecisive (judgement : Judgement α) : Prop :=
  judgement.HasEnded → (judgement.value?.isSome ↔ judgement.violations = [])

/-! ## Single judgements -/

@[simp] theorem hasEnded_accepted (value : α) : (accepted value).HasEnded := by
  simp [HasEnded]

@[simp] theorem hasEnded_rejected (found : List Violation) :
    (rejected found : Judgement α).HasEnded := by
  simp [HasEnded]

@[simp] theorem hasEnded_refuse (violation : Violation) :
    (refuse violation : Judgement α).HasEnded :=
  hasEnded_rejected [violation]

@[simp] theorem isExplained_accepted (value : α) : (accepted value).IsExplained := by
  simp [IsExplained]

@[simp] theorem isExplained_unending : (unending : Judgement α).IsExplained := by
  simp [IsExplained]

@[simp] theorem isExplained_refuse (violation : Violation) :
    (refuse violation : Judgement α).IsExplained := by
  simp [IsExplained, refuse]

theorem isExplained_iff_isDecisive (judgement : Judgement α) :
    judgement.IsExplained ↔ judgement.IsDecisive := by
  cases judgement <;> simp [IsExplained, IsDecisive, HasEnded, value?, violations, eq_comm]

theorem isAccepted_iff {judgement : Judgement α} :
    judgement.isAccepted ↔ ∃ value, judgement = .accepted value := by
  cases judgement <;> simp [isAccepted]

theorem isSome_value? (judgement : Judgement α) :
    judgement.value?.isSome = judgement.isAccepted := by
  cases judgement <;> rfl

theorem IsExplained.isAccepted_iff_violations {judgement : Judgement α}
    (hexplained : judgement.IsExplained) (hended : judgement.HasEnded) :
    judgement.isAccepted ↔ judgement.violations = [] := by
  rw [← isSome_value?]
  exact (isExplained_iff_isDecisive judgement).1 hexplained hended

theorem map_eq_accepted_iff {f : α → β} {judgement : Judgement α} {result : β} :
    judgement.map f = .accepted result ↔ ∃ value, judgement = .accepted value ∧ f value = result := by
  cases judgement <;> simp [map]

@[simp] theorem isAccepted_map (f : α → β) (judgement : Judgement α) :
    (judgement.map f).isAccepted = judgement.isAccepted := by
  cases judgement <;> rfl

@[simp] theorem hasEnded_map (f : α → β) (judgement : Judgement α) :
    (judgement.map f).HasEnded ↔ judgement.HasEnded := by
  cases judgement <;> simp [map, HasEnded]

@[simp] theorem violations_map (f : α → β) (judgement : Judgement α) :
    (judgement.map f).violations = judgement.violations := by
  cases judgement <;> rfl

@[simp] theorem value?_map (f : α → β) (judgement : Judgement α) :
    (judgement.map f).value? = judgement.value?.map f := by
  cases judgement <;> rfl

@[simp] theorem isExplained_map (f : α → β) (judgement : Judgement α) :
    (judgement.map f).IsExplained ↔ judgement.IsExplained := by
  cases judgement <;> simp [map, IsExplained]

theorem andThen_eq_accepted_iff {f : α → Judgement β} {judgement : Judgement α} {result : β} :
    judgement.andThen f = .accepted result ↔
      ∃ value, judgement = .accepted value ∧ f value = .accepted result := by
  cases judgement <;> simp [andThen]

theorem IsExplained.andThen {f : α → Judgement β} {judgement : Judgement α}
    (hjudgement : judgement.IsExplained) (hf : ∀ value, (f value).IsExplained) :
    (judgement.andThen f).IsExplained := by
  cases judgement with
  | accepted value => exact hf value
  | rejected found => simpa [Judgement.andThen, IsExplained] using hjudgement
  | unending => simp [Judgement.andThen]

theorem under_eq_accepted_iff {segment : Segment} {judgement : Judgement α} {value : α} :
    judgement.under segment = .accepted value ↔ judgement = .accepted value := by
  cases judgement <;> simp [under]

@[simp] theorem isAccepted_under (segment : Segment) (judgement : Judgement α) :
    (judgement.under segment).isAccepted = judgement.isAccepted := by
  cases judgement <;> rfl

@[simp] theorem hasEnded_under (segment : Segment) (judgement : Judgement α) :
    (judgement.under segment).HasEnded ↔ judgement.HasEnded := by
  cases judgement <;> simp [under, HasEnded]

@[simp] theorem isExplained_under (segment : Segment) (judgement : Judgement α) :
    (judgement.under segment).IsExplained ↔ judgement.IsExplained := by
  cases judgement <;> simp [under, IsExplained]

@[simp] theorem isExplained_attach (part : Part) (judgement : Judgement α) :
    (judgement.attach part).IsExplained ↔ judgement.IsExplained := by
  cases judgement <;> simp [attach, IsExplained, relocate]

@[simp] theorem isAccepted_attach (part : Part) (judgement : Judgement α) :
    (judgement.attach part).isAccepted = judgement.isAccepted := by
  cases judgement <;> rfl

theorem isExplained_ofExcept {outcome : Except (List Violation) α} :
    (ofExcept outcome).IsExplained ↔ outcome ≠ .error [] := by
  cases outcome <;> simp [ofExcept, IsExplained]

/-! ## Gathering -/

theorem gather_eq_none_iff {judgements : List (Judgement α)} :
    gather judgements = none ↔ .unending ∈ judgements := by
  induction judgements with
  | nil => simp [gather]
  | cons first rest ih => cases first <;> simp [gather, ih]

theorem gather_of_hasEnded {judgements : List (Judgement α)}
    (hended : ∀ judgement ∈ judgements, judgement.HasEnded) :
    gather judgements =
      some (judgements.filterMap value?, judgements.flatMap violations) := by
  induction judgements with
  | nil => rfl
  | cons first rest ih =>
      have hrest := ih fun judgement hmem => hended judgement (List.mem_cons_of_mem _ hmem)
      cases first with
      | accepted value => simp [gather, hrest, value?, violations]
      | rejected found => simp [gather, hrest, List.filterMap_cons, value?, violations]
      | unending => exact absurd rfl (hended .unending List.mem_cons_self)

theorem hasEnded_of_gather {judgements : List (Judgement α)} {values : List α}
    {found : List Violation} (hgather : gather judgements = some (values, found)) :
    ∀ judgement ∈ judgements, judgement.HasEnded := by
  rintro _ hunending rfl
  rw [← gather_eq_none_iff, hgather] at hunending
  simp at hunending

theorem all_eq_unending_iff {judgements : List (Judgement α)} :
    all judgements = .unending ↔ .unending ∈ judgements := by
  rw [← gather_eq_none_iff]
  unfold all
  split <;> simp_all

theorem hasEnded_all {judgements : List (Judgement α)} :
    (all judgements).HasEnded ↔ ∀ judgement ∈ judgements, judgement.HasEnded := by
  unfold HasEnded
  rw [ne_eq, all_eq_unending_iff]
  constructor
  · rintro hnone judgement hmem rfl
    exact hnone hmem
  · intro hended hmem
    exact hended _ hmem rfl

theorem isExplained_all (judgements : List (Judgement α)) : (all judgements).IsExplained := by
  unfold all
  split
  · exact isExplained_unending
  · exact isExplained_accepted _
  · next hne _ => simpa [IsExplained] using hne

theorem violations_all {judgements : List (Judgement α)}
    (hended : ∀ judgement ∈ judgements, judgement.HasEnded) :
    (all judgements).violations = judgements.flatMap violations := by
  unfold all
  rw [gather_of_hasEnded hended]
  split <;> simp_all [violations]

theorem all_of_hasEnded {judgements : List (Judgement α)}
    (hended : ∀ judgement ∈ judgements, judgement.HasEnded) :
    all judgements = if judgements.flatMap violations = [] then .accepted (judgements.filterMap value?)
      else .rejected (judgements.flatMap violations) := by
  unfold all
  rw [gather_of_hasEnded hended]
  split <;> simp_all

theorem all_eq_accepted_iff_gather {judgements : List (Judgement α)} {values : List α} :
    all judgements = .accepted values ↔ gather judgements = some (values, []) := by
  unfold all
  split <;> simp_all

theorem gather_eq_some_nil_iff {judgements : List (Judgement α)} {values : List α}
    (hexplained : ∀ judgement ∈ judgements, judgement.IsExplained) :
    gather judgements = some (values, []) ↔ judgements = values.map .accepted := by
  induction judgements generalizing values with
  | nil => cases values <;> simp [gather]
  | cons first rest ih =>
      have hrest : ∀ values : List α,
          gather rest = some (values, []) ↔ rest = values.map .accepted := by
        intro values
        exact ih fun judgement hmem => hexplained judgement (List.mem_cons_of_mem _ hmem)
      have hfirst := hexplained first List.mem_cons_self
      cases first with
      | accepted value =>
          cases values with
          | nil => simp [gather]
          | cons head tail =>
              rw [List.map_cons, List.cons.injEq, accepted.injEq, ← hrest, gather]
              cases gather rest <;> simp [Prod.ext_iff, and_assoc]
      | rejected found =>
          have hfound : found ≠ [] := by simpa [IsExplained] using hfirst
          cases values <;> simp [gather, hfound]
      | unending => cases values <;> simp [gather]

/-- An accepted gathering lists the values of all judgements, none of which was refused. -/
theorem all_eq_accepted_iff {judgements : List (Judgement α)} {values : List α}
    (hexplained : ∀ judgement ∈ judgements, judgement.IsExplained) :
    all judgements = .accepted values ↔ judgements = values.map .accepted := by
  rw [all_eq_accepted_iff_gather, gather_eq_some_nil_iff hexplained]

theorem exists_map_accepted {judgements : List (Judgement α)}
    (hexplained : ∀ judgement ∈ judgements, judgement.IsExplained)
    (hended : ∀ judgement ∈ judgements, judgement.HasEnded)
    (hnone : judgements.flatMap violations = []) : ∃ values : List α, judgements = values.map .accepted := by
  refine ⟨judgements.filterMap value?, ?_⟩
  rw [← all_eq_accepted_iff hexplained, all_of_hasEnded hended, if_pos hnone]

theorem all_map_accepted (values : List α) :
    all (values.map accepted) = .accepted values :=
  (all_eq_accepted_iff (List.forall_mem_map.2 fun value _ => isExplained_accepted value)).2 rfl

theorem all_cons_accepted (value : α) (judgements : List (Judgement α)) :
    all (.accepted value :: judgements) = (all judgements).map (value :: ·) := by
  unfold all
  rw [gather]
  cases gather judgements with
  | none => rfl
  | some gathered =>
      obtain ⟨values, found⟩ := gathered
      cases found <;> rfl

theorem all_map_eq_accepted_iff {judge : β → Judgement α} {candidates : List β}
    {values : List α} (hexplained : ∀ candidate ∈ candidates, (judge candidate).IsExplained) :
    all (candidates.map judge) = .accepted values ↔
      List.Forall₂ (fun candidate value => judge candidate = .accepted value) candidates values := by
  rw [all_eq_accepted_iff (by simpa using hexplained), ← List.forall₂_eq_eq_eq,
    List.forall₂_map_left_iff, List.forall₂_map_right_iff]

theorem exists_forall₂_iff {related : β → α → Prop} {candidates : List β} :
    (∃ results, List.Forall₂ related candidates results) ↔
      ∀ candidate ∈ candidates, ∃ result, related candidate result := by
  induction candidates with
  | nil => simp
  | cons first rest ih =>
      rw [List.forall_mem_cons, ← ih]
      constructor
      · rintro ⟨_, hrelated⟩
        cases hrelated with
        | cons hfirst hrest => exact ⟨⟨_, hfirst⟩, _, hrest⟩
      · rintro ⟨⟨result, hfirst⟩, results, hrest⟩
        exact ⟨result :: results, .cons hfirst hrest⟩

theorem isAccepted_all {judgements : List (Judgement α)}
    (hexplained : ∀ judgement ∈ judgements, judgement.IsExplained) :
    (all judgements).isAccepted ↔ ∀ judgement ∈ judgements, judgement.isAccepted := by
  have hall : ∀ values : List α, all judgements = .accepted values ↔
      List.Forall₂ (fun judgement value => judgement = .accepted value) judgements values := by
    intro values
    rw [← all_map_eq_accepted_iff hexplained, List.map_id']
  simp only [isAccepted_iff, hall, exists_forall₂_iff]

theorem isExplained_firstAccepted {judge : β → Judgement α} {otherwise : Violation}
    {candidates : List β} :
    (firstAccepted judge otherwise candidates).IsExplained := by
  induction candidates with
  | nil => exact isExplained_refuse otherwise
  | cons candidate rest ih =>
      unfold firstAccepted
      split
      · exact isExplained_accepted _
      · exact ih
      · exact isExplained_unending

/-! ## Two judgements -/

theorem hasEnded_both {first : Judgement α} {second : Judgement β} :
    (first.both second).HasEnded ↔ first.HasEnded ∧ second.HasEnded := by
  cases first <;> cases second <;> simp [both, HasEnded]

theorem violations_both {first : Judgement α} {second : Judgement β}
    (hfirst : first.HasEnded) (hsecond : second.HasEnded) :
    (first.both second).violations = first.violations ++ second.violations := by
  cases first <;> cases second <;> simp_all [both, HasEnded, violations]

theorem both_eq_accepted_iff {first : Judgement α} {second : Judgement β} {values : α × β} :
    first.both second = .accepted values ↔
      first = .accepted values.1 ∧ second = .accepted values.2 := by
  cases first <;> cases second <;> simp [both, Prod.ext_iff]

theorem isAccepted_both {first : Judgement α} {second : Judgement β} :
    (first.both second).isAccepted ↔ first.isAccepted ∧ second.isAccepted := by
  cases first <;> cases second <;> simp [both, isAccepted]

theorem IsExplained.both {first : Judgement α} {second : Judgement β}
    (hfirst : first.IsExplained) (hsecond : second.IsExplained) :
    (first.both second).IsExplained := by
  cases first <;> cases second <;> simp_all [Judgement.both, IsExplained]

end Judgement
end ApiContract
