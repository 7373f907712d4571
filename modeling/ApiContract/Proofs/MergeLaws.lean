import ApiContract.Proofs.Refinement

/-!
# Laws of merging

The typed forms of one value form a monoid under merging, up to one law: merging is associative, and
the value as it came in is neutral when it comes last.  So results that were merged among themselves,
behind the value as it came in, count as much as if they had been merged one by one.
-/

namespace ApiContract
namespace Value

variable {raw first second third : Value}

/-! ## Neutral element -/

/-- The members of a value add nothing to an object that has all of them. -/
theorem mergeMembers_raw_right {members left : Entries Value} (hmembers : Entries.Distinct members)
    (hdistinct : Entries.Distinct left) (hkeys : Entries.keys members <+: Entries.keys left)
    (hmerged : ∀ name member earlier, Entries.get? members name = some member →
      Entries.get? left name = some earlier → merge member earlier member = earlier) :
    mergeMembers (.object members) left members = left := by
  have hnone : (Entries.keys members).filter (· ∉ Entries.keys left) = [] :=
    List.filter_eq_nil_iff.2 fun name hname => by simpa using hkeys.subset hname
  have hnames : Entries.keys left = Entries.keys (mergeMembers (.object members) left members) := by
    rw [keys_mergeMembers hmembers, hnone, List.append_nil]
  refine (Entries.eq_of_keys_eq hdistinct hnames ?_).symm
  intro name earlier merged hearlier hmerge
  cases hmember : Entries.get? members name with
  | none =>
      rw [get?_mergeMembers hmembers, hearlier, hmember] at hmerge
      exact Option.some.inj hmerge
  | some member =>
      rw [get?_mergeMembers_of_get? hmembers hmember hearlier hmember] at hmerge
      rw [← Option.some.inj hmerge, hmerged name member earlier hmember hearlier]

/-- The value as it came in does not change an earlier result. -/
theorem merge_raw_right (hraw : raw.Keyed) (hrefines : raw.Refines first) (hkeyed : first.Keyed) :
    merge raw first raw = first := by
  induction hraw generalizing first with
  | @intro raw hdistinct hchildren ih =>
      by_cases hobject : ∃ members, raw = .object members
      · obtain ⟨members, rfl⟩ := hobject
        obtain ⟨left, rfl, hleft, hlefts⟩ := hrefines.exists_object
        rw [merge_object]
        refine congrArg Value.object (mergeMembers_raw_right (hdistinct members rfl)
          (keyed_object_iff.1 hkeyed).1 hleft ?_)
        intro name member earlier hmember hearlier
        exact ih member (List.mem_map_of_mem (Entries.mem_of_get? hmember))
          (hlefts name member earlier hmember hearlier) (hkeyed.get? hearlier)
      · rw [merge_of_ne_object (by simpa using hobject)]
        split
        · next hsame => exact (hrefines.eq_of_same ⟨hdistinct, hchildren⟩ hkeyed hsame).symm
        · rfl

/-! ## Associativity -/

theorem filter_notMem_append {names left middle : List String} :
    names.filter (· ∉ left ++ middle.filter (· ∉ left)) =
      (names.filter (· ∉ middle)).filter (· ∉ left) := by
  rw [List.filter_filter]
  refine List.filter_congr fun name _ => ?_
  by_cases hleft : name ∈ left <;> simp [hleft]

theorem keys_mergeMembers_assoc {left middle right : Entries Value}
    (hmiddle : Entries.Distinct middle) (hright : Entries.Distinct right) :
    Entries.keys (mergeMembers raw (mergeMembers raw left middle) right) =
      Entries.keys (mergeMembers raw left (mergeMembers raw middle right)) := by
  rw [keys_mergeMembers hright, keys_mergeMembers hmiddle,
    keys_mergeMembers (distinct_mergeMembers hmiddle hright), keys_mergeMembers hright,
    List.filter_append, filter_notMem_append, List.append_assoc]

/-- Members are merged associatively if those that the value has are. -/
theorem mergeMembers_assoc {left middle right : Entries Value}
    (hleft : Entries.Distinct left) (hmiddle : Entries.Distinct middle)
    (hright : Entries.Distinct right)
    (hmerged : ∀ name child one two three, raw.get? name = some child →
      Entries.get? left name = some one → Entries.get? middle name = some two →
      Entries.get? right name = some three →
      merge child (merge child one two) three = merge child one (merge child two three)) :
    mergeMembers raw (mergeMembers raw left middle) right =
      mergeMembers raw left (mergeMembers raw middle right) := by
  have hbehind := @distinct_mergeMembers raw _ _ hmiddle hright
  refine Entries.eq_of_keys_eq (distinct_mergeMembers (distinct_mergeMembers hleft hmiddle) hright)
    (keys_mergeMembers_assoc hmiddle hright) ?_
  intro name value other hvalue hother
  rw [get?_mergeMembers hright, get?_mergeMembers hmiddle] at hvalue
  rw [get?_mergeMembers hbehind, get?_mergeMembers hright] at hother
  cases hone : Entries.get? left name <;> cases htwo : Entries.get? middle name <;>
    cases hthree : Entries.get? right name <;> cases hchild : raw.get? name <;>
    simp only [hone, htwo, hthree, hchild, Option.elim_none, Option.elim_some, Option.some.injEq,
      reduceCtorEq] at hvalue hother
  case some.some.some.some child =>
    rw [← hvalue, ← hother]
    exact hmerged name child _ _ _ hchild hone htwo hthree
  all_goals exact hvalue.symm.trans hother

theorem merge_assoc (hraw : raw.Keyed) (hfirst : raw.Refines first ∧ first.Keyed)
    (hsecond : raw.Refines second ∧ second.Keyed) (hthird : raw.Refines third ∧ third.Keyed) :
    merge raw (merge raw first second) third = merge raw first (merge raw second third) := by
  induction hraw generalizing first second third with
  | @intro raw hdistinct hchildren ih =>
      by_cases hobject : ∃ members, raw = .object members
      · obtain ⟨members, rfl⟩ := hobject
        obtain ⟨left, rfl, -, hlefts⟩ := hfirst.1.exists_object
        obtain ⟨middle, rfl, -, hmiddles⟩ := hsecond.1.exists_object
        obtain ⟨right, rfl, -, hrights⟩ := hthird.1.exists_object
        simp only [merge_object]
        refine congrArg Value.object (mergeMembers_assoc (keyed_object_iff.1 hfirst.2).1
          (keyed_object_iff.1 hsecond.2).1 (keyed_object_iff.1 hthird.2).1 ?_)
        intro name member one two three hmember hone htwo hthree
        exact ih member (List.mem_map_of_mem (Entries.mem_of_get? hmember))
          ⟨hlefts name member one hmember hone, hfirst.2.get? hone⟩
          ⟨hmiddles name member two hmember htwo, hsecond.2.get? htwo⟩
          ⟨hrights name member three hmember hthree, hthird.2.get? hthree⟩
      · have hraw : ∀ members, raw ≠ .object members := by simpa using hobject
        have hsecond' := hsecond.1.ne_object hraw
        have hthird' := hthird.1.ne_object hraw
        have hmerged : ∀ members, merge raw second third ≠ .object members :=
          (refines_merge ⟨hdistinct, hchildren⟩ hsecond.1 hthird.1 hsecond.2 hthird.2).1.ne_object
            hraw
        rw [merge_of_ne_object hthird', merge_of_ne_object hsecond', merge_of_ne_object hmerged,
          merge_of_ne_object hthird']
        by_cases hsame : first.same raw
        · rw [if_pos hsame, if_pos hsame]
        · rw [if_neg hsame, if_neg hsame, if_neg hsame]

/-! ## Several results -/

theorem merge_foldl {rest : List Value} (hraw : raw.Keyed) (hfirst : raw.Refines first ∧ first.Keyed)
    (hsecond : raw.Refines second ∧ second.Keyed)
    (hrest : ∀ result ∈ rest, raw.Refines result ∧ result.Keyed) :
    merge raw first (rest.foldl (merge raw) second) =
      rest.foldl (merge raw) (merge raw first second) := by
  induction rest generalizing second with
  | nil => rfl
  | cons next rest ih =>
      rw [List.forall_mem_cons] at hrest
      have hmerged := refines_merge hraw hsecond.1 hrest.1.1 hsecond.2 hrest.1.2
      rw [List.foldl_cons, List.foldl_cons, ih hmerged hrest.2,
        merge_assoc hraw hfirst hsecond hrest.1]

theorem mergeAll_append {results more : List Value} (hsome : results ≠ []) :
    mergeAll raw (results ++ more) = more.foldl (merge raw) (mergeAll raw results) := by
  cases results with
  | nil => exact absurd rfl hsome
  | cons first rest => exact List.foldl_append

/-- Results that were merged among themselves, behind the value as it came in, count as if they were
listed one by one. -/
theorem mergeAll_nested {before inner behind : List Value} (hraw : raw.Keyed) (hsome : before ≠ [])
    (hbefore : ∀ result ∈ before, raw.Refines result ∧ result.Keyed)
    (hinner : ∀ result ∈ inner, raw.Refines result ∧ result.Keyed) :
    mergeAll raw (before ++ mergeAll raw (raw :: inner) :: behind) =
      mergeAll raw (before ++ inner ++ behind) := by
  have hmerged := refines_mergeAll hraw hbefore
  rw [mergeAll_append hsome, List.foldl_cons, mergeAll_append (by simp [hsome]),
    mergeAll_append hsome]
  refine congrArg (List.foldl (merge raw) · behind) ?_
  have hnested : mergeAll raw (raw :: inner) = inner.foldl (merge raw) raw := rfl
  rw [hnested, merge_foldl hraw hmerged ⟨.unchanged raw, hraw⟩ hinner,
    merge_raw_right hraw hmerged.1 hmerged.2]

end Value
end ApiContract
