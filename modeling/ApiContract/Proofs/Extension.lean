import ApiContract.Proofs.Coercion

/-!
# What a schema makes of an object

Whatever a schema accepts as an object comes back as an object that keeps the members in front, in
order, and so do the objects inside.  This holds with any formats, because a format does not look at
what a type makes of an object.  A result of that kind takes over from the value as it came in.
-/

namespace ApiContract

namespace Value

variable {raw typed value : Value}

/-! ## Members that are kept -/

/-- An object is typed as an object with the same members in front, and so are the objects inside. -/
inductive Extends : Value → Value → Prop
  | other {raw typed : Value} (hraw : ∀ members, raw ≠ .object members) : Extends raw typed
  | members {members others : Entries Value} (hdistinct : Entries.Distinct others)
      (hkeys : Entries.keys members <+: Entries.keys others)
      (hmembers : ∀ (name : String) (member other : Value),
        Entries.get? members name = some member → Entries.get? others name = some other →
          Extends member other) : Extends (.object members) (.object others)

theorem Extends.exists_object {members : Entries Value}
    (hextends : (Value.object members).Extends typed) : ∃ others, typed = .object others ∧
      Entries.Distinct others ∧ Entries.keys members <+: Entries.keys others ∧
      ∀ name member other, Entries.get? members name = some member →
        Entries.get? others name = some other → member.Extends other := by
  cases hextends with
  | other hraw => exact absurd rfl (hraw members)
  | members hdistinct hkeys hmembers => exact ⟨_, rfl, hdistinct, hkeys, hmembers⟩

theorem extends_refl (hkeyed : value.Keyed) : value.Extends value := by
  induction hkeyed with
  | @intro value hdistinct _ ih =>
      cases value with
      | object members =>
          refine .members (hdistinct members rfl) List.prefix_rfl ?_
          intro name member other hmember hother
          obtain rfl := Option.some.inj (hmember.symm.trans hother)
          exact ih member (List.mem_map_of_mem (Entries.mem_of_get? hmember))
      | _ => exact .other (by simp)

/-- Merging keeps the members that both results keep. -/
theorem Extends.merge {earlier later : Value} (hearlier : raw.Extends earlier)
    (hlater : raw.Extends later) : raw.Extends (merge raw earlier later) := by
  induction hearlier generalizing later with
  | other hraw => exact .other hraw
  | @members members left hdistinctLeft hleft _ ih =>
      obtain ⟨right, rfl, hdistinctRight, hright, hrights⟩ := hlater.exists_object
      rw [merge_object]
      refine .members (distinct_mergeMembers hdistinctLeft hdistinctRight)
        (keys_prefix_mergeMembers hdistinctRight hleft) ?_
      intro name member other hmember hother
      obtain ⟨earlier, later, hearlier, hlater, rfl⟩ :=
        exists_merge_of_get?_mergeMembers hdistinctRight hleft hright hmember hother
      exact ih name member earlier hmember hearlier (hrights name member later hmember hlater)

theorem extends_mergeAll {results : List Value} (hraw : raw.Keyed)
    (hresults : ∀ result ∈ results, raw.Extends result) : raw.Extends (mergeAll raw results) :=
  mergeAll_induction (extends_refl hraw) (fun _ _ hearlier hlater => hearlier.merge hlater) hresults

/-! ## Taking over from the value as it came in -/

theorem keys_mergeMembers_of_extended {members others : Entries Value}
    (hdistinct : Entries.Distinct others)
    (hkeys : Entries.keys members <+: Entries.keys others) :
    Entries.keys (mergeMembers raw members others) = Entries.keys others := by
  obtain ⟨more, hmore⟩ := hkeys
  have hnodup : (Entries.keys members ++ more).Nodup := hmore ▸ hdistinct
  have hold : (Entries.keys members).filter (· ∉ Entries.keys members) = [] := by
    simp
  have hnew : more.filter (· ∉ Entries.keys members) = more := by
    refine List.filter_eq_self.2 fun name hname => ?_
    simpa using (List.disjoint_of_nodup_append hnodup).symm hname
  rw [keys_mergeMembers hdistinct, ← hmore, List.filter_append, hold, hnew, List.nil_append]

/-- A result that keeps the members of a value takes over from the value as it came in. -/
theorem merge_raw_of_extends (hextends : raw.Extends typed) (hsame : raw.same raw) :
    merge raw raw typed = typed := by
  induction hextends with
  | @other raw typed hraw =>
      cases typed with
      | object others =>
          cases raw with
          | object members => exact absurd rfl (hraw members)
          | _ => simp only [merge, hsame, ↓reduceIte]
      | _ => rw [merge_of_ne_object (by simp), if_pos hsame]
  | @members members others hdistinct hkeys _ ih =>
      have hmerged := @keys_mergeMembers_of_extended (.object members) members others hdistinct hkeys
      rw [merge_object]
      refine congrArg Value.object (Entries.eq_of_keys_eq hdistinct hmerged.symm ?_).symm
      intro name other merged hother hget
      rw [get?_mergeMembers hdistinct, hother] at hget
      cases hmember : Entries.get? members name with
      | none =>
          rw [hmember] at hget
          exact Option.some.inj hget
      | some member =>
          have hraw : (Value.object members).get? name = some member := hmember
          rw [hmember, hraw] at hget
          rw [← Option.some.inj hget]
          exact (ih name member other hmember hother (same_member hsame hmember)).symm

end Value

namespace SchemaRules

variable {rules : SchemaRules} {fills trail : List SchemaId} {id : SchemaId} {value typed : Value}
  {schema : Schema}

/-! ## What a schema accepts -/

theorem extends_of_judgeMember {member : String × Value} {result : Value} (hkeyed : member.2.Keyed)
    (hinside : ∀ part result, rules.applyAt fills [] part member.2 = .accepted result →
      member.2.Extends result)
    (haccepted : rules.judgeMember fills schema member = .accepted result) :
    member.2.Extends result := by
  rcases judgeMember_eq_accepted haccepted with ⟨part, -, hresult⟩ | rfl
  · exact hinside part result hresult
  · exact Value.extends_refl hkeyed

theorem extends_of_judgeMembers (htable : rules.schemas.IsKeyed)
    (hget : rules.schemas.get? id = some schema) {members : Entries Value}
    (hkeyed : (Value.object members).Keyed)
    (hinside : ∀ child ∈ (Value.object members).children, ∀ part result,
      rules.applyAt fills [] part child = .accepted result → child.Extends result)
    {hmembers : ∀ member ∈ members, member.2 ∈ value.children}
    (haccepted : judgeMembers rules (rules.neighbours fills trail value) schema members hmembers =
      .accepted typed) : (Value.object members).Extends typed := by
  obtain ⟨-, present, filled, hpresent, hfills, rfl⟩ := judgeMembers_eq_accepted_iff.1 haccepted
  obtain ⟨hdistinct, hkeyedMembers⟩ := Value.keyed_object_iff.1 hkeyed
  have hnames : List.Forall₂ (fun member result => member.1 = result.1) members present :=
    hpresent.imp fun _ _ hresult => hresult.2
  refine .members (distinct_append_of_fills htable hget hdistinct hnames hfills)
    (Entries.keys_prefix_append_of_forall₂ hnames) ?_
  intro name member other hmember hother
  refine Entries.related_of_forall₂_append (fun member result => member.2.Extends result) ?_ hmember
    hother
  refine forall₂_imp_of_mem hpresent fun member hmem result _ hresult => ⟨hresult.2, ?_⟩
  exact extends_of_judgeMember (hkeyedMembers member hmem)
    (hinside member.2 (List.mem_map_of_mem hmem)) hresult.1

theorem extends_of_judgeOwn (htable : rules.schemas.IsKeyed)
    (hget : rules.schemas.get? id = some schema) (hkeyed : value.Keyed)
    (hinside : ∀ child ∈ value.children, ∀ part result,
      rules.applyAt fills [] part child = .accepted result → child.Extends result)
    (haccepted : rules.judgeOwn schema value (rules.neighbours fills trail value) =
      .accepted typed) : value.Extends typed := by
  obtain ⟨kind, hkind, hrest⟩ := Judgement.andThen_eq_accepted_iff.1 haccepted
  split at hrest
  · by_cases hobject : ∃ members, value = .object members
    · obtain ⟨members, rfl⟩ := hobject
      -- A format does not look at what a type makes of an object.
      have hkept : (Value.object members).Extends kind ∧ kind.isContainer := by
        cases typesAs_of_judgeType hkind with
        | untyped => exact ⟨Value.extends_refl hkeyed, rfl⟩
        | members _ hmembers =>
            exact ⟨extends_of_judgeMembers htable hget hkeyed hinside hmembers,
              isContainer_of_judgeMembers hmembers⟩
        | primitive _ _ _ hprimitive =>
            rcases primitive?_cases hprimitive with rfl | ⟨_, _, hnumber, -⟩
            · exact ⟨Value.extends_refl hkeyed, rfl⟩
            · cases hnumber
      obtain rfl := eq_of_judgeFormat_of_isContainer hkept.2 hrest
      exact hkept.1
    · exact .other fun members hvalue => hobject ⟨members, hvalue⟩
  · cases hrest

/-- Whatever schema accepts an object keeps its members in front, whatever the formats do. -/
theorem extends_of_applyAt (htable : rules.schemas.IsKeyed) :
    ∀ fills trail id value, value.Keyed → ∀ typed,
      rules.applyAt fills trail id value = .accepted typed → value.Extends typed := by
  refine applyAt.induct rules _ ?_ ?_ ?_
  · intro fills trail id value hget hkeyed typed haccepted
    rw [applyAt_of_get?_eq_none hget] at haccepted
    obtain rfl := Judgement.accepted.inj haccepted
    exact Value.extends_refl hkeyed
  · intro fills trail id value _ _ hmem hkeyed typed haccepted
    rw [applyAt_of_mem hmem] at haccepted
    obtain rfl := Judgement.accepted.inj haccepted
    exact Value.extends_refl hkeyed
  · intro fills trail id value schema hget hnew hhere hinside _ hkeyed typed haccepted
    rw [applyAt_eq_judge hget hnew] at haccepted
    rcases judge_eq_accepted haccepted with rfl | hparts
    · exact Value.extends_refl hkeyed
    · obtain ⟨own, alternatives, included, hown, halternatives, hincluded, rfl⟩ :=
        (judgeParts_eq_accepted_iff fun _ => isExplained_applyAt _ _ _ _ _).1 hparts
      obtain ⟨chosen, -, hchosen⟩ := judgeAlternatives_eq_accepted_iff.1 halternatives
      apply Value.extends_mergeAll hkeyed
      rw [List.cons_append, List.forall_mem_cons, List.forall_mem_append]
      refine ⟨?_, ?_, ?_⟩
      · refine extends_of_judgeOwn htable hget hkeyed (fun child hchild part result hresult => ?_)
          hown
        obtain ⟨-, hchildren⟩ := hkeyed
        exact hinside child hchild part (hchildren child hchild) result hresult
      · exact forall_mem_of_forall₂ hchosen fun part _ result hresult =>
          hhere part hkeyed result hresult
      · exact forall_mem_of_forall₂ hincluded fun part _ result hresult =>
          hhere part hkeyed result hresult

end SchemaRules

end ApiContract
