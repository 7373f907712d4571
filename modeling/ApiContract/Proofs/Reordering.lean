import ApiContract.Proofs.Judgement
import ApiContract.Proofs.Refinement
import ApiContract.Schema.Bounds

/-!
# Values with their keys in another order

`Reordered` relates values that differ at most in the order in which their objects list their members,
at any depth.  Such values have the same content: the comparison of values, the comparison with
literals and the keywords that bound a value do not tell them apart, and merging the results for one
of them gives what merging those for the other gives, in another order at most.
-/

namespace ApiContract

/-! ## Maps with the same names -/

namespace Entries

variable {α β : Type} {related : α → β → Prop} {entries : Entries α} {others : Entries β}
  {name : String} {value : α}

/-- Two maps have the same distinct names, in whatever order, and related values at each of them. -/
structure Aligned (related : α → β → Prop) (entries : Entries α) (others : Entries β) : Prop where
  distinct : Distinct entries
  keys_perm : (keys entries).Perm (keys others)
  values : ∀ name value other, get? entries name = some value → get? others name = some other →
    related value other

namespace Aligned

variable (haligned : Aligned related entries others)

include haligned

theorem distinct' : Distinct others := haligned.keys_perm.nodup haligned.distinct

theorem contains_eq (name : String) : contains entries name = contains others name := by
  rw [Bool.eq_iff_iff, contains_iff, contains_iff, haligned.keys_perm.mem_iff]

theorem length_eq : entries.length = others.length := by
  simpa [keys] using haligned.keys_perm.length_eq

theorem symm : Aligned (fun other value => related value other) others entries :=
  ⟨haligned.distinct', haligned.keys_perm.symm, fun name other value hother hvalue =>
    haligned.values name value other hvalue hother⟩

theorem exists_of_get? (hget : get? entries name = some value) :
    ∃ other, get? others name = some other ∧ related value other := by
  have hname : name ∈ keys others :=
    haligned.keys_perm.mem_iff.1 (mem_keys_iff.2 ⟨value, mem_of_get? hget⟩)
  obtain ⟨other, hother⟩ := get?_of_mem_keys hname
  exact ⟨other, hother, haligned.values name value other hget hother⟩

theorem get?_eq_none_iff : get? entries name = none ↔ get? others name = none := by
  rw [Entries.get?_eq_none_iff, Entries.get?_eq_none_iff, haligned.keys_perm.mem_iff]

/-- One map can be brought into the order of the other. -/
theorem exists_perm : ∃ middle : Entries α, entries.Perm middle ∧
    List.Forall₂ (fun entry other => entry.1 = other.1 ∧ related entry.2 other.2) middle others := by
  -- Name by name along the second map, the entry of the first one.
  have hfound : ∀ other ∈ others, ∃ entry : String × α, entry ∈ entries ∧ entry.1 = other.1 ∧
      related entry.2 other.2 := by
    rintro ⟨name, other⟩ hother
    have hget := haligned.distinct'.get?_eq_some_iff.2 hother
    obtain ⟨value, hvalue, hrelated⟩ := haligned.symm.exists_of_get? hget
    exact ⟨(name, value), mem_of_get? hvalue, rfl, hrelated⟩
  obtain ⟨middle, hflipped⟩ := Judgement.exists_forall₂_iff.2 hfound
  have hmiddle := hflipped.flip
  have hmem : ∀ entry ∈ middle, entry ∈ entries := fun entry hentry =>
    forall_mem_of_forall₂ hflipped (fun _ _ _ hresult => hresult.1) entry hentry
  have hkeys : keys others = keys middle :=
    keys_eq_of_forall₂ (hmiddle.imp fun _ _ hpair => hpair.2.1)
  have hnodup : (keys middle).Nodup := hkeys ▸ haligned.distinct'
  refine ⟨middle, ?_, hmiddle.imp fun _ _ hpair => hpair.2⟩
  rw [List.perm_ext_iff_of_nodup (List.Nodup.of_map _ haligned.distinct) (List.Nodup.of_map _ hnodup)]
  refine fun entry => ⟨fun hentry => ?_, hmem entry⟩
  have hname : entry.1 ∈ keys middle :=
    hkeys ▸ haligned.keys_perm.mem_iff.1 (mem_keys_iff.2 ⟨entry.2, hentry⟩)
  obtain ⟨value, hvalue⟩ := mem_keys_iff.1 hname
  have hsame := (haligned.distinct.get?_eq_some_iff.2 (hmem _ hvalue)).symm.trans
    (haligned.distinct.get?_eq_some_iff.2 hentry)
  rwa [Option.some.inj hsame] at hvalue

end Aligned

theorem get?_mapValues (f : α → β) (entries : Entries α) (name : String) :
    get? (mapValues f entries) name = (get? entries name).map f := by
  induction entries with
  | nil => rfl
  | cons entry rest ih =>
      have hcons : mapValues f (entry :: rest) = (entry.1, f entry.2) :: mapValues f rest := rfl
      rw [hcons, get?, get?, ih]
      split <;> rfl

theorem aligned_of_perm {middle : Entries α} (hdistinct : Distinct entries)
    (hperm : entries.Perm middle)
    (hrelated : List.Forall₂ (fun entry other => entry.1 = other.1 ∧ related entry.2 other.2)
      middle others) : Aligned related entries others := by
  have hkeys : keys others = keys middle := keys_eq_of_forall₂ (hrelated.imp fun _ _ hpair => hpair.1)
  have hmiddle : Distinct middle := (hperm.map Prod.fst).nodup hdistinct
  refine ⟨hdistinct, hkeys ▸ hperm.map Prod.fst, fun name value other hvalue hother => ?_⟩
  have hmem : (name, value) ∈ middle := hperm.mem_iff.1 (mem_of_get? hvalue)
  exact related_of_forall₂ (fun entry => related entry.2) hrelated
    (hmiddle.get?_eq_some_iff.2 hmem) hother

end Entries

namespace Value

/-- The second value is the first one with the members of its objects in another order, at any
depth.  No object has two members of one name. -/
inductive Reordered : Value → Value → Prop
  | leaf {value : Value} (hleaf : value.isContainer = false) : Reordered value value
  | items {items others : List Value} (hlength : items.length = others.length)
      (hitems : ∀ (index : Nat) (item other : Value), items[index]? = some item →
        others[index]? = some other → Reordered item other) :
      Reordered (.array items) (.array others)
  | members {members others : Entries Value} (hdistinct : Entries.Distinct members)
      (hkeys : (Entries.keys members).Perm (Entries.keys others))
      (hmembers : ∀ (name : String) (member other : Value), Entries.get? members name = some member →
        Entries.get? others name = some other → Reordered member other) :
      Reordered (.object members) (.object others)

variable {value other raw raw' left left' right right' : Value} {items others : List Value}

theorem reordered_array_iff :
    (Value.array items).Reordered (.array others) ↔ List.Forall₂ Reordered items others := by
  constructor
  · intro hreordered
    cases hreordered with
    | leaf hleaf => simp [isContainer] at hleaf
    | items hlength hitems =>
        refine List.forall₂_iff_get.2 ⟨hlength, fun index hindex hindex' => ?_⟩
        exact hitems index _ _ (List.getElem?_eq_getElem hindex) (List.getElem?_eq_getElem hindex')
  · intro hall
    refine .items hall.length_eq fun index item other hitem hother => ?_
    obtain ⟨hindex, rfl⟩ := List.getElem?_eq_some_iff.1 hitem
    obtain ⟨hindex', rfl⟩ := List.getElem?_eq_some_iff.1 hother
    exact (List.forall₂_iff_get.1 hall).2 index hindex hindex'

theorem reordered_object_iff {members others : Entries Value} :
    (Value.object members).Reordered (.object others) ↔
      Entries.Aligned Reordered members others := by
  constructor
  · intro hreordered
    cases hreordered with
    | leaf hleaf => simp [isContainer] at hleaf
    | members hdistinct hkeys hmembers => exact ⟨hdistinct, hkeys, hmembers⟩
  · rintro ⟨hdistinct, hkeys, hmembers⟩
    exact .members hdistinct hkeys hmembers

theorem Reordered.symm (hreordered : value.Reordered other) : other.Reordered value := by
  induction hreordered with
  | leaf hleaf => exact .leaf hleaf
  | items hlength _ ih =>
      exact .items hlength.symm fun index item other hitem hother => ih index other item hother hitem
  | members hdistinct hkeys _ ih =>
      exact .members (hkeys.nodup hdistinct) hkeys.symm fun name member other hmember hother =>
        ih name other member hother hmember

theorem Reordered.keyed (hreordered : value.Reordered other) : value.Keyed := by
  induction hreordered with
  | leaf hleaf => exact keyed_of_not_isContainer hleaf
  | @items items others hlength _ ih =>
      rw [keyed_array_iff]
      intro item hitem
      obtain ⟨index, hindex, rfl⟩ := List.getElem_of_mem hitem
      exact ih index _ _ (List.getElem?_eq_getElem hindex) (List.getElem?_eq_getElem (hlength ▸ hindex))
  | @members members others hdistinct hkeys _ ih =>
      have haligned : Entries.Aligned (fun member _ => member.Keyed) members others :=
        ⟨hdistinct, hkeys, ih⟩
      rw [keyed_object_iff]
      refine ⟨hdistinct, fun member hmem => ?_⟩
      obtain ⟨_, -, hmember⟩ := haligned.exists_of_get? (hdistinct.get?_eq_some_iff.2 hmem)
      exact hmember

/-- A value is its own reordering if no object inside has two members of one name. -/
theorem reordered_self_iff : value.Reordered value ↔ value.Keyed := by
  refine ⟨Reordered.keyed, fun hkeyed => ?_⟩
  induction hkeyed with
  | @intro value hdistinct hchildren ih =>
      cases value with
      | array items =>
          refine .items rfl fun index item other hitem hother => ?_
          obtain rfl := Option.some.inj (hitem.symm.trans hother)
          exact ih item (List.mem_of_getElem? hitem)
      | object members =>
          refine .members (hdistinct members rfl) (.refl _) fun name member other hmember hother => ?_
          obtain rfl := Option.some.inj (hmember.symm.trans hother)
          exact ih member (List.mem_map_of_mem (Entries.mem_of_get? hmember))
      | _ => exact .leaf rfl

theorem Keyed.reordered (hkeyed : value.Keyed) : value.Reordered value := reordered_self_iff.2 hkeyed

theorem Reordered.eq_of_leaf (hreordered : value.Reordered other) (hleaf : value.isContainer = false) :
    value = other := by
  cases hreordered with
  | leaf => rfl
  | items => simp [isContainer] at hleaf
  | members => simp [isContainer] at hleaf

/-! ## Equal content -/

theorem same_object_iff {members others : Entries Value} (hdistinct : Entries.Distinct members) :
    (Value.object members).same (.object others) ↔ members.length = others.length ∧
      ∀ name member, Entries.get? members name = some member →
        ∃ other, Entries.get? others name = some other ∧ member.same other := by
  rw [same, Bool.and_eq_true, beq_iff_eq, sameMembers_iff]
  refine and_congr_right' ⟨fun hall name member hmember => ?_, fun hall member hmem => ?_⟩
  · exact hall (name, member) (Entries.mem_of_get? hmember)
  · exact hall member.1 member.2 (hdistinct.get?_eq_some_iff.2 hmem)

theorem same_of_reordered (hleft : left.Reordered left') (hright : right.Reordered right')
    (hsame : left.same right) : left'.same right' := by
  induction hleft generalizing right right' with
  | @leaf value hleaf =>
      have hbare : right.isContainer = false := by
        cases value <;> cases right <;> simp_all [same, isContainer]
      rwa [← hright.eq_of_leaf hbare]
  | @items items items' hlength hitems ih =>
      cases hright with
      | leaf hleaf => cases right <;> simp_all [same, isContainer]
      | members => simp [same] at hsame
      | @items others others' hothers hall =>
          rw [same, sameItems_iff] at hsame ⊢
          refine ⟨hlength.symm.trans (hsame.1.trans hothers), fun index item' other' hitem' hother' => ?_⟩
          obtain ⟨hindex', -⟩ := List.getElem?_eq_some_iff.1 hitem'
          obtain ⟨hindex, -⟩ := List.getElem?_eq_some_iff.1 hother'
          have hitem := List.getElem?_eq_getElem (hlength ▸ hindex')
          have hother := List.getElem?_eq_getElem (hothers ▸ hindex)
          exact ih index _ item' hitem hitem' (hall index _ other' hother hother')
            (hsame.2 index _ _ hitem hother)
  | @members members members' hdistinct hkeys hmembers ih =>
      cases hright with
      | leaf hleaf => cases right <;> simp_all [same, isContainer]
      | items => simp [same] at hsame
      | @members others others' hdistinct' hkeys' hall =>
          have hleft : Entries.Aligned Reordered members members' := ⟨hdistinct, hkeys, hmembers⟩
          have hright : Entries.Aligned Reordered others others' := ⟨hdistinct', hkeys', hall⟩
          rw [same_object_iff hdistinct] at hsame
          rw [same_object_iff hleft.distinct']
          refine ⟨hleft.length_eq.symm.trans (hsame.1.trans hright.length_eq),
            fun name member' hmember' => ?_⟩
          obtain ⟨member, hmember, -⟩ := hleft.symm.exists_of_get? hmember'
          obtain ⟨other, hother, hcontent⟩ := hsame.2 name member hmember
          obtain ⟨other', hother', hrelated⟩ := hright.exists_of_get? hother
          exact ⟨other', hother', ih name member member' hmember hmember' hrelated hcontent⟩

/-- Equality of content does not see the order of members. -/
theorem same_eq_of_reordered (hleft : left.Reordered left') (hright : right.Reordered right') :
    left.same right = left'.same right' :=
  Bool.eq_iff_iff.2 ⟨same_of_reordered hleft hright, same_of_reordered hleft.symm hright.symm⟩

theorem itemsToJson_eq_map (items : List Value) : itemsToJson items = items.map toJson := by
  induction items with
  | nil => rfl
  | cons item rest ih => rw [itemsToJson, ih, List.map_cons]

theorem membersToJson_eq_mapValues (members : Entries Value) :
    membersToJson members = Entries.mapValues toJson members := by
  induction members with
  | nil => rfl
  | cons member rest ih =>
      obtain ⟨name, value⟩ := member
      rw [membersToJson, ih]
      rfl

theorem sameJsonItems_iff {items others : List Json} :
    sameJsonItems items others ↔ List.Forall₂ (fun item other => sameJson item other) items others := by
  induction items generalizing others with
  | nil => cases others <;> simp [sameJsonItems]
  | cons first rest ih =>
      cases others with
      | nil => simp [sameJsonItems]
      | cons head tail => rw [sameJsonItems, Bool.and_eq_true, ih, List.forall₂_cons]

theorem sameJsonMembers_iff {members others : Entries Json} :
    sameJsonMembers members others ↔
      ∀ member ∈ members, ∃ other, Entries.get? others member.1 = some other ∧
        sameJson member.2 other := by
  induction members with
  | nil => simp [sameJsonMembers]
  | cons first rest ih =>
      obtain ⟨name, json⟩ := first
      rw [sameJsonMembers, Bool.and_eq_true, ih, List.forall_mem_cons]
      apply and_congr_left'
      cases Entries.get? others name <;> simp

theorem sameJson_of_reordered_left {json : Json} (hreordered : value.Reordered other)
    (hsame : sameJson value.toJson json) : sameJson other.toJson json := by
  induction hreordered generalizing json with
  | leaf => exact hsame
  | @items items others hlength hitems ih =>
      rw [toJson, itemsToJson_eq_map] at hsame ⊢
      cases json with
      | array literals =>
          rw [sameJson, sameJsonItems_iff, List.forall₂_map_left_iff, List.forall₂_iff_get] at hsame ⊢
          refine ⟨hlength.symm.trans hsame.1, fun index hindex' hliteral => ?_⟩
          exact ih index _ _ (List.getElem?_eq_getElem (hlength ▸ hindex'))
            (List.getElem?_eq_getElem hindex') (hsame.2 index (hlength ▸ hindex') hliteral)
      | _ => simp [sameJson] at hsame
  | @members members others hdistinct hkeys hmembers ih =>
      have haligned : Entries.Aligned Reordered members others := ⟨hdistinct, hkeys, hmembers⟩
      rw [toJson, membersToJson_eq_mapValues] at hsame ⊢
      cases json with
      | object literals =>
          rw [sameJson, Bool.and_eq_true, beq_iff_eq, sameJsonMembers_iff] at hsame ⊢
          obtain ⟨hlength, hall⟩ := hsame
          simp only [Entries.mapValues, List.length_map, List.forall_mem_map] at hlength hall ⊢
          refine ⟨haligned.length_eq.symm.trans hlength, fun member' hmember' => ?_⟩
          have hget' := haligned.distinct'.get?_eq_some_iff.2 hmember'
          obtain ⟨member, hmember, -⟩ := haligned.symm.exists_of_get? hget'
          obtain ⟨literal, hliteral, hcontent⟩ := hall (member'.1, member) (Entries.mem_of_get? hmember)
          exact ⟨literal, hliteral, ih member'.1 member member'.2 hmember hget' hcontent⟩
      | _ => simp [sameJson] at hsame

theorem sameJson_of_reordered_right {json : Json} (hreordered : value.Reordered other)
    (hsame : sameJson json value.toJson) : sameJson json other.toJson := by
  induction hreordered generalizing json with
  | leaf => exact hsame
  | @items items others hlength hitems ih =>
      rw [toJson, itemsToJson_eq_map] at hsame ⊢
      cases json with
      | array literals =>
          rw [sameJson, sameJsonItems_iff, List.forall₂_map_right_iff, List.forall₂_iff_get] at hsame ⊢
          refine ⟨hsame.1.trans hlength, fun index hliteral hindex' => ?_⟩
          exact ih index _ _ (List.getElem?_eq_getElem (hlength ▸ hindex'))
            (List.getElem?_eq_getElem hindex') (hsame.2 index hliteral (hlength ▸ hindex'))
      | _ => simp [sameJson] at hsame
  | @members members others hdistinct hkeys hmembers ih =>
      have haligned : Entries.Aligned Reordered members others := ⟨hdistinct, hkeys, hmembers⟩
      rw [toJson, membersToJson_eq_mapValues] at hsame ⊢
      cases json with
      | object literals =>
          rw [sameJson, Bool.and_eq_true, beq_iff_eq, sameJsonMembers_iff] at hsame ⊢
          obtain ⟨hlength, hall⟩ := hsame
          refine ⟨?_, fun literal hliteral => ?_⟩
          · simpa [Entries.mapValues, haligned.length_eq] using hlength
          · obtain ⟨found, hfound, hcontent⟩ := hall literal hliteral
            rw [Entries.get?_mapValues] at hfound
            obtain ⟨member, hmember, rfl⟩ := Option.map_eq_some_iff.1 hfound
            obtain ⟨member', hmember', -⟩ := haligned.exists_of_get? hmember
            refine ⟨member'.toJson, ?_, ih literal.1 member member' hmember hmember' hcontent⟩
            rw [Entries.get?_mapValues, hmember', Option.map_some]
      | _ => simp [sameJson] at hsame

/-- Literals do not see the order of members. -/
theorem matchesLiteral_eq_of_reordered (hreordered : value.Reordered other) (literal : Json) :
    value.matchesLiteral literal = other.matchesLiteral literal :=
  Bool.eq_iff_iff.2 ⟨sameJson_of_reordered_left hreordered, sameJson_of_reordered_left hreordered.symm⟩

theorem matchesLiteral_toJson_of_reordered (hleft : left.Reordered left')
    (hright : right.Reordered right') :
    left.matchesLiteral right.toJson = left'.matchesLiteral right'.toJson := by
  rw [matchesLiteral_eq_of_reordered hleft]
  exact Bool.eq_iff_iff.2
    ⟨sameJson_of_reordered_right hright, sameJson_of_reordered_right hright.symm⟩

/-! ## Bounds -/

theorem repeats_eq_of_reordered {items others : List Value}
    (hreordered : List.Forall₂ Reordered items others) :
    Constraints.repeats items = Constraints.repeats others := by
  induction hreordered with
  | nil => rfl
  | @cons item other rest rest' hfirst hrest ih =>
      have hany : (rest.any fun behind => item.matchesLiteral behind.toJson) =
          rest'.any fun behind => other.matchesLiteral behind.toJson := by
        clear ih
        induction hrest with
        | nil => rfl
        | cons hhead _ ih =>
            rw [List.any_cons, List.any_cons, ih, matchesLiteral_toJson_of_reordered hfirst hhead]
      rw [Constraints.repeats, Constraints.repeats, ih, hany]

/-- The keywords that bound a value do not see the order of members. -/
theorem excesses_eq_of_reordered (constraints : Constraints) (hreordered : value.Reordered other) :
    constraints.excesses value = constraints.excesses other := by
  cases hreordered with
  | leaf => rfl
  | @items items others hlength hitems =>
      have hrepeats := repeats_eq_of_reordered (reordered_array_iff.1 (.items hlength hitems))
      simp only [Constraints.excesses, Constraints.itemExcesses, hlength, hrepeats]
  | @members members others hdistinct hkeys hmembers =>
      have hlength : members.length = others.length :=
        (reordered_object_iff.1 (.members hdistinct hkeys hmembers)).length_eq
      simp only [Constraints.excesses, hlength]

/-! ## Merging -/

theorem Reordered.exists_of_get? {name : String} {child : Value} (hraw : raw.Reordered raw')
    (hget : raw.get? name = some child) :
    ∃ child', raw'.get? name = some child' ∧ child.Reordered child' := by
  cases hraw with
  | leaf hleaf => cases raw <;> simp_all [Value.get?, isContainer]
  | items => simp [Value.get?] at hget
  | members hdistinct hkeys hmembers =>
      exact (reordered_object_iff.1 (.members hdistinct hkeys hmembers)).exists_of_get? hget

theorem Reordered.get?_eq_none {name : String} (hraw : raw.Reordered raw')
    (hget : raw.get? name = none) : raw'.get? name = none := by
  rw [Option.eq_none_iff_forall_not_mem]
  intro child' hchild'
  obtain ⟨child, hchild, -⟩ := hraw.symm.exists_of_get? hchild'
  simp [hget] at hchild

theorem mergeMembers_aligned {left left' right right' : Entries Value} (hraw : raw.Reordered raw')
    (hleft : Entries.Aligned Reordered left left') (hright : Entries.Aligned Reordered right right')
    (hmerge : ∀ name, ∀ later later' child child' earlier earlier' : Value,
      Entries.get? right name = some later → Entries.get? right' name = some later' →
        child.Reordered child' → earlier.Reordered earlier' →
          (merge child earlier later).Reordered (merge child' earlier' later')) :
    Entries.Aligned Reordered (mergeMembers raw left right) (mergeMembers raw' left' right') := by
  have hnew : (Entries.keys right).filter (· ∉ Entries.keys left) =
      (Entries.keys right).filter (· ∉ Entries.keys left') :=
    List.filter_congr fun name _ => by simp only [hleft.keys_perm.mem_iff]
  refine ⟨distinct_mergeMembers hleft.distinct hright.distinct, ?_, fun name value other => ?_⟩
  · rw [keys_mergeMembers hright.distinct, keys_mergeMembers hright.distinct', hnew]
    exact hleft.keys_perm.append (hright.keys_perm.filter _)
  rw [get?_mergeMembers hright.distinct, get?_mergeMembers hright.distinct']
  cases hearlier : Entries.get? left name with
  | none =>
      rw [hleft.get?_eq_none_iff.1 hearlier]
      exact hright.values name value other
  | some earlier =>
      obtain ⟨earlier', hearlier', hfirst⟩ := hleft.exists_of_get? hearlier
      rw [hearlier']
      cases hlater : Entries.get? right name with
      | none =>
          rw [hright.get?_eq_none_iff.1 hlater]
          rintro ⟨⟩ ⟨⟩
          exact hfirst
      | some later =>
          obtain ⟨later', hlater', hsecond⟩ := hright.exists_of_get? hlater
          rw [hlater']
          cases hchild : raw.get? name with
          | none =>
              rw [hraw.get?_eq_none hchild]
              rintro ⟨⟩ ⟨⟩
              exact hfirst
          | some child =>
              obtain ⟨child', hchild', hinner⟩ := hraw.exists_of_get? hchild
              rw [hchild']
              rintro ⟨⟩ ⟨⟩
              exact hmerge name later later' child child' earlier earlier' hlater hlater' hinner hfirst

theorem merge_select {later later' : Value} (hraw : raw.Reordered raw') (hleft : left.Reordered left')
    (hlater : later.Reordered later') :
    (if left.same raw then later else left).Reordered
      (if left'.same raw' then later' else left') := by
  rw [same_eq_of_reordered hleft hraw]
  split
  · exact hlater
  · exact hleft

/-- Results that differ in the order of members at most are merged to such results. -/
theorem merge_reordered (hraw : raw.Reordered raw') (hleft : left.Reordered left')
    (hright : right.Reordered right') :
    (merge raw left right).Reordered (merge raw' left' right') := by
  induction hright generalizing raw raw' left left' with
  | @leaf value hleaf =>
      have hbare : ∀ members, value ≠ .object members := by
        rintro members rfl
        simp [isContainer] at hleaf
      rw [merge_of_ne_object hbare, merge_of_ne_object hbare]
      exact merge_select hraw hleft (.leaf hleaf)
  | items hlength hitems => exact merge_select hraw hleft (.items hlength hitems)
  | @members right right' hdistinct hkeys hmembers ih =>
      have hright := reordered_object_iff.1 (.members hdistinct hkeys hmembers)
      cases hleft with
      | @members earlier earlier' hdistinct' hkeys' hmembers' =>
          have hearlier := reordered_object_iff.1 (.members hdistinct' hkeys' hmembers')
          rw [merge_object, merge_object, reordered_object_iff]
          exact mergeMembers_aligned hraw hearlier hright
            fun name later later' child child' first first' hlater hlater' hchild hfirst =>
              ih name later later' hlater hlater' hchild hfirst
      | leaf hleaf =>
          have hselect := merge_select hraw (.leaf hleaf) (reordered_object_iff.2 hright)
          cases left with
          | object => simp [isContainer] at hleaf
          | _ => exact hselect
      | items hlength hitems =>
          exact merge_select hraw (.items hlength hitems) (reordered_object_iff.2 hright)

theorem mergeAll_reordered {results results' : List Value} (hraw : raw.Reordered raw')
    (hresults : List.Forall₂ Reordered results results') :
    (mergeAll raw results).Reordered (mergeAll raw' results') := by
  cases hresults with
  | nil => exact hraw
  | @cons first first' rest rest' hfirst hrest =>
      rw [mergeAll, mergeAll]
      induction hrest generalizing first first' with
      | nil => exact hfirst
      | cons hhead _ ih => exact ih (merge_reordered hraw hfirst hhead)

end Value
end ApiContract
