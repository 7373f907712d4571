import ApiContract.Proofs.KeyedJson
import ApiContract.Schema.Merging
import ApiContract.Value.Wire

/-!
# What typing does to a value

A typed value has the shape of the value that it was made from: a text may have become a date, a
number an integer, and an object may have further properties behind its own.  `Refines` is this
relation.  Merging the results of several schemas stays within it, and it gives back the value as it
came in exactly when no result differs from it.
-/

namespace ApiContract
namespace Value

/-- No object inside the value has two members of one name. -/
inductive Keyed : Value → Prop
  | intro {value : Value}
      (distinct : ∀ members, value = .object members → Entries.Distinct members)
      (children : ∀ child ∈ value.children, Keyed child) : Keyed value

/-- The second value is a typed form of the first. -/
inductive Refines : Value → Value → Prop
  | unchanged (value : Value) : Refines value value
  | text {text : String} {typed : Value} (htextual : typed.isTextual)
      (htyped : ∀ other, typed ≠ .string other) : Refines (.string text) typed
  | integral (number : Binary64) (integer : Int64) : Refines (.number number) (.integer integer)
  | items {items typed : List Value} (hlength : items.length = typed.length)
      (hitems : ∀ (index : Nat) (item other : Value), items[index]? = some item →
        typed[index]? = some other → Refines item other) : Refines (.array items) (.array typed)
  | members {members typed : Entries Value}
      (hkeys : Entries.keys members <+: Entries.keys typed)
      (hmembers : ∀ (name : String) (member other : Value), Entries.get? members name = some member →
        Entries.get? typed name = some other → Refines member other) :
      Refines (.object members) (.object typed)

variable {raw typed value : Value}

/-! ## Keyed values -/

theorem keyed_of_not_isContainer (hvalue : value.isContainer = false) : value.Keyed := by
  constructor
  · rintro members rfl
    simp [isContainer] at hvalue
  · cases value <;> simp_all [isContainer, Value.children]

theorem keyed_array_iff {items : List Value} :
    (Value.array items).Keyed ↔ ∀ item ∈ items, item.Keyed := by
  constructor
  · rintro ⟨-, hchildren⟩
    exact hchildren
  · intro hitems
    exact ⟨by simp, hitems⟩

theorem keyed_object_iff {members : Entries Value} :
    (Value.object members).Keyed ↔
      Entries.Distinct members ∧ ∀ member ∈ members, member.2.Keyed := by
  constructor
  · rintro ⟨hdistinct, hchildren⟩
    exact ⟨hdistinct members rfl, fun member hmem => hchildren member.2 (List.mem_map_of_mem hmem)⟩
  · rintro ⟨hdistinct, hmembers⟩
    refine ⟨fun other heq => Value.object.inj heq ▸ hdistinct, fun child hchild => ?_⟩
    obtain ⟨member, hmem, rfl⟩ := List.mem_map.1 hchild
    exact hmembers member hmem

theorem Keyed.get? {members : Entries Value} {name : String} (hkeyed : (object members).Keyed)
    (hget : Entries.get? members name = some value) : value.Keyed :=
  (keyed_object_iff.1 hkeyed).2 _ (Entries.mem_of_get? hget)

theorem Keyed.of_mem_children {child : Value} (hkeyed : value.Keyed)
    (hchild : child ∈ value.children) : child.Keyed := by
  obtain ⟨-, hchildren⟩ := hkeyed
  exact hchildren child hchild

theorem itemsOfJson_eq_map (items : List Json) : itemsOfJson items = items.map ofJson := by
  induction items with
  | nil => rfl
  | cons item rest ih => rw [itemsOfJson, ih, List.map_cons]

theorem membersOfJson_eq_mapValues (members : Entries Json) :
    membersOfJson members = Entries.mapValues ofJson members := by
  induction members with
  | nil => rfl
  | cons member rest ih =>
      obtain ⟨name, json⟩ := member
      rw [membersOfJson, ih]
      rfl

theorem keyed_ofJson {json : Json} (hkeyed : json.Keyed) : (ofJson json).Keyed := by
  induction hkeyed with
  | array _ ih =>
      rw [ofJson, itemsOfJson_eq_map, keyed_array_iff]
      simpa using ih
  | @object members hdistinct _ ih =>
      rw [ofJson, membersOfJson_eq_mapValues, keyed_object_iff]
      constructor
      · have hkeys : Entries.keys (Entries.mapValues ofJson members) = Entries.keys members := by
          simp [Entries.keys, Entries.mapValues]
        rwa [Entries.Distinct, hkeys]
      · intro member hmem
        obtain ⟨entry, hentry, rfl⟩ := List.mem_map.1 hmem
        exact ih entry hentry
  | integer i =>
      rw [ofJson]
      split <;> exact keyed_of_not_isContainer rfl
  | _ => exact keyed_of_not_isContainer rfl

/-! ## Equal content -/

theorem sameItems_iff {items others : List Value} :
    sameItems items others ↔ items.length = others.length ∧
      ∀ (index : Nat) (item other : Value), items[index]? = some item →
        others[index]? = some other → item.same other := by
  induction items generalizing others with
  | nil => cases others <;> simp [sameItems]
  | cons first rest ih =>
      cases others with
      | nil => simp [sameItems]
      | cons head tail =>
          rw [sameItems, Bool.and_eq_true, ih]
          constructor
          · rintro ⟨hfirst, hlength, hrest⟩
            refine ⟨by simpa using hlength, fun index item other hitem hother => ?_⟩
            cases index with
            | zero => simp_all
            | succ index => exact hrest index item other (by simpa using hitem) (by simpa using hother)
          · rintro ⟨hlength, hall⟩
            exact ⟨hall 0 first head rfl rfl, by simpa using hlength,
              fun index item other hitem hother => hall (index + 1) item other (by simpa using hitem)
                (by simpa using hother)⟩

theorem sameMembers_iff {members others : Entries Value} :
    sameMembers members others ↔
      ∀ member ∈ members, ∃ other, Entries.get? others member.1 = some other ∧
        member.2.same other := by
  induction members with
  | nil => simp [sameMembers]
  | cons first rest ih =>
      obtain ⟨name, value⟩ := first
      rw [sameMembers, Bool.and_eq_true, ih, List.forall_mem_cons]
      apply and_congr_left'
      cases Entries.get? others name <;> simp

/-- A typed form with the content of the value itself is the value itself. -/
theorem Refines.eq_of_same (hrefines : Refines raw typed) (hraw : raw.Keyed) (htyped : typed.Keyed)
    (hsame : typed.same raw) : typed = raw := by
  induction hrefines with
  | unchanged => rfl
  | text htextual htyped =>
      rename_i text typed _
      cases typed <;> simp_all [same, isTextual]
  | integral => simp [same] at hsame
  | @items items typed hlength hitems ih =>
      rw [same, sameItems_iff] at hsame
      rw [keyed_array_iff] at hraw htyped
      refine congrArg Value.array (List.ext_getElem hlength.symm fun index hindex hother => ?_)
      exact ih index _ _ (List.getElem?_eq_getElem hother) (List.getElem?_eq_getElem hindex)
        (hraw _ (List.getElem_mem _)) (htyped _ (List.getElem_mem _))
        (hsame.2 index _ _ (List.getElem?_eq_getElem hindex) (List.getElem?_eq_getElem hother))
  | @members members typed hkeys hmembers ih =>
      rw [same, Bool.and_eq_true, sameMembers_iff] at hsame
      obtain ⟨hlength, hsame⟩ := hsame
      have hnames : Entries.keys members = Entries.keys typed := by
        refine hkeys.eq_of_length ?_
        simpa [Entries.keys] using (beq_iff_eq.1 hlength).symm
      refine congrArg Value.object (Eq.symm ?_)
      refine Entries.eq_of_keys_eq (keyed_object_iff.1 hraw).1 hnames ?_
      intro name member other hmember hother
      obtain ⟨found, hfound, hcontent⟩ := hsame _ (Entries.mem_of_get? hother)
      obtain rfl : found = member := Option.some.inj (hfound.symm.trans hmember)
      exact (ih name found other hmember hother (hraw.get? hmember) (htyped.get? hother)
        hcontent).symm

/-! ## Merging the members of objects -/

/-- What a later member leaves of a map, as the first step of merging does it. -/
def mergeMember (raw : Value) (left : Entries Value) (name : String) (later : Value) :
    Entries Value :=
  match Entries.get? left name, raw.get? name with
  | some earlier, some rawChild => Entries.insert left name (merge rawChild earlier later)
  | some _, none => left
  | none, _ => Entries.insert left name later

theorem mergeMembers_cons (raw : Value) (left rest : Entries Value) (name : String)
    (later : Value) :
    mergeMembers raw left ((name, later) :: rest) =
      mergeMembers raw (mergeMember raw left name later) rest := by
  rw [mergeMembers]
  rfl

theorem keys_mergeMember (raw : Value) (left : Entries Value) (name : String) (later : Value) :
    Entries.keys (mergeMember raw left name later) =
      Entries.keys left ++ if name ∈ Entries.keys left then [] else [name] := by
  unfold mergeMember
  cases hget : Entries.get? left name with
  | none =>
      have hnew := Entries.get?_eq_none_iff.1 hget
      rw [if_neg hnew]
      dsimp only
      rw [Entries.insert_of_notMem hnew]
      simp [Entries.keys]
  | some earlier =>
      have hold : name ∈ Entries.keys left := Entries.mem_keys_iff.2 ⟨_, Entries.mem_of_get? hget⟩
      rw [if_pos hold, List.append_nil]
      cases raw.get? name with
      | none => rfl
      | some rawChild => exact Entries.keys_insert_of_mem hold

theorem get?_mergeMember_of_ne {raw : Value} {left : Entries Value} {name key : String}
    {later : Value} (hne : key ≠ name) :
    Entries.get? (mergeMember raw left name later) key = Entries.get? left key := by
  unfold mergeMember
  split
  · exact Entries.get?_insert_of_ne hne
  · rfl
  · exact Entries.get?_insert_of_ne hne

/-- The names of the earlier result come first, then the new ones of the later result. -/
theorem keys_mergeMembers {raw : Value} {left right : Entries Value}
    (hright : Entries.Distinct right) :
    Entries.keys (mergeMembers raw left right) =
      Entries.keys left ++ (Entries.keys right).filter (· ∉ Entries.keys left) := by
  induction right generalizing left with
  | nil => simp [mergeMembers, Entries.keys]
  | cons first rest ih =>
      obtain ⟨name, later⟩ := first
      obtain ⟨hname, hrest⟩ := List.nodup_cons.1 hright
      rw [mergeMembers_cons, ih hrest, keys_mergeMember]
      have hkeys : Entries.keys ((name, later) :: rest) = name :: Entries.keys rest := rfl
      rw [hkeys]
      by_cases hmem : name ∈ Entries.keys left
      · rw [if_pos hmem, List.append_nil, List.filter_cons_of_neg (by simpa using hmem)]
      · have hbehind : (Entries.keys rest).filter (· ∉ Entries.keys left ++ [name]) =
            (Entries.keys rest).filter (· ∉ Entries.keys left) := by
          refine List.filter_congr fun key hkey => ?_
          have hne : key ≠ name := fun heq => hname (heq ▸ hkey)
          simp [hne]
        rw [if_neg hmem, hbehind, List.filter_cons_of_pos (by simpa using hmem), List.append_assoc,
          List.singleton_append]

/-- A name of both results has their merged value if it was there before, else the earlier one; a
name of one result has the value of that result. -/
theorem get?_mergeMembers {raw : Value} {left right : Entries Value}
    (hright : Entries.Distinct right) (name : String) :
    Entries.get? (mergeMembers raw left right) name =
      match Entries.get? left name, Entries.get? right name with
      | some earlier, some later => some ((raw.get? name).elim earlier (merge · earlier later))
      | some earlier, none => some earlier
      | none, later? => later? := by
  induction right generalizing left with
  | nil => cases hget : Entries.get? left name <;> simp [mergeMembers, hget]
  | cons first rest ih =>
      obtain ⟨key, later⟩ := first
      obtain ⟨hkey, hrest⟩ := List.nodup_cons.1 hright
      rw [mergeMembers_cons, ih hrest]
      by_cases heq : name = key
      · subst heq
        have hbehind : Entries.get? rest name = none := Entries.get?_eq_none_iff.2 hkey
        have hhere : Entries.get? ((name, later) :: rest) name = some later := by
          simp [Entries.get?]
        rw [hbehind, hhere, mergeMember]
        cases hleft : Entries.get? left name with
        | none => simp [Entries.get?_insert_self]
        | some earlier =>
            cases raw.get? name with
            | none => simp [hleft]
            | some rawChild => simp [Entries.get?_insert_self]
      · rw [get?_mergeMember_of_ne heq]
        simp [Entries.get?, Ne.symm heq]

theorem distinct_mergeMembers {raw : Value} {left right : Entries Value}
    (hleft : Entries.Distinct left) (hright : Entries.Distinct right) :
    Entries.Distinct (mergeMembers raw left right) := by
  rw [Entries.Distinct, keys_mergeMembers hright]
  refine List.Nodup.append hleft (hright.filter _) fun name hname hnew => ?_
  simpa [hname] using (List.mem_filter.1 hnew).2

theorem get?_mergeMembers_of_get? {members left right : Entries Value} {name : String}
    {member earlier later : Value} (hright : Entries.Distinct right)
    (hmember : Entries.get? members name = some member)
    (hearlier : Entries.get? left name = some earlier)
    (hlater : Entries.get? right name = some later) :
    Entries.get? (mergeMembers (.object members) left right) name =
      some (merge member earlier later) := by
  have hraw : (Value.object members).get? name = some member := hmember
  rw [get?_mergeMembers hright, hearlier, hlater, hraw]
  rfl

/-- Two results that keep the members in front are merged there member by member. -/
theorem exists_merge_of_get?_mergeMembers {members left right : Entries Value} {name : String}
    {member other : Value} (hright : Entries.Distinct right)
    (hkeysLeft : Entries.keys members <+: Entries.keys left)
    (hkeysRight : Entries.keys members <+: Entries.keys right)
    (hmember : Entries.get? members name = some member)
    (hother : Entries.get? (mergeMembers (.object members) left right) name = some other) :
    ∃ earlier later, Entries.get? left name = some earlier ∧
      Entries.get? right name = some later ∧ other = merge member earlier later := by
  have hname : name ∈ Entries.keys members :=
    Entries.mem_keys_iff.2 ⟨member, Entries.mem_of_get? hmember⟩
  obtain ⟨earlier, hearlier⟩ := Entries.get?_of_mem_keys (hkeysLeft.subset hname)
  obtain ⟨later, hlater⟩ := Entries.get?_of_mem_keys (hkeysRight.subset hname)
  rw [get?_mergeMembers_of_get? hright hmember hearlier hlater] at hother
  exact ⟨earlier, later, hearlier, hlater, (Option.some.inj hother).symm⟩

theorem keys_prefix_mergeMembers {raw : Value} {members left right : Entries Value}
    (hright : Entries.Distinct right)
    (hkeys : Entries.keys members <+: Entries.keys left) :
    Entries.keys members <+: Entries.keys (mergeMembers raw left right) := by
  rw [keys_mergeMembers hright]
  exact hkeys.trans (List.prefix_append _ _)

theorem get?_mergeMembers_cases {raw : Value} {left right : Entries Value} {name : String}
    {value : Value} (hright : Entries.Distinct right)
    (hget : Entries.get? (mergeMembers raw left right) name = some value) :
    Entries.get? left name = some value ∨ Entries.get? right name = some value ∨
      ∃ rawChild earlier later, raw.get? name = some rawChild ∧
        Entries.get? left name = some earlier ∧ Entries.get? right name = some later ∧
        value = merge rawChild earlier later := by
  rw [get?_mergeMembers hright] at hget
  cases hleft : Entries.get? left name with
  | none => exact .inr (.inl (by simpa [hleft] using hget))
  | some earlier =>
      cases hlater : Entries.get? right name with
      | none => exact .inl (by simpa [hleft, hlater] using hget)
      | some later =>
          cases hchild : raw.get? name with
          | none => exact .inl (by simpa [hleft, hlater, hchild] using hget)
          | some rawChild =>
              refine .inr (.inr ⟨rawChild, earlier, later, rfl, rfl, rfl, ?_⟩)
              simpa [hleft, hlater, hchild] using hget.symm

/-! ## Merging results -/

theorem Refines.exists_object {members : Entries Value}
    (hrefines : Refines (.object members) typed) : ∃ others, typed = .object others ∧
      Entries.keys members <+: Entries.keys others ∧
      ∀ name member other, Entries.get? members name = some member →
        Entries.get? others name = some other → Refines member other := by
  cases hrefines with
  | unchanged =>
      refine ⟨members, rfl, List.prefix_rfl, fun name member other hmember hother => ?_⟩
      obtain rfl := Option.some.inj (hmember.symm.trans hother)
      exact .unchanged member
  | members hkeys hmembers => exact ⟨_, rfl, hkeys, hmembers⟩

theorem Refines.ne_object (hrefines : Refines raw typed)
    (hraw : ∀ members, raw ≠ .object members) : ∀ members, typed ≠ .object members := by
  cases hrefines with
  | text htextual _ =>
      rintro members rfl
      simp [isTextual] at htextual
  | members => exact absurd rfl (hraw _)
  | unchanged => exact hraw
  | _ => simp

theorem merge_of_ne_object {earlier later : Value} (hlater : ∀ members, later ≠ .object members) :
    merge raw earlier later = if earlier.same raw then later else earlier := by
  cases later with
  | object members => exact absurd rfl (hlater members)
  | _ => rfl

theorem merge_object (raw : Value) (left right : Entries Value) :
    merge raw (.object left) (.object right) = .object (mergeMembers raw left right) := rfl

/-- Merged results are a typed form again. -/
theorem refines_merge {earlier later : Value} (hraw : raw.Keyed) (hearlier : Refines raw earlier)
    (hlater : Refines raw later) (hkeyed : earlier.Keyed) (hkeyed' : later.Keyed) :
    Refines raw (merge raw earlier later) ∧ (merge raw earlier later).Keyed := by
  induction hraw generalizing earlier later with
  | @intro raw hdistinct hchildren ih =>
      by_cases hobject : ∃ members, raw = .object members
      · obtain ⟨members, rfl⟩ := hobject
        obtain ⟨left, rfl, hleft, hlefts⟩ := hearlier.exists_object
        obtain ⟨right, rfl, hright, hrights⟩ := hlater.exists_object
        obtain ⟨hdistinctLeft, hkeyedLeft⟩ := keyed_object_iff.1 hkeyed
        obtain ⟨hdistinctRight, hkeyedRight⟩ := keyed_object_iff.1 hkeyed'
        have hmerged : ∀ name member earlier later, Entries.get? members name = some member →
            Entries.get? left name = some earlier → Entries.get? right name = some later →
            Refines member (merge member earlier later) ∧ (merge member earlier later).Keyed := by
          intro name member earlier later hmember hearlier hlater
          exact ih member (List.mem_map_of_mem (Entries.mem_of_get? hmember))
            (hlefts name member earlier hmember hearlier)
            (hrights name member later hmember hlater)
            (hkeyed.get? hearlier) (hkeyed'.get? hlater)
        rw [merge_object]
        constructor
        · refine .members (keys_prefix_mergeMembers hdistinctRight hleft) ?_
          intro name member other hmember hother
          obtain ⟨earlier, later, hearlier, hlater, rfl⟩ :=
            exists_merge_of_get?_mergeMembers hdistinctRight hleft hright hmember hother
          exact (hmerged name member earlier later hmember hearlier hlater).1
        · rw [keyed_object_iff]
          refine ⟨distinct_mergeMembers hdistinctLeft hdistinctRight, fun entry hmem => ?_⟩
          have hget := (distinct_mergeMembers hdistinctLeft hdistinctRight).get?_eq_some_iff.2 hmem
          rcases get?_mergeMembers_cases hdistinctRight hget with
            hget | hget | ⟨member, earlier, later, hmember, hearlier, hlater, heq⟩
          · exact hkeyed.get? hget
          · exact hkeyed'.get? hget
          · rw [heq]
            exact (hmerged entry.1 member earlier later hmember hearlier hlater).2
      · have hlater' := hlater.ne_object (by simpa using hobject)
        rw [merge_of_ne_object hlater']
        split
        · exact ⟨hlater, hkeyed'⟩
        · exact ⟨hearlier, hkeyed⟩

theorem same_member {members : Entries Value} {name : String}
    (hsame : (object members).same (.object members))
    (hget : Entries.get? members name = some value) : value.same value := by
  rw [same, Bool.and_eq_true, sameMembers_iff] at hsame
  obtain ⟨other, hother, hcontent⟩ := hsame.2 _ (Entries.mem_of_get? hget)
  obtain rfl := Option.some.inj (hget.symm.trans hother)
  exact hcontent

theorem keys_eq_of_prefix {members others : Entries Value} (hdistinct : Entries.Distinct others)
    (hkeys : Entries.keys members <+: Entries.keys others)
    (hsubset : ∀ name ∈ Entries.keys others, name ∈ Entries.keys members) :
    Entries.keys others = Entries.keys members := by
  obtain ⟨more, hmore⟩ := hkeys
  have hnone : more = [] := by
    refine List.eq_nil_iff_forall_not_mem.2 fun name hmem => ?_
    have hnodup : (Entries.keys members ++ more).Nodup := hmore ▸ hdistinct
    exact (List.disjoint_of_nodup_append hnodup) (hsubset name (hmore ▸ List.mem_append_right _ hmem))
      hmem
  rw [← hmore, hnone, List.append_nil]

theorem keys_eq_of_keys_mergeMembers_eq {members left right : Entries Value}
    (hleft : Entries.keys members <+: Entries.keys left)
    (hright : Entries.keys members <+: Entries.keys right) (hdistinct : Entries.Distinct right)
    (hkeys : Entries.keys (mergeMembers raw left right) = Entries.keys members) :
    Entries.keys left = Entries.keys members ∧ Entries.keys right = Entries.keys members := by
  rw [keys_mergeMembers hdistinct] at hkeys
  have hkeysLeft : Entries.keys left = Entries.keys members :=
    (hleft.eq_of_length_le (by rw [← hkeys]; simp)).symm
  refine ⟨hkeysLeft, keys_eq_of_prefix hdistinct hright fun name hname => ?_⟩
  by_contra hnot
  have hnew : name ∈ (Entries.keys right).filter (· ∉ Entries.keys left) :=
    List.mem_filter.2 ⟨hname, by simpa [hkeysLeft] using hnot⟩
  exact hnot (hkeys ▸ List.mem_append_right _ hnew)

/-- Merged maps are the members of the value when both of them are, if that holds of the members
one by one. -/
theorem mergeMembers_eq_iff {members left right : Entries Value}
    (hmembers : Entries.Distinct members) (hdistinct : Entries.Distinct right)
    (hleft : Entries.keys members <+: Entries.keys left)
    (hright : Entries.keys members <+: Entries.keys right)
    (hmerged : ∀ name member earlier later, Entries.get? members name = some member →
      Entries.get? left name = some earlier → Entries.get? right name = some later →
      (merge member earlier later = member ↔ earlier = member ∧ later = member)) :
    mergeMembers (.object members) left right = members ↔ left = members ∧ right = members := by
  constructor
  · intro heq
    obtain ⟨hkeysLeft, hkeysRight⟩ :=
      keys_eq_of_keys_mergeMembers_eq hleft hright hdistinct (congrArg Entries.keys heq)
    have hall : ∀ name member, Entries.get? members name = some member →
        Entries.get? left name = some member ∧ Entries.get? right name = some member := by
      intro name member hmember
      have hname := Entries.mem_keys_iff.2 ⟨_, Entries.mem_of_get? hmember⟩
      obtain ⟨earlier, hearlier⟩ := Entries.get?_of_mem_keys (hkeysLeft ▸ hname)
      obtain ⟨later, hlater⟩ := Entries.get?_of_mem_keys (hkeysRight ▸ hname)
      have hget := get?_mergeMembers_of_get? hdistinct hmember hearlier hlater
      rw [heq, hmember] at hget
      obtain ⟨rfl, rfl⟩ := (hmerged name member earlier later hmember hearlier hlater).1
        (Option.some.inj hget).symm
      exact ⟨hearlier, hlater⟩
    constructor
    · refine (Entries.eq_of_keys_eq hmembers hkeysLeft.symm ?_).symm
      intro name member earlier hmember hearlier
      exact Option.some.inj ((hall name member hmember).1.symm.trans hearlier)
    · refine (Entries.eq_of_keys_eq hmembers hkeysRight.symm ?_).symm
      intro name member later hmember hlater
      exact Option.some.inj ((hall name member hmember).2.symm.trans hlater)
  · rintro ⟨rfl, rfl⟩
    have hkeys : Entries.keys (mergeMembers (.object right) right right) = Entries.keys right := by
      rw [keys_mergeMembers hdistinct]
      simp
    refine (Entries.eq_of_keys_eq hmembers hkeys.symm ?_).symm
    intro name member other hmember hother
    rw [get?_mergeMembers_of_get? hdistinct hmember hmember hmember,
      (hmerged name member member member hmember hmember hmember).2 ⟨rfl, rfl⟩] at hother
    exact Option.some.inj hother

/-- Merged results are the value as it came in when both of them are. -/
theorem merge_eq_raw_iff {earlier later : Value} (hraw : raw.Keyed) (hsame : raw.same raw)
    (hearlier : Refines raw earlier) (hlater : Refines raw later) (hkeyed : earlier.Keyed)
    (hkeyed' : later.Keyed) : merge raw earlier later = raw ↔ earlier = raw ∧ later = raw := by
  induction hraw generalizing earlier later with
  | @intro raw hdistinct hchildren ih =>
      by_cases hobject : ∃ members, raw = .object members
      · obtain ⟨members, rfl⟩ := hobject
        obtain ⟨left, rfl, hleft, hlefts⟩ := hearlier.exists_object
        obtain ⟨right, rfl, hright, hrights⟩ := hlater.exists_object
        obtain ⟨hdistinctRight, -⟩ := keyed_object_iff.1 hkeyed'
        rw [merge_object, Value.object.injEq, Value.object.injEq, Value.object.injEq]
        refine mergeMembers_eq_iff (hdistinct members rfl) hdistinctRight hleft hright ?_
        intro name member earlier later hmember hearlier hlater
        exact ih member (List.mem_map_of_mem (Entries.mem_of_get? hmember))
          (same_member hsame hmember) (hlefts name member earlier hmember hearlier)
          (hrights name member later hmember hlater) (hkeyed.get? hearlier) (hkeyed'.get? hlater)
      · have hlater' := hlater.ne_object (by simpa using hobject)
        rw [merge_of_ne_object hlater']
        have hkept := hearlier.eq_of_same ⟨hdistinct, hchildren⟩ hkeyed
        split
        · next heq =>
            constructor
            · rintro rfl
              exact ⟨hkept heq, rfl⟩
            · exact fun hboth => hboth.2
        · next hne =>
            constructor
            · rintro rfl
              exact absurd hsame hne
            · rintro ⟨rfl, -⟩
              exact absurd hsame hne

/-! ## Merging all results -/

theorem mergeAll_induction {holds : Value → Prop} {results : List Value} (hraw : holds raw)
    (hmerge : ∀ earlier later, holds earlier → holds later → holds (merge raw earlier later))
    (hresults : ∀ result ∈ results, holds result) : holds (mergeAll raw results) := by
  have hfold : ∀ (rest : List Value) (first : Value), holds first →
      (∀ result ∈ rest, holds result) → holds (rest.foldl (merge raw) first) := by
    intro rest
    induction rest with
    | nil => exact fun first hfirst _ => hfirst
    | cons next rest ih =>
        intro first hfirst hrest
        rw [List.forall_mem_cons] at hrest
        exact ih _ (hmerge first next hfirst hrest.1) hrest.2
  cases results with
  | nil => exact hraw
  | cons first rest =>
      rw [List.forall_mem_cons] at hresults
      exact hfold rest first hresults.1 hresults.2

theorem refines_mergeAll {results : List Value} (hraw : raw.Keyed)
    (hresults : ∀ result ∈ results, Refines raw result ∧ result.Keyed) :
    Refines raw (mergeAll raw results) ∧ (mergeAll raw results).Keyed := by
  refine @mergeAll_induction raw (fun result => Refines raw result ∧ result.Keyed) results ?_ ?_ ?_
  · exact ⟨.unchanged raw, hraw⟩
  · intro earlier later hearlier hlater
    exact refines_merge hraw hearlier.1 hlater.1 hearlier.2 hlater.2
  · exact hresults

/-- All results together leave a value as it is exactly when each of them does. -/
theorem mergeAll_eq_raw_iff {results : List Value} (hraw : raw.Keyed) (hsame : raw.same raw)
    (hresults : ∀ result ∈ results, Refines raw result ∧ result.Keyed) :
    mergeAll raw results = raw ↔ ∀ result ∈ results, result = raw := by
  have hfold : ∀ (rest : List Value) (first : Value), Refines raw first ∧ first.Keyed →
      (∀ result ∈ rest, Refines raw result ∧ result.Keyed) →
      (rest.foldl (merge raw) first = raw ↔ first = raw ∧ ∀ result ∈ rest, result = raw) := by
    intro rest
    induction rest with
    | nil => simp
    | cons next rest ih =>
        intro first hfirst hrest
        rw [List.forall_mem_cons] at hrest
        have hmerged := refines_merge hraw hfirst.1 hrest.1.1 hfirst.2 hrest.1.2
        rw [List.foldl_cons, ih _ hmerged hrest.2, List.forall_mem_cons,
          merge_eq_raw_iff hraw hsame hfirst.1 hrest.1.1 hfirst.2 hrest.1.2, and_assoc]
  cases results with
  | nil => simp [mergeAll]
  | cons first rest =>
      rw [List.forall_mem_cons] at hresults ⊢
      exact hfold rest first hresults.1 hresults.2

end Value
end ApiContract
