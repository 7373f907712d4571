import ApiContract.Proofs.Extension
import ApiContract.Proofs.Pointer

/-!
# Leaves of merged results

The results of several schemas for one value are merged along the keys of objects.  So at a place
that is reached through keys alone and is no object, be it a leaf or a whole array, the merged result
is there what the first result is that differs from the value, and the value as it came in if none
does.  Arrays are not merged item by item: behind an index, the result whose array counts decides.
-/

namespace ApiContract

namespace Value

variable {raw typed leaf target : Value} {name : String} {names : List String}
  {path : InstancePath}

/-! ## Places inside values -/

/-- All steps of a path can be taken, and they end at a value. -/
def LeadsTo (value : Value) (path : InstancePath) (target : Value) : Prop :=
  value.walk step? path = (target, [])

@[simp] theorem leadsTo_nil_iff : raw.LeadsTo [] target ↔ raw = target := by
  simp [LeadsTo]

theorem LeadsTo.unique {other : Value} (htarget : raw.LeadsTo path target)
    (hother : raw.LeadsTo path other) : target = other :=
  (Prod.mk.inj (htarget.symm.trans hother)).1

theorem leadsTo_key_iff :
    raw.LeadsTo (.key name :: path) target ↔ ∃ members child, raw = .object members ∧
      Entries.get? members name = some child ∧ child.LeadsTo path target := by
  have hcons : raw.LeadsTo (.key name :: path) target ↔
      ∃ child, raw.step? (.key name) = some child ∧ child.LeadsTo path target := by
    unfold LeadsTo
    cases hstep : raw.step? (.key name) with
    | some child => simp [walk_cons_of_some hstep]
    | none => simp [walk_cons_of_none hstep]
  rw [hcons]
  cases raw <;> simp [step?]

/-- A typed object has what the value has at a path of keys. -/
theorem Extends.exists_leadsTo (hextends : raw.Extends typed)
    (hraw : raw.LeadsTo (names.map .key) leaf) :
    ∃ place, typed.LeadsTo (names.map .key) place := by
  induction names generalizing raw typed with
  | nil => exact ⟨typed, leadsTo_nil_iff.2 rfl⟩
  | cons name names ih =>
      obtain ⟨members, member, rfl, hmember, hbehind⟩ := leadsTo_key_iff.1 hraw
      obtain ⟨others, rfl, -, hkeys, hmembers⟩ := hextends.exists_object
      have hname := Entries.mem_keys_iff.2 ⟨_, Entries.mem_of_get? hmember⟩
      obtain ⟨other, hother⟩ := Entries.get?_of_mem_keys (hkeys.subset hname)
      obtain ⟨place, hplace⟩ := ih (hmembers name member other hmember hother) hbehind
      exact ⟨place, leadsTo_key_iff.2 ⟨others, other, rfl, hother, hplace⟩⟩

/-- A typed form of a value has typed forms of what is inside. -/
theorem Refines.of_leadsTo {place : Value} (hrefines : raw.Refines typed)
    (hraw : raw.LeadsTo (names.map .key) leaf) (htyped : typed.LeadsTo (names.map .key) place) :
    leaf.Refines place := by
  induction names generalizing raw typed with
  | nil =>
      obtain rfl := leadsTo_nil_iff.1 hraw
      obtain rfl := leadsTo_nil_iff.1 htyped
      exact hrefines
  | cons name names ih =>
      obtain ⟨members, member, rfl, hmember, hbehind⟩ := leadsTo_key_iff.1 hraw
      obtain ⟨others, rfl, -, hmembers⟩ := hrefines.exists_object
      obtain ⟨_, other, ⟨⟩, hother, hbehind'⟩ := leadsTo_key_iff.1 htyped
      exact ih (hmembers name member other hmember hother) hbehind hbehind'

theorem eq_null_of_refines_null (hrefines : Value.null.Refines typed) : typed = .null := by
  cases hrefines with
  | unchanged => rfl

theorem Keyed.of_leadsTo (hkeyed : raw.Keyed) (hraw : raw.LeadsTo (names.map .key) leaf) :
    leaf.Keyed := by
  induction names generalizing raw with
  | nil => exact leadsTo_nil_iff.1 hraw ▸ hkeyed
  | cons name names ih =>
      obtain ⟨members, member, rfl, hmember, hbehind⟩ := leadsTo_key_iff.1 hraw
      exact ih (hkeyed.get? hmember) hbehind

/-! ## Merging at a place -/

/-- Merged results have at a path of keys what the results there merge to. -/
theorem leadsTo_merge {earlier later first second : Value} (hraw : raw.LeadsTo (names.map .key) leaf)
    (hearlier : raw.Extends earlier) (hlater : raw.Extends later)
    (hfirst : earlier.LeadsTo (names.map .key) first)
    (hsecond : later.LeadsTo (names.map .key) second) :
    (merge raw earlier later).LeadsTo (names.map .key) (merge leaf first second) := by
  induction names generalizing raw earlier later with
  | nil =>
      obtain rfl := leadsTo_nil_iff.1 hraw
      obtain rfl := leadsTo_nil_iff.1 hfirst
      obtain rfl := leadsTo_nil_iff.1 hsecond
      exact leadsTo_nil_iff.2 rfl
  | cons name names ih =>
      obtain ⟨members, member, rfl, hmember, hraw⟩ := leadsTo_key_iff.1 hraw
      obtain ⟨left, rfl, -, -, hlefts⟩ := hearlier.exists_object
      obtain ⟨right, rfl, hdistinct, -, hrights⟩ := hlater.exists_object
      obtain ⟨_, one, ⟨⟩, hone, hfirst⟩ := leadsTo_key_iff.1 hfirst
      obtain ⟨_, two, ⟨⟩, htwo, hsecond⟩ := leadsTo_key_iff.1 hsecond
      rw [merge_object]
      refine leadsTo_key_iff.2 ⟨_, merge member one two, rfl, ?_, ?_⟩
      · exact get?_mergeMembers_of_get? hdistinct hmember hone htwo
      · exact ih hraw (hlefts name member one hmember hone) (hrights name member two hmember htwo)
          hfirst hsecond

theorem leadsTo_foldl_merge {results places : List Value} {first place : Value}
    (hraw : raw.LeadsTo (names.map .key) leaf) (hfirst : raw.Extends first)
    (hplace : first.LeadsTo (names.map .key) place)
    (hresults : List.Forall₂ (fun result place =>
      raw.Extends result ∧ result.LeadsTo (names.map .key) place) results places) :
    (results.foldl (merge raw) first).LeadsTo (names.map .key)
      (places.foldl (merge leaf) place) := by
  induction hresults generalizing first place with
  | nil => exact hplace
  | cons hnext _ ih =>
      exact ih (hfirst.merge hnext.1) (leadsTo_merge hraw hfirst hnext.1 hplace hnext.2)

theorem leadsTo_mergeAll {results places : List Value} (hraw : raw.LeadsTo (names.map .key) leaf)
    (hresults : List.Forall₂ (fun result place =>
      raw.Extends result ∧ result.LeadsTo (names.map .key) place) results places) :
    (mergeAll raw results).LeadsTo (names.map .key) (mergeAll leaf places) := by
  cases hresults with
  | nil => exact hraw
  | cons hfirst hrest => exact leadsTo_foldl_merge hraw hfirst.1 hfirst.2 hrest

/-! ## The first change -/

/-- Among what several results make of a value, the first counts that differs from it: a result with
the content of the value gives way to those behind it. -/
inductive FirstChange (leaf : Value) : List Value → Value → Prop
  | last (place : Value) : FirstChange leaf [place] place
  | differs {place : Value} {places : List Value} (hdiffers : ¬ place.same leaf) :
      FirstChange leaf (place :: places) place
  | givesWay {place found : Value} {places : List Value} (hsame : place.same leaf)
      (hbehind : FirstChange leaf places found) : FirstChange leaf (place :: places) found

theorem ne_object_of_same (hleaf : ∀ members, leaf ≠ .object members) (hsame : typed.same leaf) :
    ∀ members, typed ≠ .object members := by
  rintro members rfl
  cases leaf with
  | object others => exact hleaf others rfl
  | _ => simp [same] at hsame

theorem merge_of_same {place next : Value} (hleaf : ∀ members, leaf ≠ .object members)
    (hsame : place.same leaf) : merge leaf place next = next := by
  have hplace := ne_object_of_same hleaf hsame
  cases next with
  | object right =>
      cases place with
      | object left => exact absurd rfl (hplace left)
      | _ => simp only [merge, hsame, ↓reduceIte]
  | _ => rw [merge_of_ne_object (by simp), if_pos hsame]

/-- A result that differs from the value stays, unless it is merged with another object. -/
theorem merge_of_not_same {place next : Value} (hsame : ¬ place.same leaf) :
    merge leaf place next = place ∨ ∃ members others,
      place = .object members ∧ merge leaf place next = .object others := by
  cases next with
  | object right =>
      cases place with
      | object left => exact .inr ⟨left, _, rfl, rfl⟩
      | _ => exact .inl (by simp only [merge, hsame, Bool.false_eq_true, ↓reduceIte])
  | _ => exact .inl (by rw [merge_of_ne_object (by simp), if_neg hsame])

theorem exists_object_of_foldl_merge {places : List Value} {members : Entries Value}
    (hleaf : ∀ members, leaf ≠ .object members) :
    ∃ others, places.foldl (merge leaf) (.object members) = .object others := by
  induction places generalizing members with
  | nil => exact ⟨members, rfl⟩
  | cons next rest ih =>
      have hsame : ¬ (Value.object members).same leaf :=
        fun hsame => ne_object_of_same hleaf hsame members rfl
      rw [List.foldl_cons]
      rcases merge_of_not_same hsame with heq | ⟨-, others, -, heq⟩
      · rw [heq]
        exact ih
      · rw [heq]
        exact ih

theorem foldl_merge_of_not_same {places : List Value} {place : Value}
    (hleaf : ∀ members, leaf ≠ .object members) (hsame : ¬ place.same leaf)
    (hfound : ∀ members, places.foldl (merge leaf) place ≠ .object members) :
    places.foldl (merge leaf) place = place := by
  induction places with
  | nil => rfl
  | cons next rest ih =>
      rw [List.foldl_cons] at hfound ⊢
      rcases merge_of_not_same hsame with heq | ⟨-, others, -, heq⟩
      · rw [heq] at hfound ⊢
        exact ih hfound
      · obtain ⟨merged, hmerged⟩ := @exists_object_of_foldl_merge leaf rest others hleaf
        rw [heq] at hfound
        exact absurd hmerged (hfound merged)

theorem firstChange_foldl_merge {places : List Value} {place : Value}
    (hleaf : ∀ members, leaf ≠ .object members)
    (hfound : ∀ members, places.foldl (merge leaf) place ≠ .object members) :
    FirstChange leaf (place :: places) (places.foldl (merge leaf) place) := by
  induction places generalizing place with
  | nil => exact .last place
  | cons next rest ih =>
      by_cases hsame : place.same leaf
      · rw [List.foldl_cons, merge_of_same hleaf hsame] at hfound ⊢
        exact .givesWay hsame (ih hfound)
      · rw [foldl_merge_of_not_same hleaf hsame hfound]
        exact .differs hsame

/-- At a place that is no object, merging takes the first change. -/
theorem firstChange_mergeAll {places : List Value} (hleaf : ∀ members, leaf ≠ .object members)
    (hsome : places ≠ []) (hfound : ∀ members, mergeAll leaf places ≠ .object members) :
    FirstChange leaf places (mergeAll leaf places) := by
  cases places with
  | nil => exact absurd rfl hsome
  | cons first rest => exact firstChange_foldl_merge hleaf hfound

end Value

namespace SchemaRules

variable {rules : SchemaRules} {id : SchemaId} {value typed own : Value} {schema : Schema}
  {chosen : List SchemaId} {results : List Value}

/-! ## Schemas that are composed of others -/

/-- A schema on its own, its chosen alternatives and all that it includes accept a value, each with a
result of its own. -/
structure PartsAccept (rules : SchemaRules) (id : SchemaId) (schema : Schema) (value own : Value)
    (chosen : List SchemaId) (results : List Value) : Prop where
  ownAccepts : rules.judgeOwn schema value (rules.neighbours [] [id] value) = .accepted own
  areChosen : Chooses (fun part => rules.applyAt [] [id] part value) schema value chosen
  othersAccept : List.Forall₂
    (fun part result => rules.applyAt [] [id] part value = .accepted result)
    (chosen ++ schema.allOf) results

theorem PartsAccept.partJudgements_eq
    (hparts : rules.PartsAccept id schema value own chosen results) :
    rules.partJudgements schema value (rules.neighbours [] [id] value) =
      (own :: results).map .accepted := by
  have halternatives := List.forall₂_take_append _ chosen schema.allOf hparts.othersAccept.flip
  have hincluded := (List.forall₂_drop_append _ chosen schema.allOf hparts.othersAccept.flip).flip
  have hfront : judgeAlternatives schema value (rules.neighbours [] [id] value).here =
      (results.take chosen.length).map .accepted :=
    judgeAlternatives_eq_accepted_iff.2 ⟨chosen, hparts.areChosen, halternatives.flip⟩
  have hbehind : schema.allOf.map (rules.neighbours [] [id] value).here =
      (results.drop chosen.length).map .accepted := by
    rw [← List.forall₂_eq_eq_eq, List.forall₂_map_left_iff, List.forall₂_map_right_iff]
    exact hincluded
  rw [partJudgements, hparts.ownAccepts, hfront, hbehind, List.cons_append, ← List.map_append,
    List.take_append_drop, List.map_cons]

theorem PartsAccept.judgeParts (hparts : rules.PartsAccept id schema value own chosen results) :
    rules.judgeParts schema value (rules.neighbours [] [id] value) =
      .accepted (value.mergeAll (own :: results)) := by
  rw [judgeParts_eq_partJudgements, hparts.partJudgements_eq, Judgement.all_map_accepted,
    Judgement.map]

theorem PartsAccept.apply_eq (hparts : rules.PartsAccept id schema value own chosen results)
    (hget : rules.schemas.get? id = some schema) (hnull : value ≠ .null) :
    rules.apply id value = .accepted (value.mergeAll (own :: results)) := by
  rw [SchemaRules.apply, applyAt_eq_judge hget List.not_mem_nil, judge_of_ne_null hnull]
  exact hparts.judgeParts

theorem PartsAccept.extends (hparts : rules.PartsAccept id schema value own chosen results)
    (htable : rules.schemas.IsKeyed) (hget : rules.schemas.get? id = some schema)
    (hkeyed : value.Keyed) : ∀ result ∈ own :: results, value.Extends result := by
  have happly := @extends_of_applyAt rules htable
  rw [List.forall_mem_cons]
  constructor
  · refine extends_of_judgeOwn htable hget hkeyed (fun child hchild part => ?_) hparts.ownAccepts
    exact happly [] [] part child (hkeyed.of_mem_children hchild)
  · exact forall_mem_of_forall₂ hparts.othersAccept fun part _ => happly [] [id] part value hkeyed

theorem PartsAccept.refines (hparts : rules.PartsAccept id schema value own chosen results)
    (hformats : rules.formats = Format.standard) (htable : rules.schemas.IsKeyed)
    (hget : rules.schemas.get? id = some schema) (hkeyed : value.Keyed) :
    ∀ result ∈ own :: results, value.Refines result ∧ result.Keyed :=
  refines_of_partJudgements hformats htable hget hkeyed hparts.partJudgements_eq

/-- Null is settled before the parts are asked, which makes no difference with standard formats. -/
theorem PartsAccept.eq_mergeAll (hparts : rules.PartsAccept id schema value own chosen results)
    (htable : rules.schemas.IsKeyed) (hget : rules.schemas.get? id = some schema)
    (hkeyed : value.Keyed) (hnull : value = .null → rules.formats = Format.standard)
    (haccepted : rules.apply id value = .accepted typed) :
    typed = value.mergeAll (own :: results) := by
  by_cases hvalue : value = .null
  · subst hvalue
    rw [SchemaRules.apply, applyAt_eq_judge hget List.not_mem_nil] at haccepted
    rcases judge_eq_accepted haccepted with rfl | hjudged
    · have hrefines := hparts.refines (hnull rfl) htable hget hkeyed
      exact (Value.eq_null_of_refines_null (Value.refines_mergeAll hkeyed hrefines).1).symm
    · exact (Judgement.accepted.inj (hparts.judgeParts.symm.trans hjudged)).symm
  · exact (Judgement.accepted.inj ((hparts.apply_eq hget hvalue).symm.trans haccepted)).symm

/-- If all parts of a schema accept, then at every leaf and every array that is reached through keys
the result is there what the first part made of it that changed it.  Only what formats make objects
of is merged further, and no standard format does. -/
theorem merged_leaf_is_first_change (rules : SchemaRules) (htable : rules.schemas.IsKeyed)
    (id : SchemaId) (schema : Schema) (hget : rules.schemas.get? id = some schema)
    (value : Value) (hkeyed : value.Keyed) (hnull : value = .null → rules.formats = Format.standard)
    (own : Value) (chosen : List SchemaId) (results : List Value)
    (hparts : rules.PartsAccept id schema value own chosen results) :
    (value ≠ .null → (rules.apply id value).isAccepted) ∧
    ∀ typed, rules.apply id value = .accepted typed → ∀ (names : List String) (leaf : Value),
      value.LeadsTo (names.map .key) leaf → (∀ members, leaf ≠ .object members) →
        ∃ places found, typed.LeadsTo (names.map .key) found ∧
          List.Forall₂ (fun result place => result.LeadsTo (names.map .key) place)
            (own :: results) places ∧
          ((∀ members, found ≠ .object members) → Value.FirstChange leaf places found) ∧
          (rules.formats = Format.standard → (∀ members, found ≠ .object members) ∧
            ∀ place ∈ places, place.same leaf → place = leaf) := by
  refine ⟨fun hvalue => by rw [hparts.apply_eq hget hvalue]; rfl, ?_⟩
  intro typed haccepted names leaf hleads hleaf
  obtain rfl := hparts.eq_mergeAll htable hget hkeyed hnull haccepted
  have hextends := hparts.extends htable hget hkeyed
  obtain ⟨places, hplaces⟩ := Judgement.exists_forall₂_iff.2 fun result hmem =>
    (hextends result hmem).exists_leadsTo hleads
  have hsome : places ≠ [] := by
    rintro rfl
    cases hplaces
  refine ⟨places, leaf.mergeAll places, ?_, hplaces, Value.firstChange_mergeAll hleaf hsome, ?_⟩
  · exact Value.leadsTo_mergeAll hleads
      (forall₂_imp_of_mem hplaces fun result hmem _ _ hplace => ⟨hextends result hmem, hplace⟩)
  · intro hformats
    have hrefines := hparts.refines hformats htable hget hkeyed
    have hleaves : ∀ place ∈ places, leaf.Refines place ∧ place.Keyed :=
      forall_mem_of_forall₂ hplaces fun result hmem place hplace =>
        ⟨(hrefines result hmem).1.of_leadsTo hleads hplace,
          (hrefines result hmem).2.of_leadsTo hplace⟩
    have hleafKeyed := hkeyed.of_leadsTo hleads
    refine ⟨(Value.refines_mergeAll hleafKeyed hleaves).1.ne_object hleaf, ?_⟩
    intro place hmem
    exact (hleaves place hmem).1.eq_of_same hleafKeyed (hleaves place hmem).2

/-- Two schemas type one day each, and both days are typed in the end. -/
theorem both_days_of_stay_are_typed :
    let whole : Schema := { allOf := [1, 2] }
    let arrival : Schema := { type? := some .object, properties := [("stay", 3)] }
    let departure : Schema := { type? := some .object, properties := [("stay", 4)] }
    let start : Schema := { type? := some .object, properties := [("from", 5)] }
    let stop : Schema := { type? := some .object, properties := [("to", 5)] }
    let day : Schema := { type? := some .string, format? := some "date" }
    let rules : SchemaRules := {
      schemas := ⟨#[whole, arrival, departure, start, stop, day]⟩, formats := Format.standard }
    let stay (first last : Value) : Value := .object [("stay", .object [("from", first), ("to", last)])]
    let value := stay (.string "2024-02-29") (.string "2024-03-01")
    rules.schemas.IsKeyed ∧ rules.schemas.get? 0 = some whole ∧ value.Keyed ∧
      rules.PartsAccept 0 whole value value []
        [stay (.date ⟨2024, 2, 29, by decide⟩) (.string "2024-03-01"),
          stay (.string "2024-02-29") (.date ⟨2024, 3, 1, by decide⟩)] ∧
      ∃ typed, rules.apply 0 value = .accepted typed ∧
        typed.LeadsTo [.key "stay", .key "to"] (.date ⟨2024, 3, 1, by decide⟩) := by
  intro whole arrival departure start stop day rules stay value
  have htable : rules.schemas.IsKeyed := by
    simp [SchemaTable.isKeyed_iff, rules, whole, arrival, departure, start, stop, day,
      Entries.Distinct, Entries.keys]
  have hkeyed : value.Keyed := by
    simp only [value, stay, Value.keyed_object_iff, List.forall_mem_cons]
    exact ⟨by decide, ⟨by decide, Value.keyed_of_not_isContainer rfl,
      Value.keyed_of_not_isContainer rfl, by simp⟩, by simp⟩
  have hparts : rules.PartsAccept 0 whole value value []
      [stay (.date ⟨2024, 2, 29, by decide⟩) (.string "2024-03-01"),
        stay (.string "2024-02-29") (.date ⟨2024, 3, 1, by decide⟩)] := by
    refine ⟨rfl, ⟨[], [], rfl, rfl, rfl⟩, .cons ?_ (.cons ?_ .nil)⟩
    · cbv
    · cbv
  obtain ⟨haccepts, hmerged⟩ :=
    merged_leaf_is_first_change rules htable 0 whole rfl value hkeyed (by simp [value, stay]) value []
      _ hparts
  obtain ⟨typed, htyped⟩ := Judgement.isAccepted_iff.1 (haccepts (by simp [value, stay]))
  obtain ⟨places, found, hfound, hplaces, hchange, hstandard⟩ :=
    hmerged typed htyped ["stay", "to"] (.string "2024-03-01") rfl (by simp)
  refine ⟨htable, rfl, hkeyed, hparts, typed, htyped, ?_⟩
  rcases hplaces with _ | ⟨hown, _ | ⟨hfirst, _ | ⟨hsecond, _ | _⟩⟩⟩
  obtain rfl := hown.unique (show value.LeadsTo _ (.string "2024-03-01") from rfl)
  obtain rfl := hfirst.unique (show (stay _ (.string "2024-03-01")).LeadsTo _ _ from rfl)
  obtain rfl := hsecond.unique (show (stay _ (.date ⟨2024, 3, 1, by decide⟩)).LeadsTo _ _ from rfl)
  have hkept : (Value.string "2024-03-01").same (.string "2024-03-01") = true := rfl
  cases hchange (hstandard rfl).1 with
  | differs hdiffers => exact absurd hkept hdiffers
  | givesWay _ hbehind =>
      cases hbehind with
      | differs hdiffers => exact absurd hkept hdiffers
      | givesWay _ hbehind =>
          cases hbehind with
          | last => exact hfound
          | differs _ => exact hfound
          | givesWay _ hnone => cases hnone

/-- Two schemas type one day each of the stays in an array, and only the first of these days is typed
in the end.  Objects that formats make of one text are merged, and null is settled before any format
looks at it. -/
theorem arrays_are_not_merged_item_by_item :
    (let whole : Schema := { allOf := [1, 2] }
      let arrivals : Schema := { type? := some .array, items? := some 3 }
      let departures : Schema := { type? := some .array, items? := some 4 }
      let start : Schema := { type? := some .object, properties := [("from", 5)] }
      let stop : Schema := { type? := some .object, properties := [("to", 5)] }
      let day : Schema := { type? := some .string, format? := some "date" }
      let rules : SchemaRules := {
        schemas := ⟨#[whole, arrivals, departures, start, stop, day]⟩, formats := Format.standard }
      let stays (first last : Value) : Value := .array [.object [("from", first), ("to", last)]]
      let value := stays (.string "2024-02-29") (.string "2024-03-01")
      let last : InstancePath := [.index 0, .key "to"]
      ∃ first second typed, rules.PartsAccept 0 whole value value [] [first, second] ∧
        rules.apply 0 value = .accepted typed ∧ value.LeadsTo last (.string "2024-03-01") ∧
        first.LeadsTo last (.string "2024-03-01") ∧
        second.LeadsTo last (.date ⟨2024, 3, 1, by decide⟩) ∧
        typed.LeadsTo last (.string "2024-03-01")) ∧
    (let wrap (name : String) : FormatCaster := fun value => .ok (.object [(name, value)])
      let whole : Schema := { format? := some "a", allOf := [1] }
      let rules : SchemaRules := {
        schemas := ⟨#[whole, { format? := some "b" }]⟩
        formats := ⟨[("a", wrap "a"), ("b", wrap "b")]⟩ }
      let text := Value.string "x"
      ∃ own included typed, rules.PartsAccept 0 whole text own [] [included] ∧
        rules.apply 0 text = .accepted typed ∧ own.same text = false ∧ typed.same own = false) ∧
    (let whole : Schema := { nullable := true, format? := some "a", allOf := [1] }
      let rules : SchemaRules := {
        schemas := ⟨#[whole, { nullable := true }]⟩
        formats := ⟨[("a", fun _ => .ok (.string "none"))]⟩ }
      ∃ own included, rules.PartsAccept 0 whole .null own [] [included] ∧
        rules.apply 0 .null = .accepted .null ∧ own.same .null = false) := by
  refine ⟨?_, ?_, ?_⟩
  · intro whole arrivals departures start stop day rules stays value last
    have hparts : rules.PartsAccept 0 whole value value []
        [stays (.date ⟨2024, 2, 29, by decide⟩) (.string "2024-03-01"),
          stays (.string "2024-02-29") (.date ⟨2024, 3, 1, by decide⟩)] := by
      refine ⟨rfl, ⟨[], [], rfl, rfl, rfl⟩, .cons ?_ (.cons ?_ .nil)⟩
      · cbv
      · cbv
    exact ⟨_, _, _, hparts, hparts.apply_eq rfl (by simp [value, stays]), rfl, rfl, rfl, rfl⟩
  · intro wrap whole rules text
    have hparts : rules.PartsAccept 0 whole text (.object [("a", text)]) []
        [.object [("b", text)]] := by
      refine ⟨rfl, ⟨[], [], rfl, rfl, rfl⟩, .cons ?_ .nil⟩
      cbv
    exact ⟨_, _, _, hparts, hparts.apply_eq rfl (by simp [text]), rfl, rfl⟩
  · intro whole rules
    have hparts : rules.PartsAccept 0 whole .null (.string "none") [] [.null] := by
      refine ⟨rfl, ⟨[], [], rfl, rfl, rfl⟩, .cons ?_ .nil⟩
      rw [applyAt_eq_judge (show rules.schemas.get? 1 = some { nullable := true } from rfl) (by simp)]
      rfl
    refine ⟨_, _, hparts, ?_, rfl⟩
    rw [apply, applyAt_eq_judge (show rules.schemas.get? 0 = some whole from rfl) List.not_mem_nil]
    rfl

end SchemaRules

end ApiContract
