import ApiContract.Proofs.Asking
import ApiContract.Proofs.Joining

/-!
# Judging by tables that correspond

Two tables that correspond as a whole judge alike.  A schema and its twin look at the same keywords
and ask the neighbours that stand for each other, so the application of schemas to a value goes the
same way in both tables: the defaults that are being filled in and the schemas that judge the value
already are twins throughout.
-/

namespace ApiContract

theorem map_eq_map_of_forall₂ {α β γ : Type} {related : α → β → Prop} {first : α → γ}
    {second : β → γ} {items : List α} {others : List β}
    (hall : List.Forall₂ related items others)
    (hsame : ∀ item other, related item other → second other = first item) :
    others.map second = items.map first := by
  induction hall with
  | nil => rfl
  | cons hfirst _ ih => rw [List.map_cons, List.map_cons, hsame _ _ hfirst, ih]

theorem any_eq_any_of_forall₂ {α β : Type} {related : α → β → Prop} {first : α → Bool}
    {second : β → Bool} {items : List α} {others : List β}
    (hall : List.Forall₂ related items others)
    (hsame : ∀ item other, related item other → second other = first item) :
    others.any second = items.any first := by
  induction hall with
  | nil => rfl
  | cons hfirst _ ih => rw [List.any_cons, List.any_cons, hsame _ _ hfirst, ih]

theorem all_eq_all_of_forall₂ {α β : Type} {related : α → β → Prop} {first : α → Bool}
    {second : β → Bool} {items : List α} {others : List β}
    (hall : List.Forall₂ related items others)
    (hsame : ∀ item other, related item other → second other = first item) :
    others.all second = items.all first := by
  induction hall with
  | nil => rfl
  | cons hfirst _ ih => rw [List.all_cons, List.all_cons, hsame _ _ hfirst, ih]

theorem foldl_eq_foldl_of_forall₂ {α β γ : Type} {related : α → β → Prop} {first : γ → α → γ}
    {second : γ → β → γ} {items : List α} {others : List β}
    (hall : List.Forall₂ related items others)
    (hsame : ∀ state item other, related item other → second state other = first state item)
    {start : γ} : others.foldl second start = items.foldl first start := by
  induction hall generalizing start with
  | nil => rfl
  | cons hfirst _ ih => rw [List.foldl_cons, List.foldl_cons, hsame _ _ _ hfirst, ih]

theorem isEmpty_eq_of_forall₂ {α β : Type} {related : α → β → Prop} {items : List α}
    {others : List β} (hall : List.Forall₂ related items others) :
    others.isEmpty = items.isEmpty := by
  cases hall <;> rfl

theorem isSome_eq_of_rel {α β : Type} {related : α → β → Prop} {first : Option α}
    {second : Option β} (hrel : Option.Rel related first second) :
    second.isSome = first.isSome := by
  cases hrel <;> rfl

/-! ## Keywords -/

namespace Schema.Alike

variable {P : Pairing} {schema other : Schema}

theorem effectiveType?_eq (halike : schema.Alike P other) :
    other.effectiveType? = schema.effectiveType? := by
  unfold effectiveType?
  rw [halike.type, isEmpty_eq_of_forall₂ halike.properties, halike.required,
    isSome_eq_of_rel halike.extras, isSome_eq_of_rel halike.items]

theorem isComposed_eq (halike : schema.Alike P other) : other.isComposed = schema.isComposed := by
  unfold isComposed
  rw [isEmpty_eq_of_forall₂ halike.allOf, isEmpty_eq_of_forall₂ halike.oneOf,
    isEmpty_eq_of_forall₂ halike.anyOf]

theorem members (halike : schema.Alike P other) :
    List.Forall₂ P.twin schema.members other.members :=
  List.rel_append (List.rel_append halike.allOf halike.oneOf) halike.anyOf

theorem boundFaults_eq (halike : schema.Alike P other) (value : Value) :
    SchemaRules.boundFaults other value = SchemaRules.boundFaults schema value := by
  unfold SchemaRules.boundFaults
  rw [halike.literals, halike.constraints]

end Schema.Alike

namespace SchemaRules

variable {P : Pairing} {rules other : SchemaRules} {schema schema' : Schema}

/-- Both rules judge by tables that correspond, and differ in nothing else. -/
structure Correspond (P : Pairing) (rules other : SchemaRules) : Prop where
  settles : P.Settles rules.schemas other.schemas
  formats : other.formats = rules.formats
  allowsExtras : other.allowsExtras = rules.allowsExtras

/-- Whether a member of a composition leaves room for null. -/
def memberAdmitsNull (schemas : SchemaTable) (steps : ℕ) (id : SchemaId) : Bool :=
  match schemas.get? id with
  | some found => admitsNull schemas steps found
  | none => true

theorem admitsNull_succ (schemas : SchemaTable) (steps : ℕ) (schema : Schema) :
    admitsNull schemas (steps + 1) schema =
      if schema.nullable || schema.type? == some .null then true
      else if schema.effectiveType?.isSome then false
      else
        (schema.oneOf.isEmpty || schema.oneOf.any (memberAdmitsNull schemas steps)) &&
          (schema.anyOf.isEmpty || schema.anyOf.any (memberAdmitsNull schemas steps)) &&
          schema.allOf.all (memberAdmitsNull schemas steps) :=
  admitsNull.eq_def schemas (steps + 1) schema

theorem admitsNull_eq (hsettles : P.Settles rules.schemas other.schemas) (steps : ℕ)
    (halike : schema.Alike P schema') :
    admitsNull other.schemas steps schema' = admitsNull rules.schemas steps schema := by
  induction steps generalizing schema schema' with
  | zero =>
      unfold admitsNull
      rw [halike.nullable, halike.type, halike.effectiveType?_eq]
  | succ steps ih =>
      have hmember : ∀ first second, P.twin first second →
          memberAdmitsNull other.schemas steps second =
            memberAdmitsNull rules.schemas steps first := by
        intro first second htwin
        obtain ⟨found, found', hget, hget', hfound⟩ := hsettles.alike first second htwin
        simp only [memberAdmitsNull, hget, hget', ih hfound]
      rw [admitsNull_succ, admitsNull_succ, halike.nullable, halike.type, halike.effectiveType?_eq,
        isEmpty_eq_of_forall₂ halike.oneOf, isEmpty_eq_of_forall₂ halike.anyOf,
        any_eq_any_of_forall₂ halike.oneOf hmember, any_eq_any_of_forall₂ halike.anyOf hmember,
        all_eq_all_of_forall₂ halike.allOf hmember]

/-- What is said about a property leads to positions that may stand for each other, or says the
same. -/
theorem propertySchema_cases (hextras : other.allowsExtras = rules.allowsExtras)
    (halike : schema.Alike P schema') (name : String) :
    (∃ first second filled, rules.propertySchema schema name = .ok (some first) ∧
      other.propertySchema schema' name = .ok (some second) ∧ P.Seats filled first second) ∨
    (rules.propertySchema schema name = .ok none ∧ other.propertySchema schema' name = .ok none) ∨
    ∃ fault, rules.propertySchema schema name = .error fault ∧
      other.propertySchema schema' name = .error fault := by
  have hproperty := halike.properties.get? name
  have hextra := halike.extras
  unfold propertySchema
  rw [halike.isComposed_eq, hextras]
  cases hfirst : Entries.get? schema.properties name with
  | some first =>
      rw [hfirst] at hproperty
      cases hsecond : Entries.get? schema'.properties name with
      | none =>
          rw [hsecond] at hproperty
          cases hproperty
      | some second =>
          rw [hsecond] at hproperty
          exact .inl ⟨first, second, _, rfl, rfl, Option.rel_some_some.1 hproperty⟩
  | none =>
      rw [hfirst] at hproperty
      cases hsecond : Entries.get? schema'.properties name with
      | some second =>
          rw [hsecond] at hproperty
          cases hproperty
      | none =>
          cases hsome : schema.extras? <;> cases hsome' : schema'.extras? <;>
            rw [hsome, hsome'] at hextra <;> cases hextra
          · cases rules.allowsExtras || schema.isComposed
            · exact .inr (.inr ⟨.undeclaredProperty name, by simp, by simp⟩)
            · exact .inr (.inl ⟨by simp, by simp⟩)
          · next _ _ hextra =>
              cases hextra with
              | conforming htwin => exact .inl ⟨_, _, False, rfl, rfl, .inl htwin⟩
              | allowed isAllowed =>
                  cases isAllowed
                  · exact .inr (.inr ⟨.undeclaredProperty name, rfl, rfl⟩)
                  · exact .inr (.inl ⟨rfl, rfl⟩)

/-- The default of a property that is absent and not required. -/
def missingDefault? (rules : SchemaRules) (schema : Schema) (members : Entries Value)
    (property : String × SchemaId) : Option (String × SchemaId × Json) :=
  if Entries.contains members property.1 || schema.required.contains property.1 then none
  else (rules.schemas.get? property.2).bind fun found =>
    found.default?.map fun literal => (property.1, property.2, literal)

theorem missingDefaults_eq (members : Entries Value) :
    rules.missingDefaults schema members =
      schema.properties.filterMap (rules.missingDefault? schema members) := by
  unfold missingDefaults
  refine List.filterMap_congr fun property _ => ?_
  obtain ⟨name, id⟩ := property
  unfold missingDefault?
  dsimp only
  cases rules.schemas.get? id <;> rfl

theorem mem_missingDefaults_of_eq {members : Entries Value} {property : String × SchemaId}
    {missing : String × SchemaId × Json} (hproperty : property ∈ schema.properties)
    (hmissing : rules.missingDefault? schema members property = some missing) :
    missing ∈ rules.missingDefaults schema members := by
  rw [missingDefaults_eq]
  exact List.mem_filterMap.2 ⟨property, hproperty, hmissing⟩

/-- The same defaults are missing, of properties that stand for each other, if no detour may be taken
around any of them. -/
theorem forall₂_missingDefaults (hrules : rules.Correspond P other)
    (halike : schema.Alike P schema') {members : Entries Value}
    (hbare : ∀ missing ∈ rules.missingDefaults schema members, ¬ P.admits True missing.2.1) :
    List.Forall₂ (fun missing missing' => missing'.1 = missing.1 ∧
        P.twin missing.2.1 missing'.2.1 ∧ missing'.2.2 = missing.2.2)
      (rules.missingDefaults schema members) (other.missingDefaults schema' members) := by
  have hmissing : ∀ name first second, (name, first) ∈ schema.properties →
      P.Seats (name ∉ schema.required) first second →
      Option.Rel (fun missing missing' : String × SchemaId × Json => missing'.1 = missing.1 ∧
          P.twin missing.2.1 missing'.2.1 ∧ missing'.2.2 = missing.2.2)
        (rules.missingDefault? schema members (name, first))
        (other.missingDefault? schema' members (name, second)) := by
    intro name first second hmem hseats
    have hnone : ∀ missing, rules.missingDefault? schema members (name, first) = some missing →
        missing ∈ rules.missingDefaults schema members :=
      fun missing => mem_missingDefaults_of_eq hmem
    revert hnone
    unfold missingDefault?
    rw [halike.required]
    split
    · exact fun _ => .none
    · next habsent =>
        intro hnone
        rcases hseats with htwin | ⟨hdetour, hadmits⟩
        · obtain ⟨found, found', hget, hget', hfound⟩ := hrules.settles.alike _ _ htwin
          rw [hget, hget', Option.bind_some, Option.bind_some, hfound.default]
          cases found.default? with
          | none => exact .none
          | some literal => exact .some ⟨rfl, htwin, rfl⟩
        · -- A detour is taken only where no default is filled in.
          have hnot : name ∉ schema.required := by simp_all
          obtain ⟨target, htwin, hget⟩ := hrules.settles.leads _ _ hdetour
          obtain ⟨found, _, hfound, -⟩ := hrules.settles.alike _ _ htwin
          rw [hfound, hget, Option.bind_some, Option.bind_some]
          cases hdefault : found.default? with
          | none => exact .none
          | some literal =>
              have hfilled : (name, first, literal) ∈ rules.missingDefaults schema members :=
                hnone _ (by rw [hfound, Option.bind_some, hdefault]; rfl)
              exact absurd (eq_true hnot ▸ hadmits) (hbare _ hfilled)
  rw [missingDefaults_eq, missingDefaults_eq]
  refine List.rel_filterMap (fun property property' hproperty => ?_)
    ((List.forall₂_and_left _ _).2 ⟨fun _ hmem => hmem, halike.properties⟩)
  obtain ⟨_, first⟩ := property
  obtain ⟨name, second⟩ := property'
  obtain ⟨hmem, rfl, hseats⟩ := hproperty
  exact hmissing _ first second hmem hseats

/-! ## Alternatives -/

theorem firstAccepted_eq_of_forall₂ {α β γ : Type} {related : α → β → Prop}
    {judge : α → Judgement γ} {judge' : β → Judgement γ} {items : List α} {others : List β}
    (hall : List.Forall₂ related items others)
    (hsame : ∀ item other, related item other → judge' other = judge item)
    (otherwise : Violation) :
    Judgement.firstAccepted judge' otherwise others =
      Judgement.firstAccepted judge otherwise items := by
  induction hall with
  | nil => rfl
  | cons hfirst _ ih =>
      rw [Judgement.firstAccepted, Judgement.firstAccepted, hsame _ _ hfirst, ih]

theorem judgeTagged_congr {here here' : SchemaId → Judgement Value}
    {discriminator discriminator' : Discriminator} {value : Value}
    (halike : discriminator.Alike P discriminator')
    (hhere : ∀ first second, first ∈ Entries.values discriminator.mapping → P.twin first second →
      here' second = here first) :
    judgeTagged here' discriminator' value = judgeTagged here discriminator value := by
  unfold judgeTagged
  rw [halike.property]
  split
  · split
    · rfl
    · next tag _ =>
        have hpick := halike.mapping.get? tag
        cases hfirst : Entries.get? discriminator.mapping tag <;>
          cases hsecond : Entries.get? discriminator'.mapping tag <;>
          rw [hfirst, hsecond] at hpick
        · cases hpick
        · cases hpick
        · exact hhere _ _ (List.mem_map_of_mem (Entries.mem_of_get? hfirst))
            (Option.rel_some_some.1 hpick)
  · rfl

/-! ## One step -/

/-- The neighbours that a schema may ask judge as those do that stand for them, and no detour may be
taken around the defaults that it fills in. -/
structure NeighboursAgree (P : Pairing) (rules other : SchemaRules) (schema : Schema)
    (fills trail fills' trail' : List SchemaId) (value : Value) : Prop where
  here : ∀ first second, first ∈ schema.components → P.twin first second →
    other.applyAt fills' trail' second value = rules.applyAt fills trail first value
  inside : ∀ first child, schema.Asks value first child →
    ∀ filled second, P.Seats filled first second →
      other.applyAt fills' [] second child = rules.applyAt fills [] first child
  filled : ∀ missing, rules.FillsIn schema value missing →
    ∀ second, P.twin missing.2.1 second →
      other.fillAt fills' second missing.2.2 = rules.fillAt fills missing.2.1 missing.2.2
  bare : ∀ missing, rules.FillsIn schema value missing → ¬ P.admits True missing.2.1

section Step

variable {fills trail fills' trail' : List SchemaId} {value : Value}
  (hrules : rules.Correspond P other) (halike : schema.Alike P schema')

include halike

theorem judgeItems_congr {items : List Value}
    (hagree : NeighboursAgree P rules other schema fills trail fills' trail' (.array items)) :
    judgeItems (other.neighbours fills' trail' (.array items)) schema' items (fun _ hmem => hmem) =
      judgeItems (rules.neighbours fills trail (.array items)) schema items fun _ hmem => hmem := by
  have hitem := halike.items
  unfold judgeItems
  cases hfirst : schema.items? with
  | none =>
      rw [hfirst] at hitem
      cases hsecond : schema'.items? with
      | none => rfl
      | some second =>
          rw [hsecond] at hitem
          cases hitem
  | some first =>
      rw [hfirst] at hitem
      cases hsecond : schema'.items? with
      | none =>
          rw [hsecond] at hitem
          cases hitem
      | some second =>
          rw [hsecond] at hitem
          have hseats : P.Seats False first second := .inl (Option.rel_some_some.1 hitem)
          refine congrArg (fun judged : List (Judgement Value) =>
            (Judgement.all judged).map Value.array) ?_
          refine List.map_congr_left fun entry _ => ?_
          obtain ⟨⟨item, hmem⟩, index⟩ := entry
          exact congrArg (Judgement.under (.index index))
            (hagree.inside first item (.item hfirst hmem) False second hseats)

include hrules

theorem memberJudgements_congr {members : Entries Value}
    (hagree : NeighboursAgree P rules other schema fills trail fills' trail' (.object members))
    (hobject : schema.effectiveType? = some .object) :
    other.memberJudgements fills' schema' members = rules.memberJudgements fills schema members := by
  have hpresent : ∀ member ∈ members,
      named member.1 (other.judgeMember fills' schema' member) =
        named member.1 (rules.judgeMember fills schema member) := by
    intro member hmem
    unfold judgeMember
    rcases propertySchema_cases hrules.allowsExtras halike member.1 with
      ⟨first, second, filled, hfirst, hsecond, hseats⟩ | ⟨hfirst, hsecond⟩ | ⟨fault, hfirst, hsecond⟩
    · rw [hfirst, hsecond]
      have hasks := Schema.asks_of_governs hmem (propertySchema_eq_ok_some_iff.1 hfirst)
      exact congrArg _ (hagree.inside first member.2 hasks filled second hseats)
    · rw [hfirst, hsecond]
    · rw [hfirst, hsecond]
  have hfills : ∀ missing ∈ rules.missingDefaults schema members,
      rules.FillsIn schema (.object members) missing :=
    fun missing hmem => ⟨hobject, members, rfl, hmem⟩
  have hfilled : (other.missingDefaults schema' members).map (fun missing =>
      named missing.1 (other.fillAt fills' missing.2.1 missing.2.2)) =
      (rules.missingDefaults schema members).map fun missing =>
        named missing.1 (rules.fillAt fills missing.2.1 missing.2.2) := by
    have hmissing := forall₂_missingDefaults hrules halike
      fun missing hmem => hagree.bare missing (hfills missing hmem)
    refine map_eq_map_of_forall₂ ((List.forall₂_and_left _ _).2 ⟨fun _ hmem => hmem, hmissing⟩) ?_
    rintro ⟨_, first, _⟩ ⟨name, second, literal⟩ ⟨hmem, rfl, htwin, rfl⟩
    exact congrArg _ (hagree.filled _ (hfills _ hmem) second htwin)
  unfold memberJudgements
  rw [halike.required, List.map_congr_left hpresent, hfilled]

variable (hagree : NeighboursAgree P rules other schema fills trail fills' trail' value)

include hagree

theorem judgeType_congr :
    other.judgeType schema' value (other.neighbours fills' trail' value) =
      rules.judgeType schema value (rules.neighbours fills trail value) := by
  have hsame := halike.effectiveType?_eq
  refine judgeType_related (fun _ => rfl) hsame.symm ?_ ?_
  · rintro items rfl htype
    rw [judgeType_array htype, judgeType_array (hsame.symm.trans htype)]
    exact judgeItems_congr halike hagree
  · rintro members rfl htype
    have hobject := hsame.symm.trans htype
    rw [judgeType_object htype, judgeType_object hobject]
    refine judgeMembers_eq_all.trans (Eq.trans ?_ judgeMembers_eq_all.symm)
    rw [memberJudgements_congr hrules halike hagree hobject]

theorem judgeOwn_congr :
    other.judgeOwn schema' value (other.neighbours fills' trail' value) =
      rules.judgeOwn schema value (rules.neighbours fills trail value) := by
  have hformat : ∀ typed, other.judgeFormat schema' typed = rules.judgeFormat schema typed := by
    intro typed
    unfold judgeFormat
    rw [halike.format, hrules.formats]
  unfold judgeOwn
  rw [judgeType_congr hrules halike hagree, halike.boundFaults_eq value]
  simp only [hformat]

omit hrules in
theorem judgeAlternatives_congr :
    judgeAlternatives schema' value (other.neighbours fills' trail' value).here =
      judgeAlternatives schema value (rules.neighbours fills trail value).here := by
  have hhere : ∀ first second, first ∈ schema.components ∧ P.twin first second →
      (other.neighbours fills' trail' value).here second =
        (rules.neighbours fills trail value).here first :=
    fun first second hboth => hagree.here first second hboth.1 hboth.2
  have hone : judgeOneOf (other.neighbours fills' trail' value).here schema'.oneOf =
      judgeOneOf (rules.neighbours fills trail value).here schema.oneOf := by
    unfold judgeOneOf
    rw [map_eq_map_of_forall₂ ((List.forall₂_and_left _ _).2
      ⟨fun _ => Schema.mem_components_of_mem_oneOf, halike.oneOf⟩) hhere]
  have hany : judgeAnyOf (other.neighbours fills' trail' value).here schema'.anyOf =
      judgeAnyOf (rules.neighbours fills trail value).here schema.anyOf :=
    firstAccepted_eq_of_forall₂ ((List.forall₂_and_left _ _).2
      ⟨fun _ => Schema.mem_components_of_mem_anyOf, halike.anyOf⟩) hhere _
  have hpick := halike.discriminator
  cases hfirst : schema.discriminator? with
  | none =>
      rw [hfirst] at hpick
      cases hsecond : schema'.discriminator? with
      | none =>
          unfold judgeAlternatives
          rw [hfirst, hsecond, isEmpty_eq_of_forall₂ halike.oneOf,
            isEmpty_eq_of_forall₂ halike.anyOf, hone, hany]
      | some second =>
          rw [hsecond] at hpick
          cases hpick
  | some first =>
      rw [hfirst] at hpick
      cases hsecond : schema'.discriminator? with
      | none =>
          rw [hsecond] at hpick
          cases hpick
      | some second =>
          rw [hsecond] at hpick
          have htagged : ∀ part part', part ∈ Entries.values first.mapping → P.twin part part' →
              (other.neighbours fills' trail' value).here part' =
                (rules.neighbours fills trail value).here part := by
            intro part part' hmem htwin
            exact hhere part part' ⟨by simp [Schema.components, hfirst, hmem], htwin⟩
          unfold judgeAlternatives
          rw [hfirst, hsecond, isEmpty_eq_of_forall₂ halike.oneOf,
            isEmpty_eq_of_forall₂ halike.anyOf]
          simp only [judgeTagged_congr (Option.rel_some_some.1 hpick) htagged]

theorem judge_congr :
    other.judge schema' value (other.neighbours fills' trail' value) =
      rules.judge schema value (rules.neighbours fills trail value) := by
  have hallOf : schema'.allOf.map (other.neighbours fills' trail' value).here =
      schema.allOf.map (rules.neighbours fills trail value).here :=
    map_eq_map_of_forall₂ ((List.forall₂_and_left _ _).2
      ⟨fun _ => Schema.mem_components_of_mem_allOf, halike.allOf⟩)
      fun first second hboth => hagree.here first second hboth.1 hboth.2
  have hparts : other.judgeParts schema' value (other.neighbours fills' trail' value) =
      rules.judgeParts schema value (rules.neighbours fills trail value) := by
    unfold judgeParts
    rw [judgeOwn_congr hrules halike hagree, judgeAlternatives_congr halike hagree, hallOf]
  unfold judge
  rw [halike.nullable, halike.type, admitsNull_eq hrules.settles nullSteps halike,
    halike.isComposed_eq, hparts]

end Step

/-! ## All steps -/

/-- Twins are in both lists or in neither. -/
def Tracks (P : Pairing) (ids others : List SchemaId) : Prop :=
  ∀ first second, P.twin first second → (first ∈ ids ↔ second ∈ others)

theorem Tracks.nil : Tracks P [] [] := fun _ _ _ => by simp

theorem Tracks.cons {ids others : List SchemaId} {first second : SchemaId}
    (htracks : Tracks P ids others) (hsettles : P.Settles rules.schemas other.schemas)
    (htwin : P.twin first second) : Tracks P (first :: ids) (second :: others) := by
  intro first' second' htwin'
  rw [List.mem_cons, List.mem_cons, htracks first' second' htwin',
    hsettles.unique _ _ _ _ htwin' htwin]

/-- A detour on its own is no twin of a schema that judges the value. -/
theorem Tracks.detour {first second : SchemaId} (hsettles : P.Settles rules.schemas other.schemas)
    (hdetour : P.detour first second) : Tracks P [] [second] := by
  intro first' second' htwin
  simp only [List.not_mem_nil, List.mem_singleton, false_iff]
  rintro rfl
  exact hsettles.apart _ _ _ htwin hdetour

/-- Values under schemas that leave no default to be filled in where a detour may be taken, and so does
all that is judged for their sake. -/
structure Inherits (P : Pairing) (rules : SchemaRules) (good : SchemaId → Value → Prop) : Prop where
  here : ∀ id value schema part, good id value → rules.schemas.get? id = some schema →
    part ∈ schema.components → good part value
  inside : ∀ id value schema part child, good id value → rules.schemas.get? id = some schema →
    schema.Asks value part child → good part child
  filled : ∀ id value schema missing, good id value → rules.schemas.get? id = some schema →
    rules.FillsIn schema value missing → good missing.2.1 (.ofJson missing.2.2)
  bare : ∀ id value schema missing, good id value → rules.schemas.get? id = some schema →
    rules.FillsIn schema value missing → ¬ P.admits True missing.2.1

/-- A detour that may be taken judges such a value as the schema does that it leads around to, as soon
as the twin of that schema does. -/
def SeesThrough (P : Pairing) (rules other : SchemaRules) (good : SchemaId → Value → Prop) : Prop :=
  ∀ filled first second target value fills fills', P.admits filled first →
    P.detour first second → P.twin first target →
    other.schemas.get? second = some (.detour target) → good first value →
    other.applyAt fills' [second] target value = rules.applyAt fills [] first value →
    other.applyAt fills' [] second value = rules.applyAt fills [] first value

section Apply

variable {good : SchemaId → Value → Prop} (hrules : rules.Correspond P other)
  (hgood : rules.Inherits P good) (hsees : SeesThrough P rules other good)

include hrules hgood hsees

/-- Twins judge every such value alike, whatever is being filled in and judges the value already. -/
theorem applyAt_twin : ∀ fills trail first value, good first value →
    ∀ fills' trail' second, Tracks P fills fills' → Tracks P trail trail' → P.twin first second →
    other.applyAt fills' trail' second value = rules.applyAt fills trail first value := by
  refine applyAt.induct rules _ ?_ ?_ ?_
  · intro fills trail first value hget _ fills' trail' second _ _ htwin
    obtain ⟨schema, _, hfound, -⟩ := hrules.settles.alike _ _ htwin
    rw [hfound] at hget
    cases hget
  · intro fills trail first value _ _ hmem _ fills' trail' second _ htrail htwin
    rw [applyAt_of_mem hmem, applyAt_of_mem ((htrail first second htwin).1 hmem)]
  · intro fills trail first value schema hget hnew hhere hinside hfilled hvalue fills' trail' second
      hfills htrail htwin
    obtain ⟨found, schema', hfound, hget', halike⟩ := hrules.settles.alike _ _ htwin
    obtain rfl : found = schema := Option.some.inj (hfound.symm.trans hget)
    have hnew' : second ∉ trail' := fun hmem => hnew ((htrail first second htwin).2 hmem)
    rw [applyAt_eq_judge hget hnew, applyAt_eq_judge hget' hnew']
    refine judge_congr hrules halike ⟨?_, ?_, ?_, fun missing => hgood.bare _ _ _ missing hvalue hget⟩
    · intro part part' hmem hpart
      exact hhere part (hgood.here _ _ _ part hvalue hget hmem) fills' (second :: trail') part' hfills
        (htrail.cons hrules.settles htwin) hpart
    · intro part child hasks filled part' hseats
      have hchild := mem_children_of_asks hasks
      have hgoodChild := hgood.inside _ _ _ part child hvalue hget hasks
      rcases hseats with hpart | ⟨hdetour, hadmits⟩
      · exact hinside child hchild part hgoodChild fills' [] part' hfills .nil hpart
      · obtain ⟨target, htarget, hlead⟩ := hrules.settles.leads _ _ hdetour
        exact hsees filled part part' target child fills fills' hadmits hdetour htarget hlead
          hgoodChild (hinside child hchild part hgoodChild fills' [part'] target hfills
            (.detour hrules.settles hdetour) htarget)
    · intro missing hmissing part' hpart
      have hids := hrules.settles.twin _ _ hpart
      have hmem : missing.2.1 ∈ rules.schemas.ids := List.mem_range.2 hids.1
      have hmem' : part' ∈ other.schemas.ids := List.mem_range.2 hids.2
      unfold fillAt
      by_cases hfree : missing.2.1 ∈ fills
      · have hfree' := (hfills missing.2.1 part' hpart).1 hfree
        rw [if_neg fun hboth => hboth.2 hfree', if_neg fun hboth => hboth.2 hfree]
      · have hfree' : part' ∉ fills' := fun hold => hfree ((hfills _ part' hpart).2 hold)
        rw [if_pos ⟨hmem', hfree'⟩, if_pos ⟨hmem, hfree⟩]
        exact hfilled missing.2.1 missing.2.2 ⟨hmem, hfree⟩
          (hgood.filled _ _ _ missing hvalue hget hmissing) (part' :: fills') [] part'
          (hfills.cons hrules.settles hpart) .nil hpart

/-- Whatever may stand where a schema is named judges every such value alike. -/
theorem apply_seats {filled : Prop} {first second : SchemaId} {value : Value}
    (hseats : P.Seats filled first second) (hvalue : good first value) :
    other.apply second value = rules.apply first value := by
  unfold apply
  rcases hseats with htwin | ⟨hdetour, hadmits⟩
  · exact applyAt_twin hrules hgood hsees [] [] first value hvalue [] [] second .nil .nil htwin
  · obtain ⟨target, htarget, hlead⟩ := hrules.settles.leads _ _ hdetour
    exact hsees filled first second target value [] [] hadmits hdetour htarget hlead hvalue
      (applyAt_twin hrules hgood hsees [] [] first value hvalue [] [second] target .nil
        (.detour hrules.settles hdetour) htarget)

end Apply

end SchemaRules

end ApiContract
