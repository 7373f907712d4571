import ApiContract.Proofs.Inlining

/-!
# The variant that a tag picks

An object with a tag is judged by the one schema that the tag picks, whatever the other variants say.
So nothing else of the table counts than that schema, what the whole names for the values inside and
includes, and what can be reached from there.
-/

namespace ApiContract

/-! ## Tables that agree from a position on -/

namespace SchemaTable

variable {table other : SchemaTable} {id part : SchemaId} {schema : Schema}

/-- The schema at a position names another position. -/
def Names (table : SchemaTable) (id part : SchemaId) : Prop :=
  ∃ schema, table.get? id = some schema ∧ part ∈ schema.references

/-- Two tables hold the same at all positions that are reached from one. -/
def AgreesFrom (table other : SchemaTable) (id : SchemaId) : Prop :=
  ∀ part, Relation.ReflTransGen table.Names id part → other.get? part = table.get? part

theorem AgreesFrom.get?_eq (hagrees : table.AgreesFrom other id) : other.get? id = table.get? id :=
  hagrees id .refl

theorem AgreesFrom.of_names (hagrees : table.AgreesFrom other id) (hnames : table.Names id part) :
    table.AgreesFrom other part :=
  fun next hreached => hagrees next (.head hnames hreached)

theorem AgreesFrom.mem_ids_iff (hagrees : table.AgreesFrom other id) :
    id ∈ other.ids ↔ id ∈ table.ids := by
  rw [mem_ids_iff_isSome, mem_ids_iff_isSome, hagrees.get?_eq]

/-- Positions that name nothing but each other are all that is reached from one of them. -/
theorem agreesFrom_of_closed {closed : List SchemaId} (hmem : id ∈ closed)
    (hclosed : ∀ next ∈ closed, ∀ found, table.get? next = some found →
      ∀ part ∈ found.references, part ∈ closed)
    (hsame : ∀ next ∈ closed, other.get? next = table.get? next) : table.AgreesFrom other id := by
  intro part hreached
  have hpart : part ∈ closed := by
    induction hreached with
    | refl => exact hmem
    | tail _ hnames ih =>
        obtain ⟨found, hfound, hnamed⟩ := hnames
        exact hclosed _ ih found hfound _ hnamed
  exact hsame part hpart

end SchemaTable

namespace SchemaRules

variable {rules : SchemaRules} {table other : SchemaTable} {fills trail : List SchemaId}
  {id variant : SchemaId} {schema : Schema} {value : Value}

/-! ## What does not depend on the rest of a table -/

theorem mem_ownParts_of_fillsIn {missing : String × SchemaId × Json}
    (hfills : rules.FillsIn schema value missing) : missing.2.1 ∈ schema.ownParts := by
  obtain ⟨-, members, -, hmissing⟩ := hfills
  have hproperty : missing.2.1 ∈ Entries.values schema.properties :=
    List.mem_map_of_mem (mem_missingDefaults_iff.1 hmissing).1
  simp [Schema.ownParts, hproperty]

theorem default?_of_agreesFrom (hparts : ∀ part ∈ schema.ownParts, table.AgreesFrom other part) :
    ∀ part ∈ Entries.values schema.properties,
      (other.get? part).bind Schema.default? = (table.get? part).bind Schema.default? := by
  intro part hmem
  rw [(hparts part (by simp [Schema.ownParts, hmem])).get?_eq]

theorem admitsNull_of_agreesFrom (steps : ℕ)
    (hparts : ∀ part ∈ schema.references, table.AgreesFrom other part) :
    admitsNull other steps schema = admitsNull table steps schema := by
  induction steps generalizing schema with
  | zero => rw [admitsNull_zero, admitsNull_zero]
  | succ steps ih =>
      have hmember : ∀ part ∈ schema.members,
          memberAdmitsNull other steps part = memberAdmitsNull table steps part := by
        intro part hmem
        have hagrees := hparts part (by simp [Schema.references, hmem])
        unfold memberAdmitsNull
        rw [hagrees.get?_eq]
        cases hget : table.get? part with
        | none => rfl
        | some member => exact ih fun next hnext => hagrees.of_names ⟨member, hget, hnext⟩
      have hlisted : ∀ ids, (∀ part ∈ ids, part ∈ schema.members) →
          List.Forall₂ (fun first second =>
            memberAdmitsNull other steps second = memberAdmitsNull table steps first) ids ids :=
        fun ids hids => List.forall₂_same.2 fun part hmem => hmember part (hids part hmem)
      rw [admitsNull_succ, admitsNull_succ,
        any_eq_any_of_forall₂ (hlisted schema.oneOf (by simp +contextual [Schema.members]))
          fun _ _ hsame => hsame,
        any_eq_any_of_forall₂ (hlisted schema.anyOf (by simp +contextual [Schema.members]))
          fun _ _ hsame => hsame,
        all_eq_all_of_forall₂ (hlisted schema.allOf (by simp +contextual [Schema.members]))
          fun _ _ hsame => hsame]

/-- A schema judges alike in tables that agree on all that is reached from it. -/
theorem applyAt_of_agreesFrom (rules : SchemaRules) (other : SchemaTable) :
    ∀ fills trail id value, rules.schemas.AgreesFrom other id →
      (rules.withSchemas other).applyAt fills trail id value = rules.applyAt fills trail id value := by
  refine applyAt.induct rules _ ?_ ?_ ?_
  · intro fills trail id value hget hagrees
    have hget' : (rules.withSchemas other).schemas.get? id = none := hagrees.get?_eq.trans hget
    rw [applyAt_of_get?_eq_none hget, applyAt_of_get?_eq_none hget']
  · intro fills trail id value _ _ hmem _
    rw [applyAt_of_mem hmem, applyAt_of_mem hmem]
  · intro fills trail id value schema hget hnew hhere hinside hfilled hagrees
    have hget' : (rules.withSchemas other).schemas.get? id = some schema :=
      hagrees.get?_eq.trans hget
    have hparts : ∀ part ∈ schema.references, rules.schemas.AgreesFrom other part :=
      fun part hmem => hagrees.of_names ⟨schema, hget, hmem⟩
    have hown : ∀ part ∈ schema.ownParts, rules.schemas.AgreesFrom other part :=
      fun part hmem => hparts part (Schema.mem_references_of_mem_ownParts hmem)
    have hcomponents : ∀ part ∈ schema.components,
        (rules.withSchemas other).applyAt fills (id :: trail) part value =
          rules.applyAt fills (id :: trail) part value :=
      fun part hmem => hhere part (hparts part (Schema.mem_references_of_mem_components hmem))
    have hagree : rules.AgreeInside schema (rules.neighbours fills (id :: trail) value)
        ((rules.withSchemas other).neighbours fills (id :: trail) value) :=
      agreeInside_of_alike
        (fun missing hmissing => (hown _ (mem_ownParts_of_fillsIn hmissing)).mem_ids_iff)
        (fun part child hasks => hinside child (mem_children_of_asks hasks) part
          (hown part (Schema.mem_ownParts_of_asks hasks)))
        fun missing hmissing hfree => hfilled missing.2.1 missing.2.2 hfree
          (hown _ (mem_ownParts_of_fillsIn hmissing))
    rw [applyAt_eq_judge hget hnew, applyAt_eq_judge hget' hnew]
    refine judge_of_parts rfl rfl rfl (fun _ => admitsNull_of_agreesFrom nullSteps hparts) fun _ => ?_
    exact judgeParts_of_agreeInside (default?_of_agreesFrom hown) hagree
      (judgeAlternatives_of_components hcomponents)
      fun part hmem => hcomponents part (Schema.mem_components_of_mem_allOf hmem)

/-! ## Schemas with a discriminator -/

theorem judgeTagged_of_picks {here : SchemaId → Judgement Value} {discriminator : Discriminator}
    (hpicks : discriminator.Picks value variant) :
    judgeTagged here discriminator value = here variant := by
  obtain ⟨members, tag, rfl, htag, hmapped⟩ := hpicks
  simp only [judgeTagged, htag, hmapped]

/-- A discriminator always wins.  Where it picks a variant by the tag of an object, no other
alternative is asked, whatever it would say.  So two tables give the same result if they agree on the
schema and on all that is reached from the variant and from what the schema names for the values
inside and includes. -/
theorem only_picked_variant_counts {discriminator : Discriminator}
    (hget : rules.schemas.get? id = some schema) (hget' : other.get? id = some schema)
    (hdiscriminator : schema.discriminator? = some discriminator)
    (halternatives : schema.oneOf ≠ [] ∨ schema.anyOf ≠ [])
    (hpicks : discriminator.Picks value variant)
    (hagrees : ∀ part ∈ variant :: schema.ownParts, rules.schemas.AgreesFrom other part) :
    (rules.withSchemas other).apply id value = rules.apply id value ∧
      ∀ here, judgeAlternatives schema value here = [here variant] := by
  have htagging : schema.tagging? = some discriminator := by
    have hsome : ¬ (schema.oneOf = [] ∧ schema.anyOf = []) := by tauto
    rw [Schema.tagging?, if_neg hsome, hdiscriminator]
  have hchosen : ∀ here, judgeAlternatives schema value here = [here variant] := by
    intro here
    rw [judgeAlternatives_of_tagging? htagging, judgeTagged_of_picks hpicks]
  refine ⟨?_, hchosen⟩
  rw [List.forall_mem_cons] at hagrees
  obtain ⟨hvariant, hown⟩ := hagrees
  have hobject : value ≠ .null := by
    obtain ⟨members, _, rfl, -⟩ := hpicks
    simp
  have hsame : ∀ part, rules.schemas.AgreesFrom other part → ∀ fills trail value,
      (rules.withSchemas other).applyAt fills trail part value =
        rules.applyAt fills trail part value :=
    fun part hpart fills trail value => applyAt_of_agreesFrom rules other fills trail part value hpart
  have hagree : rules.AgreeInside schema (rules.neighbours [] [id] value)
      ((rules.withSchemas other).neighbours [] [id] value) :=
    agreeInside_of_alike
      (fun missing hmissing => (hown _ (mem_ownParts_of_fillsIn hmissing)).mem_ids_iff)
      (fun part child hasks => hsame part (hown part (Schema.mem_ownParts_of_asks hasks)) _ _ _)
      fun missing hmissing _ => hsame _ (hown _ (mem_ownParts_of_fillsIn hmissing)) _ _ _
  rw [apply, apply, applyAt_eq_judge hget List.not_mem_nil,
    applyAt_eq_judge (show (rules.withSchemas other).schemas.get? id = some schema from hget')
      List.not_mem_nil, judge_of_ne_null hobject, judge_of_ne_null hobject]
  refine judgeParts_of_agreeInside (default?_of_agreesFrom hown) hagree ?_ fun part hmem => ?_
  · rw [hchosen, hchosen]
    exact congrArg (fun judgement => [judgement]) (hsame variant hvariant _ _ _)
  · exact hsame part (hown part (by simp [Schema.ownParts, hmem])) _ _ _

/-- A cat is judged as a cat, with the sound that it makes by default, and so is its mother.  It does
not matter whether anything passes for a dog, the cat included, or dogs have to bark. -/
theorem dogs_do_not_matter_to_cats :
    let pet : Schema := {
      type? := some .object
      properties := [("kind", 3)]
      oneOf := [1, 2]
      discriminator? := some ⟨"kind", [("cat", 1), ("dog", 2)]⟩ }
    let cat : Schema := { type? := some .object, properties := [("mother", 1), ("sound", 4)] }
    let dog : Schema := { type? := some .object, required := ["bark"], properties := [("bark", 5)] }
    let kind : Schema := { type? := some .string }
    let sound : Schema := { type? := some .string, default? := some (.string "meow") }
    let table (dog bark : Schema) : SchemaTable := ⟨#[pet, cat, dog, kind, sound, bark]⟩
    let rules : SchemaRules := { schemas := table {} sound, formats := Format.standard }
    let mother := Value.object [("sound", .string "purr")]
    let value := Value.object [("kind", .string "cat"), ("mother", mother)]
    rules.apply 0 value =
        .accepted (.object [("kind", .string "cat"), ("mother", mother), ("sound", .string "meow")]) ∧
      (rules.apply 2 value).isAccepted ∧
      (∀ part ∈ 1 :: pet.ownParts, rules.schemas.AgreesFrom (table dog kind) part) ∧
      (rules.withSchemas (table dog kind)).apply 0 value = rules.apply 0 value ∧
      ∀ here, judgeAlternatives pet value here = [here 1] := by
  intro pet cat dog kind sound table rules mother value
  have hagrees : ∀ part ∈ 1 :: pet.ownParts, rules.schemas.AgreesFrom (table dog kind) part := by
    intro part hmem
    have hcases : part = 1 ∨ part = 3 := by
      simpa [pet, Schema.ownParts, SchemaTable.furtherSchema?, Entries.values] using hmem
    have hpart : part ∈ [1, 3, 4] := by
      rcases hcases with rfl | rfl <;> simp
    have hcat : cat.references = [1, 4] := rfl
    have hleaves : kind.references = [] ∧ sound.references = [] := ⟨rfl, rfl⟩
    exact SchemaTable.agreesFrom_of_closed hpart
      (by simp [rules, table, SchemaTable.get?, hcat, hleaves])
      (by simp [rules, table, SchemaTable.get?])
  have hpicks : (Discriminator.mk "kind" [("cat", 1), ("dog", 2)]).Picks value 1 :=
    ⟨_, "cat", rfl, rfl, rfl⟩
  exact ⟨by cbv, by cbv, hagrees,
    only_picked_variant_counts rfl rfl rfl (.inl (by simp [pet])) hpicks hagrees⟩

end SchemaRules

end ApiContract
