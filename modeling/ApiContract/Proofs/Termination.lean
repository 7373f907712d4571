import ApiContract.Proofs.Nesting

/-!
# Tables without defaults

The schemas of a table may refer to each other in cycles, through composition and through the values
inside a value.  Without defaults every call returns all the same: a nested call is about a smaller
value, or it is about the same value and one schema less is left to judge it.
-/

namespace ApiContract

def SchemaTable.IsDefaultFree (table : SchemaTable) : Prop :=
  ∀ id schema, table.get? id = some schema → schema.default? = none

namespace SchemaRules

/-- The calls that one step of the recursion may make.  A schema that is on the trail at the level of
the value makes none. -/
inductive Nests (rules : SchemaRules) (call : Call) : Call → Prop
  | here {schema : Schema} {part : SchemaId} (hget : rules.schemas.get? call.id = some schema)
      (hnew : (call.id, call.level) ∉ call.trail) (hmem : part ∈ schema.components) :
      Nests rules call (call.here part)
  | inside {schema : Schema} {part : SchemaId} {child : Value}
      (hget : rules.schemas.get? call.id = some schema)
      (hnew : (call.id, call.level) ∉ call.trail) (hasks : schema.Asks call.value part child) :
      Nests rules call (call.inside part child)
  | filled {schema : Schema} {missing : String × SchemaId × Json}
      (hget : rules.schemas.get? call.id = some schema)
      (hnew : (call.id, call.level) ∉ call.trail)
      (hfills : rules.FillsIn schema call.value missing) :
      Nests rules call (.start missing.2.1 (.ofJson missing.2.2))

/-- The size of the value, and the number of schemas that do not judge it yet. -/
noncomputable def measure (rules : SchemaRules) (call : Call) : ℕ ×ₗ ℕ :=
  toLex (sizeOf call.value, unseen rules.schemas.ids call.visited)

/-- How deep calls may be nested, as a number that falls with the measure. -/
noncomputable def nestingBound (rules : SchemaRules) (call : Call) : ℕ :=
  sizeOf call.value * (rules.schemas.size + 1) + unseen rules.schemas.ids call.visited

variable {rules : SchemaRules} {call next : Call} {depth : ℕ}

/-- A call returns as soon as those that it may make do. -/
theorem hasEnded_answer_of_nests
    (hnested : ∀ next, rules.Nests call next → (rules.answer depth next).HasEnded) :
    (rules.answer (depth + 1) call).HasEnded := by
  cases hget : rules.schemas.get? call.id with
  | none =>
      rw [answer_of_get?_eq_none hget]
      exact Judgement.hasEnded_accepted _
  | some schema =>
      by_cases hmem : (call.id, call.level) ∈ call.trail
      · rw [answer_of_mem hmem]
        exact Judgement.hasEnded_accepted _
      · rw [answer_eq_judge hget hmem, hasEnded_judge_iff]
        intro _
        have hhere : ∀ part,
            Consults (rules.nested depth call).here schema call.value part →
              (rules.answer depth (call.here part)).HasEnded :=
          fun part hconsults => hnested _ (.here hget hmem hconsults.mem_components)
        have hinside : ∀ part child, LooksInto schema call.value part child →
            (rules.answer depth (call.inside part child)).HasEnded :=
          fun part child hlooks => hnested _ (.inside hget hmem hlooks.2)
        have hfilled : ∀ missing, rules.FillsIn schema call.value missing →
            (rules.answer depth (.start missing.2.1 (.ofJson missing.2.2))).HasEnded :=
          fun missing hfills => hnested _ (.filled hget hmem hfills)
        exact ⟨hhere, hinside, hfilled⟩

theorem not_fillsIn_of_isDefaultFree (hfree : rules.schemas.IsDefaultFree) {schema : Schema}
    {value : Value} {missing : String × SchemaId × Json} :
    ¬ rules.FillsIn schema value missing := by
  intro hfills
  obtain ⟨property, hproperty, hdefault⟩ := hfills.exists_default
  have hnone : property.default? = none := hfree _ property hproperty
  simp [hnone] at hdefault

theorem measure_lt_of_nests (hfree : rules.schemas.IsDefaultFree) (hnests : rules.Nests call next) :
    rules.measure next < rules.measure call := by
  cases hnests with
  | here hget hnew _ =>
      have hunseen : unseen rules.schemas.ids (call.id :: call.visited) <
          unseen rules.schemas.ids call.visited :=
        unseen_cons_lt (SchemaTable.mem_ids_of_get? hget) (mt Call.mem_visited_iff.1 hnew)
      rw [← Call.visited_here] at hunseen
      exact Prod.Lex.right _ hunseen
  | inside _ _ hasks =>
      exact Prod.Lex.left _ _ (Value.sizeOf_lt_of_mem_children (mem_children_of_asks hasks))
  | filled _ _ hfills => exact absurd hfills (not_fillsIn_of_isDefaultFree hfree)

theorem nestingBound_lt_of_measure_lt (hlt : rules.measure next < rules.measure call) :
    rules.nestingBound next < rules.nestingBound call := by
  unfold nestingBound
  rcases Prod.Lex.toLex_lt_toLex.1 hlt with hsize | ⟨hsize, hunseen⟩
  · exact size_mul_add_unseen_lt rules call.visited next.visited hsize
  · simp only at hsize hunseen
    rw [hsize]
    omega

theorem hasEnded_answer_of_nestingBound_lt (hfree : rules.schemas.IsDefaultFree)
    (hdepth : rules.nestingBound call < depth) : (rules.answer depth call).HasEnded := by
  induction depth generalizing call with
  | zero => omega
  | succ depth ih =>
      apply hasEnded_answer_of_nests
      intro next hnests
      have hlt := nestingBound_lt_of_measure_lt (measure_lt_of_nests hfree hnests)
      exact ih (by omega)

theorem hasEnded_applyAt_of_isDefaultFree (hfree : rules.schemas.IsDefaultFree)
    (fills trail : List SchemaId) (id : SchemaId) (value : Value) :
    (rules.applyAt fills trail id value).HasEnded := by
  let outer := Call.atRoot trail id value
  have hanswer : (rules.answer (rules.nestingBound outer + 1) outer).HasEnded :=
    hasEnded_answer_of_nestingBound_lt hfree (Nat.lt_succ_self _)
  have hstuck : ∀ part ∈ fills, rules.IsStuck (rules.nestingBound outer) part := by
    intro part _ property literal hget hdefault
    simp [hfree part property hget] at hdefault
  have hsame := answer_approximates_applyAt rules (rules.nestingBound outer + 1) fills outer
    (Call.isBelowTrail_atRoot trail) hstuck
  rw [Call.visited_atRoot] at hsame
  exact hsame.hasEnded hanswer

/-- Reference cycles are cut.  Whatever is on the trail, a call returns once those that it may make
do, and these are smaller.  So it returns, and a table without defaults judges every value. -/
theorem returns_of_isDefaultFree (rules : SchemaRules) (hfree : rules.schemas.IsDefaultFree)
    (call : Call) :
    (∀ depth, (∀ next, rules.Nests call next → (rules.answer depth next).HasEnded) →
      (rules.answer (depth + 1) call).HasEnded) ∧
    (∀ next, rules.Nests call next → rules.measure next < rules.measure call) ∧
    rules.Returns call ∧
    ∀ fills trail, (rules.applyAt fills trail call.id call.value).HasEnded := by
  have hsmaller : ∀ next, rules.Nests call next → rules.measure next < rules.measure call :=
    fun next hnests => measure_lt_of_nests hfree hnests
  have hreturns : rules.Returns call :=
    ⟨rules.nestingBound call + 1, hasEnded_answer_of_nestingBound_lt hfree (Nat.lt_succ_self _)⟩
  have hjudged : ∀ fills trail, (rules.applyAt fills trail call.id call.value).HasEnded :=
    fun fills trail => hasEnded_applyAt_of_isDefaultFree hfree fills trail call.id call.value
  exact ⟨fun depth hnested => hasEnded_answer_of_nests hnested, hsmaller, hreturns, hjudged⟩

/-- A schema that refers to itself through composition, through a property and through all further
properties. -/
theorem self_reference_returns :
    let node : Schema := {
      allOf := [0]
      oneOf := [0, 0]
      properties := [("next", 0)]
      extras? := some (.conforming 0) }
    let rules : SchemaRules := { schemas := ⟨#[node]⟩, formats := Format.standard }
    let call := Call.start 0 (.object [("next", .object [("other", .null)])])
    rules.schemas.IsDefaultFree ∧ rules.Returns call := by
  intro node rules call
  have hfree : rules.schemas.IsDefaultFree := by
    simp [SchemaTable.IsDefaultFree, SchemaTable.forall_get?_iff, rules, node]
  exact ⟨hfree, (returns_of_isDefaultFree rules hfree call).2.2.1⟩

end SchemaRules

end ApiContract
