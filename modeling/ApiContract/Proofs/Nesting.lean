import ApiContract.Proofs.Asking

/-!
# Nested calls

Applying a schema is total because a default is not filled in while it is being filled in.  This file
follows the bare recursion, without that restriction and with one trail for all schemas at work, for a
bounded number of nested calls.  A call returns when some bound is enough.  The main statements are
that what it returns does not depend on the bound, and that it returns exactly where applying the
schema ends, with the same judgement.
-/

namespace ApiContract

/-- A schema at work on a value.  The trail holds the schemas at work around it, each with the level
of the value that it judges; levels count the steps into the outermost value. -/
structure Call where
  trail : List (SchemaId × Nat)
  level : Nat
  id : SchemaId
  value : Value

namespace Call

variable {call : Call} {id part : SchemaId} {value child : Value}

/-- A call with nothing around it. -/
def start (id : SchemaId) (value : Value) : Call := ⟨[], 0, id, value⟩

/-- The call of another schema at the same value. -/
def here (call : Call) (part : SchemaId) : Call :=
  ⟨(call.id, call.level) :: call.trail, call.level, part, call.value⟩

/-- The call of a schema at a value one step inside. -/
def inside (call : Call) (part : SchemaId) (child : Value) : Call :=
  ⟨(call.id, call.level) :: call.trail, call.level + 1, part, child⟩

/-- The schemas of the trail that judge the very value of the call. -/
def visited (call : Call) : List SchemaId :=
  call.trail.filterMap fun entry => if entry.2 = call.level then some entry.1 else none

/-- The schemas of the trail judge the value or values around it. -/
def IsBelowTrail (call : Call) : Prop := ∀ entry ∈ call.trail, entry.2 ≤ call.level

theorem mem_visited_iff : id ∈ call.visited ↔ (id, call.level) ∈ call.trail := by
  simp [visited]

theorem visited_here : (call.here part).visited = call.id :: call.visited :=
  List.filterMap_cons_some (if_pos rfl)

theorem visited_inside (hbelow : call.IsBelowTrail) : (call.inside part child).visited = [] := by
  refine List.filterMap_eq_nil_iff.2 fun entry hmem => ?_
  have hle : entry.2 ≤ call.level := by
    rcases List.mem_cons.1 hmem with rfl | hmem
    · exact le_rfl
    · exact hbelow entry hmem
  have hne : entry.2 ≠ call.level + 1 := by omega
  simp [inside, hne]

theorem isBelowTrail_start : (start id value).IsBelowTrail := by
  simp [IsBelowTrail, start]

theorem IsBelowTrail.here (hbelow : call.IsBelowTrail) (part : SchemaId) :
    (call.here part).IsBelowTrail := by
  intro entry hmem
  rcases List.mem_cons.1 hmem with rfl | hmem
  · exact le_rfl
  · exact hbelow entry hmem

theorem IsBelowTrail.inside (hbelow : call.IsBelowTrail) (part : SchemaId) (child : Value) :
    (call.inside part child).IsBelowTrail := by
  intro entry hmem
  rcases List.mem_cons.1 hmem with rfl | hmem
  · exact Nat.le_succ call.level
  · exact Nat.le_succ_of_le (hbelow entry hmem)

/-- A call at the outermost value below any schemas. -/
def atRoot (trail : List SchemaId) (id : SchemaId) (value : Value) : Call :=
  ⟨trail.map fun other => (other, 0), 0, id, value⟩

theorem visited_atRoot (trail : List SchemaId) : (atRoot trail id value).visited = trail := by
  induction trail with
  | nil => rfl
  | cons first rest ih =>
      have hfirst : (atRoot (first :: rest) id value).visited =
          first :: (atRoot rest id value).visited :=
        List.filterMap_cons_some (if_pos rfl)
      rw [hfirst, ih]

theorem isBelowTrail_atRoot (trail : List SchemaId) : (atRoot trail id value).IsBelowTrail := by
  simp [IsBelowTrail, atRoot]

end Call

namespace SchemaRules

/-- What comes of a call when calls may be nested no deeper than `depth`.  A schema that is on the
trail at the level of the value accepts it; a default starts with an empty trail. -/
def answer (rules : SchemaRules) : (depth : Nat) → Call → Judgement Value
  | 0, _ => .unending
  | depth + 1, call =>
    match rules.schemas.get? call.id with
    | none => .accepted call.value
    | some schema =>
      if (call.id, call.level) ∈ call.trail then
        .accepted call.value
      else
        rules.judge schema call.value {
          here := fun part => answer rules depth (call.here part)
          inside := fun child _ part => answer rules depth (call.inside part child)
          filled := fun part literal => answer rules depth (.start part (.ofJson literal)) }

/-- A call returns within some depth. -/
def Returns (rules : SchemaRules) (call : Call) : Prop :=
  ∃ depth, (rules.answer depth call).HasEnded

variable {rules : SchemaRules} {depth depth' most : Nat} {call : Call} {schema : Schema}
  {fills trail : List SchemaId} {id part : SchemaId} {value child : Value} {literal : Json}

/-- What a call hears from the calls that are nested in it. -/
def nested (rules : SchemaRules) (depth : Nat) (call : Call) : Neighbours call.value where
  here := fun part => rules.answer depth (call.here part)
  inside := fun child _ part => rules.answer depth (call.inside part child)
  filled := fun part literal => rules.answer depth (.start part (.ofJson literal))

theorem answer_of_get?_eq_none (hget : rules.schemas.get? call.id = none) :
    rules.answer (depth + 1) call = .accepted call.value := by
  simp [answer, hget]

theorem answer_of_mem (hmem : (call.id, call.level) ∈ call.trail) :
    rules.answer (depth + 1) call = .accepted call.value := by
  unfold answer
  split
  · rfl
  · rw [if_pos hmem]

theorem answer_eq_judge (hget : rules.schemas.get? call.id = some schema)
    (hnew : (call.id, call.level) ∉ call.trail) :
    rules.answer (depth + 1) call = rules.judge schema call.value (rules.nested depth call) := by
  rw [answer, hget]
  exact if_neg hnew

theorem answer_approximates_succ (rules : SchemaRules) (depth : Nat) (call : Call) :
    (rules.answer depth call).Approximates (rules.answer (depth + 1) call) := by
  induction depth generalizing call with
  | zero => exact Judgement.approximates_unending _
  | succ depth ih =>
      cases hget : rules.schemas.get? call.id with
      | none =>
          rw [answer_of_get?_eq_none hget, answer_of_get?_eq_none hget]
          exact .refl _
      | some schema =>
          by_cases hmem : (call.id, call.level) ∈ call.trail
          · rw [answer_of_mem hmem, answer_of_mem hmem]
            exact .refl _
          · rw [answer_eq_judge hget hmem, answer_eq_judge hget hmem]
            exact judge_approximates ⟨fun part _ => ih _, fun part child _ => ih _,
              fun part _ literal _ _ => ih _⟩

/-- A greater depth changes nothing once a call has returned. -/
theorem answer_approximates_of_le (hle : depth ≤ depth') (call : Call) :
    (rules.answer depth call).Approximates (rules.answer depth' call) := by
  induction hle with
  | refl => exact .refl _
  | step _ ih => exact ih.trans (answer_approximates_succ rules _ call)

theorem exists_least_answer (hended : (rules.answer depth call).HasEnded) :
    ∃ least < depth, (rules.answer (least + 1) call).HasEnded ∧
      ¬ (rules.answer least call).HasEnded := by
  induction depth with
  | zero => exact absurd rfl hended
  | succ depth ih =>
      by_cases hbefore : (rules.answer depth call).HasEnded
      · obtain ⟨least, hlt, hleast⟩ := ih hbefore
        exact ⟨least, by omega, hleast⟩
      · exact ⟨depth, by omega, hended, hbefore⟩

/-! ## What is returned -/

/-- The default of a schema does not return within a depth. -/
def IsStuck (rules : SchemaRules) (depth : Nat) (part : SchemaId) : Prop :=
  ∀ property literal, rules.schemas.get? part = some property →
    property.default? = some literal →
    ¬ (rules.answer depth (.start part (.ofJson literal))).HasEnded

theorem IsStuck.of_le (hstuck : rules.IsStuck depth' part) (hle : depth ≤ depth') :
    rules.IsStuck depth part := by
  intro property literal hget hdefault hended
  have hlater := (answer_approximates_of_le hle (.start part (.ofJson literal))).hasEnded hended
  exact hstuck property literal hget hdefault hlater

theorem isStuck_of_not_hasEnded {property : Schema}
    (hproperty : rules.schemas.get? part = some property)
    (hdefault : property.default? = some literal)
    (hbefore : ¬ (rules.answer depth (.start part (.ofJson literal))).HasEnded) :
    rules.IsStuck depth part := by
  intro other found hother hfound
  obtain rfl := Option.some.inj (hproperty.symm.trans hother)
  obtain rfl := Option.some.inj (hdefault.symm.trans hfound)
  exact hbefore

/-- What a call returns is the judgement of its schema, also below defaults that do not return
before the call does. -/
theorem answer_approximates_applyAt (rules : SchemaRules) (depth : Nat) :
    ∀ fills call, call.IsBelowTrail → (∀ part ∈ fills, rules.IsStuck (depth - 1) part) →
      (rules.answer depth call).Approximates
        (rules.applyAt fills call.visited call.id call.value) := by
  induction depth using Nat.strong_induction_on with
  | _ depth ih =>
      intro fills call hbelow hstuck
      cases depth with
      | zero => exact Judgement.approximates_unending _
      | succ depth =>
          have hstuckBefore : ∀ part ∈ fills, rules.IsStuck (depth - 1) part :=
            fun part hmem => (hstuck part hmem).of_le (by omega)
          cases hget : rules.schemas.get? call.id with
          | none =>
              rw [answer_of_get?_eq_none hget, applyAt_of_get?_eq_none hget]
              exact .refl _
          | some schema =>
              by_cases hmem : (call.id, call.level) ∈ call.trail
              · rw [answer_of_mem hmem, applyAt_of_mem (Call.mem_visited_iff.2 hmem)]
                exact .refl _
              · have hnew : call.id ∉ call.visited := fun hvisited =>
                  hmem (Call.mem_visited_iff.1 hvisited)
                rw [answer_eq_judge hget hmem, applyAt_eq_judge hget hnew]
                refine judge_approximates ⟨fun part _ => ?_, fun part child _ => ?_,
                  fun part property literal hproperty hdefault => ?_⟩
                · have hhere := ih depth (by omega) fills (call.here part) (hbelow.here part)
                    hstuckBefore
                  rw [Call.visited_here] at hhere
                  exact hhere
                · have hinside := ih depth (by omega) fills (call.inside part child)
                    (hbelow.inside part child) hstuckBefore
                  rw [Call.visited_inside hbelow] at hinside
                  exact hinside
                · intro hended
                  -- A default that returns is not being filled in, and one step before the least
                  -- depth at which it returns it is stuck like the others.
                  have hfree : part ∈ rules.schemas.ids ∧ part ∉ fills :=
                    ⟨SchemaTable.mem_ids_of_get? hproperty, fun hfilling =>
                      hstuck part hfilling property literal hproperty hdefault hended⟩
                  obtain ⟨least, hlt, hleast, hbefore⟩ := exists_least_answer hended
                  have hstuckThere : ∀ other ∈ part :: fills, rules.IsStuck least other := by
                    rw [List.forall_mem_cons]
                    exact ⟨isStuck_of_not_hasEnded hproperty hdefault hbefore,
                      fun other hother => (hstuck other hother).of_le (by omega)⟩
                  have hfill := ih (least + 1) (by omega) (part :: fills)
                    (.start part (.ofJson literal)) Call.isBelowTrail_start hstuckThere hleast
                  have hsame := answer_approximates_of_le (Nat.succ_le_of_lt hlt)
                    (.start part (.ofJson literal)) hleast
                  simp only [neighbours, fillAt, if_pos hfree]
                  exact hsame.symm.trans hfill

/-! ## How deep calls are nested -/

/-- A number that falls with every nested call: fewer defaults are left to be filled in, or the value
is smaller, or fewer schemas are left that do not judge the value.  No default is larger than
`most`. -/
noncomputable def rank (rules : SchemaRules) (most : Nat) (fills trail : List SchemaId) (value : Value) : Nat :=
  unseen rules.schemas.ids fills * ((most + 1) * (rules.schemas.size + 1)) +
    sizeOf value * (rules.schemas.size + 1) + unseen rules.schemas.ids trail

theorem unseen_ids_le (rules : SchemaRules) (trail : List SchemaId) :
    unseen rules.schemas.ids trail ≤ rules.schemas.size := by
  have hle : unseen rules.schemas.ids trail ≤ rules.schemas.ids.length :=
    List.length_filter_le _ _
  simpa [SchemaTable.ids] using hle

/-- What a smaller value saves outweighs the schemas that do not judge it yet. -/
theorem size_mul_add_unseen_lt (rules : SchemaRules) (before after : List SchemaId) {size : Nat}
    (hsize : size < sizeOf value) :
    size * (rules.schemas.size + 1) + unseen rules.schemas.ids after <
      sizeOf value * (rules.schemas.size + 1) + unseen rules.schemas.ids before := by
  have hle := unseen_ids_le rules after
  have hmul : (size + 1) * (rules.schemas.size + 1) ≤ sizeOf value * (rules.schemas.size + 1) :=
    Nat.mul_le_mul_right _ hsize
  rw [Nat.add_mul, Nat.one_mul] at hmul
  omega

theorem rank_here_lt (most : Nat) (fills : List SchemaId) (value : Value)
    (hmem : id ∈ rules.schemas.ids) (hnew : id ∉ trail) :
    rules.rank most fills (id :: trail) value < rules.rank most fills trail value := by
  have hlt := unseen_cons_lt hmem hnew
  unfold rank
  omega

theorem rank_inside_lt (most : Nat) (fills trail : List SchemaId)
    (hsize : sizeOf child < sizeOf value) :
    rules.rank most fills [] child < rules.rank most fills trail value := by
  have hlt := size_mul_add_unseen_lt rules trail [] hsize
  unfold rank
  omega

theorem rank_fill_lt (trail : List SchemaId) (value : Value) (hmem : part ∈ rules.schemas.ids)
    (hnew : part ∉ fills) (hmost : sizeOf child ≤ most) :
    rules.rank most (part :: fills) [] child < rules.rank most fills trail value := by
  have hle := unseen_ids_le rules []
  have hlt := unseen_cons_lt hmem hnew
  have hfills : (unseen rules.schemas.ids (part :: fills) + 1) *
        ((most + 1) * (rules.schemas.size + 1)) ≤
      unseen rules.schemas.ids fills * ((most + 1) * (rules.schemas.size + 1)) :=
    Nat.mul_le_mul_right _ hlt
  have hchild : sizeOf child * (rules.schemas.size + 1) ≤ most * (rules.schemas.size + 1) :=
    Nat.mul_le_mul_right _ hmost
  rw [Nat.add_mul, Nat.one_mul, Nat.add_mul most, Nat.one_mul] at hfills
  unfold rank
  rw [Nat.add_mul most, Nat.one_mul]
  omega

/-- A judgement that ends is what a call returns that may nest as deep as its rank. -/
theorem applyAt_approximates_answer (hmost : ∀ id schema literal, rules.schemas.get? id = some schema →
      schema.default? = some literal → sizeOf (Value.ofJson literal) ≤ most) :
    ∀ fills trail id value, ∀ (call : Call) (depth : Nat), call.IsBelowTrail →
      call.visited = trail → call.id = id → call.value = value →
      rules.rank most fills trail value < depth →
      (rules.applyAt fills trail id value).Approximates (rules.answer depth call) := by
  refine applyAt.induct rules _ ?_ ?_ ?_
  · rintro fills _ _ _ hget call depth - rfl rfl rfl hdepth
    obtain ⟨depth, rfl⟩ : ∃ before, depth = before + 1 := ⟨depth - 1, by omega⟩
    rw [answer_of_get?_eq_none hget, applyAt_of_get?_eq_none hget]
    exact .refl _
  · rintro fills _ _ _ _ hget hmem call depth - rfl rfl rfl hdepth
    obtain ⟨depth, rfl⟩ : ∃ before, depth = before + 1 := ⟨depth - 1, by omega⟩
    rw [answer_of_mem (Call.mem_visited_iff.1 hmem), applyAt_of_mem hmem]
    exact .refl _
  · rintro fills _ _ _ schema hget hnew hhere hinside hfilled call depth hbelow rfl rfl rfl hdepth
    obtain ⟨depth, rfl⟩ : ∃ before, depth = before + 1 := ⟨depth - 1, by omega⟩
    have hfresh : (call.id, call.level) ∉ call.trail := fun hmem =>
      hnew (Call.mem_visited_iff.2 hmem)
    have hid : call.id ∈ rules.schemas.ids := SchemaTable.mem_ids_of_get? hget
    rw [answer_eq_judge hget hfresh, applyAt_eq_judge hget hnew]
    refine judge_approximates ⟨fun part _ => ?_, fun part child hasks => ?_,
      fun part property literal hproperty hdefault => ?_⟩
    · have hlt := rank_here_lt most fills call.value hid hnew
      exact hhere part (call.here part) depth (hbelow.here part) Call.visited_here rfl rfl (by omega)
    · have hchild := mem_children_of_asks hasks
      have hlt : rules.rank most fills [] child < rules.rank most fills call.visited call.value :=
        rank_inside_lt most fills call.visited (Value.sizeOf_lt_of_mem_children hchild)
      exact hinside child hchild part (call.inside part child) depth (hbelow.inside part child)
        (Call.visited_inside hbelow) rfl rfl (by omega)
    · simp only [neighbours, fillAt]
      split
      · next hfree =>
          have hlt := rank_fill_lt call.visited call.value hfree.1 hfree.2
            (hmost part property literal hproperty hdefault)
          exact hfilled part literal hfree (.start part (.ofJson literal)) depth
            Call.isBelowTrail_start rfl rfl rfl (by omega)
      · exact Judgement.approximates_unending _

/-- The defaults of a table are bounded in size. -/
theorem exists_most (table : SchemaTable) :
    ∃ most, ∀ id schema literal, table.get? id = some schema → schema.default? = some literal →
      sizeOf (Value.ofJson literal) ≤ most := by
  let size (schema : Schema) : Nat := schema.default?.elim 0 fun literal => sizeOf (Value.ofJson literal)
  refine ⟨(table.schemas.toList.map size).sum, fun id schema literal hget hdefault => ?_⟩
  have hmem : schema ∈ table.schemas.toList :=
    Array.mem_toList_iff.2 (Array.mem_of_getElem? hget)
  have hsize : size schema = sizeOf (Value.ofJson literal) := by simp [size, hdefault]
  rw [← hsize]
  exact List.le_sum_of_mem (List.mem_map_of_mem hmem)

/-- A call with nothing around it returns exactly the judgement of its schema, if that ends. -/
theorem exists_answer_eq_iff {judgement : Judgement Value} (hended : judgement.HasEnded) :
    (∃ depth, rules.answer depth (.start id value) = judgement) ↔
      rules.apply id value = judgement := by
  constructor
  · rintro ⟨depth, rfl⟩
    exact (answer_approximates_applyAt rules depth [] (.start id value) Call.isBelowTrail_start
      (by simp) hended).symm
  · rintro rfl
    obtain ⟨most, hmost⟩ := exists_most rules.schemas
    exact ⟨_, (applyAt_approximates_answer hmost [] [] id value (.start id value) _
      Call.isBelowTrail_start rfl rfl rfl (Nat.lt_succ_self _) hended).symm⟩

theorem returns_start_iff : rules.Returns (.start id value) ↔ (rules.apply id value).HasEnded := by
  constructor
  · rintro ⟨depth, hended⟩
    rw [(exists_answer_eq_iff hended).1 ⟨depth, rfl⟩]
    exact hended
  · intro hended
    obtain ⟨depth, hdepth⟩ := (exists_answer_eq_iff hended).2 rfl
    exact ⟨depth, hdepth ▸ hended⟩

/-- Whatever default is being filled in, a judgement that ends does not depend on it. -/
theorem applyAt_approximates_unfilled (fills trail : List SchemaId) (id : SchemaId) (value : Value) :
    (rules.applyAt fills trail id value).Approximates (rules.applyAt [] trail id value) := by
  obtain ⟨most, hmost⟩ := exists_most rules.schemas
  have hanswer := applyAt_approximates_answer hmost fills trail id value (.atRoot trail id value) _
    (Call.isBelowTrail_atRoot trail) (Call.visited_atRoot trail) rfl rfl (Nat.lt_succ_self _)
  have happly := answer_approximates_applyAt rules (rules.rank most fills trail value + 1) []
    (.atRoot trail id value) (Call.isBelowTrail_atRoot trail) (by simp)
  rw [Call.visited_atRoot] at happly
  exact hanswer.trans happly

/-- Filling in a default is nothing but applying its schema to it. -/
theorem fillAt_nil_eq_apply {property : Schema} (hproperty : rules.schemas.get? part = some property)
    (hdefault : property.default? = some literal) :
    rules.fillAt [] part literal = rules.apply part (.ofJson literal) := by
  have hfree : part ∈ rules.schemas.ids ∧ part ∉ ([] : List SchemaId) :=
    ⟨SchemaTable.mem_ids_of_get? hproperty, List.not_mem_nil⟩
  rw [fillAt, if_pos hfree]
  by_cases hfilled : (rules.applyAt [part] [] part (.ofJson literal)).HasEnded
  · exact applyAt_approximates_unfilled [part] [] part _ hfilled
  · by_cases happlied : (rules.apply part (.ofJson literal)).HasEnded
    · obtain ⟨depth, hdepth⟩ := returns_start_iff.2 happlied
      obtain ⟨least, -, hleast, hbefore⟩ := exists_least_answer hdepth
      have hstuck : ∀ other ∈ [part], rules.IsStuck least other := by
        rw [List.forall_mem_singleton]
        exact isStuck_of_not_hasEnded hproperty hdefault hbefore
      have hsame := answer_approximates_applyAt rules (least + 1) [part]
        (.start part (.ofJson literal)) Call.isBelowTrail_start hstuck
      exact absurd (hsame.hasEnded hleast) hfilled
    · rw [not_not.1 hfilled, not_not.1 happlied]

end SchemaRules

end ApiContract
