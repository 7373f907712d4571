import ApiContract.Proofs.Correspondence
import ApiContract.Proofs.Extension

/-!
# Seeing through a schema that asks for nothing but another

A detour accepts a value as it came in and has the other schema judge it too, so both results are
merged.  The other result takes over, because typing keeps the members of an object in front and in
order.  Two things can tell a detour from the schema behind it: a number that is not a number, which
differs from itself, and null, for which compositions are searched to a bounded depth.
-/

namespace ApiContract

namespace SchemaRules

variable {rules other : SchemaRules} {fills trail : List SchemaId} {id : SchemaId}
  {value typed : Value} {schema : Schema}

/-! ## Detours -/

theorem all_pair {α : Type} {value : α} {judgement : Judgement α}
    (hexplained : judgement.IsExplained) :
    Judgement.all [.accepted value, judgement] = judgement.map fun result => [value, result] := by
  cases judgement with
  | accepted result => rfl
  | rejected violations =>
      cases violations with
      | nil => exact absurd rfl hexplained
      | cons first rest => simp [Judgement.all, Judgement.gather, Judgement.map]
  | unending => rfl

/-- A detour merges what the schema behind it gives into the value as it came in. -/
theorem judgeParts_detour_eq {target : SchemaId} {near : Neighbours value}
    (hexplained : (near.here target).IsExplained) :
    rules.judgeParts (.detour target) value near = (near.here target).map (value.merge value) := by
  have hown : rules.judgeOwn (.detour target) value near = .accepted value :=
    judgeOwn_of_isUnbounded ⟨rfl, rfl, rfl⟩
  have hparts : rules.judgeParts (.detour target) value near =
      (Judgement.all [rules.judgeOwn (.detour target) value near, near.here target]).map
        value.mergeAll := rfl
  rw [hparts, hown, all_pair hexplained]
  cases near.here target <;> rfl

/-- A detour gives what the schema behind it gives, if that takes over from the value as it came
in. -/
theorem judgeParts_detour {target : SchemaId} {near : Neighbours value}
    (hexplained : (near.here target).IsExplained)
    (hmerged : ∀ typed, near.here target = .accepted typed → value.merge value typed = typed) :
    rules.judgeParts (.detour target) value near = near.here target := by
  rw [judgeParts_detour_eq hexplained]
  revert hmerged
  generalize near.here target = judgement
  intro hmerged
  cases judgement with
  | accepted typed => exact congrArg Judgement.accepted (hmerged typed rfl)
  | rejected violations => rfl
  | unending => rfl

/-- How many steps of composition are searched for null behind the one of a detour. -/
def nullStepsBehind : ℕ := nullSteps - 1

theorem admitsNull_detour {table : SchemaTable} {target : SchemaId}
    (hget : table.get? target = some schema) (steps : ℕ) :
    admitsNull table (steps + 1) (.detour target) = admitsNull table steps schema := by
  rw [admitsNull_succ]
  simp [Schema.detour, Schema.effectiveType?, memberAdmitsNull, hget]

theorem judge_null_detour {target : SchemaId} {near : Neighbours .null}
    (hnull : admitsNull rules.schemas nullSteps (.detour target) = true) :
    rules.judge (.detour target) .null near = rules.judgeParts (.detour target) .null near :=
  judge_of_takesApart fun _ => ⟨rfl, by simp [Schema.detour], hnull, rfl⟩

end SchemaRules

/-! ## Chains of detours -/

/-- So many detours, one behind the other, lead from a schema to the last one. -/
inductive SchemaTable.LeadsIn (table : SchemaTable) (last : SchemaId) : ℕ → SchemaId → Prop
  | here : table.LeadsIn last 0 last
  | detour {count : ℕ} {id next : SchemaId} (hget : table.get? id = some (.detour next))
      (hleads : table.LeadsIn last count next) : table.LeadsIn last (count + 1) id

namespace SchemaRules

variable {rules : SchemaRules} {table : SchemaTable} {fills trail : List SchemaId}
  {id last next : SchemaId} {count steps : ℕ} {value : Value}

theorem memberAdmitsNull_detour (hget : table.get? id = some (.detour next)) (steps : ℕ) :
    memberAdmitsNull table (steps + 1) id = memberAdmitsNull table steps next := by
  rw [memberAdmitsNull, hget]
  cases hnext : table.get? next with
  | some schema => simp only [memberAdmitsNull, hnext, admitsNull_detour hnext]
  | none =>
      have hmissing : memberAdmitsNull table steps next = true := by rw [memberAdmitsNull, hnext]
      simp [admitsNull_succ, Schema.detour, Schema.effectiveType?, hmissing]

theorem memberAdmitsNull_zero_detour (hget : table.get? id = some (.detour next)) :
    memberAdmitsNull table 0 id = false := by
  rw [memberAdmitsNull, hget]
  rfl

/-- Each detour takes one step of the search for null. -/
theorem memberAdmitsNull_of_leadsIn (hleads : table.LeadsIn last count id) (steps : ℕ) :
    memberAdmitsNull table (steps + count) id = memberAdmitsNull table steps last := by
  induction hleads with
  | here => rfl
  | detour hget _ ih => rw [← ih, ← Nat.add_assoc, memberAdmitsNull_detour hget]

theorem memberAdmitsNull_of_leadsIn_of_lt (hleads : table.LeadsIn last count id)
    (hlt : steps < count) : memberAdmitsNull table steps id = false := by
  induction hleads generalizing steps with
  | here => exact absurd hlt (Nat.not_lt_zero steps)
  | detour hget _ ih =>
      cases steps with
      | zero => exact memberAdmitsNull_zero_detour hget
      | succ steps =>
          rw [memberAdmitsNull_detour hget]
          exact ih (Nat.lt_of_succ_lt_succ hlt)

/-- A value that the last schema of a chain leaves alone is left alone by the whole chain, null only
if the search for it gets to the end. -/
theorem applyAt_of_leadsIn (hleads : rules.schemas.LeadsIn last count id)
    (hnull : value = .null → count ≤ nullSteps ∧
      ∀ steps, nullSteps ≤ steps + count → memberAdmitsNull rules.schemas steps last = true)
    (hmerge : value.merge value value = value)
    (hend : ∀ trail, rules.applyAt fills trail last value = .accepted value)
    (trail : List SchemaId) : rules.applyAt fills trail id value = .accepted value := by
  induction hleads generalizing trail with
  | here => exact hend trail
  | @detour count id next hget hleads ih =>
      by_cases hmem : id ∈ trail
      · exact applyAt_of_mem hmem
      have hbehind : rules.applyAt fills (id :: trail) next value = .accepted value := by
        refine ih (fun heq => ?_) (id :: trail)
        obtain ⟨hle, hfound⟩ := hnull heq
        exact ⟨by omega, fun steps hsteps => hfound steps (by omega)⟩
      have hparts : rules.judgeParts (.detour next) value
          (rules.neighbours fills (id :: trail) value) = .accepted value := by
        rw [← hbehind]
        refine judgeParts_detour (isExplained_applyAt _ _ _ _ _) fun typed htyped => ?_
        obtain rfl := Judgement.accepted.inj (hbehind.symm.trans htyped)
        exact hmerge
      rw [applyAt_eq_judge hget hmem, ← hparts]
      by_cases heq : value = .null
      · subst heq
        obtain ⟨hle, hfound⟩ := hnull rfl
        have hadmits : memberAdmitsNull rules.schemas nullSteps id = true := by
          have hsteps : nullSteps = nullSteps - (count + 1) + (count + 1) := by omega
          rw [hsteps, memberAdmitsNull_of_leadsIn (.detour hget hleads)]
          exact hfound _ (by omega)
        rw [memberAdmitsNull, hget] at hadmits
        exact judge_null_detour hadmits
      · exact judge_of_ne_null heq

/-- Null gets through as many detours as the search for it has steps, and through no more. -/
theorem apply_null_of_leadsIn {schema : Schema} (hleads : rules.schemas.LeadsIn last count id)
    (hget : rules.schemas.get? last = some schema) (hnullable : schema.nullable = true) :
    rules.apply id .null = if count ≤ nullSteps then .accepted .null else refuse .nullNotAllowed := by
  split
  · next hle =>
      refine applyAt_of_leadsIn hleads (fun _ => ⟨hle, fun steps _ => ?_⟩) rfl (fun trail => ?_) []
      · rw [memberAdmitsNull, hget]
        exact admitsNull_of_free (by rw [hnullable, Bool.true_or])
      · by_cases hmem : last ∈ trail
        · exact applyAt_of_mem hmem
        · rw [applyAt_eq_judge hget hmem]
          exact judge_null_of_takesNull (.inl hnullable)
  · next hgt =>
      have hrefused := memberAdmitsNull_of_leadsIn_of_lt hleads (Nat.lt_of_not_le hgt)
      cases hleads with
      | here => exact absurd (Nat.zero_le _) hgt
      | detour hfirst hleads =>
          rw [memberAdmitsNull, hfirst] at hrefused
          rw [apply, applyAt_eq_judge hfirst List.not_mem_nil]
          exact judge_null_of_admitsNull_eq_false hrefused

end SchemaRules

/-- Objects inside the value have distinct names, and no number inside it differs from itself. -/
structure Value.IsPlain (value : Value) : Prop where
  keyed : value.Keyed
  same : value.same value

namespace SchemaRules

variable {P : Pairing} {rules other : SchemaRules}

/-- A detour gives the judgement of the schema that it leads around to, where null is searched for
with a step to spare. -/
theorem seesThrough {good : SchemaId → Value → Prop} (hrules : rules.Correspond P other)
    (htable : rules.schemas.IsKeyed) (hplain : ∀ id value, good id value → value.IsPlain)
    (hroom : ∀ filled id schema, P.admits filled id → rules.schemas.get? id = some schema →
      admitsNull rules.schemas nullSteps schema =
        admitsNull rules.schemas nullStepsBehind schema) :
    SeesThrough P rules other good := by
  intro filled first second target value fills fills' hadmits hdetour htwin hlead hgood heq
  have hvalue := hplain first value hgood
  obtain ⟨schema, schema', hget, hget', halike⟩ := hrules.settles.alike first target htwin
  have hparts : other.judgeParts (.detour target) value (other.neighbours fills' [second] value) =
      rules.applyAt fills [] first value := by
    rw [← heq]
    refine judgeParts_detour (isExplained_applyAt _ _ _ _ _) fun typed htyped => ?_
    have hextends := extends_of_applyAt htable fills [] first value hvalue.keyed typed
      (heq.symm.trans htyped)
    exact Value.merge_raw_of_extends hextends hvalue.same
  rw [applyAt_eq_judge hlead List.not_mem_nil]
  by_cases hnull : value = .null
  · subst hnull
    have hsearch : admitsNull other.schemas nullSteps (.detour target) =
        admitsNull rules.schemas nullSteps schema := by
      rw [hroom filled first schema hadmits hget, ← admitsNull_eq hrules.settles _ halike]
      exact admitsNull_detour hget' nullStepsBehind
    cases hfound : admitsNull rules.schemas nullSteps schema with
    | true => rw [judge_null_detour (hsearch.trans hfound), hparts]
    | false =>
        rw [judge_null_of_admitsNull_eq_false (hsearch.trans hfound),
          applyAt_eq_judge hget List.not_mem_nil, judge_null_of_admitsNull_eq_false hfound]
  · rw [judge_of_ne_null hnull, hparts]

end SchemaRules

end ApiContract
