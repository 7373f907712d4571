import ApiContract.Exchange.Validator
import ApiContract.Proofs.Application
import ApiContract.Proofs.SchemeGroups

/-!
# Success is the absence of violations

A refusal without violations would claim to be valid and yet have no value.  None is ever made: not
by a schema, at whatever value and below whatever other schemas it is applied, not by the check of
credentials, and not by the judgement of a whole request or response.
-/

namespace ApiContract

namespace SecurityRules

/-- When no group of schemes is satisfied, some scheme of the first group is at fault. -/
theorem validate_ne_error_nil (rules : SecurityRules) (groups : List SecurityGroup)
    (sources : ParameterSources) : rules.validate groups sources ≠ .error [] := by
  rw [validate_eq]
  split
  · simp
  · next hgroups =>
      split
      · simp
      · next hunsatisfied =>
          obtain ⟨group, rest, rfl⟩ : ∃ group rest, groups = group :: rest :=
            List.exists_cons_of_ne_nil (by simpa using hgroups)
          have hgroup := List.find?_eq_none.1 hunsatisfied group List.mem_cons_self
          simp only [isSatisfied, List.all_eq_true, not_forall] at hgroup
          obtain ⟨name, hname, hfault⟩ := hgroup
          obtain ⟨violation, hviolation⟩ : ∃ violation, rules.fault? sources name = some violation :=
            Option.ne_none_iff_exists'.1 (by simpa using hfault)
          have hmem : violation ∈
              (((group :: rest).flatMap Entries.keys).eraseDups.filterMap (rules.fault? sources)) := by
            refine List.mem_filterMap.2 ⟨name, ?_, hviolation⟩
            exact List.mem_eraseDups.2 (List.mem_flatMap.2 ⟨group, List.mem_cons_self, hname⟩)
          intro hnil
          rw [Except.error.inj hnil] at hmem
          exact List.not_mem_nil hmem

end SecurityRules

namespace Validator

variable (validator : Validator)

theorem isExplained_judgeValue (schema? : Option SchemaId) (value : Value) :
    (validator.judgeValue schema? value).IsExplained := by
  cases schema? with
  | none => exact Judgement.isExplained_accepted value
  | some id => exact SchemaRules.isExplained_applyAt _ _ _ _ _

theorem isExplained_judgeParameter (parameter : Parameter) (sources : ParameterSources)
    (part : Part) : (validator.judgeParameter parameter sources part).IsExplained := by
  unfold judgeParameter
  split
  · exact Judgement.isExplained_refuse _
  · exact Judgement.isExplained_accepted _
  · rw [Judgement.isExplained_map, Judgement.isExplained_attach]
    exact validator.isExplained_judgeValue _ _

theorem isExplained_judgeContent (content : Content) (contentType? : Option String)
    (bytes : List UInt8) : (validator.judgeContent content contentType? bytes).IsExplained := by
  unfold judgeContent
  split
  · exact Judgement.isExplained_refuse _
  · split
    · exact Judgement.isExplained_refuse _
    · rw [Judgement.isExplained_attach]
      exact validator.isExplained_judgeValue _ _

theorem isExplained_judgeRequestBody (operation : Operation) (request : Request) :
    (validator.judgeRequestBody operation request).IsExplained := by
  unfold judgeRequestBody
  split
  · exact Judgement.isExplained_accepted _
  · split
    · split
      · exact Judgement.isExplained_refuse _
      · exact Judgement.isExplained_accepted _
    · rw [Judgement.isExplained_map]
      exact validator.isExplained_judgeContent _ _ _

theorem isExplained_judgeSecurity (operation : Operation) (sources : ParameterSources) :
    (validator.judgeSecurity operation sources).IsExplained := by
  unfold judgeSecurity
  split
  · exact Judgement.isExplained_ofExcept.2 (SecurityRules.validate_ne_error_nil _ _ _)
  · exact Judgement.isExplained_accepted _

theorem isExplained_judgeParameters (parameters : List Parameter) (sources : ParameterSources)
    (part : Parameter → Part) :
    (validator.judgeParameters parameters sources part).IsExplained :=
  Judgement.isExplained_all _

theorem isExplained_validateRequest (request : Request) :
    (validator.validateRequest request).IsExplained := by
  unfold validateRequest
  split
  · exact Judgement.isExplained_refuse _
  · rw [Judgement.isExplained_map]
    apply (validator.isExplained_judgeParameters _ _ _).both
    exact (validator.isExplained_judgeRequestBody _ _).both
      (validator.isExplained_judgeSecurity _ _)

theorem isExplained_validateResponse (request : Request) (response : Response) :
    (validator.validateResponse request response).IsExplained := by
  unfold validateResponse
  split
  · exact Judgement.isExplained_refuse _
  · split
    · exact Judgement.isExplained_refuse _
    · rw [Judgement.isExplained_map]
      apply (validator.isExplained_judgeParameters _ _ _).both
      split
      · exact Judgement.isExplained_accepted _
      · rw [Judgement.isExplained_map]
        exact validator.isExplained_judgeContent _ _ _

end Validator

/-- Whatever is judged, a value comes of it exactly when no violation does: by a schema below any
others, by the check of credentials, and for whole messages. -/
theorem value_iff_no_violation :
    (∀ (rules : SchemaRules) (fills trail : List SchemaId) (id : SchemaId) (value : Value),
      (rules.applyAt fills trail id value).IsDecisive) ∧
    (∀ (rules : SecurityRules) (groups : List SecurityGroup) (sources : ParameterSources),
      rules.validate groups sources ≠ .error []) ∧
    (∀ (validator : Validator) (request : Request),
      (validator.validateRequest request).IsDecisive) ∧
    (∀ (validator : Validator) (request : Request) (response : Response),
      (validator.validateResponse request response).IsDecisive) := by
  refine ⟨fun rules fills trail id value => ?_, SecurityRules.validate_ne_error_nil,
    fun validator request => ?_, fun validator request response => ?_⟩
  · exact (Judgement.isExplained_iff_isDecisive _).1
      (SchemaRules.isExplained_applyAt rules fills trail id value)
  · exact (Judgement.isExplained_iff_isDecisive _).1 (validator.isExplained_validateRequest request)
  · exact (Judgement.isExplained_iff_isDecisive _).1
      (validator.isExplained_validateResponse request response)

end ApiContract
