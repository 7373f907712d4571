import ApiContract.Proofs.Reporting

/-!
# What a request is judged by

A validator looks at a request only through the operation that is found for it, the texts that the
styles extract for the parameters and the credentials of that operation, and the body with its type.
Two requests that agree in these are judged alike, whatever else they hold.  So to show that a part
of a request does not matter, it is enough to follow it through the styles.
-/

namespace ApiContract

/-- The text that holds a parameter is all that a style sees of a message. -/
theorem StyleRegistry.extract_eq_of_rawText? (styles : StyleRegistry) (table : SchemaTable)
    {parameter : Parameter} {sources sources' : ParameterSources}
    (hraw : sources.rawText? parameter = sources'.rawText? parameter) :
    styles.extract table parameter sources = styles.extract table parameter sources' := by
  unfold extract read?
  rw [hraw]

namespace SecurityRules

variable {rules : SecurityRules} {sources sources' : ParameterSources}

theorem credential?_congr {name : String} {place : Place}
    (hextract : rules.styles.extract rules.schemas (.new name place none) sources =
      rules.styles.extract rules.schemas (.new name place none) sources') :
    rules.credential? sources name place = rules.credential? sources' name place := by
  unfold credential?
  rw [hextract]

theorem check_congr {scheme : String}
    (hauthorization : rules.credential? sources "Authorization" .header =
      rules.credential? sources' "Authorization" .header)
    (hkey : ∀ key place, Entries.get? rules.schemes scheme = some (.apiKey key place) →
      rules.credential? sources key place = rules.credential? sources' key place) :
    rules.check sources scheme = rules.check sources' scheme := by
  unfold check checkHttp
  rw [hauthorization]
  cases hscheme : Entries.get? rules.schemes scheme with
  | none => rfl
  | some declared =>
      cases declared with
      | apiKey key place => simp only [hkey key place hscheme]
      | http name format? => rfl
      | oauth2 => rfl
      | openIdConnect => rfl
      | mutualTls => rfl

end SecurityRules

namespace Validator

variable {validator : Validator} {request request' : Request}

/-- Two requests for an operation show a validator the same parameters, credentials and body. -/
structure SeesAlike (validator : Validator) (found : FoundOperation) (request request' : Request) :
    Prop where
  parameter : ∀ parameter ∈ found.operation.parameters,
    validator.styles.extract validator.contract.schemas parameter
        (.ofRequest request found.captures) =
      validator.styles.extract validator.contract.schemas parameter
        (.ofRequest request' found.captures)
  scheme : ∀ scheme ∈ found.operation.security.flatMap Entries.keys,
    validator.securityRules.check (.ofRequest request found.captures) scheme =
      validator.securityRules.check (.ofRequest request' found.captures) scheme
  contentType? : request.effectiveContentType? = request'.effectiveContentType?
  body : request.body = request'.body

theorem SeesAlike.judgeParameters {found : FoundOperation}
    (halike : validator.SeesAlike found request request') (part : Parameter → Part) :
    validator.judgeParameters found.operation.parameters (.ofRequest request found.captures) part =
      validator.judgeParameters found.operation.parameters (.ofRequest request' found.captures)
        part := by
  unfold Validator.judgeParameters
  congr 1
  apply List.map_congr_left
  intro parameter hmem
  unfold judgeParameter parameterValue?
  rw [halike.parameter parameter hmem]

theorem SeesAlike.judgeRequestBody {found : FoundOperation}
    (halike : validator.SeesAlike found request request') :
    validator.judgeRequestBody found.operation request =
      validator.judgeRequestBody found.operation request' := by
  unfold Validator.judgeRequestBody
  rw [halike.body, halike.contentType?]

theorem SeesAlike.judgeSecurity {found : FoundOperation}
    (halike : validator.SeesAlike found request request') :
    validator.judgeSecurity found.operation (.ofRequest request found.captures) =
      validator.judgeSecurity found.operation (.ofRequest request' found.captures) := by
  unfold Validator.judgeSecurity
  rw [SecurityRules.validate_congr halike.scheme]

theorem validateRequest_eq_of_seesAlike
    (hfind : validator.router.find request.method request.path =
      validator.router.find request'.method request'.path)
    (halike : ∀ found, validator.router.find request.method request.path = .ok found →
      validator.SeesAlike found request request') :
    validator.validateRequest request = validator.validateRequest request' := by
  cases hfound : validator.router.find request.method request.path with
  | error fault =>
      rw [validateRequest, validateRequest, ← hfind, hfound]
  | ok found =>
      have hsees := halike found hfound
      rw [validateRequest_of_find hfound, validateRequest_of_find (hfind.symm.trans hfound),
        hsees.judgeParameters, hsees.judgeRequestBody, hsees.judgeSecurity]

end Validator

end ApiContract
