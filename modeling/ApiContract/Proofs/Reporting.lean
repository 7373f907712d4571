import ApiContract.Exchange.Validator
import ApiContract.Proofs.Compiled
import ApiContract.Proofs.Decisive
import Mathlib.Tactic

/-!
# Nothing hides anything

Once the operation of a message is found, every part of the message is judged, whatever is wrong with
the others.  The violations are those of each parameter on its own, in the order in which the
parameters are declared, followed by those of the body and of the credentials; each names the part it
came from.  A message without violations carries the value of every parameter that is given, and no
parameter takes the place of another, because the parameters of a compiled operation are distinct.
-/

namespace ApiContract

/-! ## Collecting parameters -/

namespace ParameterValues

@[simp] theorem valuesAt_empty (place : Place) : ({} : ParameterValues).valuesAt place = [] := by
  cases place <;> rfl

theorem valuesAt_insert_self (values : ParameterValues) (place : Place) (name : String)
    (value : Value) :
    (values.insert place name value).valuesAt place =
      Entries.insert (values.valuesAt place) name value := by
  cases place <;> rfl

theorem valuesAt_insert_of_ne (values : ParameterValues) {place other : Place} (name : String)
    (value : Value) (hne : other ≠ place) :
    (values.insert place name value).valuesAt other = values.valuesAt other := by
  cases place <;> cases other <;> first | rfl | exact absurd rfl hne

end ParameterValues

namespace Validator

/-- The entry of a parameter among those of a place, if it is there and has a value. -/
def entryAt (place : Place) (parameter : Parameter) (value? : Option Value) :
    Option (String × Value) :=
  if parameter.place = place then value?.map fun value => (parameter.name, value) else none

/-- Parameters with new names at their places are put behind those that are collected. -/
theorem valuesAt_foldl_insert {values : List (Parameter × Option Value)}
    {collected : ParameterValues} (hdistinct : AreDistinct (values.map Prod.fst))
    (hnew : ∀ entry ∈ values,
      entry.1.name ∉ Entries.keys (collected.valuesAt entry.1.place)) (place : Place) :
    (values.foldl
      (fun collected (parameter, value?) =>
        match value? with
        | some value => collected.insert parameter.place parameter.name value
        | none => collected)
      collected).valuesAt place =
      collected.valuesAt place ++ values.filterMap fun entry => entryAt place entry.1 entry.2 := by
  induction values generalizing collected with
  | nil => simp
  | cons first rest ih =>
      obtain ⟨parameter, value?⟩ := first
      rw [List.map_cons, AreDistinct, List.pairwise_cons] at hdistinct
      rw [List.forall_mem_cons] at hnew
      obtain ⟨hfirst, hrest⟩ := hdistinct
      cases value? with
      | none =>
          rw [List.foldl_cons, ih hrest hnew.2, List.filterMap_cons_none]
          simp [entryAt]
      | some value =>
          have hlater : ∀ entry ∈ rest, entry.1.name ∉ Entries.keys
              ((collected.insert parameter.place parameter.name value).valuesAt
                entry.1.place) := by
            intro entry hmem
            by_cases hplace : entry.1.place = parameter.place
            · have hname : entry.1.name ≠ parameter.name := fun hname =>
                hfirst entry.1 (List.mem_map_of_mem hmem) ⟨hname.symm, hplace.symm⟩
              rw [hplace, ParameterValues.valuesAt_insert_self, Entries.insert_of_notMem hnew.1]
              simpa [Entries.keys, hname, hplace] using hnew.2 entry hmem
            · rw [ParameterValues.valuesAt_insert_of_ne _ _ _ hplace]
              exact hnew.2 entry hmem
          rw [List.foldl_cons, ih hrest hlater]
          by_cases hplace : parameter.place = place
          · subst hplace
            rw [ParameterValues.valuesAt_insert_self, Entries.insert_of_notMem hnew.1]
            simp [entryAt]
          · rw [ParameterValues.valuesAt_insert_of_ne _ _ _ (Ne.symm hplace)]
            simp [entryAt, hplace]

theorem valuesAt_collect {values : List (Parameter × Option Value)}
    (hdistinct : AreDistinct (values.map Prod.fst)) (place : Place) :
    (collect values).valuesAt place =
      values.filterMap fun entry => entryAt place entry.1 entry.2 := by
  have hfold := @valuesAt_foldl_insert values {} hdistinct (by simp [Entries.keys]) place
  rw [ParameterValues.valuesAt_empty, List.nil_append] at hfold
  exact hfold

/-! ## Every parameter on its own -/

/-- What is collected of parameters is what each of them comes to on its own. -/
structure Holds (parameters : List Parameter) (alone : Parameter → Judgement (Option Value))
    (values : ParameterValues) : Prop where
  entries : ∀ place, values.valuesAt place =
    parameters.filterMap fun parameter => entryAt place parameter (alone parameter).value?.join
  distinct : ∀ place, Entries.Distinct (values.valuesAt place)
  get? : ∀ parameter ∈ parameters,
    values.get? parameter.place parameter.name = (alone parameter).value?.join

theorem eq_of_same {parameters : List Parameter} (hdistinct : AreDistinct parameters)
    {a b : Parameter} (ha : a ∈ parameters) (hb : b ∈ parameters) (hname : a.name = b.name)
    (hplace : a.place = b.place) : a = b := by
  by_contra hne
  have hsymm : Std.Symm fun a b : Parameter => ¬ (a.name = b.name ∧ a.place = b.place) :=
    ⟨fun _ _ hnot hsame => hnot ⟨hsame.1.symm, hsame.2.symm⟩⟩
  exact hdistinct.forall ha hb hne ⟨hname, hplace⟩

theorem mem_filterMap_entryAt {parameters : List Parameter} {value? : Parameter → Option Value}
    {place : Place} {name : String} {value : Value} :
    (name, value) ∈ parameters.filterMap (fun parameter =>
        entryAt place parameter (value? parameter)) ↔
      ∃ parameter ∈ parameters, parameter.place = place ∧ parameter.name = name ∧
        value? parameter = some value := by
  rw [List.mem_filterMap]
  refine exists_congr fun parameter => and_congr_right fun _ => ?_
  unfold entryAt
  split
  · next hplace => simp [hplace, and_comm]
  · next hplace => simp [hplace]

theorem distinct_filterMap_entryAt {parameters : List Parameter}
    (hdistinct : AreDistinct parameters) (value? : Parameter → Option Value) (place : Place) :
    Entries.Distinct (parameters.filterMap fun parameter =>
      entryAt place parameter (value? parameter)) := by
  refine List.pairwise_map.2 (hdistinct.filterMap _ ?_)
  intro a b hnot x hx y hy heq
  unfold entryAt at hx hy
  split at hx
  · split at hy
    · next ha hb =>
        obtain ⟨value, -, rfl⟩ := Option.map_eq_some_iff.1 hx
        obtain ⟨other, -, rfl⟩ := Option.map_eq_some_iff.1 hy
        exact hnot ⟨heq, ha.trans hb.symm⟩
    · simp at hy
  · simp at hx

theorem holds_collect {parameters : List Parameter} {alone : Parameter → Judgement (Option Value)}
    {values : List (Parameter × Option Value)} (hdistinct : AreDistinct parameters)
    (hvalues : values = parameters.map fun parameter =>
      (parameter, (alone parameter).value?.join)) : Holds parameters alone (collect values) := by
  have hfst : values.map Prod.fst = parameters := by
    rw [hvalues, List.map_map]
    exact List.map_id' parameters
  have hentries : ∀ place, (collect values).valuesAt place = parameters.filterMap
      fun parameter => entryAt place parameter (alone parameter).value?.join := by
    intro place
    rw [valuesAt_collect (hfst.symm ▸ hdistinct), hvalues, List.filterMap_map]
    rfl
  have hkeys : ∀ place, Entries.Distinct ((collect values).valuesAt place) := by
    intro place
    rw [hentries]
    exact distinct_filterMap_entryAt hdistinct _ place
  refine ⟨hentries, hkeys, fun parameter hmem => Option.ext fun value => ?_⟩
  rw [ParameterValues.get?, (hkeys parameter.place).get?_eq_some_iff, hentries,
    mem_filterMap_entryAt]
  constructor
  · rintro ⟨other, hother, hplace, hname, hvalue⟩
    exact eq_of_same hdistinct hother hmem hname hplace ▸ hvalue
  · intro hvalue
    exact ⟨parameter, hmem, rfl, rfl, hvalue⟩

/-! ## Parameters one by one -/

variable {validator : Validator} {parameters : List Parameter} {sources : ParameterSources}
  {part : Parameter → Part}

theorem hasEnded_judgeParameters :
    (validator.judgeParameters parameters sources part).HasEnded ↔
      ∀ parameter ∈ parameters,
        (validator.judgeParameter parameter sources (part parameter)).HasEnded := by
  simp [judgeParameters, Judgement.hasEnded_all]

theorem violations_judgeParameters
    (hended : (validator.judgeParameters parameters sources part).HasEnded) :
    (validator.judgeParameters parameters sources part).violations =
      parameters.flatMap fun parameter =>
        (validator.judgeParameter parameter sources (part parameter)).violations := by
  rw [hasEnded_judgeParameters] at hended
  rw [judgeParameters, Judgement.violations_all (by simpa using hended), List.flatMap_map]
  simp only [Judgement.violations_map]

theorem eq_of_judgeParameters {values : List (Parameter × Option Value)}
    (haccepted : validator.judgeParameters parameters sources part = .accepted values) :
    values = parameters.map fun parameter =>
      (parameter, (validator.judgeParameter parameter sources (part parameter)).value?.join) := by
  rw [judgeParameters, Judgement.all_map_eq_accepted_iff] at haccepted
  · rw [← List.forall₂_eq_eq_eq, List.forall₂_map_right_iff]
    refine haccepted.flip.imp fun entry parameter hentry => ?_
    obtain ⟨value?, hvalue?, rfl⟩ := Judgement.map_eq_accepted_iff.1 hentry
    rw [hvalue?]
    rfl
  · intro parameter _
    rw [Judgement.isExplained_map]
    exact validator.isExplained_judgeParameter _ _ _

theorem judgeParameter_of_mem {values : List (Parameter × Option Value)}
    (haccepted : validator.judgeParameters parameters sources part = .accepted values)
    {parameter : Parameter} (hmem : parameter ∈ parameters) :
    ∃ value?, validator.judgeParameter parameter sources (part parameter) = .accepted value? := by
  have hall : (validator.judgeParameters parameters sources part).isAccepted :=
    Judgement.isAccepted_iff.2 ⟨values, haccepted⟩
  rw [judgeParameters, Judgement.isAccepted_all] at hall
  · have hone := hall _ (List.mem_map_of_mem hmem)
    rwa [Judgement.isAccepted_map, Judgement.isAccepted_iff] at hone
  · intro judgement hjudgement
    obtain ⟨other, -, rfl⟩ := List.mem_map.1 hjudgement
    rw [Judgement.isExplained_map]
    exact validator.isExplained_judgeParameter _ _ _

/-- A parameter is in the message, or its schema has a default for it. -/
def IsGiven (validator : Validator) (parameter : Parameter) (sources : ParameterSources) : Prop :=
  ∃ value?, validator.styles.extract validator.contract.schemas parameter sources = .ok value? ∧
    (value?.isSome ∨ ∃ id schema, parameter.schema? = some id ∧
      validator.contract.schemas.get? id = some schema ∧ schema.default?.isSome)

theorem isSome_parameterValue?_iff {parameter : Parameter} {raw? : Option Value}
    (hraw : validator.parameterValue? parameter sources = .ok raw?) :
    raw?.isSome ↔ validator.IsGiven parameter sources := by
  unfold parameterValue? at hraw
  unfold IsGiven
  cases hextract : validator.styles.extract validator.contract.schemas parameter sources with
  | error fault => simp [hextract] at hraw
  | ok found? =>
      rw [hextract] at hraw
      cases found? with
      | none =>
          obtain rfl := Except.ok.inj hraw
          simp only [Option.isSome_iff_exists, Option.bind_eq_some_iff, Option.map_eq_some_iff]
          constructor
          · rintro ⟨_, schema, ⟨id, hid, hget⟩, literal, hliteral, -⟩
            exact ⟨none, rfl, .inr ⟨id, schema, hid, hget, literal, hliteral⟩⟩
          · rintro ⟨_, ⟨⟩, hnone | ⟨id, schema, hid, hget, literal, hliteral⟩⟩
            · simp at hnone
            · exact ⟨_, schema, ⟨id, hid, hget⟩, literal, hliteral, rfl⟩
      | some found =>
          refine iff_of_true ?_ ⟨some found, rfl, .inl rfl⟩
          dsimp only at hraw
          split at hraw
          · obtain rfl := Except.ok.inj hraw
            rfl
          · split at hraw
            · obtain rfl := Except.ok.inj hraw
              rfl
            · simp at hraw

theorem isSome_value?_iff_isGiven {parameter : Parameter} {origin : Part} {value? : Option Value}
    (haccepted : validator.judgeParameter parameter sources origin = .accepted value?) :
    value?.isSome ↔ validator.IsGiven parameter sources := by
  unfold judgeParameter at haccepted
  split at haccepted
  · simp [Judgement.refuse] at haccepted
  · next hraw =>
      obtain rfl := Judgement.accepted.inj haccepted
      exact isSome_parameterValue?_iff hraw
  · next raw hraw =>
      obtain ⟨value, -, rfl⟩ := Judgement.map_eq_accepted_iff.1 haccepted
      exact iff_of_true rfl ((isSome_parameterValue?_iff hraw).1 rfl)

/-! ## The parts that violations name -/

theorem part_of_mem_attach {α : Type} {judgement : Judgement α} {origin : Part}
    {violation : Violation} (hmem : violation ∈ (judgement.attach origin).violations) :
    violation.part = origin := by
  cases judgement with
  | rejected found =>
      obtain ⟨_, -, rfl⟩ := List.mem_map.1 hmem
      rfl
  | _ => simp [Judgement.attach, Judgement.violations] at hmem

theorem part_of_mem_judgeParameter {parameter : Parameter} {origin : Part} {violation : Violation}
    (hmem : violation ∈ (validator.judgeParameter parameter sources origin).violations) :
    violation.part = origin := by
  unfold judgeParameter at hmem
  split at hmem
  · obtain rfl := List.mem_singleton.1 hmem
    rfl
  · simp [Judgement.violations] at hmem
  · rw [Judgement.violations_map] at hmem
    exact part_of_mem_attach hmem

theorem part_of_mem_judgeContent {content : Content} {contentType? : Option String}
    {bytes : List UInt8} {violation : Violation}
    (hmem : violation ∈ (validator.judgeContent content contentType? bytes).violations) :
    violation.part = .body := by
  unfold judgeContent at hmem
  split at hmem
  · obtain rfl := List.mem_singleton.1 hmem
    rfl
  · split at hmem
    · obtain rfl := List.mem_singleton.1 hmem
      rfl
    · exact part_of_mem_attach hmem

theorem part_of_mem_judgeRequestBody {operation : Operation} {request : Request}
    {violation : Violation}
    (hmem : violation ∈ (validator.judgeRequestBody operation request).violations) :
    violation.part = .body := by
  unfold judgeRequestBody at hmem
  split at hmem
  · simp [Judgement.violations] at hmem
  · split at hmem
    · split at hmem
      · obtain rfl := List.mem_singleton.1 hmem
        rfl
      · simp [Judgement.violations] at hmem
    · rw [Judgement.violations_map] at hmem
      exact part_of_mem_judgeContent hmem

/-- The violations of the credentials of a request, if they are wanted. -/
def securityViolations (validator : Validator) (operation : Operation)
    (sources : ParameterSources) : List Violation :=
  if validator.options.validateSecurity then
    match validator.securityRules.validate operation.security sources with
    | .ok _ => []
    | .error violations => violations
  else
    []

theorem violations_judgeSecurity {operation : Operation} :
    (validator.judgeSecurity operation sources).violations =
      validator.securityViolations operation sources := by
  unfold judgeSecurity securityViolations
  split
  · cases validator.securityRules.validate operation.security sources <;> rfl
  · rfl

theorem hasEnded_judgeSecurity {operation : Operation} :
    (validator.judgeSecurity operation sources).HasEnded := by
  unfold judgeSecurity
  split
  · cases validator.securityRules.validate operation.security sources with
    | ok schemes => exact Judgement.hasEnded_accepted schemes
    | error found => exact Judgement.hasEnded_rejected found
  · exact Judgement.hasEnded_accepted []

theorem part_of_mem_securityViolations {operation : Operation} {violation : Violation}
    (hmem : violation ∈ validator.securityViolations operation sources) :
    ∃ scheme ∈ operation.security.flatMap Entries.keys,
      validator.securityRules.fault? sources scheme = some violation ∧
        violation.part = .security scheme := by
  unfold securityViolations at hmem
  split at hmem
  · split at hmem
    · simp at hmem
    · next found hvalidate =>
        rw [SecurityRules.validate_eq] at hvalidate
        split at hvalidate
        · simp at hvalidate
        · split at hvalidate
          · simp at hvalidate
          · obtain rfl := Except.error.inj hvalidate
            obtain ⟨scheme, hscheme, hfault⟩ := List.mem_filterMap.1 hmem
            exact ⟨scheme, List.mem_eraseDups.1 hscheme, hfault, SecurityRules.part_of_fault? hfault⟩
  · simp at hmem

/-! ## Whole messages -/

/-- A declared parameter of a request, judged as if it were the only part of the request. -/
def requestParameter (validator : Validator) (request : Request) (captures : Entries String)
    (parameter : Parameter) : Judgement (Option Value) :=
  validator.judgeParameter parameter (.ofRequest request captures)
    (.parameter parameter.place parameter.name)

/-- All violations of a request, part by part. -/
def requestViolations (validator : Validator) (request : Request) (found : FoundOperation) :
    List Violation :=
  found.operation.parameters.flatMap (fun parameter =>
      (validator.requestParameter request found.captures parameter).violations) ++
    ((validator.judgeRequestBody found.operation request).violations ++
      validator.securityViolations found.operation (.ofRequest request found.captures))

/-- What a request comes to once its operation is found. -/
structure ReportsRequest (validator : Validator) (request : Request) (found : FoundOperation) :
    Prop where
  /-- Only a default that asks for itself keeps the parts from being judged. -/
  hasEnded : (validator.validateRequest request).HasEnded ↔
    (∀ parameter ∈ found.operation.parameters,
      (validator.requestParameter request found.captures parameter).HasEnded) ∧
    (validator.judgeRequestBody found.operation request).HasEnded
  violations : (validator.validateRequest request).HasEnded →
    (validator.validateRequest request).violations = validator.requestViolations request found
  isAccepted : (validator.validateRequest request).HasEnded →
    ((validator.validateRequest request).isAccepted ↔
      validator.requestViolations request found = [])
  parameters : ∀ values, validator.validateRequest request = .accepted values →
    Holds found.operation.parameters (validator.requestParameter request found.captures)
      values.parameters ∧
    ∀ parameter ∈ found.operation.parameters,
      ((values.parameters.get? parameter.place parameter.name).isSome ↔
        validator.IsGiven parameter (.ofRequest request found.captures))
  parameterPart : ∀ parameter ∈ found.operation.parameters,
    ∀ violation ∈ (validator.requestParameter request found.captures parameter).violations,
      violation.part = .parameter parameter.place parameter.name
  bodyPart : ∀ violation ∈ (validator.judgeRequestBody found.operation request).violations,
    violation.part = .body
  securityPart : ∀ violation ∈
      validator.securityViolations found.operation (.ofRequest request found.captures),
    ∃ scheme ∈ found.operation.security.flatMap Entries.keys, violation.part = .security scheme

theorem validateRequest_of_find {request : Request} {found : FoundOperation}
    (hfind : validator.router.find request.method request.path = .ok found) :
    validator.validateRequest request =
      ((validator.judgeParameters found.operation.parameters (.ofRequest request found.captures)
          fun parameter => .parameter parameter.place parameter.name).both
        ((validator.judgeRequestBody found.operation request).both
          (validator.judgeSecurity found.operation (.ofRequest request found.captures)))).map
        fun (values, body?, security) => { parameters := collect values, body?, security } := by
  rw [validateRequest, hfind]

theorem reportsRequest_of_find {request : Request} {found : FoundOperation}
    (hfind : validator.router.find request.method request.path = .ok found)
    (hdistinct : AreDistinct found.operation.parameters) :
    validator.ReportsRequest request found := by
  have hequation := validateRequest_of_find hfind
  have hviolations : (validator.validateRequest request).HasEnded →
      (validator.validateRequest request).violations =
        validator.requestViolations request found := by
    rw [hequation, Judgement.hasEnded_map, Judgement.hasEnded_both, Judgement.hasEnded_both]
    rintro ⟨hparameters, hbody, hsecurity⟩
    rw [Judgement.violations_map,
      Judgement.violations_both hparameters (Judgement.hasEnded_both.2 ⟨hbody, hsecurity⟩),
      Judgement.violations_both hbody hsecurity, violations_judgeParameters hparameters,
      violations_judgeSecurity]
    rfl
  refine ⟨?_, hviolations, ?_, ?_, ?_, ?_, ?_⟩
  · rw [hequation, Judgement.hasEnded_map, Judgement.hasEnded_both, Judgement.hasEnded_both,
      hasEnded_judgeParameters]
    simp [hasEnded_judgeSecurity, requestParameter]
  · intro hended
    rw [(validator.isExplained_validateRequest request).isAccepted_iff_violations hended,
      hviolations hended]
  · intro values hvalues
    rw [hequation] at hvalues
    obtain ⟨⟨listed, body?, security⟩, hboth, rfl⟩ := Judgement.map_eq_accepted_iff.1 hvalues
    obtain ⟨hlisted, -⟩ := Judgement.both_eq_accepted_iff.1 hboth
    have hholds := holds_collect hdistinct (eq_of_judgeParameters hlisted)
    refine ⟨hholds, fun parameter hmem => ?_⟩
    obtain ⟨value?, hvalue?⟩ := judgeParameter_of_mem hlisted hmem
    rw [hholds.get? parameter hmem, hvalue?]
    exact isSome_value?_iff_isGiven hvalue?
  · intro parameter _ violation hmem
    exact part_of_mem_judgeParameter hmem
  · intro violation hmem
    exact part_of_mem_judgeRequestBody hmem
  · intro violation hmem
    obtain ⟨scheme, hscheme, -, hpart⟩ := part_of_mem_securityViolations hmem
    exact ⟨scheme, hscheme, hpart⟩

/-- A declared header of a response, judged as if it were the only part of the response. -/
def responseHeader (validator : Validator) (response : Response) (header : Parameter) :
    Judgement (Option Value) :=
  validator.judgeParameter header (.ofResponse response) (.responseHeader header.name)

/-- The body of a response whose declaration is found. -/
def judgeResponseBody (validator : Validator) (declared : DeclaredResponse) (response : Response) :
    Judgement (Option Value) :=
  if declared.content.isEmpty || response.body.isEmpty then .accepted none
  else
    (validator.judgeContent declared.content response.effectiveContentType? response.body).map some

/-- All violations of a response, part by part. -/
def responseViolations (validator : Validator) (declared : DeclaredResponse)
    (response : Response) : List Violation :=
  declared.headers.flatMap (fun header => (validator.responseHeader response header).violations) ++
    (validator.judgeResponseBody declared response).violations

/-- What a response comes to once its declaration is found. -/
structure ReportsResponse (validator : Validator) (request : Request) (response : Response)
    (declared : DeclaredResponse) : Prop where
  hasEnded : (validator.validateResponse request response).HasEnded ↔
    (∀ header ∈ declared.headers, (validator.responseHeader response header).HasEnded) ∧
    (validator.judgeResponseBody declared response).HasEnded
  violations : (validator.validateResponse request response).HasEnded →
    (validator.validateResponse request response).violations =
      validator.responseViolations declared response
  isAccepted : (validator.validateResponse request response).HasEnded →
    ((validator.validateResponse request response).isAccepted ↔
      validator.responseViolations declared response = [])
  headers : ∀ values, validator.validateResponse request response = .accepted values →
    values.headers = declared.headers.filterMap (fun header =>
      (validator.responseHeader response header).value?.join.map fun value =>
        (header.name, value)) ∧
    Entries.Distinct values.headers ∧
    ∀ header ∈ declared.headers,
      Entries.get? values.headers header.name =
        (validator.responseHeader response header).value?.join ∧
      ((Entries.get? values.headers header.name).isSome ↔
        validator.IsGiven header (.ofResponse response))
  headerPart : ∀ header ∈ declared.headers,
    ∀ violation ∈ (validator.responseHeader response header).violations,
      violation.part = .responseHeader header.name
  bodyPart : ∀ violation ∈ (validator.judgeResponseBody declared response).violations,
    violation.part = .body

theorem validateResponse_of_find {request : Request} {response : Response}
    {found : FoundOperation} {declared : DeclaredResponse}
    (hfind : validator.router.find request.method request.path = .ok found)
    (hdeclared : findResponse? found.operation response.status = some declared) :
    validator.validateResponse request response =
      ((validator.judgeParameters declared.headers (.ofResponse response)
          fun header => .responseHeader header.name).both
        (validator.judgeResponseBody declared response)).map
        fun (values, body?) => { headers := (collect values).header, body? } := by
  rw [validateResponse, hfind]
  dsimp only
  rw [hdeclared]
  rfl

theorem part_of_mem_judgeResponseBody {declared : DeclaredResponse} {response : Response}
    {violation : Violation}
    (hmem : violation ∈ (validator.judgeResponseBody declared response).violations) :
    violation.part = .body := by
  unfold judgeResponseBody at hmem
  split at hmem
  · simp [Judgement.violations] at hmem
  · rw [Judgement.violations_map] at hmem
    exact part_of_mem_judgeContent hmem

theorem reportsResponse_of_find {request : Request} {response : Response}
    {found : FoundOperation} {declared : DeclaredResponse}
    (hfind : validator.router.find request.method request.path = .ok found)
    (hdeclared : findResponse? found.operation response.status = some declared)
    (hunambiguous : declared.IsUnambiguous) :
    validator.ReportsResponse request response declared := by
  have hequation := validateResponse_of_find hfind hdeclared
  have hviolations : (validator.validateResponse request response).HasEnded →
      (validator.validateResponse request response).violations =
        validator.responseViolations declared response := by
    rw [hequation, Judgement.hasEnded_map, Judgement.hasEnded_both]
    rintro ⟨hheaders, hbody⟩
    rw [Judgement.violations_map, Judgement.violations_both hheaders hbody,
      violations_judgeParameters hheaders]
    rfl
  refine ⟨?_, hviolations, ?_, ?_, ?_, ?_⟩
  · rw [hequation, Judgement.hasEnded_map, Judgement.hasEnded_both, hasEnded_judgeParameters]
    rfl
  · intro hended
    rw [(validator.isExplained_validateResponse request response).isAccepted_iff_violations hended,
      hviolations hended]
  · intro values hvalues
    rw [hequation] at hvalues
    obtain ⟨⟨listed, body?⟩, hboth, rfl⟩ := Judgement.map_eq_accepted_iff.1 hvalues
    obtain ⟨hlisted, -⟩ := Judgement.both_eq_accepted_iff.1 hboth
    have hholds : Holds declared.headers (validator.responseHeader response) (collect listed) :=
      holds_collect hunambiguous.distinct (eq_of_judgeParameters hlisted)
    refine ⟨?_, hholds.distinct .header, fun header hmem => ?_⟩
    · refine (hholds.entries .header).trans (List.filterMap_congr fun header hmem => ?_)
      rw [entryAt, if_pos (hunambiguous.place header hmem)]
    · have hget : Entries.get? (collect listed).header header.name =
          (validator.responseHeader response header).value?.join := by
        have hown := hholds.get? header hmem
        rwa [hunambiguous.place header hmem] at hown
      obtain ⟨value?, hvalue?⟩ := judgeParameter_of_mem hlisted hmem
      refine ⟨hget, ?_⟩
      rw [hget, responseHeader, hvalue?]
      exact isSome_value?_iff_isGiven hvalue?
  · intro header _ violation hmem
    exact part_of_mem_judgeParameter hmem
  · intro violation hmem
    exact part_of_mem_judgeResponseBody hmem

theorem isUnambiguous_of_findResponse? {operation : Operation} {status : Nat}
    {declared : DeclaredResponse} (hoperation : operation.IsUnambiguous)
    (hdeclared : findResponse? operation status = some declared) : declared.IsUnambiguous := by
  have hget : ∀ name, Entries.get? operation.responses name = some declared →
      declared.IsUnambiguous :=
    fun name hget => hoperation.responses _ (Entries.mem_of_get? hget)
  simp only [findResponse?, Option.or_eq_some_iff] at hdeclared
  rcases hdeclared with hown | ⟨-, hrange | ⟨-, hdefault⟩⟩
  · exact hget _ hown
  · exact hget _ hrange
  · exact hget _ hdefault

/-- A validator as it is built, with the router of a compiled contract. -/
structure IsBuilt (validator : Validator) : Prop where
  compiled : validator.contract.IsCompiled
  router : Router.ofContract validator.contract = .ok validator.router

/-- Only a failed search ends the judgement of a message early, and then with a single violation.
Otherwise every part is reported, whatever the other parts come to, and every parameter or header
that is given is there with its own value. -/
theorem reports_every_part (validator : Validator) (hbuilt : validator.IsBuilt) :
    (∀ request : Request,
      match validator.router.find request.method request.path with
      | .error _ => ∃ violation,
          validator.validateRequest request = .rejected [violation] ∧ violation.part = .operation
      | .ok found => validator.ReportsRequest request found) ∧
    (∀ (request : Request) (response : Response),
      match validator.router.find request.method request.path with
      | .error _ => ∃ violation,
          validator.validateResponse request response = .rejected [violation] ∧
            violation.part = .operation
      | .ok found =>
        match findResponse? found.operation response.status with
        | none => ∃ violation,
            validator.validateResponse request response = .rejected [violation] ∧
              violation.part = .response
        | some declared => validator.ReportsResponse request response declared) := by
  have hfound : ∀ {method path : String} {found : FoundOperation},
      validator.router.find method path = .ok found → found.operation.IsUnambiguous :=
    fun hfind => hbuilt.compiled.isUnambiguous _
      (Router.mem_operations_of_find hbuilt.router hfind)
  constructor
  · intro request
    split
    · next fault hfind =>
        exact ⟨fault.violation, by rw [validateRequest, hfind]; rfl, rfl⟩
    · next found hfind => exact reportsRequest_of_find hfind (hfound hfind).distinct
  · intro request response
    split
    · next fault hfind =>
        exact ⟨fault.violation, by rw [validateResponse, hfind]; rfl, rfl⟩
    · next found hfind =>
        split
        · next hnone =>
            refine ⟨(MessageFault.undeclaredStatus response.status).violation, ?_, rfl⟩
            rw [validateResponse, hfind]
            dsimp only
            rw [hnone]
            rfl
        · next declared hdeclared =>
            exact reportsResponse_of_find hfind hdeclared
              (isUnambiguous_of_findResponse? (hfound hfind) hdeclared)

/-- A header and a parameter of the query with one name, the latter shared by all operations of the
path, are both reported.  Of a response that lacks a header and has a body of another type than the
declared one, both are reported too. -/
theorem reports_header_and_query_of_one_name :
    let query : Json := .object [("name", .string "q"), ("in", .string "query")]
    let header : Json := .object [("name", .string "q"), ("in", .string "header")]
    let response : Json := .object [
      ("headers", .object [("Length", .object [("required", .bool true)])]),
      ("content", .object [("application/json", .object [])])]
    let json : Json := .object [("openapi", .string "3.1.0"), ("paths", .object [("/a", .object [
      ("parameters", .array [query]),
      ("get", .object [("parameters", .array [header]),
        ("responses", .object [("200", response)])])])])]
    let length : Parameter :=
      { name := "Length", place := .header, required := true, style := .simple, explode := false }
    let declared : DeclaredResponse :=
      { content := [("application/json", none)], headers := [length] }
    let operation : Operation := {
      method := "GET"
      path := "/a"
      parameters := [
        { name := "q", place := .header, required := false, style := .simple, explode := false },
        { name := "q", place := .query, required := false, style := .form, explode := true }]
      responses := [("200", declared)] }
    let validator : Validator := {
      contract := { operations := [operation] }
      router := ⟨[⟨⟨"/a", [.literal ['a']]⟩, [operation]⟩], []⟩ }
    let request : Request := .new "GET" "/a?q=x"
    let answer : Response := { status := 200, contentType? := some "text/plain", body := [97] }
    Contract.ofJson json = .ok validator.contract ∧ validator.IsBuilt ∧
      validator.ReportsRequest request ⟨operation, []⟩ ∧
      validator.ReportsResponse request answer declared ∧
      (validator.validateResponse request answer).violations.map Violation.part =
        [.responseHeader "Length", .body] := by
  intro query header response json length declared operation validator request answer
  have hkeyed : json.Keyed := by decide +revert
  have hcompile : Contract.ofJson json = .ok validator.contract := by with_unfolding_all rfl
  have htemplate : PathTemplate.ofText "/a" = .ok ⟨"/a", [.literal ['a']]⟩ := by
    with_unfolding_all rfl
  have hroutes : [operation].foldlM Router.addOperation [] = .ok validator.router.routes := by
    rw [List.foldlM_cons, Router.addOperation, htemplate]
    rfl
  have hrouter : Router.ofContract validator.contract = .ok validator.router := by
    rw [Router.ofContract, Router.ofOperations, hroutes]
    change Except.ok (Router.mk (List.mergeSort [_] _) []) = _
    rw [List.mergeSort_singleton]
  have hbuilt : validator.IsBuilt := ⟨⟨json, hkeyed, hcompile⟩, hrouter⟩
  have hpath : request.path = "/a" := by decide +kernel
  have hfind : validator.router.find request.method request.path = .ok ⟨operation, []⟩ := by
    rw [hpath]
    change validator.router.find "GET" "/a" = _
    with_unfolding_all rfl
  have hstatus : findResponse? operation answer.status = some declared := by
    have htext : toString 200 = "200" := by decide +kernel
    rw [findResponse?, htext]
    rfl
  obtain ⟨hrequests, hresponses⟩ := reports_every_part validator hbuilt
  have hrequest := hrequests request
  have hanswer := hresponses request answer
  rw [hfind] at hrequest hanswer
  dsimp only at hrequest hanswer
  rw [hstatus] at hanswer
  obtain ⟨missing, hmissing, hheader⟩ : ∃ violation,
      validator.responseHeader answer length = .rejected [violation] ∧
        violation.part = .responseHeader "Length" := by
    with_unfolding_all exact ⟨_, rfl, rfl⟩
  obtain ⟨undeclared, hundeclared, hbody⟩ : ∃ violation,
      validator.judgeResponseBody declared answer = .rejected [violation] ∧
        violation.part = .body := by
    with_unfolding_all exact ⟨_, rfl, rfl⟩
  have hended : (validator.validateResponse request answer).HasEnded := by
    refine hanswer.hasEnded.2 ⟨List.forall_mem_singleton.2 ?_, ?_⟩
    · rw [hmissing]
      exact Judgement.hasEnded_rejected _
    · rw [hundeclared]
      exact Judgement.hasEnded_rejected _
  refine ⟨hcompile, hbuilt, hrequest, hanswer, ?_⟩
  rw [hanswer.violations hended, responseViolations, List.flatMap_singleton, hmissing, hundeclared]
  exact congrArg₂ (fun first second => [first, second]) hheader hbody

end Validator

end ApiContract
