import ApiContract.Proofs.DeepObject
import ApiContract.Proofs.Observation

/-!
# Query pairs that nobody declared

The styles are given all pairs of the query, because one of them alone knows under which keys it
writes a parameter: under its name, under its name with brackets behind it, or under the names of
its properties.  A pair whose key is none of these for any declared parameter, and not the name of
an API key either, has no influence on what a request is judged to be, wherever in the query it
stands.
-/

namespace ApiContract

/-- No standard style looks for a parameter under a key. -/
structure Parameter.IsForeign (table : SchemaTable) (parameter : Parameter) (key : String) :
    Prop where
  name : key ≠ parameter.name
  nested : parameter.style.name = "deepObject" → ¬StyleReader.Belongs parameter.name key
  /-- An object that names no properties would take pairs under any key. -/
  property : parameter.explode → ∀ properties,
    Shape.of table parameter.schema? = .object properties → properties ≠ [] ∧ key ∉ properties

/-- Neither a parameter of an operation nor a credential for it is looked for under a key of the
query. -/
structure Validator.IsUndeclared (validator : Validator) (operation : Operation) (key : String) :
    Prop where
  parameter : ∀ parameter ∈ operation.parameters, parameter.place = .query →
    parameter.IsForeign validator.contract.schemas key
  credential : ∀ scheme ∈ operation.security.flatMap Entries.keys, ∀ name,
    Entries.get? validator.contract.securitySchemes scheme = some (.apiKey name .query) →
      key ≠ name

/-! ## Styles -/

namespace StyleReader

variable {parameter : Parameter} {shape : Shape} {pair : String × String}
  (front rest : List (String × String))

theorem textsOf_removed {name : String} (hname : pair.1 ≠ name) :
    textsOf (front ++ pair :: rest) name = textsOf (front ++ rest) name := by
  simp [textsOf, hname]

theorem belonging_removed {name : String} (hkey : ¬Belongs name pair.1) :
    belonging name (front ++ pair :: rest) = belonging name (front ++ rest) := by
  have hnone : brackets? name pair.1 = none := by
    rw [belongs_iff, ← Option.ne_none_iff_exists', not_not] at hkey
    exact hkey
  simp [belonging, hnone]

theorem ofQuery_removed (delimiter : Char) (hname : pair.1 ≠ parameter.name)
    (hproperty : parameter.explode → ∀ properties, shape = .object properties →
      properties ≠ [] ∧ pair.1 ∉ properties) :
    ofQuery delimiter parameter shape (front ++ pair :: rest) =
      ofQuery delimiter parameter shape (front ++ rest) := by
  unfold ofQuery
  rw [textsOf_removed front rest hname]
  cases shape with
  | primitive => rfl
  | array => rfl
  | object properties =>
      by_cases hexplode : parameter.explode
      · obtain ⟨hdeclares, hother⟩ := hproperty hexplode properties rfl
        have hskipped : (properties.isEmpty || properties.contains pair.1) = false := by
          simp [hdeclares, hother]
        have hbelonging : (front ++ pair :: rest).filter
              (fun pair => properties.isEmpty || properties.contains pair.1) =
            (front ++ rest).filter
              (fun pair => properties.isEmpty || properties.contains pair.1) := by
          simp only [List.filter_append, List.filter_cons, hskipped, Bool.false_eq_true, if_false]
        simp only [hbelonging]
      · simp only [hexplode]
        rfl

theorem deepObject_removed (hnested : ¬Belongs parameter.name pair.1) :
    deepObject parameter shape (.pairs (front ++ pair :: rest)) =
      deepObject parameter shape (.pairs (front ++ rest)) := by
  cases shape with
  | primitive => rfl
  | array => rfl
  | object properties =>
      rw [deepObject_eq, deepObject_eq, belonging_removed front rest hnested]

theorem simple_removed (hname : pair.1 ≠ parameter.name) :
    simple parameter shape (.pairs (front ++ pair :: rest)) =
      simple parameter shape (.pairs (front ++ rest)) := by
  unfold simple
  dsimp only
  rw [textsOf_removed front rest hname]

end StyleReader

namespace StyleRegistry

variable {table : SchemaTable} {parameter : Parameter} {sources sources' : ParameterSources}
  {front rest : List (String × String)} {pair : String × String}

/-- The readers of the query look for a parameter under no foreign key; the others refuse a query
whatever it holds. -/
theorem standard_removed {reader : StyleReader}
    (hreader : standard.get? parameter.style.name = some reader)
    (hforeign : parameter.IsForeign table pair.1) :
    reader parameter (Shape.of table parameter.schema?) (.pairs (front ++ pair :: rest)) =
      reader parameter (Shape.of table parameter.schema?) (.pairs (front ++ rest)) := by
  have hquery (delimiter : Char) := StyleReader.ofQuery_removed front rest delimiter
    hforeign.name hforeign.property
  have hmem := Entries.mem_of_get? hreader
  simp only [standard, List.mem_cons, Prod.mk.injEq, List.not_mem_nil, or_false] at hmem
  rcases hmem with ⟨-, rfl⟩ | ⟨-, rfl⟩ | ⟨-, rfl⟩ | ⟨-, rfl⟩ | ⟨-, rfl⟩ | ⟨-, rfl⟩ | ⟨hstyle, rfl⟩
  · rfl
  · rfl
  · exact hquery ','
  · exact StyleReader.simple_removed front rest hforeign.name
  · exact hquery ' '
  · exact hquery '|'
  · exact StyleReader.deepObject_removed front rest (hforeign.nested hstyle)

theorem extract_removed {path : Entries String} {headers : Headers} {cookies : Entries String}
    (hforeign : parameter.place = .query → parameter.IsForeign table pair.1) :
    standard.extract table parameter ⟨path, front ++ pair :: rest, headers, cookies⟩ =
      standard.extract table parameter ⟨path, front ++ rest, headers, cookies⟩ := by
  unfold extract
  congr 1
  unfold read? ParameterSources.rawText?
  cases hplace : parameter.place with
  | path => rfl
  | header => rfl
  | cookie => rfl
  | query =>
      have hforeign := hforeign hplace
      dsimp only
      split
      · rw [StyleReader.textsOf_removed front rest hforeign.name]
      · cases hreader : standard.get? parameter.style.name with
        | none => rfl
        | some reader =>
            dsimp only
            rw [standard_removed hreader hforeign]

end StyleRegistry

/-! ## Requests -/

namespace Validator

/-- A parameter that stands for a credential is looked for under its name alone. -/
theorem isForeign_credential {table : SchemaTable} {name key : String} (hother : key ≠ name) :
    (Parameter.new name .query none).IsForeign table key where
  name := hother
  nested hstyle := by
    have hform : (Parameter.new name .query none).style.name = "form" := rfl
    exact absurd (hform.symm.trans hstyle) (by decide)
  property _ properties hshape := by
    cases hshape

/-- A query pair that nobody declared can be left out. -/
theorem validateRequest_without_undeclared (validator : Validator)
    (hstyles : validator.styles = .standard) (request : Request) {query : String}
    {front rest : List (String × String)} {pair : String × String}
    (hpairs : request.queryPairs = front ++ pair :: rest)
    (hremoved : { request with query : Request }.queryPairs = front ++ rest)
    (hundeclared : ∀ found, validator.router.find request.method request.path = .ok found →
      validator.IsUndeclared found.operation pair.1) :
    validator.validateRequest { request with query } = validator.validateRequest request := by
  refine validateRequest_eq_of_seesAlike rfl fun found hfound => ?_
  have hforeign := hundeclared found hfound
  have hextract : ∀ parameter : Parameter,
      (parameter.place = .query → parameter.IsForeign validator.contract.schemas pair.1) →
      validator.styles.extract validator.contract.schemas parameter
          (.ofRequest { request with query } found.captures) =
        validator.styles.extract validator.contract.schemas parameter
          (.ofRequest request found.captures) := by
    intro parameter hparameter
    rw [hstyles, ParameterSources.ofRequest, ParameterSources.ofRequest, hpairs, hremoved]
    exact (StyleRegistry.extract_removed hparameter).symm
  constructor
  · intro parameter hmem
    exact hextract parameter (hforeign.parameter parameter hmem)
  · intro scheme hmem
    apply SecurityRules.check_congr
    · apply SecurityRules.credential?_congr
      exact hextract _ (by rintro ⟨⟩)
    · intro key place hscheme
      apply SecurityRules.credential?_congr
      apply hextract
      intro hplace
      obtain rfl : place = .query := hplace
      exact isForeign_credential (hforeign.credential scheme hmem key hscheme)
  · rfl
  · rfl

theorem debug_pair_can_be_left_out :
    let operation : Operation := {
      method := "GET"
      path := "/a"
      parameters := [
        .new "limit" .query none,
        { name := "filter", place := .query, required := true, style := .deepObject,
          explode := true, schema? := some 0 }]
      security := [[("key", [])]] }
    let table : SchemaTable :=
      ⟨#[{ type? := some .object, properties := [("color", 1)] }, .ofType .string]⟩
    let validator : Validator := {
      contract := {
        operations := [operation], schemas := table,
        securitySchemes := [("key", .apiKey "token" .query)] }
      router := ⟨[⟨⟨"/a", [.literal ['a']]⟩, [operation]⟩], []⟩ }
    let request : Request := {
      method := "GET", path := "/a", query := "limit=5&debug=1&filter[color]=red&token=k" }
    let query := "limit=5&filter[color]=red&token=k"
    request.queryPairs =
        [("limit", "5")] ++ ("debug", "1") :: [("filter[color]", "red"), ("token", "k")] ∧
      validator.IsUndeclared operation "debug" ∧
      validator.validateRequest { request with query } = validator.validateRequest request := by
  intro operation table validator request query
  have hpairs : request.queryPairs =
      [("limit", "5")] ++ ("debug", "1") :: [("filter[color]", "red"), ("token", "k")] := by
    decide +kernel
  have hremoved : { request with query : Request }.queryPairs =
      [("limit", "5")] ++ [("filter[color]", "red"), ("token", "k")] := by
    decide +kernel
  have hlimit : (Parameter.new "limit" .query none).IsForeign table "debug" :=
    isForeign_credential (by decide)
  have hfilter : operation.parameters[1].IsForeign table "debug" := by
    constructor
    · decide
    · intro _ hbelongs
      have hnone : StyleReader.brackets? "filter" "debug" = none := by decide
      obtain ⟨brackets, hbrackets⟩ := StyleReader.belongs_iff.1 hbelongs
      exact absurd (hnone.symm.trans hbrackets) (by simp)
    · intro _ properties hshape
      obtain rfl := Shape.object.inj hshape
      decide
  have hundeclared : validator.IsUndeclared operation "debug" := by
    constructor
    · intro parameter hmem _
      rcases List.mem_pair.1 hmem with rfl | rfl
      · exact hlimit
      · exact hfilter
    · intro scheme hmem name hscheme
      obtain rfl : scheme = "key" := List.mem_singleton.1 hmem
      obtain ⟨rfl, -⟩ := SecurityScheme.apiKey.inj (Option.some.inj hscheme)
      decide
  have hfind : validator.router.find "GET" "/a" = .ok ⟨operation, []⟩ := by cbv
  have hsame := validateRequest_without_undeclared validator rfl request hpairs hremoved (by
    intro found hfound
    obtain rfl := Except.ok.inj (hfind.symm.trans hfound)
    exact hundeclared)
  exact ⟨hpairs, hundeclared, hsame⟩

end Validator

end ApiContract
