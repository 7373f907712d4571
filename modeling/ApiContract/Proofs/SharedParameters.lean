import ApiContract.Proofs.PairedContracts
import Mathlib.Tactic

/-!
# Parameters that operations share

The parameters of a path belong to each of its operations.  An operation may declare one of the same
name at the same place itself, and only then does that of the path give way.  So the parameters of a
compiled operation are its own, followed by those of the path that are left, each list in the order of
the description.  They stay apart by name and place, those of the path are required, and each has a
style that its place allows.
-/

namespace ApiContract

/-! ## Single parameters -/

/-- The standard styles of a place. -/
def Place.styles : Place → List Style
  | .path => [.matrix, .label, .simple]
  | .query => [.form, .spaceDelimited, .pipeDelimited, .deepObject]
  | .header => [.simple]
  | .cookie => [.form]

theorem Style.isAllowedAt_iff {style : Style} {place : Place} :
    style.isAllowedAt place ↔ style.isCustom ∨ style ∈ place.styles := by
  cases style <;> cases place <;> simp [isAllowedAt, isCustom, Place.styles]

/-- A parameter is required if it is a part of the path, and has a style for its place. -/
structure Parameter.FitsPlace (parameter : Parameter) : Prop where
  required : parameter.place = .path → parameter.required
  style : parameter.style.isCustom ∨ parameter.style ∈ parameter.place.styles

/-- The style of a parameter at a place, as it is written or by default. -/
def ParameterEntry.styleAt (entry : ParameterEntry) (place : Place) : Style :=
  (entry.style?.map Style.ofName).getD place.defaultStyle

namespace Scope

/-- An entry of a description declares a parameter: a chain of references leads to an object that says
so.  The schema is read at some stage of the table. -/
inductive Declares (scope : Scope) (json : Json) : Parameter → Prop
  | parameter {resolved : Json} {names : List String} {entry : ParameterEntry} {place : Place}
      {schema? : Option SchemaId} {contentType? : Option String} {before after : SchemaTable}
      (hchain : Reference.Chain scope.self? "parameters" scope.components.parameters json names
        resolved)
      (hend : Reference.of? resolved = none)
      (hentry : ParameterEntry.ofJson? resolved = some entry)
      (hplace : Place.ofName? entry.place = some place)
      (hschema : StateT.run (scope.readParameterSchema entry.name entry.schema? entry.content?)
        before = .ok ((schema?, contentType?), after)) :
      Declares scope json {
        name := entry.name
        place, schema?, contentType?
        required := entry.required
        style := entry.styleAt place
        explode := entry.explode?.getD (entry.styleAt place).defaultExplode }

variable {scope : Scope}

theorem style_of_readStyle {name : String} {place : Place} {style? : Option String} {style : Style}
    (hread : readStyle name place style? = .ok style) :
    style = (style?.map Style.ofName).getD place.defaultStyle ∧ style.isAllowedAt place := by
  unfold readStyle at hread
  dsimp only at hread
  split at hread
  · next hallowed =>
      obtain rfl := Except.ok.inj hread
      exact ⟨rfl, hallowed⟩
  · cases hread

/-- Whatever is read as a parameter was declared, and it fits its place. -/
theorem yields_readParameter (scope : Scope) (json : Json) :
    Compilation.Yields (scope.readParameter json) fun parameter =>
      scope.Declares json parameter ∧ parameter.FitsPlace := by
  unfold readParameter
  refine (Compilation.Yields.of_except fun _ hresolved => hresolved).bind fun resolved hresolved => ?_
  obtain ⟨⟨names, hchain⟩, hend⟩ := resolve_eq_ok_iff.1 hresolved
  refine (Compilation.Yields.of_except fun _ hentry => entryOf_eq_ok hentry).bind
    fun entry hentry => ?_
  split
  · exact .fail _
  · next place hplace =>
      split
      · exact .fail _
      · next hrequired =>
          refine (Compilation.Yields.of_except fun _ hstyle => style_of_readStyle hstyle).bind ?_
          rintro _ ⟨rfl, hallowed⟩
          have hstages : Compilation.Yields
              (scope.readParameterSchema entry.name entry.schema? entry.content?) fun found =>
                ∃ before after, StateT.run
                  (scope.readParameterSchema entry.name entry.schema? entry.content?) before =
                    .ok (found, after) := fun before found hrun => ⟨before, found.2, hrun⟩
          refine hstages.bind ?_
          rintro ⟨schema?, contentType?⟩ ⟨before, after, hschema⟩
          refine .pure ⟨.parameter hchain hend hentry hplace hschema, ?_, ?_⟩
          · rintro rfl
            simpa using hrequired
          · exact Style.isAllowedAt_iff.1 hallowed

/-! ## The parameters of a path and of its operations -/

/-- A list of entries declares parameters that stay apart and fit their places. -/
structure DeclaresAll (scope : Scope) (entries : List Json) (parameters : List Parameter) :
    Prop where
  declared : List.Forall₂ scope.Declares entries parameters
  distinct : AreDistinct parameters
  fit : ∀ parameter ∈ parameters, parameter.FitsPlace

/-- Each entry adds one parameter behind those that are done. -/
theorem yields_readParametersAfter_declared (scope : Scope) (entries : List Json)
    (done : List Parameter) :
    Compilation.Yields (scope.readParametersAfter done entries) fun parameters =>
      ∃ read, parameters = done ++ read ∧
        List.Forall₂ (fun json parameter => scope.Declares json parameter ∧ parameter.FitsPlace)
          entries read := by
  induction entries generalizing done with
  | nil => exact .pure ⟨[], by simp, .nil⟩
  | cons json rest ih =>
      unfold readParametersAfter
      refine (yields_readParameter scope json).bind fun parameter hparameter => ?_
      split
      · exact .fail _
      · intro table result hrun
        obtain ⟨read, hread, hrest⟩ := ih (done ++ [parameter]) table result hrun
        exact ⟨parameter :: read, by rw [hread]; simp, .cons hparameter hrest⟩

theorem yields_declared_parameters (scope : Scope) (entries : List Json) :
    Compilation.Yields (scope.readParameters entries) (scope.DeclaresAll entries) := by
  intro table result hrun
  obtain ⟨read, hread, hall⟩ := yields_readParametersAfter_declared scope entries [] table result hrun
  rw [List.nil_append] at hread
  rw [hread]
  exact ⟨hall.imp fun _ _ hparameter => hparameter.1,
    hread ▸ yields_readParameters scope entries table result hrun,
    forall_mem_of_forall₂ hall fun _ _ _ hparameter => hparameter.2⟩

/-- An operation of a path has the parameters that it declares, followed by those of the path that it
does not declare. -/
structure DeclaresOperation (scope : Scope) (path : String) (common : List Parameter)
    (declared : String × OperationEntry) (operation : Operation) : Prop where
  path : operation.path = path
  method : operation.method = declared.1
  parameters : ∃ own, List.Forall₂ scope.Declares declared.2.parameters own ∧
    operation.parameters = own ++ common.filter fun parameter =>
      ∀ other ∈ own, ¬ (other.name = parameter.name ∧ other.place = parameter.place)

/-- An entry of the paths declares operations, which have its parameters in common. -/
def DeclaresPath (scope : Scope) (entry : String × Json) (operations : List Operation) : Prop :=
  ∃ item common, PathItem.ofJson? entry.2 = some item ∧
    List.Forall₂ scope.Declares item.parameters common ∧
    List.Forall₂ (scope.DeclaresOperation entry.1 common) item.operations operations

theorem mergeParameters_eq (own common : List Parameter) :
    mergeParameters own common = own ++ common.filter fun parameter =>
      ∀ other ∈ own, ¬ (other.name = parameter.name ∧ other.place = parameter.place) := by
  unfold mergeParameters
  congr 1
  refine List.filter_congr fun parameter _ => ?_
  rw [Bool.eq_iff_iff, Bool.not_eq_true', List.any_eq_false, decide_eq_true_eq]
  refine forall₂_congr fun other _ => ?_
  rw [isSameParameter_iff, eq_comm, @eq_comm _ parameter.place]

theorem yields_declared_operation (scope : Scope) (schemes : Entries SecurityScheme)
    (security : List SecurityGroup) (path : String) {common : List Parameter}
    (hdistinct : AreDistinct common) (hfit : ∀ parameter ∈ common, parameter.FitsPlace)
    (declared : String × OperationEntry) :
    Compilation.Yields
      (scope.readOperation schemes security path common declared.1 declared.2) fun operation =>
        scope.DeclaresOperation path common declared operation ∧
          AreDistinct operation.parameters ∧
          ∀ parameter ∈ operation.parameters, parameter.FitsPlace := by
  rw [readOperation_eq]
  refine (yields_declared_parameters scope declared.2.parameters).bind fun own hown => ?_
  refine (Compilation.yields_true _).bind fun body? _ => ?_
  refine (Compilation.yields_true _).bind fun responses _ => ?_
  refine (Compilation.yields_true _).bind fun groups _ => .pure ⟨⟨rfl, rfl, own, ?_⟩, ?_, ?_⟩
  · exact ⟨hown.declared, mergeParameters_eq own common⟩
  · exact areDistinct_mergeParameters hown.distinct hdistinct
  · refine List.forall_mem_append.2 ⟨hown.fit, fun parameter hmem => ?_⟩
    exact hfit parameter (List.mem_filter.1 hmem).1

theorem yields_declared_path (scope : Scope) (schemes : Entries SecurityScheme)
    (security : List SecurityGroup) (entry : String × Json) :
    Compilation.Yields (scope.readPath schemes security entry.1 entry.2) fun operations =>
      scope.DeclaresPath entry operations ∧ ∀ operation ∈ operations,
        AreDistinct operation.parameters ∧
          ∀ parameter ∈ operation.parameters, parameter.FitsPlace := by
  unfold readPath
  split
  · exact .fail _
  · next item hitem =>
      refine (yields_declared_parameters scope item.parameters).bind fun common hcommon => ?_
      intro table result hrun
      have hall := Compilation.yields_mapM (fun declared _ => yields_declared_operation scope schemes
        security entry.1 hcommon.distinct hcommon.fit declared) table result hrun
      exact ⟨⟨item, common, hitem, hcommon.declared, hall.imp fun _ _ hoperation => hoperation.1⟩,
        forall_mem_of_forall₂ hall fun _ _ _ hoperation => hoperation.2⟩

end Scope

/-- Merging the parameters of paths into operations loses and duplicates nothing.  The operations of a
compiled contract are those that the paths declare, in order.  Each has the parameters that it declares
itself, in order, and behind them exactly those of its path, in order, of whose name and place it
declares none.  So name and place tell its parameters apart, those that are part of the path are
required, and each has a style of its place or a custom one. -/
theorem Contract.parameters_are_merged {json : Json} {contract : Contract}
    (hcompile : Contract.ofJson json = .ok contract) :
    ∃ document byPath, Document.ofJson? json = some document ∧
      contract.operations = byPath.flatten ∧
      List.Forall₂ document.scope.DeclaresPath
        (document.paths.filter fun (path, _) => !Scope.isExtension path) byPath ∧
      ∀ operation ∈ contract.operations, AreDistinct operation.parameters ∧
        ∀ parameter ∈ operation.parameters, parameter.FitsPlace := by
  obtain ⟨document, table, hread, -, hrun⟩ := Contract.ofJson_eq_ok_iff.1 hcompile
  rw [Document.run_compile] at hrun
  obtain ⟨⟨_, components⟩, -, hrun⟩ := ok_of_bind_eq_ok hrun
  obtain ⟨schemes, -, hrun⟩ := ok_of_bind_eq_ok hrun
  obtain ⟨security, -, hrun⟩ := ok_of_bind_eq_ok hrun
  obtain ⟨⟨byPath, final⟩, hoperations, hrun⟩ := ok_of_bind_eq_ok hrun
  obtain ⟨rfl, rfl⟩ := Prod.mk.inj (Except.ok.inj hrun)
  have hall := Compilation.yields_mapM
    (fun entry _ => document.scope.yields_declared_path schemes security entry) components _ hoperations
  refine ⟨document, byPath, hread, rfl, hall.imp fun _ _ hpath => hpath.1, ?_⟩
  intro operation hmem
  obtain ⟨operations, hinPath, hoperation⟩ := List.mem_flatten.1 hmem
  exact forall_mem_of_forall₂ hall (fun _ _ _ hpath => hpath.2) operations hinPath operation hoperation

/-- A path has a key, through two references, and a limit.  One of its operations declares a limit and
a part of the query with the name of the key: its own limit replaces that of the path, whose key
stays.  The other operation has the parameters of the path. -/
theorem Contract.own_limit_replaces_that_of_path :
    let reference (name : String) := Json.object [("$ref", .string ("#/components/parameters/" ++ name))]
    let json := Json.object [
      ("openapi", .string "3.1.0"),
      ("components", .object [("parameters", .object [
        ("Id", reference "Key"),
        ("Key", .object [("name", .string "id"), ("in", .string "path"), ("required", .bool true)])])]),
      ("paths", .object [("/pets/\x7bid\x7d", .object [
        ("parameters", .array [
          reference "Id", .object [("name", .string "limit"), ("in", .string "query")]]),
        ("get", .object [("parameters", .array [
          .object [("name", .string "limit"), ("in", .string "query"), ("required", .bool true)],
          .object [("name", .string "id"), ("in", .string "query")]])]),
        ("delete", .object [])])])]
    let key : Parameter :=
      { name := "id", place := .path, required := true, style := .simple, explode := false }
    let limit : Parameter :=
      { name := "limit", place := .query, required := false, style := .form, explode := true }
    let contract : Contract := { operations := [
      { method := "GET", path := "/pets/\x7bid\x7d",
        parameters := [{ limit with required := true }, { limit with name := "id" }, key] },
      { method := "DELETE", path := "/pets/\x7bid\x7d", parameters := [key, limit] }] }
    Contract.ofJson json = .ok contract ∧
      ∃ document byPath, Document.ofJson? json = some document ∧
        contract.operations = byPath.flatten ∧
        List.Forall₂ document.scope.DeclaresPath
          (document.paths.filter fun (path, _) => !Scope.isExtension path) byPath ∧
        ∀ operation ∈ contract.operations, AreDistinct operation.parameters ∧
          ∀ parameter ∈ operation.parameters, parameter.FitsPlace := by
  intro reference json key limit contract
  have hcompile : Contract.ofJson json = .ok contract := by with_unfolding_all rfl
  exact ⟨hcompile, Contract.parameters_are_merged hcompile⟩

end ApiContract
