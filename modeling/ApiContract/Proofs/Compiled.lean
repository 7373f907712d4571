import ApiContract.Proofs.Reading
import ApiContract.Proofs.ReferenceChains
import ApiContract.Route.Router

/-!
# What compiling a description guarantees

The parameters of a compiled operation differ in name or place, although they come from two lists of
the description, and the headers of a declared response differ in name.  What the router finds for a
request is one of these operations.
-/

namespace ApiContract

/-- No two parameters have the same name and the same place. -/
def AreDistinct (parameters : List Parameter) : Prop :=
  parameters.Pairwise fun a b => ¬ (a.name = b.name ∧ a.place = b.place)

/-- The headers of a response have distinct names and are all looked for in its headers. -/
structure DeclaredResponse.IsUnambiguous (response : DeclaredResponse) : Prop where
  place : ∀ header ∈ response.headers, header.place = .header
  distinct : AreDistinct response.headers

/-- The declared parts of an operation do not get into each other's way. -/
structure Operation.IsUnambiguous (operation : Operation) : Prop where
  distinct : AreDistinct operation.parameters
  responses : ∀ entry ∈ operation.responses, entry.2.IsUnambiguous

/-- The contract was compiled from a description. -/
def Contract.IsCompiled (contract : Contract) : Prop :=
  ∃ json : Json, json.Keyed ∧ Contract.ofJson json = .ok contract

theorem Contract.isCompiled_of_ofJsonText {text : String} {contract : Contract}
    (hcompile : Contract.ofJsonText text = .ok contract) : contract.IsCompiled := by
  unfold Contract.ofJsonText at hcompile
  split at hcompile
  · next json hread => exact ⟨json, Json.keyed_of_ofString? hread, hcompile⟩
  · simp at hcompile

theorem Contract.isCompiled_of_ofYamlText {text : String} {contract : Contract}
    (hcompile : Contract.ofYamlText text = .ok contract) : contract.IsCompiled := by
  unfold Contract.ofYamlText at hcompile
  split at hcompile
  · next json hread => exact ⟨json, Yaml.keyed_of_toJson hread, hcompile⟩
  · simp at hcompile
  · simp at hcompile

/-! ## Parts of a description -/

theorem yields_responseEntry :
    ResponseEntry.ofJson?.Yields fun entry => Entries.Distinct entry.headers := by
  refine RecordReader.Yields.run ?_
  refine (RecordReader.yields_fieldOr (JsonReader.yields_true _) trivial).bind fun _ _ => ?_
  refine (RecordReader.yields_fieldOr JsonReader.yields_any.map ?_).bind fun headers hheaders => ?_
  · exact ⟨List.nodup_nil, by simp⟩
  · exact .pure hheaders.1

theorem yields_operationEntry :
    OperationEntry.ofJson?.Yields fun entry => ∀ response ∈ entry.responses, response.2.Keyed := by
  refine RecordReader.Yields.run ?_
  refine (RecordReader.yields_field? (JsonReader.yields_true _)).bind fun _ _ => ?_
  refine (RecordReader.yields_fieldOr (JsonReader.yields_true _) trivial).bind fun _ _ => ?_
  refine (RecordReader.yields_field? (JsonReader.yields_true _)).bind fun _ _ => ?_
  refine (RecordReader.yields_fieldOr JsonReader.yields_any.map ?_).bind fun responses hkeyed => ?_
  · exact ⟨List.nodup_nil, by simp⟩
  refine (RecordReader.yields_field? (JsonReader.yields_true _)).bind fun _ _ => ?_
  exact .pure hkeyed.2

theorem yields_pathItem :
    PathItem.ofJson?.Yields fun item => ∀ declared ∈ item.operations,
      ∀ response ∈ declared.2.responses, response.2.Keyed := by
  refine RecordReader.Yields.run ?_
  refine (RecordReader.yields_fieldOr (JsonReader.yields_true _) trivial).bind fun _ _ => ?_
  have hmethods : RecordReader.Yields
      (PathItem.methods.mapM fun method => do
        return (← RecordReader.field? method OperationEntry.ofJson?).map fun operation =>
          (Text.uppered method, operation))
      fun operations => ∀ declared? ∈ operations, ∀ declared ∈ declared?,
        ∀ response ∈ declared.2.responses, response.2.Keyed := by
    refine RecordReader.yields_mapM fun method _ => ?_
    refine (RecordReader.yields_field? yields_operationEntry).bind fun operation? hoperation => ?_
    exact .pure (Json.forall_mem_map hoperation)
  refine hmethods.bind fun operations hoperations => .pure fun declared hmem => ?_
  obtain ⟨declared?, hdeclared?, rfl⟩ := List.mem_filterMap.1 hmem
  exact hoperations _ hdeclared? declared rfl

theorem yields_components :
    Components.ofJson?.Yields fun components =>
      ∀ response ∈ components.responses, response.2.Keyed := by
  refine RecordReader.Yields.run ?_
  refine (RecordReader.yields_fieldOr (JsonReader.yields_true _) trivial).bind fun _ _ => ?_
  refine (RecordReader.yields_fieldOr (JsonReader.yields_true _) trivial).bind fun _ _ => ?_
  refine (RecordReader.yields_fieldOr (JsonReader.yields_true _) trivial).bind fun _ _ => ?_
  refine (RecordReader.yields_fieldOr JsonReader.yields_any.map ?_).bind fun responses hkeyed => ?_
  · exact ⟨List.nodup_nil, by simp⟩
  refine (RecordReader.yields_fieldOr (JsonReader.yields_true _) trivial).bind fun _ _ => ?_
  refine (RecordReader.yields_fieldOr (JsonReader.yields_true _) trivial).bind fun _ _ => ?_
  exact .pure hkeyed.2

structure Document.IsKeyed (document : Document) : Prop where
  responses : ∀ response ∈ document.components.responses, response.2.Keyed
  paths : ∀ path ∈ document.paths, path.2.Keyed

theorem yields_document : Document.ofJson?.Yields Document.IsKeyed := by
  refine RecordReader.Yields.run ?_
  refine (RecordReader.yields_field? (JsonReader.yields_true _)).bind fun _ _ => ?_
  refine (RecordReader.yields_field? (JsonReader.yields_true _)).bind fun _ _ => ?_
  refine (RecordReader.yields_field? (JsonReader.yields_true _)).bind fun _ _ => ?_
  refine (RecordReader.yields_fieldOr (JsonReader.yields_true _) trivial).bind fun _ _ => ?_
  refine (RecordReader.yields_fieldOr JsonReader.yields_any.map ?_).bind fun paths hpaths => ?_
  · exact ⟨List.nodup_nil, by simp⟩
  refine (RecordReader.yields_fieldOr yields_components (by simp)).bind
    fun components hcomponents => ?_
  refine (RecordReader.yields_field? (JsonReader.yields_true _)).bind fun _ _ => ?_
  exact .pure ⟨hcomponents, hpaths.2⟩

/-! ## Parameters -/

theorem isSameParameter_iff {a b : Parameter} :
    Scope.isSameParameter a b ↔ a.name = b.name ∧ a.place = b.place := by
  simp [Scope.isSameParameter]

theorem areDistinct_concat {done : List Parameter} {parameter : Parameter}
    (hdone : AreDistinct done) (hnew : ¬ done.any (Scope.isSameParameter parameter)) :
    AreDistinct (done ++ [parameter]) := by
  refine List.pairwise_append.2 ⟨hdone, List.pairwise_singleton _ _, ?_⟩
  rintro other hother _ hmem ⟨hname, hplace⟩
  obtain rfl := List.mem_singleton.1 hmem
  exact hnew (List.any_eq_true.2 ⟨other, hother, isSameParameter_iff.2 ⟨hname.symm, hplace.symm⟩⟩)

theorem yields_readParametersAfter (scope : Scope) (entries : List Json) (done : List Parameter)
    (hdone : AreDistinct done) :
    Compilation.Yields (scope.readParametersAfter done entries) AreDistinct := by
  induction entries generalizing done with
  | nil => exact .pure hdone
  | cons json rest ih =>
      unfold Scope.readParametersAfter
      refine (Compilation.yields_true _).bind fun parameter _ => ?_
      split
      · exact .fail _
      · next hnew => exact ih _ (areDistinct_concat hdone hnew)

theorem yields_readParameters (scope : Scope) (entries : List Json) :
    Compilation.Yields (scope.readParameters entries) AreDistinct :=
  yields_readParametersAfter scope entries [] .nil

/-- A parameter of the path that is kept is none that the operation declares itself. -/
theorem areDistinct_mergeParameters {own common : List Parameter} (hown : AreDistinct own)
    (hcommon : AreDistinct common) : AreDistinct (Scope.mergeParameters own common) := by
  refine List.pairwise_append.2 ⟨hown, hcommon.filter _, ?_⟩
  rintro a ha b hb ⟨hname, hplace⟩
  have hkept := (List.mem_filter.1 hb).2
  rw [Bool.not_eq_true', List.any_eq_false] at hkept
  exact hkept a ha (isSameParameter_iff.2 ⟨hname.symm, hplace.symm⟩)

/-! ## Responses -/

theorem keyed_of_chain {self? : Option String} {part : String} {entries : Entries Json}
    {json found : Json} {names : List String} (hentries : ∀ entry ∈ entries, entry.2.Keyed)
    (hchain : Reference.Chain self? part entries json names found) (hkeyed : json.Keyed) :
    found.Keyed := by
  induction hchain with
  | stay => exact hkeyed
  | step _ hget _ ih => exact ih (hentries _ (Entries.mem_of_get? hget))

theorem keyed_of_resolve {scope : Scope} {part : String} {entries : Entries Json} {json : Json}
    (hentries : ∀ entry ∈ entries, entry.2.Keyed) (hkeyed : json.Keyed) {found : Json}
    (hfound : scope.resolve part entries json = .ok found) : found.Keyed := by
  obtain ⟨⟨names, hchain⟩, -⟩ := Scope.resolve_eq_ok_iff.1 hfound
  exact keyed_of_chain hentries hchain hkeyed

theorem entryOf_eq_ok {α : Type} {read : JsonReader α} {json : Json} {entry : α}
    (hentry : Scope.entryOf read json = .ok entry) : entry ∈ read json := by
  unfold Scope.entryOf at hentry
  split at hentry
  · next found hfound => exact Except.ok.inj hentry ▸ hfound
  · simp at hentry

theorem yields_readHeader (scope : Scope) (name : String) (json : Json) :
    Compilation.Yields (scope.readHeader name json) fun header =>
      header.name = name ∧ header.place = .header := by
  unfold Scope.readHeader
  refine (Compilation.yields_true _).bind fun _ _ => (Compilation.yields_true _).bind fun _ _ => ?_
  refine (Compilation.yields_true _).bind fun _ _ => (Compilation.yields_true _).bind fun _ _ => ?_
  exact .pure ⟨rfl, rfl⟩

theorem isUnambiguous_of_forall₂ {declared : Entries Json} {headers : List Parameter}
    {content : Content} (hdistinct : Entries.Distinct declared)
    (hall : List.Forall₂ (fun entry header => header.name = entry.1 ∧ header.place = .header)
      declared headers) : DeclaredResponse.IsUnambiguous { headers, content } := by
  constructor
  · exact forall_mem_of_forall₂ hall fun _ _ _ hheader => hheader.2
  · have hnames : headers.map Parameter.name = Entries.keys declared := by
      unfold Entries.keys
      rw [← List.forall₂_eq_eq_eq, List.forall₂_map_left_iff, List.forall₂_map_right_iff]
      exact hall.flip.imp fun _ _ hheader => hheader.1
    have hnodup : (headers.map Parameter.name).Nodup := hnames ▸ hdistinct
    exact (List.pairwise_map.1 hnodup).imp fun hne hsame => hne hsame.1

theorem yields_readResponse (scope : Scope) (json : Json) (hkeyed : json.Keyed)
    (hresponses : ∀ response ∈ scope.components.responses, response.2.Keyed) :
    Compilation.Yields (scope.readResponse json) DeclaredResponse.IsUnambiguous := by
  unfold Scope.readResponse
  refine (Compilation.Yields.of_except fun found hfound =>
    keyed_of_resolve hresponses hkeyed hfound).bind fun found hfound => ?_
  refine (Compilation.Yields.of_except fun entry hentry =>
    yields_responseEntry found hfound entry (entryOf_eq_ok hentry)).bind fun entry hentry => ?_
  have hdeclared : Entries.Distinct
      (entry.headers.filter fun header => !Text.sameLetters header.1 "content-type") :=
    hentry.sublist (List.filter_sublist.map _)
  refine (Compilation.yields_mapM fun header _ => yields_readHeader scope header.1 header.2).bind
    fun headers hheaders => ?_
  exact (Compilation.yields_true _).bind fun content _ =>
    .pure (isUnambiguous_of_forall₂ hdeclared hheaders)

theorem yields_readResponses (scope : Scope) (entries : Entries Json)
    (hkeyed : ∀ response ∈ entries, response.2.Keyed)
    (hresponses : ∀ response ∈ scope.components.responses, response.2.Keyed) :
    Compilation.Yields (scope.readResponses entries) fun responses =>
      ∀ entry ∈ responses, entry.2.IsUnambiguous := by
  unfold Scope.readResponses
  have hpart : ∀ entry ∈ entries.filter fun entry => !Scope.isExtension entry.1,
      Compilation.Yields (do
        return (Scope.statusName entry.1, ← scope.readResponse entry.2))
        fun response => response.2.IsUnambiguous := by
    intro entry hmem
    refine (yields_readResponse scope entry.2 (hkeyed entry (List.mem_filter.1 hmem).1)
      hresponses).bind fun response hresponse => ?_
    exact .pure hresponse
  refine (Compilation.yields_mapM hpart).bind fun pairs hpairs => .pure ?_
  exact Entries.forall_mem_ofPairs (forall_mem_of_forall₂ hpairs fun _ _ _ hpair => hpair)

/-! ## Operations -/

theorem yields_readOperation (scope : Scope) (schemes : Entries SecurityScheme)
    (security : List SecurityGroup) (path : String) {common : List Parameter} (method : String)
    {entry : OperationEntry} (hcommon : AreDistinct common)
    (hkeyed : ∀ response ∈ entry.responses, response.2.Keyed)
    (hresponses : ∀ response ∈ scope.components.responses, response.2.Keyed) :
    Compilation.Yields (scope.readOperation schemes security path common method entry)
      Operation.IsUnambiguous := by
  unfold Scope.readOperation
  refine (yields_readParameters scope entry.parameters).bind fun own hown => ?_
  dsimp only
  split
  all_goals
    refine (Compilation.yields_true _).bind fun body? _ => ?_
    refine (yields_readResponses scope entry.responses hkeyed hresponses).bind
      fun responses hunambiguous => ?_
    split
    all_goals
      exact (Compilation.yields_true _).bind fun _ _ =>
        .pure ⟨areDistinct_mergeParameters hown hcommon, hunambiguous⟩

theorem yields_readPath (scope : Scope) (schemes : Entries SecurityScheme)
    (security : List SecurityGroup) (path : String) {json : Json} (hkeyed : json.Keyed)
    (hresponses : ∀ response ∈ scope.components.responses, response.2.Keyed) :
    Compilation.Yields (scope.readPath schemes security path json) fun operations =>
      ∀ operation ∈ operations, operation.IsUnambiguous := by
  unfold Scope.readPath
  split
  · exact .fail _
  · next item hitem =>
      have hdeclared := yields_pathItem json hkeyed item hitem
      refine (yields_readParameters scope item.parameters).bind fun common hcommon => ?_
      have hall := Compilation.yields_mapM fun declared hmem =>
        yields_readOperation scope schemes security path declared.1 hcommon
          (hdeclared declared hmem) hresponses
      exact fun table result hresult =>
        forall_mem_of_forall₂ (hall table result hresult) fun _ _ _ hoperation => hoperation

theorem yields_compile {document : Document} (hdocument : document.IsKeyed) :
    Compilation.Yields document.compile fun contract =>
      ∀ operation ∈ contract.operations, operation.IsUnambiguous := by
  unfold Document.compile
  refine (Compilation.yields_true _).bind fun _ _ => (Compilation.yields_true _).bind fun _ _ => ?_
  refine (Compilation.yields_true _).bind fun security _ => ?_
  refine (Compilation.yields_mapM fun path hmem => yields_readPath _ _ _ path.1
    (hdocument.paths path (List.mem_filter.1 hmem).1) hdocument.responses).bind
    fun operations hoperations => ?_
  refine (Compilation.yields_true _).bind fun _ _ => .pure fun operation hmem => ?_
  obtain ⟨inPath, hinPath, hoperation⟩ := List.mem_flatten.1 hmem
  exact forall_mem_of_forall₂ hoperations (fun _ _ _ hall => hall) inPath hinPath operation
    hoperation

/-- The operations of a compiled contract are unambiguous. -/
theorem Contract.IsCompiled.isUnambiguous {contract : Contract} (hcompiled : contract.IsCompiled) :
    ∀ operation ∈ contract.operations, operation.IsUnambiguous := by
  obtain ⟨json, hkeyed, hcompile⟩ := hcompiled
  unfold Contract.ofJson at hcompile
  obtain ⟨document, hentry, hcompile⟩ := ok_of_bind_eq_ok hcompile
  obtain ⟨-, -, hcompile⟩ := ok_of_bind_eq_ok hcompile
  obtain ⟨result, hresult, hcompile⟩ := ok_of_bind_eq_ok hcompile
  obtain rfl := Except.ok.inj hcompile
  exact yields_compile (yields_document json hkeyed document (entryOf_eq_ok hentry)) {} result hresult

/-! ## The operation of a request -/

namespace Router

/-- All operations of some routes are among those that were declared. -/
def Declares (operations : List Operation) (routes : List Route) : Prop :=
  ∀ route ∈ routes, ∀ operation ∈ route.operations, operation ∈ operations

theorem Declares.addOperation {operations : List Operation} {routes added : List Route}
    {operation : Operation} (hroutes : Declares operations routes) (hmem : operation ∈ operations)
    (hadd : Router.addOperation routes operation = .ok added) : Declares operations added := by
  unfold Router.addOperation at hadd
  split at hadd
  · obtain rfl := Except.ok.inj hadd
    intro route hroute other hother
    obtain ⟨old, hold, rfl⟩ := List.mem_map.1 hroute
    split at hother
    · rcases List.mem_append.1 hother with hother | hother
      · exact hroutes old hold other hother
      · exact List.mem_singleton.1 hother ▸ hmem
    · exact hroutes old hold other hother
  · cases htemplate : PathTemplate.ofText operation.path with
    | error fault => simp [htemplate, Except.map] at hadd
    | ok template =>
        rw [htemplate] at hadd
        obtain rfl := Except.ok.inj hadd
        intro route hroute other hother
        rcases List.mem_append.1 hroute with hroute | hroute
        · exact hroutes route hroute other hother
        · obtain rfl := List.mem_singleton.1 hroute
          exact List.mem_singleton.1 hother ▸ hmem

theorem Declares.foldlM {operations rest : List Operation} {routes added : List Route}
    (hroutes : Declares operations routes) (hrest : ∀ operation ∈ rest, operation ∈ operations)
    (hadd : rest.foldlM Router.addOperation routes = .ok added) : Declares operations added := by
  induction rest generalizing routes with
  | nil =>
      obtain rfl := Except.ok.inj hadd
      exact hroutes
  | cons operation rest ih =>
      rw [List.foldlM_cons] at hadd
      obtain ⟨middle, hfirst, hadd⟩ := ok_of_bind_eq_ok hadd
      rw [List.forall_mem_cons] at hrest
      exact ih (hroutes.addOperation hrest.1 hfirst) hrest.2 hadd

theorem declares_ofContract {contract : Contract} {router : Router}
    (hrouter : Router.ofContract contract = .ok router) :
    Declares contract.operations router.routes := by
  unfold Router.ofContract Router.ofOperations at hrouter
  obtain ⟨routes, hroutes, hrouter⟩ := ok_of_bind_eq_ok hrouter
  obtain rfl := Except.ok.inj hrouter
  have hdeclares : Declares contract.operations routes :=
    Declares.foldlM (fun route hroute => absurd hroute List.not_mem_nil) (fun _ hmem => hmem)
      hroutes
  intro route hroute
  exact hdeclares route (List.mem_mergeSort.1 hroute)

theorem mem_operations_of_find {contract : Contract} {router : Router} {method path : String}
    {found : FoundOperation} (hrouter : Router.ofContract contract = .ok router)
    (hfind : router.find method path = .ok found) : found.operation ∈ contract.operations := by
  unfold Router.find at hfind
  dsimp only at hfind
  split at hfind
  · next other _ hfound =>
      obtain rfl := Except.ok.inj hfind
      obtain ⟨⟨route, captures⟩, hmatching, hoperation⟩ := List.exists_of_findSome?_eq_some hfound
      obtain ⟨operation, hfirst, rfl⟩ := Option.map_eq_some_iff.1 hoperation
      obtain ⟨candidate, -, hroute⟩ := List.mem_flatMap.1 hmatching
      obtain ⟨other, hother, hmatch⟩ := List.mem_filterMap.1 hroute
      obtain ⟨_, -, heq⟩ := Option.map_eq_some_iff.1 hmatch
      obtain ⟨rfl, -⟩ := Prod.mk.inj heq
      exact declares_ofContract hrouter other hother operation (List.mem_of_find?_eq_some hfirst)
  · simp at hfind
  · simp at hfind

end Router

end ApiContract
