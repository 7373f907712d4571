import ApiContract.Exchange.Validator
import ApiContract.Proofs.Coercion
import ApiContract.Proofs.Decimals
import ApiContract.Proofs.FormEncoding

/-!
# Lists in a query

The form style writes an exploded list as one pair for each item, and any other list as one pair whose
value holds the items with commas between them.  Exploded lists come back item by item, whatever pairs
stand between theirs; a list of integers then passes through its schema as it was.  A list in one pair
does not keep its items apart from the commas inside them: the pairs of a query are decoded before
their values are split, so an escaped comma separates items like any other.
-/

namespace ApiContract

/-- A parameter in the query, in form style, whose text is not a document of its own. -/
structure Parameter.IsForm (parameter : Parameter) : Prop where
  place : parameter.place = .query
  style : parameter.style = .form
  content : parameter.contentType? = none

/-- A list of values of a primitive type, without further keywords. -/
inductive SchemaTable.IsListOf (table : SchemaTable) (type : SchemaType) (id : SchemaId) : Prop
  | intro {list item : Schema} {part : SchemaId} (hlist : table.get? id = some list)
      (harray : list.effectiveType? = some .array) (hfree : list.IsUnconstrained)
      (hitems : list.items? = some part) (hitem : table.get? part = some item)
      (htype : item.effectiveType? = some type) (hitemFree : item.IsUnconstrained) :
      IsListOf table type id

/-! ## Lists under their schema -/

section Lists

variable {table : SchemaTable} {rules : SchemaRules} {type : SchemaType} {id : SchemaId}

theorem Shape.of_array {list : Schema} (hget : table.get? id = some list)
    (harray : list.effectiveType? = some .array) : Shape.of table (some id) = .array := by
  rw [Shape.of, Shape.maxSteps, Shape.ofSchema]
  simp only [Option.bind_some, hget, harray]

theorem SchemaTable.coerce_texts (hlist : table.IsListOf type id) (texts : List String) :
    table.coerce id (StyleReader.arrayOf texts) =
      .array (texts.map fun text => (readText? type text).getD (.string text)) := by
  obtain ⟨hget, -, -, hitems, hitem, htype, -⟩ := hlist
  have hsteps : coercionSteps = 63 + 1 + 1 := rfl
  rw [coerce, hsteps, StyleReader.arrayOf, coerceAt_array hget, itemSchema?_of_items hitems,
    List.map_map]
  congr 2
  funext text
  change table.coerceAt (63 + 1) _ (.string text) = _
  rw [coerceAt_text hitem, coerceText_of_type htype]

theorem SchemaRules.apply_list (hlist : rules.schemas.IsListOf type id) {values : List Value}
    (hvalues : ∀ value ∈ values, SchemaTable.Reads type value) :
    rules.apply id (.array values) = .accepted (.array values) := by
  obtain ⟨hget, harray, hfree, hitems, hitem, htype, hitemFree⟩ := hlist
  rw [apply, applyAt_of_isUnconstrained hget List.not_mem_nil (by simp) hfree,
    judgeType_array harray]
  have hjudged : List.Forall₂ (fun x y => rules.applyAt [] [] _ x = .accepted y) values values :=
    List.forall₂_same.2 fun value hmem =>
      applyAt_of_reads hitem htype hitemFree (hvalues value hmem)
  exact (judgeItems_eq_accepted_iff hitems).2 ⟨values, hjudged, rfl⟩

theorem SchemaTable.readText?_toString (i : Int64) :
    readText? .integer (toString i) = some (.integer i) := by
  have htrim : Text.trim (toString i).toList = (toString i).toList :=
    Numeral.trim_toString i.toInt
  simp only [readText?, htrim, Numeral.int64?_toString, Option.map_some]

end Lists

/-! ## Exploded lists -/

theorem StyleReader.textsOf_eq {pairs : List (String × String)} {name : String}
    {texts : List String}
    (hpairs : pairs.filter (fun pair => pair.1 = name) = texts.map fun text => (name, text)) :
    textsOf pairs name = texts := by
  rw [textsOf, hpairs, List.map_map]
  exact List.map_id texts

theorem Request.queryPairs_of_write {request : Request} {escaping : Form.Escaping}
    {pairs : List (String × String)} (hquery : request.query = escaping.write pairs) :
    request.queryPairs = pairs := by
  rw [queryPairs, hquery, escaping.pairs_write]

section Reading

variable {registry : StyleRegistry} {table : SchemaTable} {parameter : Parameter}
  {sources : ParameterSources}

/-- A query parameter in form style is read from the pairs of the query. -/
theorem StyleRegistry.extract_form_iff (hform : parameter.IsForm)
    (hstyles : registry.get? "form" = some StyleReader.form) {value : Value} :
    registry.extract table parameter sources = .ok (some value) ↔
      StyleReader.ofQuery ',' parameter (Shape.of table parameter.schema?) sources.query =
        .ok (some value) := by
  obtain ⟨hplace, hstyle, hcontent⟩ := hform
  have hname : parameter.style.name = "form" := by
    rw [hstyle]
    rfl
  have hraw : sources.rawText? parameter = some (.pairs sources.query) := by
    simp only [ParameterSources.rawText?, hplace]
  simp only [extract, read?, hraw, hcontent, Option.isSome_none, Bool.false_eq_true, if_false,
    hname, hstyles, StyleReader.form]
  cases StyleReader.ofQuery ',' parameter (Shape.of table parameter.schema?) sources.query with
  | error fault => simp
  | ok value? =>
      cases value? with
      | some read => simp
      | none => cases parameter.required <;> simp

theorem StyleReader.ofQuery_exploded_array {delimiter : Char} {pairs : List (String × String)}
    (hexplode : parameter.explode = true) (htexts : textsOf pairs parameter.name ≠ []) :
    ofQuery delimiter parameter .array pairs =
      .ok (some (arrayOf (textsOf pairs parameter.name))) := by
  have hpresent : (textsOf pairs parameter.name).isEmpty = false :=
    List.isEmpty_eq_false_iff.2 htexts
  simp only [ofQuery, hexplode, if_true, hpresent, Bool.false_eq_true, if_false]

end Reading

/-- What is read for a parameter is cast and judged. -/
theorem Validator.judgeParameter_of_extract {validator : Validator} {parameter : Parameter}
    {sources : ParameterSources} {part : Part} {raw : Value}
    (hextract : validator.styles.extract validator.contract.schemas parameter sources =
      .ok (some raw))
    (hcontent : parameter.contentType? = none) :
    validator.judgeParameter parameter sources part =
      ((validator.judgeValue parameter.schema? (validator.cast parameter.schema? ⟨raw, true⟩)).attach
        part).map some := by
  simp only [judgeParameter, parameterValue?, hextract, hcontent]

/-- Integers that are written as the items of an exploded list, in any order among other pairs, are
the value of the parameter. -/
theorem Validator.judgeParameter_exploded_integers {validator : Validator} {parameter : Parameter}
    {request : Request} {captures : Entries String} {part : Part} {escaping : Form.Escaping}
    {pairs : List (String × String)} {integers : List Int64} {id : SchemaId}
    (hform : parameter.IsForm) (hexplode : parameter.explode = true)
    (hschema : parameter.schema? = some id)
    (hlist : validator.contract.schemas.IsListOf .integer id)
    (hstyles : validator.styles.get? "form" = some StyleReader.form)
    (hcast : validator.options.castParameters = true)
    (hquery : request.query = escaping.write pairs) (hintegers : integers ≠ [])
    (hpairs : pairs.filter (fun pair => pair.1 = parameter.name) =
      integers.map fun i => (parameter.name, toString i)) :
    validator.judgeParameter parameter (.ofRequest request captures) part =
      .accepted (some (.array (integers.map .integer))) := by
  have hitems : pairs.filter (fun pair => pair.1 = parameter.name) =
      (integers.map toString).map fun text => (parameter.name, text) := by
    rw [hpairs, List.map_map]
    rfl
  have htexts : StyleReader.textsOf pairs parameter.name = integers.map toString :=
    StyleReader.textsOf_eq hitems
  have hpresent : StyleReader.textsOf pairs parameter.name ≠ [] := by
    rw [htexts]
    simpa using hintegers
  have hshape : Shape.of validator.contract.schemas parameter.schema? = .array := by
    obtain ⟨hget, harray, -⟩ := hlist
    rw [hschema, Shape.of_array hget harray]
  have hread : validator.styles.extract validator.contract.schemas parameter
      (.ofRequest request captures) =
        .ok (some (StyleReader.arrayOf (integers.map toString))) := by
    have hsource : (ParameterSources.ofRequest request captures).query = pairs :=
      Request.queryPairs_of_write hquery
    rw [StyleRegistry.extract_form_iff hform hstyles, hshape, hsource,
      StyleReader.ofQuery_exploded_array hexplode hpresent, htexts]
  have hcoerced : validator.contract.schemas.coerce id
      (StyleReader.arrayOf (integers.map toString)) = .array (integers.map .integer) := by
    rw [SchemaTable.coerce_texts hlist, List.map_map]
    congr 2
    funext i
    change (SchemaTable.readText? .integer (toString i)).getD _ = _
    rw [SchemaTable.readText?_toString, Option.getD_some]
  have hcasted : validator.cast parameter.schema?
      ⟨StyleReader.arrayOf (integers.map toString), true⟩ = .array (integers.map .integer) := by
    simp only [cast, hschema, hcast, Bool.and_self, if_true, hcoerced]
  have hjudged : validator.judgeValue parameter.schema? (.array (integers.map .integer)) =
      .accepted (.array (integers.map .integer)) := by
    rw [hschema]
    apply SchemaRules.apply_list hlist
    rw [List.forall_mem_map]
    exact fun i _ => .integer i
  rw [judgeParameter_of_extract hread hform.content, hcasted, hjudged]
  rfl

theorem Validator.extreme_integers_among_other_pairs :
    let validator : Validator := {
      contract := { schemas := ⟨#[{ type? := some .array, items? := some 1 }, .ofType .integer]⟩ }
      router := ⟨[], []⟩ }
    let target := "/a?my+id=-9223372036854775808&tag=x%26y&my+id=9223372036854775807"
    validator.judgeParameter (.new "my id" .query (some 0))
        (.ofRequest (.new "GET" target) []) (.parameter .query "my id") =
      .accepted (some (.array [.integer Int64.minValue, .integer Int64.maxValue])) := by
  intro validator target
  let pairs :=
    [("my id", "-9223372036854775808"), ("tag", "x&y"), ("my id", "9223372036854775807")]
  have hform : (Parameter.new "my id" .query (some 0)).IsForm := ⟨rfl, rfl, rfl⟩
  have hlist : validator.contract.schemas.IsListOf .integer 0 :=
    .intro rfl rfl ⟨⟨rfl, rfl, rfl⟩, rfl⟩ rfl rfl rfl (Schema.isUnconstrained_ofType .integer)
  have hquery : (Request.new "GET" target).query = Form.Escaping.standard.write pairs := by
    decide
  have hpairs : pairs.filter (fun pair => pair.1 = "my id") =
      [Int64.minValue, Int64.maxValue].map fun i => ("my id", toString i) := by
    decide
  exact judgeParameter_exploded_integers hform rfl rfl hlist rfl rfl hquery
    (List.cons_ne_nil _ _) hpairs

/-! ## Lists in one pair -/

/-- Items with commas between them. -/
def Form.Escaping.joined (escaping : Form.Escaping) (items : List String) : List Char :=
  Text.joinWith ',' (items.map escaping.spell)

/-- What is left of an item where each of its commas separates. -/
def StyleReader.commaParts (item : String) : List String :=
  (Text.splitAll ',' item.toList).map String.ofList

namespace Form.Escaping

variable (escaping : Form.Escaping)

theorem ampersand_notMem_joined (items : List String) : '&' ∉ escaping.joined items := by
  intro hmem
  rcases Text.mem_joinWith hmem with heq | ⟨line, hline, hamp⟩
  · exact absurd heq (by decide)
  · obtain ⟨item, -, rfl⟩ := List.mem_map.1 hline
    exact escaping.ampersand_notMem_spell item hamp

theorem decodeBytes_joined (items : List String) :
    Percent.decodeBytes (spaced (Utf8.encode (escaping.joined items))) =
      Utf8.encode (Text.joinWith ',' (items.map String.toList)) := by
  have hitem : ∀ item, Percent.decodeBytes (spaced (Utf8.encode (escaping.spell item))) =
      Utf8.encode item.toList := by
    intro item
    have hbytes := escaping.decodeBytes_spell_append item []
    have hnil : Percent.decodeBytes (spaced []) = [] := rfl
    rwa [hnil, List.append_nil, List.append_nil] at hbytes
  have hcomma : ∀ rest, Percent.decodeBytes (spaced (Utf8.encodeChar ',' ++ rest)) =
      Utf8.encodeChar ',' ++ Percent.decodeBytes (spaced rest) := by
    intro rest
    have hchar : Utf8.encodeChar ',' = [0x2C] := by decide
    rw [hchar]
    exact Percent.decodeBytes_cons_of_ne (by decide) (spaced rest)
  unfold joined
  induction items with
  | nil => rfl
  | cons item rest ih =>
      cases rest with
      | nil => exact hitem item
      | cons next more =>
          have hjoin : ∀ spelling : String → List Char,
              Text.joinWith ',' ((item :: next :: more).map spelling) =
                spelling item ++ ',' :: Text.joinWith ',' ((next :: more).map spelling) :=
            fun _ => rfl
          rw [hjoin, hjoin, Utf8.encode_append, Utf8.encode_append, Utf8.encode_cons,
            Utf8.encode_cons, decodeBytes_spell_append, hcomma, ih]

/-- Decoding leaves the commas between items as they are, and those within items too. -/
theorem component_joined (items : List String) :
    component (Utf8.encode (escaping.joined items)) =
      String.ofList (Text.joinWith ',' (items.map String.toList)) := by
  rw [component_eq, decodeBytes_joined, Utf8.decodeLossy_encode]

end Form.Escaping

section Joined

variable {escaping : Form.Escaping} {table : SchemaTable} {parameter : Parameter}
  {items : List String} {before after : List (String × String)}

theorem StyleReader.pieces_joined (hitems : ∀ item ∈ items, item ≠ "") :
    pieces ',' false (Text.joinWith ',' (items.map String.toList)) = items.flatMap commaParts := by
  cases items with
  | nil => rfl
  | cons first rest =>
      have hne : (first :: rest).map String.toList ≠ [] := by simp
      have htext : (Text.joinWith ',' ((first :: rest).map String.toList)).isEmpty = false := by
        rw [List.isEmpty_eq_false_iff, ne_eq, Text.joinWith_eq_nil_iff]
        have hfirst : first.toList ≠ [] := by simpa using hitems first List.mem_cons_self
        simp [hfirst]
      have hplain : decodePiece false = String.ofList := rfl
      rw [pieces, htext, Text.splitAll_joinWith_eq_flatMap hne, List.flatMap_map, List.map_flatMap,
        hplain]
      rfl

theorem StyleReader.commaParts_of_notMem {item : String} (hitem : ',' ∉ item.toList) :
    commaParts item = [item] := by
  rw [commaParts, Text.splitAll_of_notMem hitem, List.map_singleton, String.ofList_toList]

theorem StyleReader.flatMap_commaParts_eq_iff :
    items.flatMap commaParts = items ↔ ∀ item ∈ items, ',' ∉ item.toList := by
  constructor
  · intro hsame item hitem
    rw [← hsame] at hitem
    obtain ⟨whole, -, hpart⟩ := List.mem_flatMap.1 hitem
    obtain ⟨piece, hpiece, rfl⟩ := List.mem_map.1 hpart
    rw [String.toList_ofList]
    exact Text.notMem_of_mem_splitAll hpiece
  · intro hnone
    have hparts : ∀ item ∈ items, commaParts item = [item] :=
      fun item hitem => commaParts_of_notMem (hnone item hitem)
    rw [List.flatMap_congr hparts, List.flatMap_singleton']

theorem StyleReader.arrayOf_injective {left right : List String}
    (hsame : arrayOf left = arrayOf right) : left = right := by
  have hstrings : left.map Value.string = right.map Value.string := Value.array.inj hsame
  exact List.map_injective_iff.2 (fun _ _ h => Value.string.inj h) hstrings

/-- A list in one pair is split at every comma, escaped or not. -/
theorem StyleRegistry.extract_joined {request : Request} {captures : Entries String}
    (hform : parameter.IsForm) (hexplode : parameter.explode = false)
    (hshape : Shape.of table parameter.schema? = .array)
    (hbefore : ∀ pair ∈ before, pair.1 ≠ parameter.name) (hitems : ∀ item ∈ items, item ≠ "")
    (hquery : request.query = escaping.fields
      (before.map escaping.spelled ++
        (parameter.name, escaping.joined items) :: after.map escaping.spelled)) :
    standard.extract table parameter (.ofRequest request captures) =
      .ok (some (StyleReader.arrayOf (items.flatMap StyleReader.commaParts))) := by
  have hlines : ∀ line ∈ before.map escaping.spelled ++
      (parameter.name, escaping.joined items) :: after.map escaping.spelled, '&' ∉ line.2 := by
    rw [List.forall_mem_append, List.forall_mem_cons]
    exact ⟨escaping.ampersand_notMem_spelled before, escaping.ampersand_notMem_joined items,
      escaping.ampersand_notMem_spelled after⟩
  have hpairs : (ParameterSources.ofRequest request captures).query = before ++
      (parameter.name, String.ofList (Text.joinWith ',' (items.map String.toList))) :: after := by
    change Form.pairs (Utf8.encodeString request.query) = _
    rw [hquery, escaping.pairs_fields hlines, List.map_append, List.map_cons,
      escaping.component_spelled, escaping.component_spelled, escaping.component_joined]
  have htexts : ∃ others, StyleReader.textsOf (ParameterSources.ofRequest request captures).query
      parameter.name = String.ofList (Text.joinWith ',' (items.map String.toList)) :: others := by
    have hnone : before.filter (fun pair => pair.1 = parameter.name) = [] := by
      simpa [List.filter_eq_nil_iff] using hbefore
    refine ⟨StyleReader.textsOf after parameter.name, ?_⟩
    rw [hpairs, StyleReader.textsOf, List.filter_append, hnone]
    simp [StyleReader.textsOf]
  obtain ⟨others, htexts⟩ := htexts
  rw [extract_form_iff hform rfl, hshape]
  simp only [StyleReader.ofQuery, hexplode, htexts, StyleReader.split, String.toList_ofList,
    StyleReader.pieces_joined hitems, Bool.false_eq_true, if_false]
  rfl

end Joined

/-- Non-empty items that share one pair come back if and only if there is no comma in any of them,
whether their writer escapes commas or not. -/
theorem StyleRegistry.extract_joined_eq_iff {table : SchemaTable} {parameter : Parameter}
    {request : Request} {captures : Entries String} {escaping : Form.Escaping}
    {items : List String} {before after : List (String × String)}
    (hform : parameter.IsForm) (hexplode : parameter.explode = false)
    (hshape : Shape.of table parameter.schema? = .array)
    (hbefore : ∀ pair ∈ before, pair.1 ≠ parameter.name) (hitems : ∀ item ∈ items, item ≠ "")
    (hquery : request.query = escaping.fields
      (before.map escaping.spelled ++
        (parameter.name, escaping.joined items) :: after.map escaping.spelled)) :
    standard.extract table parameter (.ofRequest request captures) =
        .ok (some (StyleReader.arrayOf items)) ↔
      ∀ item ∈ items, ',' ∉ item.toList := by
  rw [extract_joined hform hexplode hshape hbefore hitems hquery,
    ← StyleReader.flatMap_commaParts_eq_iff]
  constructor
  · intro hsame
    exact StyleReader.arrayOf_injective (Option.some.inj (Except.ok.inj hsame))
  · intro hsame
    rw [hsame]

theorem StyleRegistry.spaced_items_come_back :
    let parameter : Parameter :=
      { name := "id", place := .query, required := false, style := .form, explode := false,
        schema? := some 0 }
    let table : SchemaTable := ⟨#[{ type? := some .array, items? := some 1 }, .ofType .string]⟩
    let sources := ParameterSources.ofRequest (.new "GET" "/a?tag=x&id=a%20b,c&id=d") []
    standard.extract table parameter sources = .ok (some (StyleReader.arrayOf ["a b", "c"])) := by
  intro parameter table sources
  let escaping : Form.Escaping := { escapes := fun c => !c.isAlphanum }
  have hquery : (Request.new "GET" "/a?tag=x&id=a%20b,c&id=d").query = escaping.fields
      ([("tag", "x")].map escaping.spelled ++
        ("id", escaping.joined ["a b", "c"]) :: [("id", "d")].map escaping.spelled) := by
    decide
  have hform : parameter.IsForm := ⟨rfl, rfl, rfl⟩
  have hshape : Shape.of table parameter.schema? = .array := rfl
  exact (extract_joined_eq_iff hform rfl hshape (by decide) (by decide) hquery).2 (by decide)

theorem StyleRegistry.escaped_comma_separates :
    let parameter : Parameter :=
      { name := "id", place := .query, required := false, style := .form, explode := false,
        schema? := some 0 }
    let table : SchemaTable := ⟨#[{ type? := some .array, items? := some 1 }, .ofType .string]⟩
    let query := Form.Escaping.standard.fields [("id", Form.Escaping.standard.joined ["a,b", "c"])]
    let sources := ParameterSources.ofRequest { method := "GET", path := "/a", query } []
    query = "id=a%2Cb,c" ∧ Shape.of table parameter.schema? = .array ∧
      standard.extract table parameter sources =
        .ok (some (StyleReader.arrayOf ["a", "b", "c"])) ∧
      standard.extract table parameter sources ≠
        .ok (some (StyleReader.arrayOf ["a,b", "c"])) := by
  intro parameter table query sources
  let spelled := Form.Escaping.standard.spelled
  have hform : parameter.IsForm := ⟨rfl, rfl, rfl⟩
  have hshape : Shape.of table parameter.schema? = .array := rfl
  have hquery : query = Form.Escaping.standard.fields
      ([].map spelled ++ ("id", Form.Escaping.standard.joined ["a,b", "c"]) :: [].map spelled) :=
    rfl
  have hread : standard.extract table parameter sources =
      .ok (some (StyleReader.arrayOf (["a,b", "c"].flatMap StyleReader.commaParts))) :=
    extract_joined hform rfl hshape (by simp) (by decide) hquery
  have hparts : ["a,b", "c"].flatMap StyleReader.commaParts = ["a", "b", "c"] := by decide
  rw [hparts] at hread
  refine ⟨by decide, rfl, hread, ?_⟩
  rw [hread]
  intro hsame
  have hitems := StyleReader.arrayOf_injective (Option.some.inj (Except.ok.inj hsame))
  exact absurd hitems (by decide)

end ApiContract
