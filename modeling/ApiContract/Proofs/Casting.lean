import ApiContract.Proofs.CautiousReading
import ApiContract.Proofs.Decisive
import ApiContract.Proofs.QueryLists

/-!
# Casting and acceptance

A validator may be told not to cast the texts of a request.  Casting is meant to make more requests
acceptable, not fewer, and for schemas without alternatives it leaves all that was accepted alone.
Alternatives can spoil this: the first member that reads a text counts, although it may go on to
refuse what it read where another member accepts the text.  What was accepted stays so as long as
texts are read cautiously.
-/

namespace ApiContract

open SchemaRules SchemaTable

namespace Validator

/-- The validator with casting turned on or off. -/
def withCasting (validator : Validator) (casts : Bool) : Validator :=
  { validator with options := { validator.options with castParameters := casts } }

/-- What a parameter is read from a message as, before it is cast. -/
inductive Finds (validator : Validator) (parameter : Parameter) (sources : ParameterSources) :
    Body → Prop
  | plain {raw : Value}
      (hextract : validator.styles.extract validator.contract.schemas parameter sources =
        .ok (some raw))
      (hcontent : parameter.contentType? = none) : Finds validator parameter sources ⟨raw, true⟩
  | document {raw : Value} {contentType : String} {body : Body}
      (hextract : validator.styles.extract validator.contract.schemas parameter sources =
        .ok (some raw))
      (hcontent : parameter.contentType? = some contentType)
      (hread : validator.media.read contentType
        (Utf8.encodeString (raw.asString?.getD raw.toJson.toText)) = .ok body) :
      Finds validator parameter sources body

theorem Finds.eq_of_extract {validator : Validator} {parameter : Parameter}
    {sources : ParameterSources} {body : Body} {raw : Value}
    (hfinds : validator.Finds parameter sources body)
    (hextract : validator.styles.extract validator.contract.schemas parameter sources =
      .ok (some raw))
    (hcontent : parameter.contentType? = none) : body = ⟨raw, true⟩ := by
  cases hfinds with
  | plain hfound _ => rw [Option.some.inj (Except.ok.inj (hextract.symm.trans hfound))]
  | document _ hdocument _ => simp [hcontent] at hdocument

/-- If there are texts to cast, they are read cautiously. -/
def CastsCautiously (validator : Validator) (schema? : Option SchemaId) (body : Body) : Prop :=
  ∀ id, schema? = some id → body.isTextual →
    validator.schemaRules.ReadsCautiously SchemaTable.coercionSteps id body.value

/-- Everything that is cast in a request is read cautiously. -/
structure CastsRequestCautiously (validator : Validator) (request : Request)
    (found : FoundOperation) : Prop where
  parameters : ∀ parameter ∈ found.operation.parameters, ∀ body,
    validator.Finds parameter (.ofRequest request found.captures) body →
      validator.CastsCautiously parameter.schema? body
  body : ∀ declared type schema? body, found.operation.body? = some declared →
    selectMediaType? declared.content request.effectiveContentType? = some (type, schema?) →
      validator.media.read (request.effectiveContentType?.getD type) request.body = .ok body →
        validator.CastsCautiously schema? body

variable {validator : Validator} {parameter : Parameter} {sources : ParameterSources} {part : Part}
  {schema? : Option SchemaId} {body : Body} {request : Request}

/-! ## Parts of a request -/

theorem isAccepted_judgeValue_cast (hcautious : validator.CastsCautiously schema? body)
    (haccepted : ((validator.withCasting false).judgeValue schema?
      ((validator.withCasting false).cast schema? body)).isAccepted) :
    ((validator.withCasting true).judgeValue schema?
      ((validator.withCasting true).cast schema? body)).isAccepted := by
  cases schema? with
  | none => rfl
  | some id =>
      have hraw : (validator.withCasting false).cast (some id) body = body.value := by
        simp [cast, withCasting]
      rw [hraw] at haccepted
      cases htextual : body.isTextual with
      | false =>
          have hsame : (validator.withCasting true).cast (some id) body = body.value := by
            simp [cast, htextual]
          rw [hsame]
          exact haccepted
      | true =>
          have hcast : (validator.withCasting true).cast (some id) body =
              validator.contract.schemas.coerce id body.value := by
            simp [cast, withCasting, htextual]
          rw [hcast]
          exact SchemaRules.isAccepted_applyAt_coerceAt (hcautious id rfl htextual) haccepted

/-- Casting has to do with the value of a parameter only if something is read for it. -/
theorem parameterValue?_withCasting (validator : Validator) (parameter : Parameter)
    (sources : ParameterSources) :
    (∃ body, validator.Finds parameter sources body ∧ ∀ casts,
      (validator.withCasting casts).parameterValue? parameter sources =
        .ok (some ((validator.withCasting casts).cast parameter.schema? body))) ∨
    ∃ outcome, ∀ casts,
      (validator.withCasting casts).parameterValue? parameter sources = outcome := by
  have hextract : ∀ casts, (validator.withCasting casts).styles.extract
      (validator.withCasting casts).contract.schemas parameter sources =
        validator.styles.extract validator.contract.schemas parameter sources := fun _ => rfl
  unfold parameterValue?
  simp only [hextract]
  cases hfound : validator.styles.extract validator.contract.schemas parameter sources with
  | error fault => exact .inr ⟨_, fun _ => rfl⟩
  | ok raw? =>
      cases raw? with
      | none =>
          exact .inr ⟨.ok ((parameter.schema?.bind validator.contract.schemas.get?).bind
            fun schema => schema.default?.map Value.ofJson), fun _ => rfl⟩
      | some raw =>
          cases hcontent : parameter.contentType? with
          | none => exact .inl ⟨_, .plain hfound hcontent, fun _ => rfl⟩
          | some contentType =>
              have hmedia : ∀ casts, (validator.withCasting casts).media = validator.media :=
                fun _ => rfl
              simp only [hmedia]
              cases hread : validator.media.read contentType
                  (Utf8.encodeString (raw.asString?.getD raw.toJson.toText)) with
              | error fault => exact .inr ⟨_, fun _ => rfl⟩
              | ok body => exact .inl ⟨body, .document hfound hcontent hread, fun _ => rfl⟩

theorem isAccepted_judgeParameter_cast
    (hcautious : ∀ body, validator.Finds parameter sources body →
      validator.CastsCautiously parameter.schema? body)
    (haccepted : ((validator.withCasting false).judgeParameter parameter sources part).isAccepted) :
    ((validator.withCasting true).judgeParameter parameter sources part).isAccepted := by
  unfold judgeParameter at haccepted ⊢
  rcases parameterValue?_withCasting validator parameter sources with
    ⟨body, hfinds, hvalue⟩ | ⟨outcome, hsame⟩
  · simp only [hvalue, Judgement.isAccepted_map, Judgement.isAccepted_attach] at haccepted ⊢
    exact isAccepted_judgeValue_cast (hcautious body hfinds) haccepted
  · simp only [hsame] at haccepted ⊢
    exact haccepted

theorem isAccepted_judgeContent_cast {content : Content} {contentType? : Option String}
    {bytes : List UInt8}
    (hcautious : ∀ type schema? body, selectMediaType? content contentType? = some (type, schema?) →
      validator.media.read (contentType?.getD type) bytes = .ok body →
        validator.CastsCautiously schema? body)
    (haccepted :
      ((validator.withCasting false).judgeContent content contentType? bytes).isAccepted) :
    ((validator.withCasting true).judgeContent content contentType? bytes).isAccepted := by
  have hmedia : ∀ casts, (validator.withCasting casts).media = validator.media := fun _ => rfl
  unfold judgeContent at haccepted ⊢
  simp only [hmedia] at haccepted ⊢
  cases hselected : selectMediaType? content contentType? with
  | none => simp [hselected, Judgement.refuse, Judgement.isAccepted] at haccepted
  | some selected =>
      obtain ⟨type, schema?⟩ := selected
      simp only [hselected] at haccepted ⊢
      cases hread : validator.media.read (contentType?.getD type) bytes with
      | error fault => simp [hread, Judgement.refuse, Judgement.isAccepted] at haccepted
      | ok body =>
          simp only [hread, Judgement.isAccepted_attach] at haccepted ⊢
          exact isAccepted_judgeValue_cast (hcautious type schema? body hselected hread) haccepted

theorem isAccepted_judgeRequestBody_cast {operation : Operation}
    (hcautious : ∀ declared type schema? body, operation.body? = some declared →
      selectMediaType? declared.content request.effectiveContentType? = some (type, schema?) →
        validator.media.read (request.effectiveContentType?.getD type) request.body = .ok body →
          validator.CastsCautiously schema? body)
    (haccepted : ((validator.withCasting false).judgeRequestBody operation request).isAccepted) :
    ((validator.withCasting true).judgeRequestBody operation request).isAccepted := by
  unfold judgeRequestBody at haccepted ⊢
  cases hdeclared : operation.body? with
  | none => rfl
  | some declared =>
      simp only [hdeclared] at haccepted ⊢
      split
      · next hempty =>
          rw [if_pos hempty] at haccepted
          exact haccepted
      · next hbody =>
          rw [if_neg hbody, Judgement.isAccepted_map] at haccepted
          rw [Judgement.isAccepted_map]
          exact isAccepted_judgeContent_cast
            (fun type schema? body => hcautious declared type schema? body hdeclared) haccepted

/-! ## Requests -/

theorem isAccepted_validateRequest_iff {found : FoundOperation}
    (hfind : validator.router.find request.method request.path = .ok found) :
    (validator.validateRequest request).isAccepted ↔
      (∀ parameter ∈ found.operation.parameters,
        (validator.judgeParameter parameter (.ofRequest request found.captures)
          (.parameter parameter.place parameter.name)).isAccepted) ∧
      (validator.judgeRequestBody found.operation request).isAccepted ∧
      (validator.judgeSecurity found.operation (.ofRequest request found.captures)).isAccepted := by
  unfold validateRequest judgeParameters
  rw [hfind]
  dsimp only
  rw [Judgement.isAccepted_map, Judgement.isAccepted_both, Judgement.isAccepted_both,
    Judgement.isAccepted_all, List.forall_mem_map]
  · simp only [Judgement.isAccepted_map]
  · rw [List.forall_mem_map]
    intro parameter _
    rw [Judgement.isExplained_map]
    exact validator.isExplained_judgeParameter _ _ _

theorem isAccepted_validateRequest_cast
    (hcautious : ∀ found, validator.router.find request.method request.path = .ok found →
      validator.CastsRequestCautiously request found)
    (haccepted : ((validator.withCasting false).validateRequest request).isAccepted) :
    ((validator.withCasting true).validateRequest request).isAccepted := by
  have hrouter : ∀ casts, (validator.withCasting casts).router = validator.router := fun _ => rfl
  cases hfind : validator.router.find request.method request.path with
  | error fault =>
      unfold validateRequest at haccepted
      simp [hrouter, hfind, Judgement.refuse, Judgement.isAccepted] at haccepted
  | ok found =>
      have hcast := hcautious found hfind
      have hfound : ∀ casts, (validator.withCasting casts).router.find request.method request.path =
          .ok found := fun _ => hfind
      rw [isAccepted_validateRequest_iff (hfound _)] at haccepted ⊢
      obtain ⟨hparameters, hbody, hsecurity⟩ := haccepted
      refine ⟨fun parameter hmem => ?_, ?_, hsecurity⟩
      · exact isAccepted_judgeParameter_cast (hcast.parameters parameter hmem)
          (hparameters parameter hmem)
      · exact isAccepted_judgeRequestBody_cast hcast.body hbody

/-- Nothing that is accepted is read as anything else, as long as alternatives have no part in the
reading; where they have, it is still accepted if it was read cautiously, as texts under unions of
plain types are.  So is a request. -/
theorem casting_keeps_acceptance :
    (∀ (rules : SchemaRules) (id : SchemaId) (value : Value), (rules.apply id value).isAccepted →
      rules.schemas.withoutAlternatives.coerce id value = value ∧
        (rules.ReadsCautiously SchemaTable.coercionSteps id value →
          (rules.apply id (rules.schemas.coerce id value)).isAccepted)) ∧
    (∀ (rules : SchemaRules) (steps : Nat) (id : SchemaId) (union : Schema) (text : String),
      rules.schemas.get? id = some union → rules.schemas.IsPlainUnion union →
        rules.ReadsCautiously (steps + 2) id (.string text)) ∧
    ∀ (validator : Validator) (request : Request),
      (∀ found, validator.router.find request.method request.path = .ok found →
        validator.CastsRequestCautiously request found) →
      ((validator.withCasting false).validateRequest request).isAccepted →
      ((validator.withCasting true).validateRequest request).isAccepted := by
  refine ⟨fun rules id value haccepted => ⟨?_, fun hcautious => ?_⟩, ?_, ?_⟩
  · exact SchemaRules.coerceAt_withoutAlternatives haccepted
  · exact SchemaRules.isAccepted_applyAt_coerceAt hcautious haccepted
  · exact fun rules steps id union text hget hplain =>
      readsCautiously_of_isPlainUnion hget hplain text
  · exact fun validator request => isAccepted_validateRequest_cast

theorem numbers_and_texts_stay_accepted :
    let table : SchemaTable := ⟨#[{ type? := some .array, items? := some 1 },
      { anyOf := [2, 3] }, .ofType .integer, .ofType .string]⟩
    let operation : Operation :=
      { method := "GET", path := "/a", parameters := [.new "n" .query (some 0)] }
    let validator : Validator :=
      { contract := { schemas := table, operations := [operation] },
        router := ⟨[⟨⟨"/a", [.literal "a".toList]⟩, [operation]⟩], []⟩ }
    let texts : Value := .array [.string "5", .string "x"]
    table.coerce 0 texts = .array [.integer 5, .string "x"] ∧
      table.withoutAlternatives.coerce 0 texts = texts ∧
      (validator.schemaRules.apply 0 (table.coerce 0 texts)).isAccepted ∧
      ((validator.withCasting true).validateRequest (.new "GET" "/a?n=5&n=x")).isAccepted := by
  intro table operation validator texts
  let rules := validator.schemaRules
  let request := Request.new "GET" "/a?n=5&n=x"
  have hlist : table.get? 0 = some { type? := some .array, items? := some 1 } := rfl
  have hunion : table.get? 1 = some { anyOf := [2, 3] } := rfl
  have htext : rules.schemas.get? 3 = some (.ofType .string) := rfl
  have hplain : table.IsPlainUnion { anyOf := [2, 3] } := by
    refine ⟨⟨⟨rfl, rfl, rfl⟩, rfl, rfl, rfl, .inl rfl⟩, ?_, .nil⟩
    intro part hpart
    have hlisted : part = 2 ∨ part = 3 := by simpa [Schema.members] using hpart
    rcases hlisted with rfl | rfl
    · exact ⟨_, rfl, .integer, rfl, .inr (Schema.isUnconstrained_ofType .integer)⟩
    · exact ⟨_, rfl, .string, rfl, .inl fun _ => rfl⟩
  have hitem : ∀ text, (rules.apply 1 (.string text)).isAccepted := by
    intro text
    rw [apply, isAccepted_applyAt_iff_hasAlternative hunion hplain.toIsChoice rfl (by simp)]
    have hmember : (rules.applyAt [] [1] 3 (.string text)).isAccepted := by
      rw [applyAt_eq_judge htext (by simp)]
      rfl
    exact .inr ⟨rfl, fun hne => absurd rfl hne, fun _ => ⟨3, by simp, hmember⟩⟩
  have hitems : ∀ item ∈ [Value.string "5", .string "x"], (rules.apply 1 item).isAccepted := by
    simp [hitem]
  have haccepted : (rules.apply 0 texts).isAccepted := by
    have hown : (rules.judgeOwn { type? := some .array, items? := some 1 } texts
        (rules.neighbours [] [0] texts)).isAccepted := by
      rw [isAccepted_judgeOwn_iff_of_isContainer rfl, judgeType_array rfl]
      refine ⟨isAccepted_judgeItems_iff.2 fun part hpart => ?_, rfl⟩
      rw [← Option.some.inj hpart]
      exact hitems
    rw [apply, applyAt_eq_judge hlist List.not_mem_nil, judge_of_ne_null (by simp [texts]),
      judgeParts_of_isComposed_eq_false rfl]
    exact hown
  have hcautious : rules.ReadsCautiously coercionSteps 0 texts := by
    have hunions : ∀ text, rules.ReadsCautiously 64 1 (.string text) :=
      fun text => casting_keeps_acceptance.2.1 rules 62 1 _ text hunion hplain
    exact readsCautiously_items hlist rfl rfl rfl rfl hitems (by simp [hunions])
  have hread : table.coerce 0 texts = .array [.integer 5, .string "x"] := by
    have hsteps : coercionSteps = 61 + 1 + 1 + 1 + 1 := rfl
    rw [coerce, hsteps, coerceAt_array hlist, itemSchema?_of_items rfl]
    simp only [List.map_cons, List.map_nil, coerceUnder, coerceAt_text hunion]
    rw [coerceText_succ rfl, coerceText_succ rfl]
    rfl
  have hextract : validator.styles.extract table (.new "n" .query (some 0))
      (.ofRequest request []) = .ok (some texts) := by
    have hquery : request.query = Form.Escaping.standard.write [("n", "5"), ("n", "x")] := by
      decide
    have hsource : (ParameterSources.ofRequest request []).query = [("n", "5"), ("n", "x")] :=
      Request.queryPairs_of_write hquery
    rw [StyleRegistry.extract_form_iff ⟨rfl, rfl, rfl⟩ rfl, hsource]
    rfl
  have hfind : validator.router.find "GET" request.path = .ok { operation, captures := [] } := by
    have hpath : request.path = "/a" := by decide
    have hmethod : Text.uppered "GET" = "GET" := by decide
    have hcandidates : validator.router.candidates "/a" = ["/a"] := by
      simp [Router.candidates, validator]
    have hmatching : validator.router.matching "/a" =
        [(⟨⟨"/a", [.literal "a".toList]⟩, [operation]⟩, [])] := by
      rw [Router.matching, hcandidates]
      rfl
    rw [hpath, Router.find, hmethod, hmatching]
    rfl
  have hcasts : ∀ found, validator.router.find "GET" request.path = .ok found →
      validator.CastsRequestCautiously request found := by
    intro found hfound
    obtain rfl := Except.ok.inj (hfind.symm.trans hfound)
    refine ⟨?_, fun declared type schema? body hdeclared => by cases hdeclared⟩
    intro parameter hmem body hfinds
    obtain rfl := List.mem_singleton.1 hmem
    intro id hid _
    obtain rfl := Option.some.inj hid
    obtain rfl := hfinds.eq_of_extract hextract rfl
    exact hcautious
  have huncast : ((validator.withCasting false).validateRequest request).isAccepted := by
    have hfound : (validator.withCasting false).router.find request.method request.path =
        .ok { operation, captures := [] } := hfind
    have hraw : (validator.withCasting false).styles.extract
        (validator.withCasting false).contract.schemas (.new "n" .query (some 0))
        (.ofRequest request []) = .ok (some texts) := hextract
    rw [isAccepted_validateRequest_iff hfound, List.forall_mem_singleton]
    refine ⟨?_, rfl, rfl⟩
    rw [judgeParameter_of_extract hraw rfl, Judgement.isAccepted_map, Judgement.isAccepted_attach]
    exact haccepted
  have hkept := casting_keeps_acceptance.1 rules 0 texts haccepted
  exact ⟨hread, hkept.1, hkept.2 hcautious,
    casting_keeps_acceptance.2.2 validator request hcasts huncast⟩

end Validator

/-- The first member that reads a text counts, even if it has no room for what it reads. -/
theorem SchemaRules.read_number_is_out_of_range :
    let table : SchemaTable :=
      ⟨#[{ anyOf := [1, 2] }, { type? := some .integer, format? := some "int32" }, .ofType .string]⟩
    let rules : SchemaRules := { schemas := table, formats := Format.standard }
    (rules.apply 0 (.string "3000000000")).isAccepted ∧
      table.coerce 0 (.string "3000000000") = .integer 3000000000 ∧
      ¬ (rules.apply 0 (table.coerce 0 (.string "3000000000"))).isAccepted := by
  intro table rules
  have hchoice : rules.schemas.get? 0 = some { anyOf := [1, 2] } := rfl
  have hshort : rules.schemas.get? 1 =
    some { type? := some .integer, format? := some "int32" } := rfl
  have htext : rules.schemas.get? 2 = some (.ofType .string) := rfl
  have happly : ∀ value : Value, value.isContainer = false → value ≠ .null →
      ((rules.apply 0 value).isAccepted ↔ (rules.applyAt [] [0] 1 value).isAccepted ∨
        (rules.applyAt [] [0] 2 value).isAccepted) := by
    intro value hscalar hnull
    have hplain : ({ anyOf := [1, 2] } : Schema).IsChoice :=
      ⟨⟨rfl, rfl, rfl⟩, rfl, rfl, rfl, .inl rfl⟩
    rw [apply, isAccepted_applyAt_iff_hasAlternative hchoice hplain hscalar hnull]
    simp [HasAlternative, Schema.tagging?]
  have hread : table.coerce 0 (.string "3000000000") = .integer 3000000000 := by
    have hsteps : coercionSteps = 63 + 1 + 1 := rfl
    rw [coerce, hsteps, coerceAt_text hchoice, coerceText_succ rfl]
    rfl
  refine ⟨?_, hread, ?_⟩
  · rw [happly _ rfl (by simp), applyAt_eq_judge htext (by simp)]
    exact .inr rfl
  · rw [hread, happly _ rfl (by simp), applyAt_eq_judge hshort (by simp),
      applyAt_eq_judge htext (by simp)]
    rintro (hnumber | htyped)
    · cases hnumber
    · cases htyped

end ApiContract
