import ApiContract.Proofs.DirectReading
import ApiContract.Proofs.Grouping
import ApiContract.Proofs.QueryLists

/-!
# Lists in form bodies

A form body repeats the name of a list once for each item.  Its fields are grouped by name before
any schema is asked, so the number of items alone decides whether the name holds an array.  Casting
then reads texts as primitive types only: a list of several texts comes back as it was, whatever
fields stand between its items, but a single item is a text where an array is asked for, and the
body is not accepted.
-/

namespace ApiContract

/-! ## The members of a form -/

theorem Entries.filter_eq_singleton {α : Type} {entries : Entries α} {entry : String × α}
    (hdistinct : Distinct entries) (hmem : entry ∈ entries) :
    entries.filter (fun other => other.1 = entry.1) = [entry] := by
  induction entries with
  | nil => simp at hmem
  | cons first rest ih =>
      obtain ⟨hfirst, hrest⟩ := List.nodup_cons.1 hdistinct
      rcases List.mem_cons.1 hmem with rfl | hmem
      · have hnone : rest.filter (fun other => other.1 = entry.1) = [] := by
          rw [List.filter_eq_nil_iff]
          intro other hother
          have hne : other.1 ≠ entry.1 := fun heq =>
            hfirst (heq ▸ List.mem_map_of_mem hother)
          simpa using hne
        rw [List.filter_cons_of_pos (by simp), hnone]
      · have hne : first.1 ≠ entry.1 := fun heq =>
          hfirst (heq ▸ List.mem_map_of_mem hmem)
        rw [List.filter_cons_of_neg (by simpa using hne), ih hrest hmem]

namespace BodyReader

variable {pairs : List (String × String)} {name : String} {items : List String}

/-- The pairs of a form as fields that hold texts. -/
def textFields (pairs : List (String × String)) : List (String × Value) :=
  pairs.map fun pair => (pair.1, .string pair.2)

/-- What a form says under each name. -/
def formMembers (pairs : List (String × String)) : Entries Value := grouped (textFields pairs)

theorem form_write (mediaType : MediaType) (escaping : Form.Escaping)
    (pairs : List (String × String)) :
    form mediaType (Utf8.encodeString (escaping.write pairs)) =
      .ok ⟨.object (formMembers pairs), true⟩ := by
  rw [form, escaping.pairs_write, groupFields_eq]
  rfl

theorem occurrences_textFields (hpairs : pairs.filter (fun pair => pair.1 = name) =
      items.map fun item => (name, item)) :
    occurrences (textFields pairs) name = items.map .string := by
  have hsame : pairs.filter ((fun field : String × Value => field.1 == name) ∘
      fun pair => (pair.1, .string pair.2)) = pairs.filter fun pair => pair.1 = name := by
    apply List.filter_congr
    intro pair _
    simp [Bool.beq_eq_decide_eq]
  rw [occurrences, textFields, List.filter_map, hsame, hpairs, List.map_map, List.map_map]
  rfl

theorem mem_namesOf_textFields : name ∈ namesOf (textFields pairs) ↔ name ∈ pairs.map Prod.fst := by
  rw [namesOf, textFields, List.mem_eraseDups, List.map_map]
  rfl

theorem mem_of_filter_eq {item : String} (hitem : item ∈ items)
    (hpairs : pairs.filter (fun pair => pair.1 = name) = items.map fun item => (name, item)) :
    (name, item) ∈ pairs := by
  have hkept : (name, item) ∈ pairs.filter fun pair => pair.1 = name := by
    rw [hpairs]
    exact List.mem_map_of_mem hitem
  exact (List.mem_filter.1 hkept).1

theorem get?_formMembers (hitems : items ≠ [])
    (hpairs : pairs.filter (fun pair => pair.1 = name) = items.map fun item => (name, item)) :
    Entries.get? (formMembers pairs) name = some (gathered (items.map .string)) := by
  have hname : name ∈ pairs.map Prod.fst :=
    List.mem_map_of_mem (mem_of_filter_eq (List.head_mem hitems) hpairs)
  rw [formMembers, get?_grouped (mem_namesOf_textFields.2 hname), occurrences_textFields hpairs]

/-- A member of a form in which only one name is repeated belongs to that name, or is the text of
a pair. -/
theorem eq_or_mem_of_mem_formMembers (hdistinct : Entries.Distinct (pairs.filter (·.1 ≠ name)))
    (hpairs : pairs.filter (fun pair => pair.1 = name) = items.map fun item => (name, item))
    {member : String × Value} (hmember : member ∈ formMembers pairs) :
    member = (name, gathered (items.map .string)) ∨
      ∃ text, (member.1, text) ∈ pairs ∧ member.1 ≠ name ∧ member.2 = .string text := by
  obtain ⟨other, hother, rfl⟩ := List.mem_map.1 hmember
  by_cases hname : other = name
  · subst hname
    exact .inl (by rw [occurrences_textFields hpairs])
  · obtain ⟨⟨key, text⟩, hpair, heq⟩ := List.mem_map.1 (mem_namesOf_textFields.1 hother)
    obtain rfl : key = other := heq
    have hkept : (key, text) ∈ pairs.filter (·.1 ≠ name) := by
      simpa [hpair] using hname
    have honly : (pairs.filter (·.1 ≠ name)).filter (fun pair => pair.1 = key) =
        pairs.filter fun pair => pair.1 = key := by
      rw [List.filter_filter]
      apply List.filter_congr
      intro pair _
      by_cases hkey : pair.1 = key <;> simp [hkey, hname]
    -- No other pair has this name, so its text is not gathered with others.
    have hsingle : pairs.filter (fun pair => pair.1 = key) =
        [text].map fun text => (key, text) := by
      rw [← honly]
      exact Entries.filter_eq_singleton hdistinct hkept
    refine .inr ⟨text, hpair, hname, ?_⟩
    rw [occurrences_textFields hsingle]
    rfl

theorem gathered_of_length_ne_one (hlength : items.length ≠ 1) :
    gathered (items.map .string) = .array (items.map .string) := by
  unfold gathered
  split
  · next heq =>
      have hone : (items.map Value.string).length = 1 := by rw [heq, List.length_singleton]
      exact absurd (by simpa using hone) hlength
  · rfl

theorem get?_formMembers_of_several (hitems : items ≠ []) (hseveral : items.length ≠ 1)
    (hpairs : pairs.filter (fun pair => pair.1 = name) = items.map fun item => (name, item)) :
    Entries.get? (formMembers pairs) name = some (.array (items.map .string)) := by
  rw [get?_formMembers hitems hpairs, gathered_of_length_ne_one hseveral]

end BodyReader

/-! ## Casting -/

namespace SchemaTable

variable {table : SchemaTable} {id part : SchemaId} {schema : Schema} {steps : Nat}
  {items : List String}

theorem coerceAt_text_eq_self {type : SchemaType} {text : String}
    (hget : table.get? id = some schema) (htype : schema.effectiveType? = some type)
    (hkept : readText? type text = none) :
    table.coerceAt steps id (.string text) = .string text := by
  cases steps with
  | zero => exact coerceAt_zero _
  | succ steps => rw [coerceAt_text hget, coerceText_of_type htype, hkept, Option.getD_none]

/-- An object schema that declares a list of texts under a name. -/
structure DeclaresTexts (table : SchemaTable) (id : SchemaId) (schema : Schema) (name : String) :
    Prop where
  found : table.get? id = some schema
  object : schema.effectiveType? = some .object
  list : ∃ part, Entries.get? schema.properties name = some part ∧ table.IsListOf .string part

theorem coerceAt_gathered (hlist : table.IsListOf .string id) (items : List String) :
    table.coerceAt steps id (BodyReader.gathered (items.map .string)) =
      BodyReader.gathered (items.map .string) := by
  obtain ⟨hget, harray, -, hitems, hitem, htype, -⟩ := hlist
  have hkept : table.coerceAt steps id (.array (items.map .string)) =
      .array (items.map .string) := by
    cases steps with
    | zero => exact coerceAt_zero _
    | succ steps =>
        rw [coerceAt_array hget, itemSchema?_of_items hitems, List.map_map]
        congr 1
        apply List.map_congr_left
        intro text _
        exact coerceAt_text_eq_self hitem htype rfl
  cases items with
  | nil => exact hkept
  | cons first rest =>
      cases rest with
      | nil => exact coerceAt_text_eq_self hget harray rfl
      | cons second others => exact hkept

end SchemaTable

/-! ## Judging -/

theorem Value.exists_mergeAll_of_raw {members left : Entries Value} {rest items : List Value}
    {name : String} (hdistinct : Entries.Distinct members)
    (hmember : Entries.get? members name = some (.array items))
    (hleft : Entries.get? left name = some (.array items))
    (hrest : ∀ other ∈ rest, other = .object members) :
    ∃ typed, mergeAll (.object members) (.object left :: rest) = .object typed ∧
      Entries.get? typed name = some (.array items) := by
  induction rest generalizing left with
  | nil => exact ⟨left, rfl, hleft⟩
  | cons other rest ih =>
      obtain ⟨rfl, hothers⟩ := List.forall_mem_cons.1 hrest
      have hmerged := get?_mergeMembers_of_get? hdistinct hmember hleft hmember
      rw [merge_of_ne_object (by simp), ite_self] at hmerged
      exact ih hmerged hothers

namespace SchemaRules

variable {rules : SchemaRules} {id part : SchemaId} {schema : Schema} {name : String}
  {pairs : List (String × String)} {items : List String}

/-- A text at a declared property of type string that accepts it. -/
def AcceptsText (rules : SchemaRules) (schema : Schema) (pair : String × String) : Prop :=
  ∃ part property, Entries.get? schema.properties pair.1 = some part ∧
    rules.schemas.get? part = some property ∧ property.effectiveType? = some .string ∧
    (rules.apply part (.string pair.2)).isAccepted

/-- An object schema has no objection to a form, the field of one name apart: nothing else is
repeated, all required names are there, the other texts and the missing defaults are accepted, no
bound is violated, and what the schema is composed of leaves the form as it is. -/
structure AdmitsForm (rules : SchemaRules) (id : SchemaId) (schema : Schema) (name : String)
    (pairs : List (String × String)) : Prop where
  single : Entries.Distinct (pairs.filter (·.1 ≠ name))
  required : ∀ other ∈ schema.required, other ∈ pairs.map Prod.fst
  texts : ∀ pair ∈ pairs, pair.1 ≠ name → rules.AcceptsText schema pair
  defaults : ∀ missing ∈ rules.missingDefaults schema (BodyReader.formMembers pairs),
    (rules.fillAt [] missing.2.1 missing.2.2).isAccepted
  bounds : boundFaults schema (.object (BodyReader.formMembers pairs)) = []
  alternatives : ∀ judgement ∈ judgeAlternatives schema (.object (BodyReader.formMembers pairs))
      fun part => rules.applyAt [] [id] part (.object (BodyReader.formMembers pairs)),
    judgement = .accepted (.object (BodyReader.formMembers pairs))
  included : ∀ part ∈ schema.allOf,
    rules.applyAt [] [id] part (.object (BodyReader.formMembers pairs)) =
      .accepted (.object (BodyReader.formMembers pairs))

theorem applyAt_text_of_isUnconstrained (hget : rules.schemas.get? id = some schema)
    (hstring : schema.effectiveType? = some .string) (hfree : schema.IsUnconstrained)
    (text : String) : rules.applyAt [] [] id (.string text) = .accepted (.string text) := by
  rw [applyAt_of_isUnconstrained hget List.not_mem_nil (by simp) hfree,
    judgeType_eq_accepted_iff_of_primitive hstring (by simp) (by simp)]
  rfl

theorem apply_list_of_texts (hlist : rules.schemas.IsListOf .string id) (texts : List String) :
    rules.applyAt [] [] id (.array (texts.map .string)) =
      .accepted (.array (texts.map .string)) := by
  obtain @⟨_, _, item, hget, harray, hfree, hitems, hitem, htype, hitemFree⟩ := hlist
  have hjudged : ∀ value ∈ texts.map Value.string,
      rules.applyAt [] [] item value = .accepted value := by
    rw [List.forall_mem_map]
    exact fun text _ => applyAt_text_of_isUnconstrained hitem htype hitemFree text
  rw [applyAt_of_isUnconstrained hget List.not_mem_nil (by simp) hfree, judgeType_array harray]
  exact (judgeItems_eq_accepted_iff hitems).2 ⟨_, List.forall₂_same.2 hjudged, rfl⟩

theorem not_isAccepted_text_of_isListOf {type : SchemaType} (hlist : rules.schemas.IsListOf type id)
    (text : String) : ¬ (rules.applyAt [] [] id (.string text)).isAccepted := by
  obtain ⟨hget, harray, -⟩ := hlist
  intro haccepted
  have hown := isAccepted_judgeOwn_of_conjunct (by simp) haccepted (SchemaTable.conjunct_self hget)
  rcases effectiveType?_of_judgeOwn_text hown with hnone | hstring
  · rw [harray] at hnone
    cases hnone
  · rw [harray] at hstring
    cases hstring

theorem AdmitsForm.coerce_eq_self (hadmits : rules.AdmitsForm id schema name pairs)
    (hdeclares : rules.schemas.DeclaresTexts id schema name)
    (hpairs : pairs.filter (fun pair => pair.1 = name) = items.map fun item => (name, item)) :
    rules.schemas.coerce id (.object (BodyReader.formMembers pairs)) =
      .object (BodyReader.formMembers pairs) := by
  obtain ⟨hget, -, part, hdeclared, hlist⟩ := hdeclares
  have hsteps : SchemaTable.coercionSteps = 64 + 1 := rfl
  have hmembers : ∀ member ∈ BodyReader.formMembers pairs,
      (member.1, rules.schemas.coerceUnder 64
        (rules.schemas.propertySchema? member.1 64 schema) member.2) = member := by
    intro member hmember
    rcases BodyReader.eq_or_mem_of_mem_formMembers hadmits.single hpairs hmember with
      rfl | ⟨text, hpair, hother, hvalue⟩
    · rw [SchemaTable.propertySchema?_of_declared hdeclared]
      exact congrArg (Prod.mk name) (SchemaTable.coerceAt_gathered hlist items)
    · obtain ⟨other, property, hproperty, hfound, htype, -⟩ := hadmits.texts _ hpair hother
      rw [SchemaTable.propertySchema?_of_declared hproperty]
      refine Prod.ext rfl ?_
      dsimp only
      rw [hvalue]
      exact SchemaTable.coerceAt_text_eq_self hfound htype rfl
  rw [SchemaTable.coerce, hsteps, SchemaTable.coerceAt_object hget,
    List.map_congr_left hmembers, List.map_id']

theorem judgeMember_of_declared {value : Value}
    (hdeclared : Entries.get? schema.properties name = some part) :
    rules.judgeMember [] schema (name, value) = rules.applyAt [] [] part value := by
  simp only [judgeMember, propertySchema, hdeclared]

theorem get?_of_forall₂_judgeMember {members present : Entries Value} {value typed : Value}
    (hpresent : List.Forall₂ (fun member result =>
      rules.judgeMember [] schema member = .accepted result.2 ∧ member.1 = result.1)
      members present)
    (hget : Entries.get? members name = some value)
    (hjudged : rules.judgeMember [] schema (name, value) = .accepted typed) :
    Entries.get? present name = some typed := by
  have hkeys : Entries.keys present = Entries.keys members :=
    Entries.keys_eq_of_forall₂ (hpresent.imp fun _ _ hrelated => hrelated.2)
  have hkey : name ∈ Entries.keys present := by
    rw [hkeys, ← Entries.contains_iff, Entries.contains, hget, Option.isSome_some]
  obtain ⟨result, hresult⟩ := Entries.get?_of_mem_keys hkey
  have hsame : rules.judgeMember [] schema (name, value) = .accepted result :=
    Entries.related_of_forall₂
      (fun member result => rules.judgeMember [] schema member = .accepted result)
      (hpresent.imp fun _ _ hrelated => hrelated.symm) hget hresult
  rw [hresult, Judgement.accepted.inj (hjudged.symm.trans hsame)]

theorem judgeMember_list (hdeclared : Entries.get? schema.properties name = some part)
    (hlist : rules.schemas.IsListOf .string part) (texts : List String) :
    rules.judgeMember [] schema (name, .array (texts.map .string)) =
      .accepted (.array (texts.map .string)) := by
  rw [judgeMember_of_declared hdeclared, apply_list_of_texts hlist]

namespace AdmitsForm

theorem exists_present (hadmits : rules.AdmitsForm id schema name pairs)
    (hdeclares : rules.schemas.DeclaresTexts id schema name)
    (hpairs : pairs.filter (fun pair => pair.1 = name) = items.map fun item => (name, item))
    (hseveral : items.length ≠ 1) :
    ∃ present : Entries Value, List.Forall₂ (fun member result =>
      rules.judgeMember [] schema member = .accepted result.2 ∧ member.1 = result.1)
      (BodyReader.formMembers pairs) present := by
  obtain ⟨-, -, part, hdeclared, hlist⟩ := hdeclares
  refine Judgement.exists_forall₂_iff.2 fun member hmember => ?_
  rcases BodyReader.eq_or_mem_of_mem_formMembers hadmits.single hpairs hmember with
    rfl | ⟨text, hpair, hother, hvalue⟩
  · rw [BodyReader.gathered_of_length_ne_one hseveral]
    exact ⟨(name, .array (items.map .string)), judgeMember_list hdeclared hlist items, rfl⟩
  · obtain ⟨other, -, hproperty, -, -, haccepted⟩ := hadmits.texts _ hpair hother
    obtain ⟨result, hresult⟩ := Judgement.isAccepted_iff.1 haccepted
    refine ⟨(member.1, result), ?_, rfl⟩
    rw [← Prod.eta member, hvalue, judgeMember_of_declared hproperty]
    exact hresult

theorem exists_filled (hadmits : rules.AdmitsForm id schema name pairs) :
    ∃ filled : Entries Value, List.Forall₂ (fun missing result =>
      rules.fillAt [] missing.2.1 missing.2.2 = .accepted result.2 ∧ missing.1 = result.1)
      (rules.missingDefaults schema (BodyReader.formMembers pairs)) filled := by
  refine Judgement.exists_forall₂_iff.2 fun missing hmissing => ?_
  obtain ⟨result, hresult⟩ := Judgement.isAccepted_iff.1 (hadmits.defaults missing hmissing)
  exact ⟨(missing.1, result), hresult, rfl⟩

theorem contains_required (hadmits : rules.AdmitsForm id schema name pairs) {other : String}
    (hother : other ∈ schema.required) :
    Entries.contains (BodyReader.formMembers pairs) other := by
  rw [Entries.contains_iff, BodyReader.formMembers, BodyReader.keys_grouped,
    BodyReader.mem_namesOf_textFields]
  exact hadmits.required other hother

end AdmitsForm

theorem exists_judgeOwn_formMembers (hdeclares : rules.schemas.DeclaresTexts id schema name)
    (hpairs : pairs.filter (fun pair => pair.1 = name) = items.map fun item => (name, item))
    (hitems : items ≠ []) (hseveral : items.length ≠ 1)
    (hadmits : rules.AdmitsForm id schema name pairs) :
    ∃ typed, rules.judgeOwn schema (.object (BodyReader.formMembers pairs))
        (rules.neighbours [] [id] (.object (BodyReader.formMembers pairs))) =
          .accepted (.object typed) ∧
      Entries.get? typed name = some (.array (items.map .string)) := by
  obtain ⟨present, hpresent⟩ := hadmits.exists_present hdeclares hpairs hseveral
  obtain ⟨filled, hfilled⟩ := hadmits.exists_filled
  obtain ⟨-, hobject, part, hdeclared, hlist⟩ := hdeclares
  have hlisted : Entries.get? present name = some (.array (items.map .string)) :=
    get?_of_forall₂_judgeMember hpresent
      (BodyReader.get?_formMembers_of_several hitems hseveral hpairs)
      (judgeMember_list hdeclared hlist items)
  have hkey : name ∈ Entries.keys present := by
    rw [← Entries.contains_iff, Entries.contains, hlisted, Option.isSome_some]
  have htyped : rules.judgeType schema (.object (BodyReader.formMembers pairs))
      (rules.neighbours [] [id] (.object (BodyReader.formMembers pairs))) =
        .accepted (.object (present ++ filled)) := by
    rw [judgeType_object hobject]
    exact judgeMembers_eq_accepted_iff.2
      ⟨fun _ hother => hadmits.contains_required hother, present, filled, hpresent, hfilled, rfl⟩
  refine ⟨present ++ filled, ?_, by rw [Entries.get?_append_of_mem_keys hkey, hlisted]⟩
  simp only [judgeOwn, htyped, Judgement.andThen, hadmits.bounds]
  exact judgeFormat_of_isContainer rfl

/-- A form with a list of several texts is accepted, and the list is what it was. -/
theorem exists_apply_formMembers (hdeclares : rules.schemas.DeclaresTexts id schema name)
    (hpairs : pairs.filter (fun pair => pair.1 = name) = items.map fun item => (name, item))
    (hitems : items ≠ []) (hseveral : items.length ≠ 1)
    (hadmits : rules.AdmitsForm id schema name pairs) :
    ∃ typed, rules.apply id (.object (BodyReader.formMembers pairs)) = .accepted (.object typed) ∧
      Entries.get? typed name = some (.array (items.map .string)) := by
  obtain ⟨own, hown, howned⟩ :=
    exists_judgeOwn_formMembers hdeclares hpairs hitems hseveral hadmits
  have hlisted : Entries.get? (BodyReader.formMembers pairs) name =
      some (.array (items.map .string)) :=
    BodyReader.get?_formMembers_of_several hitems hseveral hpairs
  let form := Value.object (BodyReader.formMembers pairs)
  let near := rules.neighbours [] [id] form
  have halternatives : judgeAlternatives schema form near.here =
      ((judgeAlternatives schema form near.here).map fun _ => form).map .accepted := by
    rw [List.map_map]
    exact (List.map_id' _).symm.trans (List.map_congr_left hadmits.alternatives)
  have hincluded : List.Forall₂ (fun part result => near.here part = .accepted result) schema.allOf
      (schema.allOf.map fun _ => form) :=
    List.forall₂_map_right_iff.2 (List.forall₂_same.2 hadmits.included)
  have hrest : ∀ other ∈ ((judgeAlternatives schema form near.here).map fun _ => form) ++
      schema.allOf.map fun _ => form, other = form := by
    simp
  obtain ⟨typed, hmerged, hget?⟩ :=
    Value.exists_mergeAll_of_raw (BodyReader.distinct_grouped _) hlisted howned hrest
  refine ⟨typed, ?_, hget?⟩
  rw [apply, applyAt_eq_judge hdeclares.found List.not_mem_nil, judge_of_ne_null (by simp)]
  exact (judgeParts_eq_accepted_iff fun _ => isExplained_applyAt _ _ _ _ _).2
    ⟨_, _, _, hown, halternatives, hincluded, hmerged⟩

theorem not_isAccepted_of_declaresTexts {members : Entries Value} {text : String}
    (hdeclares : rules.schemas.DeclaresTexts id schema name)
    (hmember : (name, .string text) ∈ members) :
    ¬ (rules.apply id (.object members)).isAccepted := by
  obtain ⟨hget, -, part, hdeclared, hlist⟩ := hdeclares
  intro haccepted
  have hown := isAccepted_judgeOwn_of_conjunct (by simp) haccepted (SchemaTable.conjunct_self hget)
  exact not_isAccepted_text_of_isListOf hlist text
    (isAccepted_property_of_judgeOwn hown hmember (.inl hdeclared))

end SchemaRules

/-! ## Bodies -/

namespace Validator

variable {validator : Validator} {operation : Operation} {request : Request} {id part : SchemaId}
  {schema : Schema} {name : String} {pairs : List (String × String)} {items : List String}

/-- The body of a request is a form with these pairs, and a schema is declared for it. -/
structure ReceivesForm (validator : Validator) (operation : Operation) (request : Request)
    (id : SchemaId) (pairs : List (String × String)) : Prop where
  declared : ∃ body contentType mediaType, operation.body? = some body ∧
    selectMediaType? body.content request.effectiveContentType? = some (contentType, some id) ∧
    MediaType.ofString? (request.effectiveContentType?.getD contentType) = some mediaType ∧
    mediaType.essence = "application/x-www-form-urlencoded"
  reader : Entries.get? validator.media.readers "application/x-www-form-urlencoded" =
    some BodyReader.form
  written : ∃ escaping : Form.Escaping, request.body = Utf8.encodeString (escaping.write pairs)

theorem judgeRequestBody_of_receivesForm
    (hform : validator.ReceivesForm operation request id pairs) (hpairs : pairs ≠ []) :
    validator.judgeRequestBody operation request =
      ((validator.judgeValue (some id)
        (validator.cast (some id) ⟨.object (BodyReader.formMembers pairs), true⟩)).attach
          .body).map some := by
  obtain ⟨⟨body, contentType, mediaType, hbody, hselect, htype, hessence⟩, hreader, escaping,
    hwritten⟩ := hform
  have hnonempty : request.body.isEmpty = false := by
    rw [List.isEmpty_eq_false_iff]
    intro hnil
    have hread : Form.pairs (Utf8.encodeString (escaping.write pairs)) = pairs :=
      escaping.pairs_write pairs
    rw [← hwritten, hnil] at hread
    exact hpairs hread.symm
  have hread : validator.media.read (request.effectiveContentType?.getD contentType) request.body =
      .ok ⟨.object (BodyReader.formMembers pairs), true⟩ := by
    refine MediaRegistry.read_eq_ok htype (hessence ▸ hreader) ?_
    rw [hwritten]
    exact BodyReader.form_write mediaType escaping pairs
  simp only [judgeRequestBody, hbody, hnonempty, Bool.false_eq_true, if_false, judgeContent,
    hselect, hread]

theorem cast_of_castParameters (hcast : validator.options.castParameters = true) (value : Value) :
    validator.cast (some id) ⟨value, true⟩ = validator.contract.schemas.coerce id value := by
  simp only [cast, hcast, Bool.and_self, if_true]

/-- A name that came once holds a text, and casting does not make a list of it. -/
theorem not_isAccepted_of_single_item (hcast : validator.options.castParameters = true)
    (hdeclares : validator.contract.schemas.DeclaresTexts id schema name)
    (hform : validator.ReceivesForm operation request id pairs) {item : String}
    (hpairs : pairs.filter (fun pair => pair.1 = name) = [item].map fun item => (name, item)) :
    ¬ (validator.judgeRequestBody operation request).isAccepted := by
  obtain ⟨part, hdeclared, hlist⟩ := hdeclares.list
  have hnonempty : pairs ≠ [] := List.ne_nil_of_mem
    (BodyReader.mem_of_filter_eq List.mem_cons_self hpairs)
  have htext : (name, .string item) ∈ BodyReader.formMembers pairs :=
    Entries.mem_of_get? (BodyReader.get?_formMembers (by simp) hpairs)
  have hsteps : SchemaTable.coercionSteps = 64 + 1 := rfl
  have hkept : (validator.contract.schemas.coerceUnder 64
      (validator.contract.schemas.propertySchema? name 64 schema) (.string item)) =
        .string item := by
    rw [SchemaTable.propertySchema?_of_declared hdeclared]
    exact SchemaTable.coerceAt_gathered hlist [item]
  rw [judgeRequestBody_of_receivesForm hform hnonempty, cast_of_castParameters hcast,
    Judgement.isAccepted_map, Judgement.isAccepted_attach, SchemaTable.coerce, hsteps,
    SchemaTable.coerceAt_object hdeclares.found]
  have hmember := List.mem_map_of_mem (f := fun member : String × Value => (member.1,
    validator.contract.schemas.coerceUnder 64
      (validator.contract.schemas.propertySchema? member.1 64 schema) member.2)) htext
  rw [hkept] at hmember
  exact SchemaRules.not_isAccepted_of_declaresTexts hdeclares hmember

/-- A list of texts in a form comes back from every body that the rest of the schema admits as soon
as it has several items, wherever they stand among the other fields; but with a single item no such
body is accepted. -/
theorem form_list_comes_back_if_several (hcast : validator.options.castParameters = true)
    (hdeclares : validator.contract.schemas.DeclaresTexts id schema name)
    (hform : validator.ReceivesForm operation request id pairs) (hitems : items ≠ [])
    (hpairs : pairs.filter (fun pair => pair.1 = name) = items.map fun item => (name, item)) :
    (items.length ≠ 1 → validator.schemaRules.AdmitsForm id schema name pairs →
      ∃ members, validator.judgeRequestBody operation request =
          .accepted (some (.object members)) ∧
        Entries.get? members name = some (.array (items.map .string))) ∧
    (items.length = 1 → ¬ (validator.judgeRequestBody operation request).isAccepted) := by
  constructor
  · intro hseveral hadmits
    have hnonempty : pairs ≠ [] := List.ne_nil_of_mem
      (BodyReader.mem_of_filter_eq (List.head_mem hitems) hpairs)
    have hsame : validator.contract.schemas.coerce id (.object (BodyReader.formMembers pairs)) =
        .object (BodyReader.formMembers pairs) :=
      hadmits.coerce_eq_self hdeclares hpairs
    obtain ⟨members, haccepted, hmember⟩ :=
      SchemaRules.exists_apply_formMembers hdeclares hpairs hitems hseveral hadmits
    have hjudged : validator.judgeValue (some id) (.object (BodyReader.formMembers pairs)) =
        .accepted (.object members) := haccepted
    refine ⟨members, ?_, hmember⟩
    rw [judgeRequestBody_of_receivesForm hform hnonempty, cast_of_castParameters hcast, hsame,
      hjudged]
    rfl
  · intro hone
    obtain ⟨item, rfl⟩ := List.length_eq_one_iff.1 hone
    exact not_isAccepted_of_single_item hcast hdeclares hform hpairs

theorem interleaved_items_come_back :
    let schema : Schema := {
      type? := some .object
      properties := [("p", 1), ("q", 3)]
      required := ["p"]
      constraints := { maxProperties? := some 2 } }
    let list : Schema := { type? := some .array, items? := some 2 }
    let validator : Validator := {
      contract := { schemas := ⟨#[schema, list, .ofType .string, .ofType .string]⟩ }
      router := ⟨[], []⟩ }
    let operation : Operation := {
      method := "POST"
      path := "/a"
      body? := some { content := [("application/x-www-form-urlencoded", some 0)] } }
    let request : Request := {
      method := "POST"
      path := "/a"
      query := ""
      contentType? := some "application/x-www-form-urlencoded; charset=utf-8"
      body := Utf8.encodeString "p=a+b&q=x&p=c%2Cd" }
    ∃ members, validator.judgeRequestBody operation request = .accepted (some (.object members)) ∧
      Entries.get? members "p" = some (.array [.string "a b", .string "c,d"]) := by
  intro schema list validator operation request
  let pairs := [("p", "a b"), ("q", "x"), ("p", "c,d")]
  have hfree : (Schema.ofType .string).IsUnconstrained := Schema.isUnconstrained_ofType .string
  have hdeclares : validator.contract.schemas.DeclaresTexts 0 schema "p" :=
    ⟨rfl, rfl, 1, rfl, .intro rfl rfl ⟨⟨rfl, rfl, rfl⟩, rfl⟩ rfl rfl rfl hfree⟩
  have hselect : selectMediaType? [("application/x-www-form-urlencoded", some 0)]
      (some "application/x-www-form-urlencoded; charset=utf-8") =
        some ("application/x-www-form-urlencoded", some 0) := by
    decide
  have htype : MediaType.ofString? "application/x-www-form-urlencoded; charset=utf-8" =
      some ⟨"application", "x-www-form-urlencoded", [("charset", "utf-8")]⟩ := by
    decide
  have hessence : (MediaType.mk "application" "x-www-form-urlencoded"
      [("charset", "utf-8")]).essence = "application/x-www-form-urlencoded" := by
    decide
  have hform : validator.ReceivesForm operation request 0 pairs := {
    declared := ⟨_, _, _, rfl, hselect, htype, hessence⟩
    reader := rfl
    written := ⟨.standard, by decide⟩ }
  have htext : validator.schemaRules.AcceptsText schema ("q", "x") := by
    refine ⟨3, .ofType .string, rfl, rfl, rfl, Judgement.isAccepted_iff.2 ⟨.string "x", ?_⟩⟩
    exact SchemaRules.applyAt_text_of_isUnconstrained rfl rfl hfree "x"
  have hadmits : validator.schemaRules.AdmitsForm 0 schema "p" pairs := {
    single := by decide
    required := by decide
    texts := by simpa [pairs] using htext
    defaults := fun _ hmissing => absurd hmissing List.not_mem_nil
    bounds := rfl
    alternatives := fun _ hjudgement => absurd hjudgement List.not_mem_nil
    included := fun _ hpart => absurd hpart List.not_mem_nil }
  have hpairs : pairs.filter (fun pair => pair.1 = "p") =
      ["a b", "c,d"].map fun item => ("p", item) := by
    decide
  exact (form_list_comes_back_if_several rfl hdeclares hform (List.cons_ne_nil _ _) hpairs).1
    (by decide) hadmits

/-- A list of one item, written alone, does not come back. -/
theorem single_item_does_not_come_back :
    let schema : Schema := { type? := some .object, properties := [("p", 1)] }
    let list : Schema := { type? := some .array, items? := some 2 }
    let validator : Validator := {
      contract := { schemas := ⟨#[schema, list, .ofType .string]⟩ }
      router := ⟨[], []⟩ }
    let operation : Operation := {
      method := "POST"
      path := "/a"
      body? := some { content := [("application/x-www-form-urlencoded", some 0)] } }
    let request : Request := {
      method := "POST"
      path := "/a"
      query := ""
      contentType? := some "application/x-www-form-urlencoded"
      body := Utf8.encodeString "p=a" }
    validator.contract.schemas.DeclaresTexts 0 schema "p" ∧
      validator.ReceivesForm operation request 0 [("p", "a")] ∧
      ¬ ∃ members, validator.judgeRequestBody operation request =
          .accepted (some (.object members)) ∧
        Entries.get? members "p" = some (.array [.string "a"]) := by
  intro schema list validator operation request
  have hlist : validator.contract.schemas.IsListOf .string 1 :=
    .intro rfl rfl ⟨⟨rfl, rfl, rfl⟩, rfl⟩ rfl rfl rfl (Schema.isUnconstrained_ofType .string)
  have hdeclares : validator.contract.schemas.DeclaresTexts 0 schema "p" :=
    ⟨rfl, rfl, 1, rfl, hlist⟩
  have hselect : selectMediaType? [("application/x-www-form-urlencoded", some 0)]
      (some "application/x-www-form-urlencoded") =
        some ("application/x-www-form-urlencoded", some 0) := by
    decide
  have htype : MediaType.ofString? "application/x-www-form-urlencoded" =
      some ⟨"application", "x-www-form-urlencoded", []⟩ := by
    decide
  have hessence : (MediaType.mk "application" "x-www-form-urlencoded" []).essence =
      "application/x-www-form-urlencoded" := by
    decide
  have hform : validator.ReceivesForm operation request 0 [("p", "a")] := {
    declared := ⟨_, _, _, rfl, hselect, htype, hessence⟩
    reader := rfl
    written := ⟨.standard, by decide⟩ }
  have hpairs : [("p", "a")].filter (fun pair => pair.1 = "p") =
      ["a"].map fun item => ("p", item) := by
    decide
  have hrefused : ¬ (validator.judgeRequestBody operation request).isAccepted :=
    not_isAccepted_of_single_item rfl hdeclares hform hpairs
  refine ⟨hdeclares, hform, ?_⟩
  rintro ⟨members, haccepted, -⟩
  exact hrefused (Judgement.isAccepted_iff.2 ⟨_, haccepted⟩)

end Validator
end ApiContract
