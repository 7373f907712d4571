import ApiContract.Proofs.Settling

/-!
# Applying a schema again

A schema that has typed a value is meant to leave it alone from then on.  It does not always: a typed
text is judged by the form that it has on the wire, which need not be the text that was read, a
default may exceed a bound on the number of properties, and alternatives are chosen anew.  The main
statement gives the exact condition.  Without composition only the bounds and the listed literals can
fail, because the standard formats leave what they typed and nothing is filled in twice.
-/

namespace ApiContract

namespace SchemaRules

/-- Every part of a value is within the bounds and among the literals of the schemas that it is
judged by. -/
inductive Respects (rules : SchemaRules) : SchemaId → Value → Prop
  | intro {id : SchemaId} {value : Value}
      (bounds : ∀ schema, rules.schemas.get? id = some schema → value ≠ .null →
        boundFaults schema value = [])
      (inside : ∀ schema, rules.schemas.get? id = some schema →
        ∀ part child, schema.Asks value part child → Respects rules part child) :
      Respects rules id value

variable {rules : SchemaRules} {fills trail : List SchemaId} {id : SchemaId} {value typed : Value}
  {schema : Schema} {here : SchemaId → Judgement Value}

/-! ## Tables without composition -/

theorem Settled.respects (hsettled : rules.Settled trail id value) :
    trail = [] → rules.Respects id value := by
  induction hsettled with
  | dangling hget => exact fun _ => ⟨by simp [hget], by simp [hget]⟩
  | visited hmem =>
      rintro rfl
      exact absurd hmem List.not_mem_nil
  | null hget hnull =>
      refine fun _ => ⟨fun _ _ hnot => absurd rfl hnot, fun _ _ part child hasks => ?_⟩
      cases hasks
  | judged hget hnull halone hinside hchosen hhere ih =>
      rintro rfl
      constructor
      · intro schema hget' _
        obtain rfl := Option.some.inj (hget.symm.trans hget')
        exact halone.bounds
      · intro schema hget' part child hasks
        obtain rfl := Option.some.inj (hget.symm.trans hget')
        exact ih part child hasks rfl

theorem primitive?_again {type : SchemaType} (htyped : primitive? type value = some typed) :
    primitive? type typed = some typed := by
  rcases primitive?_cases htyped with rfl | ⟨number, integer, rfl, rfl⟩
  · exact htyped
  · cases type with
    | integer => rfl
    | _ => simp [primitive?, Value.isTextual] at htyped

theorem primitive?_of_isTextual {type : SchemaType} {text : String}
    (htyped : primitive? type value = some (.string text)) (htextual : typed.isTextual) :
    primitive? type typed = some typed := by
  have hagain := primitive?_again htyped
  cases type with
  | string => simp [primitive?, htextual]
  | _ => simp [primitive?] at hagain

theorem members_of_judgeMembers (htable : rules.schemas.IsKeyed)
    (hget : rules.schemas.get? id = some schema) {members : Entries Value}
    {hmembers : ∀ member ∈ members, member.2 ∈ value.children}
    (haccepted : judgeMembers rules (rules.neighbours fills trail value) schema members hmembers =
      .accepted typed) :
    ∃ results, typed = .object results ∧
      (∀ name, name ∈ Entries.keys results ↔ name ∈ Entries.keys members ∨
        name ∈ Entries.keys (rules.missingDefaults schema members)) ∧
      ∀ result ∈ results,
        (∃ member ∈ members, member.1 = result.1 ∧
          rules.judgeMember fills schema member = .accepted result.2) ∨
        ∃ part literal, Entries.get? schema.properties result.1 = some part ∧ literal.Keyed ∧
          rules.fillAt fills part literal = .accepted result.2 := by
  obtain ⟨-, present, filled, hpresent, hfilled, rfl⟩ := judgeMembers_eq_accepted_iff.1 haccepted
  have hpresentKeys : Entries.keys present = Entries.keys members :=
    Entries.keys_eq_of_forall₂ (hpresent.imp fun _ _ hresult => hresult.2)
  have hfilledKeys : Entries.keys filled = Entries.keys (rules.missingDefaults schema members) :=
    Entries.keys_eq_of_forall₂ (hfilled.imp fun _ _ hresult => hresult.2)
  refine ⟨present ++ filled, rfl, fun name => ?_, fun result hmem => ?_⟩
  · rw [Entries.keys_append, List.mem_append, hpresentKeys, hfilledKeys]
  · have hjudged : ∀ result ∈ present, ∃ member ∈ members, member.1 = result.1 ∧
        rules.judgeMember fills schema member = .accepted result.2 :=
      forall_mem_of_forall₂ hpresent fun member hmember result hresult =>
        ⟨member, hmember, hresult.2, hresult.1⟩
    have hadded : ∀ result ∈ filled, ∃ part literal,
        Entries.get? schema.properties result.1 = some part ∧ literal.Keyed ∧
          rules.fillAt fills part literal = .accepted result.2 := by
      refine forall_mem_of_forall₂ hfilled fun missing hmissing result hresult => ?_
      obtain ⟨hdeclared, -, -, property, hproperty, hdefault⟩ :=
        mem_missingDefaults_iff.1 hmissing
      have hname : Entries.get? schema.properties result.1 = some missing.2.1 :=
        hresult.2 ▸ (htable.properties id schema hget).get?_eq_some_iff.2 hdeclared
      exact ⟨missing.2.1, missing.2.2, hname,
        htable.default missing.2.1 property missing.2.2 hproperty hdefault, hresult.1⟩
    exact (List.mem_append.1 hmem).imp (hjudged result) (hadded result)

theorem hasType_of_judgeMembers (htable : rules.schemas.IsKeyed)
    (hget : rules.schemas.get? id = some schema) (htype : schema.effectiveType? = some .object)
    {members : Entries Value} {hmembers : ∀ member ∈ members, member.2 ∈ value.children}
    (haccepted : judgeMembers rules (rules.neighbours fills trail value) schema members hmembers =
      .accepted typed) : rules.HasType schema typed := by
  obtain ⟨results, rfl, hkeys, hresults⟩ := members_of_judgeMembers htable hget haccepted
  obtain ⟨hrequired, -⟩ := judgeMembers_eq_accepted_iff.1 haccepted
  refine (hasType_object_iff htype).2 ⟨fun name hname => ?_, ?_, fun name hname hundeclared => ?_⟩
  · rw [Entries.contains_iff, hkeys]
    exact .inl (Entries.contains_iff.1 (hrequired name hname))
  · refine List.eq_nil_iff_forall_not_mem.2 fun missing hmissing => ?_
    obtain ⟨hdeclared, hnew, hoptional, hdefault⟩ := mem_missingDefaults_iff.1 hmissing
    rw [hkeys, not_or] at hnew
    refine hnew.2 (List.mem_map_of_mem (mem_missingDefaults_iff.2 ?_))
    exact ⟨hdeclared, hnew.1, hoptional, hdefault⟩
  · obtain ⟨result, hresult⟩ := Entries.mem_keys_iff.1 hname
    rcases hresults _ hresult with ⟨member, -, heq, hmember⟩ | ⟨part, literal, hpart, -⟩
    · have haccepted := isAccepted_judgeMember_iff.1 (Judgement.isAccepted_iff.2 ⟨_, hmember⟩)
      exact (haccepted.2 (heq ▸ hundeclared)).2
    · simp [hundeclared] at hpart

theorem hasType_of_judgeType (hformats : rules.formats = Format.standard)
    (htable : rules.schemas.IsKeyed) (hget : rules.schemas.get? id = some schema) {result : Value}
    (htyped : rules.judgeType schema value (rules.neighbours fills trail value) = .accepted typed)
    (hformat : rules.judgeFormat schema typed = .accepted result) :
    rules.HasType schema result := by
  cases typesAs_of_judgeType htyped with
  | untyped htype => exact hasType_of_none htype
  | items htype hitems =>
      obtain rfl := eq_of_judgeFormat_of_isContainer (isContainer_of_judgeItems hitems) hformat
      obtain ⟨results, rfl⟩ := exists_array_of_judgeItems hitems
      exact hasType_array htype
  | members htype hmembers =>
      obtain rfl := eq_of_judgeFormat_of_isContainer (isContainer_of_judgeMembers hmembers) hformat
      exact hasType_of_judgeMembers htable hget htype hmembers
  | primitive htype harray hobject hprimitive =>
      rw [hasType_iff_of_primitive htype harray hobject]
      rcases (judgeFormat_cases hformats hformat).1 with rfl | ⟨text, rfl, htextual, -⟩
      · exact primitive?_again hprimitive
      · exact primitive?_of_isTextual hprimitive htextual

theorem exists_of_asks_members (htable : rules.schemas.IsKeyed)
    (hget : rules.schemas.get? id = some schema) {members : Entries Value}
    {hmembers : ∀ member ∈ members, member.2 ∈ value.children}
    (haccepted : judgeMembers rules (rules.neighbours fills trail value) schema members hmembers =
      .accepted typed) {part : SchemaId} {child : Value} (hasks : schema.Asks typed part child) :
    (∃ origin ∈ (Value.object members).children,
        rules.applyAt fills [] part origin = .accepted child) ∨
      ∃ literal, literal.Keyed ∧ rules.fillAt fills part literal = .accepted child := by
  obtain ⟨results, rfl, -, hresults⟩ := members_of_judgeMembers htable hget haccepted
  cases hasks with
  | declared hmem hdeclared =>
      rcases hresults _ hmem with ⟨member, hmember, hname, haccepted⟩ |
        ⟨other, literal, hother, hkeyed, hfill⟩
      · rw [judgeMember_of_get? (by rw [hname]; exact hdeclared)] at haccepted
        exact .inl ⟨member.2, List.mem_map_of_mem hmember, haccepted⟩
      · obtain rfl := Option.some.inj (hdeclared.symm.trans hother)
        exact .inr ⟨literal, hkeyed, hfill⟩
  | further hmem hundeclared hextras =>
      rcases hresults _ hmem with ⟨member, hmember, hname, haccepted⟩ |
        ⟨other, literal, hother, -⟩
      · rw [judgeMember_of_conforming (by rw [hname]; exact hundeclared) hextras] at haccepted
        exact .inl ⟨member.2, List.mem_map_of_mem hmember, haccepted⟩
      · simp [hundeclared] at hother

/-- What a schema asks of the values inside its result, it asked of those that they were made of. -/
theorem exists_of_asks (hformats : rules.formats = Format.standard)
    (htable : rules.schemas.IsKeyed) (hget : rules.schemas.get? id = some schema) {result : Value}
    (htyped : rules.judgeType schema value (rules.neighbours fills trail value) = .accepted typed)
    (hformat : rules.judgeFormat schema typed = .accepted result) {part : SchemaId} {child : Value}
    (hasks : schema.Asks result part child) :
    (∃ origin ∈ value.children, rules.applyAt fills [] part origin = .accepted child) ∨
      ∃ literal, literal.Keyed ∧ rules.fillAt fills part literal = .accepted child := by
  obtain rfl : result = typed := by
    rcases (judgeFormat_cases hformats hformat).1 with heq | ⟨text, -, htextual, -⟩
    · exact heq
    · cases hasks <;> simp [Value.isTextual] at htextual
  cases typesAs_of_judgeType htyped with
  | untyped htype => exact absurd hasks (not_asks_of_none htype)
  | @items items _ _ haccepted =>
      obtain ⟨results, rfl⟩ := exists_array_of_judgeItems haccepted
      cases hasks with
      | item hitems hmem =>
          obtain ⟨judged, hall, heq⟩ := (judgeItems_eq_accepted_iff hitems).1 haccepted
          obtain rfl := Value.array.inj heq
          have horigin : ∀ child ∈ judged, ∃ origin ∈ (Value.array items).children,
              rules.applyAt fills [] part origin = .accepted child :=
            forall_mem_of_forall₂ hall fun origin horigin _ haccepted =>
              ⟨origin, horigin, haccepted⟩
          exact .inl (horigin child hmem)
  | members _ haccepted => exact exists_of_asks_members htable hget haccepted hasks
  | primitive _ _ _ hprimitive =>
      exact absurd hasks (not_asks_of_primitive? (primitive?_again hprimitive))

theorem isComposed_eq_false_iff :
    schema.isComposed = false ↔ schema.allOf = [] ∧ schema.oneOf = [] ∧ schema.anyOf = [] := by
  simp [Schema.isComposed, and_assoc]

theorem chooses_nil_of_isComposed_eq_false (hplain : schema.isComposed = false) :
    Chooses here schema value [] := by
  obtain ⟨-, honeOf, hanyOf⟩ := isComposed_eq_false_iff.1 hplain
  unfold Chooses
  split
  · simp [honeOf, hanyOf]
  · exact ⟨[], [], rfl, by simp [honeOf], by simp [hanyOf]⟩

/-- Without composition a schema settles null at once and leaves all else to its own keywords. -/
theorem judge_eq_accepted_of_isComposed_eq_false {near : Neighbours value}
    (hplain : schema.isComposed = false) (hhere : ∀ id, (near.here id).IsExplained)
    (haccepted : rules.judge schema value near = .accepted typed) :
    (value = .null ∧ typed = .null ∧ rules.TakesNull schema) ∨
      (value ≠ .null ∧ rules.judgeOwn schema value near = .accepted typed) := by
  cases rules.judgeView schema value with
  | taken htakes =>
      rw [judge_null_of_takesNull htakes] at haccepted
      exact .inl ⟨rfl, (Judgement.accepted.inj haccepted).symm, htakes⟩
  | refused hrefused =>
      rw [judge_null_of_admitsNull_eq_false hrefused] at haccepted
      cases haccepted
  | apart happart =>
      have hnull : value ≠ .null := by
        intro heq
        obtain ⟨-, -, -, hcomposed⟩ := happart heq
        simp [hplain] at hcomposed
      refine .inr ⟨hnull, ?_⟩
      rw [judge_of_takesApart happart] at haccepted
      obtain ⟨own, alternatives, included, hown, halternatives, hincluded, rfl⟩ :=
        (judgeParts_eq_accepted_iff hhere).1 haccepted
      obtain ⟨hallOf, honeOf, hanyOf⟩ := isComposed_eq_false_iff.1 hplain
      have hnone : judgeAlternatives schema value near.here = [] := by
        simp only [judgeAlternatives, honeOf, hanyOf]
        split <;> rfl
      rw [hnone] at halternatives
      obtain rfl := List.map_eq_nil_iff.1 halternatives.symm
      rw [hallOf] at hincluded
      cases hincluded
      exact hown

theorem leavesAlone_of_judgeOwn (hformats : rules.formats = Format.standard)
    (htable : rules.schemas.IsKeyed) (hget : rules.schemas.get? id = some schema) {result : Value}
    (htyped : rules.judgeType schema value (rules.neighbours fills trail value) = .accepted typed)
    (hformat : rules.judgeFormat schema typed = .accepted result)
    (hbounds : boundFaults schema result = []) : rules.LeavesAlone schema result :=
  ⟨hasType_of_judgeType hformats htable hget htyped hformat, hbounds,
    judgeFormat_eq_accepted_self_iff.1 (judgeFormat_cases hformats hformat).2⟩

theorem eq_null_of_refines (hrefines : value.Refines .null) : value = .null := by
  cases hrefines with
  | unchanged => rfl
  | text htextual => simp [Value.isTextual] at htextual

/-- Without composition only the bounds can keep a schema from leaving what it typed. -/
theorem settled_of_respects (hformats : rules.formats = Format.standard)
    (htable : rules.schemas.IsKeyed)
    (hplain : ∀ id schema, rules.schemas.get? id = some schema → schema.isComposed = false) :
    ∀ fills trail id value, trail = [] → value.Keyed →
      ∀ typed, rules.applyAt fills trail id value = .accepted typed →
        rules.Respects id typed → rules.Settled [] id typed := by
  -- What is inside the result was either judged inside the value or filled in from a default, and
  -- both are steps of the recursion with nothing on the trail.
  refine applyAt.induct rules _ ?_ ?_ ?_
  · intro fills trail id value hget _ _ typed _ _
    exact .dangling hget
  · intro fills trail id value _ _ hmem htrail
    simp [htrail] at hmem
  · intro fills trail id value schema hget hnew _ hinside hfilled _ hkeyed typed haccepted hrespects
    have hrefines := (refines_of_applyAt hformats htable _ _ _ _ hkeyed _ haccepted).1
    rw [applyAt_eq_judge hget hnew] at haccepted
    rcases judge_eq_accepted_of_isComposed_eq_false (hplain id schema hget)
      (fun _ => isExplained_applyAt _ _ _ _ _) haccepted with ⟨-, rfl, hnull⟩ | ⟨hnull, hown⟩
    · exact .null hget hnull
    · have htyped : typed ≠ .null := by
        rintro rfl
        exact hnull (eq_null_of_refines hrefines)
      obtain ⟨bounds, inside⟩ := hrespects
      obtain ⟨middle, hmiddle, hrest⟩ := Judgement.andThen_eq_accepted_iff.1 hown
      split at hrest
      · have halone := leavesAlone_of_judgeOwn hformats htable hget hmiddle hrest
          (bounds schema hget htyped)
        obtain ⟨hallOf, -, -⟩ := isComposed_eq_false_iff.1 (hplain id schema hget)
        refine .judged hget (absurd · htyped) halone (fun part child hasks => ?_)
          (chooses_nil_of_isComposed_eq_false (hplain id schema hget)) ?_
        · have hrespected := inside schema hget part child hasks
          rcases exists_of_asks hformats htable hget hmiddle hrest hasks with
            ⟨origin, horigin, haccepted⟩ | ⟨literal, hliteral, hfill⟩
          · obtain ⟨-, hchildren⟩ := hkeyed
            exact hinside origin horigin part rfl (hchildren origin horigin) child haccepted
              hrespected
          · unfold fillAt at hfill
            split at hfill
            · next hfresh =>
                exact hfilled part literal hfresh rfl (Value.keyed_ofJson hliteral) child hfill
                  hrespected
            · simp at hfill
        · simp [hallOf]
      · simp at hrest

/-- Applying a schema to what it typed gives the same value exactly when that value has content equal
to itself and is settled; without composition it is settled as soon as it respects the bounds. -/
theorem apply_again_same_iff_settled (rules : SchemaRules) (hformats : rules.formats = Format.standard)
    (htable : rules.schemas.IsKeyed) (id : SchemaId) (value typed : Value) (hkeyed : value.Keyed)
    (haccepted : rules.apply id value = .accepted typed) :
    ((∃ again, rules.apply id typed = .accepted again ∧ again.same typed) ↔
        typed.same typed ∧ rules.Settled [] id typed) ∧
      ((∀ part schema, rules.schemas.get? part = some schema → schema.isComposed = false) →
        (rules.Settled [] id typed ↔ rules.Respects id typed)) := by
  have htyped : typed.Keyed := (refines_of_applyAt hformats htable _ _ _ _ hkeyed _ haccepted).2
  refine ⟨⟨?_, ?_⟩, fun hplain => ⟨fun hsettled => hsettled.respects rfl, ?_⟩⟩
  · rintro ⟨again, hagain, hsame⟩
    obtain ⟨hrefines, hagainKeyed⟩ := refines_of_applyAt hformats htable _ _ _ _ htyped _ hagain
    obtain rfl := hrefines.eq_of_same htyped hagainKeyed hsame
    exact ⟨hsame, (applyAt_eq_accepted_self_iff hformats htable _ _ _ _ rfl htyped hsame).1 hagain⟩
  · rintro ⟨hsame, hsettled⟩
    exact ⟨typed,
      (applyAt_eq_accepted_self_iff hformats htable _ _ _ _ rfl htyped hsame).2 hsettled, hsame⟩
  · exact settled_of_respects hformats htable hplain _ _ _ _ rfl hkeyed _ haccepted

/-- An object is left as it was typed, with a date read and a property filled in. -/
theorem read_date_and_filled_text_are_left :
    let whole : Schema := { type? := some .object, properties := [("day", 1), ("note", 2)] }
    let day : Schema := {
      type? := some .string, format? := some "date", constraints := { maxLength? := some 10 } }
    let note : Schema := { type? := some .string, default? := some (.string "-") }
    let rules : SchemaRules := { schemas := ⟨#[whole, day, note]⟩, formats := Format.standard }
    let value := Value.object [("day", .string "2024-02-29")]
    let typed := Value.object [("day", .date ⟨2024, 2, 29, by decide⟩), ("note", .string "-")]
    rules.schemas.IsKeyed ∧ value.Keyed ∧ rules.apply 0 value = .accepted typed ∧
      ∃ again, rules.apply 0 typed = .accepted again ∧ again.same typed := by
  intro whole day note rules value typed
  have htable : rules.schemas.IsKeyed := by
    have hdistinct : Entries.Distinct whole.properties := by decide
    have hempty : Entries.Distinct ([] : Entries SchemaId) := by decide
    simp [SchemaTable.isKeyed_iff, rules, hdistinct, day, note, hempty, whole, Json.Keyed.string]
  have hkeyed : value.Keyed := by
    rw [Value.keyed_object_iff, List.forall_mem_singleton]
    exact ⟨by decide, Value.keyed_of_not_isContainer rfl⟩
  have haccepted : rules.apply 0 value = .accepted typed := by cbv
  have hplain : ∀ part schema, rules.schemas.get? part = some schema →
      schema.isComposed = false := by
    rw [SchemaTable.forall_get?_iff]
    simp [rules, whole, day, note, Schema.isComposed]
  have hday : rules.Respects 1 (.date ⟨2024, 2, 29, by decide⟩) := by
    refine ⟨fun schema hget _ => ?_, fun schema hget part child hasks => by cases hasks⟩
    obtain rfl : day = schema := Option.some.inj hget
    rfl
  have hnote : rules.Respects 2 (.string "-") := by
    refine ⟨fun schema hget _ => ?_, fun schema hget part child hasks => by cases hasks⟩
    obtain rfl : note = schema := Option.some.inj hget
    rfl
  have hrespects : rules.Respects 0
      (.object [("day", .date ⟨2024, 2, 29, by decide⟩), ("note", .string "-")]) := by
    refine ⟨fun schema hget _ => ?_, fun schema hget part child hasks => ?_⟩
    · obtain rfl : whole = schema := Option.some.inj hget
      rfl
    · obtain rfl : whole = schema := Option.some.inj hget
      cases hasks with
      | declared hmem hdeclared =>
          rcases List.mem_cons.1 hmem with heq | hmem
          · obtain ⟨rfl, rfl⟩ := Prod.mk.inj heq
            obtain rfl : 1 = part := Option.some.inj hdeclared
            exact hday
          · obtain ⟨rfl, rfl⟩ := Prod.mk.inj (List.mem_singleton.1 hmem)
            obtain rfl : 2 = part := Option.some.inj hdeclared
            exact hnote
      | further _ _ hextras => simp [whole] at hextras
  obtain ⟨hagain, hsettled⟩ := apply_again_same_iff_settled rules rfl htable 0 value typed hkeyed
    haccepted
  exact ⟨htable, hkeyed, haccepted, hagain.2 ⟨by decide, (hsettled hplain).2 hrespects⟩⟩

/-- Bytes are bounded by the text that they are written as, which is longer than the text that was
read. -/
theorem read_bytes_exceed_bound :
    let rules : SchemaRules := {
      schemas := ⟨#[{
        type? := some .string, format? := some "binary", constraints := { maxLength? := some 3 } }]⟩
      formats := Format.standard }
    let typed := Value.bytes [97, 98, 99]
    rules.schemas.IsKeyed ∧ (Value.string "abc").Keyed ∧
      rules.apply 0 (.string "abc") = .accepted typed ∧
      ¬ ∃ again, rules.apply 0 typed = .accepted again ∧ again.same typed := by
  intro rules typed
  refine ⟨?_, Value.keyed_of_not_isContainer rfl, ?_, ?_⟩
  · simp [SchemaTable.isKeyed_iff, rules, Entries.Distinct, Entries.keys]
  · rw [apply, applyAt_eq_judge rfl List.not_mem_nil]
    rfl
  · have hrejected : rules.apply 0 typed =
        .rejected [(SchemaFault.excess (.tooLong 4 3)).violation] := by
      rw [apply, applyAt_eq_judge rfl List.not_mem_nil]
      rfl
    rintro ⟨again, hagain, -⟩
    simp [hrejected] at hagain

end SchemaRules

end ApiContract
