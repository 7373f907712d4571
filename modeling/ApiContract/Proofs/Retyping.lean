import ApiContract.Format.Standard
import ApiContract.Proofs.Alternatives
import ApiContract.Proofs.Conformance
import ApiContract.Proofs.Refinement

/-!
# Applying a schema types a value

The standard formats either leave a value as it is or turn a text into the value that it writes, and
they leave what they typed.  So a schema that accepts a value gives back a typed form of it, however
it is composed and whatever defaults it fills in.
-/

namespace ApiContract

/-! ## Standard formats -/

/-- A caster that leaves every value but the texts that it types, and leaves those once typed. -/
def FormatCaster.IsSettling (caster : FormatCaster) : Prop :=
  ∀ value typed, caster value = .ok typed →
    (typed = value ∨ ∃ text, value = .string text ∧ typed.isTextual ∧
      ∀ other, typed ≠ .string other) ∧ caster typed = .ok typed

namespace Format

theorem refuseForeign_eq_ok {format : String} {value typed : Value}
    (hcast : refuseForeign format value = .ok typed) : typed = value := by
  unfold refuseForeign at hcast
  split at hcast
  · simp at hcast
  · exact (Except.ok.inj hcast).symm

theorem readAs_eq_ok {format : String} {read? : Option Value} {typed : Value}
    (hcast : readAs format read? = .ok typed) : read? = some typed := by
  unfold readAs at hcast
  split at hcast
  · exact congrArg some (Except.ok.inj hcast)
  · simp at hcast

/-- A caster that reads texts, leaves what they are read as, and is for no other texts. -/
theorem isSettling_of_reading {α : Type} {caster : FormatCaster} (format : String) (make : α → Value)
    (htextual : ∀ read, (make read).isTextual ∧ ∀ other, make read ≠ .string other)
    (hmade : ∀ read, caster (make read) = .ok (make read))
    (hreads : ∀ text typed, caster (.string text) = .ok typed → ∃ read, make read = typed)
    (hforeign : ∀ value, (∀ text, value ≠ .string text) → (∀ read, value ≠ make read) →
      caster value = refuseForeign format value) : caster.IsSettling := by
  intro value typed hcast
  by_cases htext : ∃ text, value = .string text
  · obtain ⟨text, rfl⟩ := htext
    obtain ⟨read, rfl⟩ := hreads text typed hcast
    obtain ⟨hmadeText, hother⟩ := htextual read
    exact ⟨.inr ⟨text, rfl, hmadeText, hother⟩, hmade read⟩
  · by_cases hvalue : ∃ read, value = make read
    · obtain ⟨read, rfl⟩ := hvalue
      obtain rfl := Except.ok.inj ((hmade read).symm.trans hcast)
      exact ⟨.inl rfl, hcast⟩
    · have hrefused := hforeign value (by simpa using htext) (by simpa using hvalue)
      obtain rfl := refuseForeign_eq_ok (hrefused.symm.trans hcast)
      exact ⟨.inl rfl, hcast⟩

theorem exists_of_readAs_map {α : Type} {format : String} {make : α → Value} {read? : Option α}
    {typed : Value} (hcast : readAs format (read?.map make) = .ok typed) :
    ∃ read, make read = typed := by
  obtain ⟨read, -, hread⟩ := Option.map_eq_some_iff.1 (readAs_eq_ok hcast)
  exact ⟨read, hread⟩

theorem isSettling_date : FormatCaster.IsSettling date := by
  refine isSettling_of_reading "date" Value.date (by simp [Value.isTextual]) (fun _ => rfl) ?_ ?_
  · exact fun text typed hcast => exists_of_readAs_map hcast
  · intro value htext hother
    cases value <;> simp_all [date]

theorem isSettling_dateTime : FormatCaster.IsSettling dateTime := by
  refine isSettling_of_reading "date-time" Value.timestamp (by simp [Value.isTextual]) (fun _ => rfl) ?_ ?_
  · exact fun text typed hcast => exists_of_readAs_map hcast
  · intro value htext hother
    cases value <;> simp_all [dateTime]

theorem isSettling_byte : FormatCaster.IsSettling byte := by
  refine isSettling_of_reading "byte" Value.bytes (by simp [Value.isTextual]) (fun _ => rfl) ?_ ?_
  · exact fun text typed hcast => exists_of_readAs_map hcast
  · intro value htext hother
    cases value <;> simp_all [byte]

theorem isSettling_binary : FormatCaster.IsSettling binary := by
  refine isSettling_of_reading "binary" Value.bytes (by simp [Value.isTextual]) (fun _ => rfl) ?_ ?_
  · exact fun text typed hcast => ⟨_, Except.ok.inj hcast⟩
  · intro value htext hother
    cases value <;> simp_all [binary]

theorem isSettling_uuid : FormatCaster.IsSettling uuid := by
  refine isSettling_of_reading "uuid" Value.uuid (by simp [Value.isTextual]) (fun _ => rfl) ?_ ?_
  · exact fun text typed hcast => exists_of_readAs_map hcast
  · intro value htext hother
    cases value <;> simp_all [uuid]

theorem isSettling_of_eq {caster : FormatCaster}
    (heq : ∀ value typed, caster value = .ok typed → typed = value) : caster.IsSettling := by
  intro value typed hcast
  obtain rfl := heq value typed hcast
  exact ⟨.inl rfl, hcast⟩

theorem isSettling_email : FormatCaster.IsSettling email := by
  refine isSettling_of_eq fun value typed hcast => ?_
  unfold email at hcast
  split at hcast
  · split at hcast
    · exact (Except.ok.inj hcast).symm
    · simp at hcast
  · exact refuseForeign_eq_ok hcast

theorem isSettling_uri : FormatCaster.IsSettling uri := by
  refine isSettling_of_eq fun value typed hcast => ?_
  unfold uri at hcast
  split at hcast
  · obtain ⟨_, -, rfl⟩ := Option.map_eq_some_iff.1 (readAs_eq_ok hcast)
    rfl
  · exact refuseForeign_eq_ok hcast

theorem isSettling_address (format protocol : String) (isAddress : List Char → Bool) :
    FormatCaster.IsSettling (address format protocol isAddress) := by
  refine isSettling_of_eq fun value typed hcast => ?_
  unfold address at hcast
  split at hcast
  · split at hcast
    · exact (Except.ok.inj hcast).symm
    · simp at hcast
  · exact refuseForeign_eq_ok hcast

theorem isSettling_range (format : String) (least most : Int64) :
    FormatCaster.IsSettling (range format least most) := by
  refine isSettling_of_eq fun value typed hcast => ?_
  unfold range at hcast
  split at hcast
  · split at hcast
    · simp at hcast
    · exact (Except.ok.inj hcast).symm
  · exact (Except.ok.inj hcast).symm

theorem isSettling_free : FormatCaster.IsSettling free :=
  isSettling_of_eq fun _ _ hcast => (Except.ok.inj hcast).symm

theorem isSettling_standard : ∀ entry ∈ standard.casters, FormatCaster.IsSettling entry.2 := by
  simp only [standard, List.forall_mem_cons]
  exact ⟨isSettling_date, isSettling_dateTime, isSettling_byte, isSettling_binary, isSettling_uuid,
    isSettling_email, isSettling_range _ _ _, isSettling_range _ _ _, isSettling_free,
    isSettling_free, isSettling_free, isSettling_uri, isSettling_address _ _ _,
    isSettling_address _ _ _, by simp⟩

theorem isSettling_cast (format : String) :
    FormatCaster.IsSettling (standard.cast format) := by
  intro value typed hcast
  unfold FormatRegistry.cast at hcast ⊢
  cases hget : Entries.get? standard.casters format with
  | none =>
      rw [hget] at hcast
      obtain rfl := Except.ok.inj hcast
      exact ⟨.inl rfl, rfl⟩
  | some caster =>
      rw [hget] at hcast
      exact isSettling_standard _ (Entries.mem_of_get? hget) value typed hcast

end Format

/-- The properties of a schema have distinct names, and so have the members of its default. -/
structure SchemaTable.IsKeyed (table : SchemaTable) : Prop where
  properties : ∀ id schema, table.get? id = some schema → Entries.Distinct schema.properties
  default : ∀ id schema literal, table.get? id = some schema → schema.default? = some literal →
    literal.Keyed

theorem SchemaTable.isKeyed_iff {table : SchemaTable} :
    table.IsKeyed ↔ ∀ schema ∈ table.schemas.toList, Entries.Distinct schema.properties ∧
      ∀ literal, schema.default? = some literal → literal.Keyed := by
  rw [← SchemaTable.forall_get?_iff]
  constructor
  · rintro ⟨hproperties, hdefault⟩ id schema hget
    exact ⟨hproperties id schema hget, fun literal => hdefault id schema literal hget⟩
  · intro hall
    exact ⟨fun id schema hget => (hall id schema hget).1,
      fun id schema literal hget => (hall id schema hget).2 literal⟩

namespace SchemaRules

variable {rules : SchemaRules} {fills trail : List SchemaId} {id : SchemaId} {value typed : Value}
  {schema : Schema}

/-! ## The type of a schema -/

theorem primitive?_cases {type : SchemaType} (htyped : primitive? type value = some typed) :
    typed = value ∨ ∃ number integer, value = .number number ∧ typed = .integer integer := by
  unfold primitive? at htyped
  split at htyped
  · split at htyped
    · exact .inl (Option.some.inj htyped).symm
    · simp at htyped
  · exact .inl (Option.some.inj htyped).symm
  · split at htyped
    · exact .inr ⟨_, _, rfl, (Option.some.inj htyped).symm⟩
    · simp at htyped
  · exact .inl (Option.some.inj htyped).symm
  · exact .inl (Option.some.inj htyped).symm
  · exact .inl (Option.some.inj htyped).symm
  · exact .inl (Option.some.inj htyped).symm
  · simp at htyped

theorem isContainer_of_isTextual (htextual : value.isTextual) : value.isContainer = false := by
  cases value <;> simp_all [Value.isTextual, Value.isContainer]

theorem isContainer_of_primitive? {type : SchemaType} (htyped : primitive? type value = some typed) :
    typed.isContainer = false := by
  unfold primitive? at htyped
  split at htyped
  · split at htyped
    · next htextual =>
        obtain rfl := Option.some.inj htyped
        exact isContainer_of_isTextual htextual
    · simp at htyped
  · obtain rfl := Option.some.inj htyped
    rfl
  · split at htyped
    · obtain rfl := Option.some.inj htyped
      rfl
    · simp at htyped
  · obtain rfl := Option.some.inj htyped
    rfl
  · obtain rfl := Option.some.inj htyped
    rfl
  · obtain rfl := Option.some.inj htyped
    rfl
  · obtain rfl := Option.some.inj htyped
    rfl
  · simp at htyped

theorem refines_of_primitive? {type : SchemaType} (htyped : primitive? type value = some typed) :
    value.Refines typed := by
  rcases primitive?_cases htyped with rfl | ⟨number, integer, rfl, rfl⟩
  · exact .unchanged typed
  · exact .integral number integer

/-- A standard format leaves a value or types a text, and it leaves its result. -/
theorem judgeFormat_cases (hformats : rules.formats = Format.standard) {result : Value}
    (haccepted : rules.judgeFormat schema typed = .accepted result) :
    (result = typed ∨ ∃ text, typed = .string text ∧ result.isTextual ∧
      ∀ other, result ≠ .string other) ∧ rules.judgeFormat schema result = .accepted result := by
  unfold judgeFormat at haccepted ⊢
  rw [hformats] at haccepted ⊢
  split at haccepted
  · next format _ =>
      split at haccepted
      · next hcontainer =>
          obtain rfl := Judgement.accepted.inj haccepted
          exact ⟨.inl rfl, by simp [hcontainer]⟩
      · split at haccepted
        · next cast hcast =>
            obtain rfl := Judgement.accepted.inj haccepted
            obtain ⟨hcases, hagain⟩ := Format.isSettling_cast format typed cast hcast
            refine ⟨hcases, ?_⟩
            rw [hagain]
            split <;> rfl
        · simp [refuse, Judgement.refuse] at haccepted
  · obtain rfl := Judgement.accepted.inj haccepted
    exact ⟨.inl rfl, rfl⟩

/-- A format only types a text further that is the value itself. -/
theorem refines_of_judgeFormat (hformats : rules.formats = Format.standard) {result : Value}
    (htyped : value.Refines typed) (hkeyed : typed.Keyed)
    (hvalue : ∀ text, typed = .string text → value = typed)
    (haccepted : rules.judgeFormat schema typed = .accepted result) :
    value.Refines result ∧ result.Keyed := by
  rcases (judgeFormat_cases hformats haccepted).1 with rfl | ⟨text, rfl, htextual, hother⟩
  · exact ⟨htyped, hkeyed⟩
  · rw [hvalue text rfl]
    exact ⟨.text htextual hother,
      Value.keyed_of_not_isContainer (isContainer_of_isTextual htextual)⟩

/-! ## Values inside -/

theorem refines_array {items results : List Value}
    (hall : List.Forall₂ (fun item result => item.Refines result ∧ result.Keyed) items results) :
    (Value.array items).Refines (.array results) ∧ (Value.array results).Keyed := by
  constructor
  · refine .items hall.length_eq fun index item other hitem hother => ?_
    obtain ⟨hindex, rfl⟩ := List.getElem?_eq_some_iff.1 hitem
    obtain ⟨hindex', rfl⟩ := List.getElem?_eq_some_iff.1 hother
    exact ((List.forall₂_iff_get.1 hall).2 index hindex hindex').1
  · rw [Value.keyed_array_iff]
    exact forall_mem_of_forall₂ hall fun _ _ _ hresult => hresult.2

theorem refines_object {members present filled : Entries Value}
    (hdistinct : Entries.Distinct (present ++ filled))
    (hpresent : List.Forall₂ (fun member result =>
      member.1 = result.1 ∧ member.2.Refines result.2 ∧ result.2.Keyed) members present)
    (hfilled : ∀ entry ∈ filled, entry.2.Keyed) :
    (Value.object members).Refines (.object (present ++ filled)) ∧
      (Value.object (present ++ filled)).Keyed := by
  constructor
  · refine .members (Entries.keys_prefix_append_of_forall₂
      (hpresent.imp fun _ _ hresult => hresult.1)) ?_
    intro name member other hmember hother
    exact Entries.related_of_forall₂_append (fun member result => member.2.Refines result)
      (hpresent.imp fun _ _ hresult => ⟨hresult.1, hresult.2.1⟩) hmember hother
  · rw [Value.keyed_object_iff]
    refine ⟨hdistinct, fun entry hmem => ?_⟩
    rcases List.mem_append.1 hmem with hmem | hmem
    · exact forall_mem_of_forall₂ hpresent (fun _ _ _ hresult => hresult.2.2) entry hmem
    · exact hfilled entry hmem

theorem mem_missingDefaults_iff {members : Entries Value} {missing : String × SchemaId × Json} :
    missing ∈ rules.missingDefaults schema members ↔
      (missing.1, missing.2.1) ∈ schema.properties ∧ missing.1 ∉ Entries.keys members ∧
        missing.1 ∉ schema.required ∧ ∃ property, rules.schemas.get? missing.2.1 = some property ∧
          property.default? = some missing.2.2 := by
  obtain ⟨name, part, literal⟩ := missing
  unfold missingDefaults
  rw [List.mem_filterMap, ← Entries.contains_iff]
  constructor
  · rintro ⟨⟨other, child⟩, hmem, hsome⟩
    dsimp only at hsome
    split at hsome
    · simp at hsome
    · next hnot =>
        simp only [Bool.or_eq_true, List.contains_iff_mem, not_or] at hnot
        split at hsome
        · next property hproperty =>
            obtain ⟨found, hfound, heq⟩ := Option.map_eq_some_iff.1 hsome
            obtain ⟨rfl, rfl, rfl⟩ : other = name ∧ child = part ∧ found = literal := by
              simpa using heq
            exact ⟨hmem, hnot.1, hnot.2, property, hproperty, hfound⟩
        · simp at hsome
  · rintro ⟨hmem, hnew, hoptional, property, hproperty, hdefault⟩
    exact ⟨(name, part), hmem, by simp [hnew, hoptional, hproperty, hdefault]⟩

theorem nodup_map_filterMap {α β γ : Type} {keep : α → Option β} {before : α → γ} {behind : β → γ}
    (hkept : ∀ a, ∀ b ∈ keep a, behind b = before a) {candidates : List α}
    (hdistinct : (candidates.map before).Nodup) :
    ((candidates.filterMap keep).map behind).Nodup := by
  refine List.pairwise_map.2 ((List.pairwise_map.1 hdistinct).filterMap _ ?_)
  intro a b hne x hx y hy heq
  exact hne ((hkept a x hx).symm.trans (heq.trans (hkept b y hy)))

theorem distinct_missingDefaults (hproperties : Entries.Distinct schema.properties)
    (members : Entries Value) : Entries.Distinct (rules.missingDefaults schema members) := by
  refine nodup_map_filterMap (fun entry missing hmem => ?_) hproperties
  dsimp only at hmem
  split at hmem
  · simp at hmem
  · split at hmem
    · obtain ⟨literal, -, rfl⟩ := Option.map_eq_some_iff.1 hmem
      rfl
    · simp at hmem

theorem distinct_of_fills (htable : rules.schemas.IsKeyed)
    (hget : rules.schemas.get? id = some schema) {members filled : Entries Value}
    (hfills : List.Forall₂ (fun missing result =>
      rules.fillAt fills missing.2.1 missing.2.2 = .accepted result.2 ∧ missing.1 = result.1)
      (rules.missingDefaults schema members) filled) : Entries.Distinct filled := by
  have hkeys : Entries.keys filled = Entries.keys (rules.missingDefaults schema members) :=
    Entries.keys_eq_of_forall₂ (hfills.imp fun _ _ hfill => hfill.2)
  exact Entries.distinct_of_keys_eq hkeys
    (distinct_missingDefaults (htable.properties id schema hget) members)

/-- The names in an accepted object are distinct, because a default is for a name that is free. -/
theorem distinct_append_of_fills (htable : rules.schemas.IsKeyed)
    (hget : rules.schemas.get? id = some schema) {members present filled : Entries Value}
    (hdistinct : Entries.Distinct members)
    (hpresent : List.Forall₂ (fun member result => member.1 = result.1) members present)
    (hfills : List.Forall₂ (fun missing result =>
      rules.fillAt fills missing.2.1 missing.2.2 = .accepted result.2 ∧ missing.1 = result.1)
      (rules.missingDefaults schema members) filled) : Entries.Distinct (present ++ filled) := by
  have hkeys := Entries.keys_eq_of_forall₂ hpresent
  refine (Entries.distinct_of_keys_eq hkeys hdistinct).append
    (distinct_of_fills htable hget hfills) ?_
  refine forall_mem_of_forall₂ hfills fun missing hmissing result hfill => ?_
  rw [hkeys, ← hfill.2]
  exact (mem_missingDefaults_iff.1 hmissing).2.1

theorem refines_of_judgeItems {items : List Value} (hkeyed : (Value.array items).Keyed)
    (hinside : ∀ child ∈ items, ∀ part result,
      rules.applyAt fills [] part child = .accepted result → child.Refines result ∧ result.Keyed)
    {hitems : ∀ item ∈ items, item ∈ value.children}
    (haccepted : judgeItems (rules.neighbours fills trail value) schema items hitems =
      .accepted typed) : (Value.array items).Refines typed ∧ typed.Keyed := by
  cases hschema : schema.items? with
  | none =>
      obtain rfl := Judgement.accepted.inj ((judgeItems_of_none hschema).symm.trans haccepted)
      exact ⟨.unchanged _, hkeyed⟩
  | some part =>
      obtain ⟨results, hall, rfl⟩ := (judgeItems_eq_accepted_iff hschema).1 haccepted
      exact refines_array (forall₂_imp_of_mem hall fun child hchild result _ hresult =>
        hinside child hchild part result hresult)

theorem refines_of_judgeMember {member : String × Value} {result : Value}
    (hkeyed : member.2.Keyed)
    (hinside : ∀ part result, rules.applyAt fills [] part member.2 = .accepted result →
      member.2.Refines result ∧ result.Keyed)
    (haccepted : rules.judgeMember fills schema member = .accepted result) :
    member.2.Refines result ∧ result.Keyed := by
  rcases judgeMember_eq_accepted haccepted with ⟨part, -, hresult⟩ | rfl
  · exact hinside part result hresult
  · exact ⟨.unchanged _, hkeyed⟩

theorem refines_of_judgeMembers (htable : rules.schemas.IsKeyed)
    (hget : rules.schemas.get? id = some schema) {members : Entries Value}
    (hkeyed : (Value.object members).Keyed)
    (hinside : ∀ child ∈ (Value.object members).children, ∀ part result,
      rules.applyAt fills [] part child = .accepted result → child.Refines result ∧ result.Keyed)
    (hfilled : ∀ part literal result, rules.fillAt fills part literal = .accepted result →
      literal.Keyed → result.Keyed)
    {hmembers : ∀ member ∈ members, member.2 ∈ value.children}
    (haccepted : judgeMembers rules (rules.neighbours fills trail value) schema members hmembers =
      .accepted typed) : (Value.object members).Refines typed ∧ typed.Keyed := by
  obtain ⟨-, present, filled, hpresent, hfills, rfl⟩ := judgeMembers_eq_accepted_iff.1 haccepted
  obtain ⟨hdistinctMembers, hkeyedMembers⟩ := Value.keyed_object_iff.1 hkeyed
  have hpresent' : List.Forall₂ (fun member result => member.1 = result.1 ∧
      member.2.Refines result.2 ∧ result.2.Keyed) members present := by
    refine forall₂_imp_of_mem hpresent fun member hmember result _ hresult => ⟨hresult.2, ?_⟩
    exact refines_of_judgeMember (hkeyedMembers member hmember)
      (hinside member.2 (List.mem_map_of_mem hmember)) hresult.1
  have hdistinct : Entries.Distinct (present ++ filled) :=
    distinct_append_of_fills htable hget hdistinctMembers
      (hpresent.imp fun _ _ hresult => hresult.2) hfills
  refine refines_object hdistinct hpresent' ?_
  refine forall_mem_of_forall₂ hfills fun missing hmissing entry hentry => ?_
  obtain ⟨-, -, -, property, hproperty, hdefault⟩ := mem_missingDefaults_iff.1 hmissing
  have hliteral := htable.default missing.2.1 property missing.2.2 hproperty hdefault
  exact hfilled _ _ _ hentry.1 hliteral

/-- What a type makes of a value, if what it looks into is typed. -/
theorem refines_of_judgeType (htable : rules.schemas.IsKeyed)
    (hget : rules.schemas.get? id = some schema) (hkeyed : value.Keyed)
    (hinside : ∀ child ∈ value.children, ∀ part result,
      rules.applyAt fills [] part child = .accepted result → child.Refines result ∧ result.Keyed)
    (hfilled : ∀ part literal result, rules.fillAt fills part literal = .accepted result →
      literal.Keyed → result.Keyed)
    (haccepted : rules.judgeType schema value (rules.neighbours fills trail value) =
      .accepted typed) :
    (value.Refines typed ∧ typed.Keyed) ∧ ∀ text, typed = .string text → value = typed := by
  cases typesAs_of_judgeType haccepted with
  | untyped => exact ⟨⟨.unchanged value, hkeyed⟩, fun _ _ => rfl⟩
  | items _ hitems =>
      refine ⟨refines_of_judgeItems hkeyed hinside hitems, fun text htext => ?_⟩
      obtain ⟨results, rfl⟩ := exists_array_of_judgeItems hitems
      simp at htext
  | members _ hmembers =>
      refine ⟨refines_of_judgeMembers htable hget hkeyed hinside hfilled hmembers, ?_⟩
      rintro text rfl
      simpa [Value.isContainer] using isContainer_of_judgeMembers hmembers
  | primitive _ _ _ hprimitive =>
      refine ⟨⟨refines_of_primitive? hprimitive, Value.keyed_of_not_isContainer
        (isContainer_of_primitive? hprimitive)⟩, ?_⟩
      rintro text rfl
      rcases primitive?_cases hprimitive with heq | ⟨number, integer, -, heq⟩
      · exact heq.symm
      · simp at heq

theorem refines_of_judgeParts (hformats : rules.formats = Format.standard)
    (htable : rules.schemas.IsKeyed) (hget : rules.schemas.get? id = some schema)
    (hkeyed : value.Keyed)
    (hhere : ∀ part result, rules.applyAt fills trail part value = .accepted result →
      value.Refines result ∧ result.Keyed)
    (hinside : ∀ child ∈ value.children, ∀ part result,
      rules.applyAt fills [] part child = .accepted result → child.Refines result ∧ result.Keyed)
    (hfilled : ∀ part literal result, rules.fillAt fills part literal = .accepted result →
      literal.Keyed → result.Keyed)
    {own : Value} {alternatives included : List Value}
    (hown : rules.judgeOwn schema value (rules.neighbours fills trail value) = .accepted own)
    (halternatives : judgeAlternatives schema value (rules.neighbours fills trail value).here =
      alternatives.map .accepted)
    (hincluded : List.Forall₂ (fun part result =>
      (rules.neighbours fills trail value).here part = .accepted result) schema.allOf included) :
    ∀ result ∈ own :: alternatives ++ included, value.Refines result ∧ result.Keyed := by
  intro result hmem
  rcases List.mem_append.1 hmem with hmem | hmem
  · rcases List.mem_cons.1 hmem with rfl | hmem
    · obtain ⟨typed, htyped, hrest⟩ := Judgement.andThen_eq_accepted_iff.1 hown
      obtain ⟨⟨hrefines, htypedKeyed⟩, htext⟩ :=
        refines_of_judgeType htable hget hkeyed hinside hfilled htyped
      split at hrest
      · exact refines_of_judgeFormat hformats hrefines htypedKeyed htext hrest
      · simp at hrest
    · obtain ⟨chosen, -, hchosen⟩ := judgeAlternatives_eq_accepted_iff.1 halternatives
      exact forall_mem_of_forall₂ hchosen (fun part _ result hresult => hhere part result hresult)
        result hmem
  · exact forall_mem_of_forall₂ hincluded (fun part _ result hresult => hhere part result hresult)
      result hmem

/-- Whatever schema accepts a value gives back a typed form of it. -/
theorem refines_of_applyAt (hformats : rules.formats = Format.standard)
    (htable : rules.schemas.IsKeyed) :
    ∀ fills trail id value, value.Keyed →
      ∀ typed, rules.applyAt fills trail id value = .accepted typed →
        value.Refines typed ∧ typed.Keyed := by
  refine applyAt.induct rules _ ?_ ?_ ?_
  · intro fills trail id value hget hkeyed typed haccepted
    rw [applyAt_of_get?_eq_none hget] at haccepted
    obtain rfl := Judgement.accepted.inj haccepted
    exact ⟨.unchanged value, hkeyed⟩
  · intro fills trail id value _ _ hmem hkeyed typed haccepted
    rw [applyAt_of_mem hmem] at haccepted
    obtain rfl := Judgement.accepted.inj haccepted
    exact ⟨.unchanged value, hkeyed⟩
  · intro fills trail id value schema hget hnew hhere hinside hfilled hkeyed typed haccepted
    rw [applyAt_eq_judge hget hnew] at haccepted
    rcases judge_eq_accepted haccepted with rfl | hparts
    · exact ⟨.unchanged typed, hkeyed⟩
    · obtain ⟨own, alternatives, included, hown, halternatives, hincluded, rfl⟩ :=
        (judgeParts_eq_accepted_iff fun _ => isExplained_applyAt _ _ _ _ _).1 hparts
      refine Value.refines_mergeAll hkeyed (refines_of_judgeParts hformats htable hget hkeyed ?_ ?_
        ?_ hown halternatives hincluded)
      · intro part result hresult
        exact hhere part hkeyed result hresult
      · intro child hchild part result hresult
        obtain ⟨-, hchildren⟩ := hkeyed
        exact hinside child hchild part (hchildren child hchild) result hresult
      · intro part literal result hresult hliteral
        unfold fillAt at hresult
        split at hresult
        · next hfill =>
            exact (hfilled part literal hfill (Value.keyed_ofJson hliteral) result hresult).2
        · simp at hresult

theorem keyed_of_fillAt (hformats : rules.formats = Format.standard)
    (htable : rules.schemas.IsKeyed) {part : SchemaId} {literal : Json} (hliteral : literal.Keyed)
    (hfill : rules.fillAt fills part literal = .accepted typed) : typed.Keyed := by
  unfold fillAt at hfill
  split at hfill
  · exact (refines_of_applyAt hformats htable _ _ _ _ (Value.keyed_ofJson hliteral) _ hfill).2
  · simp at hfill

/-! ## All parts of a schema -/

/-- The judgements of all parts of a schema. -/
def partJudgements (rules : SchemaRules) (schema : Schema) (value : Value)
    (near : Neighbours value) : List (Judgement Value) :=
  rules.judgeOwn schema value near ::
    judgeAlternatives schema value near.here ++ schema.allOf.map near.here

theorem judgeParts_eq_partJudgements :
    rules.judgeParts schema value near =
      (Judgement.all (rules.partJudgements schema value near)).map value.mergeAll := rfl

theorem refines_of_partJudgements (hformats : rules.formats = Format.standard)
    (htable : rules.schemas.IsKeyed) (hget : rules.schemas.get? id = some schema)
    (hkeyed : value.Keyed) {results : List Value}
    (hparts : rules.partJudgements schema value (rules.neighbours fills trail value) =
      results.map .accepted) :
    ∀ result ∈ results, value.Refines result ∧ result.Keyed := by
  cases results with
  | nil => simp
  | cons own rest =>
      obtain ⟨hown, hrest⟩ := List.cons.inj hparts
      obtain ⟨alternatives, included, rfl, halternatives, hincluded⟩ :=
        List.append_eq_map_iff.1 hrest
      have hall : List.Forall₂ (fun part result =>
          (rules.neighbours fills trail value).here part = .accepted result)
          schema.allOf included := by
        have heq := hincluded.symm
        rwa [← List.forall₂_eq_eq_eq, List.forall₂_map_left_iff, List.forall₂_map_right_iff] at heq
      have happly := @refines_of_applyAt rules hformats htable
      exact refines_of_judgeParts hformats htable hget hkeyed
        (fun part => happly fills trail part value hkeyed)
        (fun child hchild part => happly fills [] part child (hkeyed.of_mem_children hchild))
        (fun _ _ _ hfill hliteral => keyed_of_fillAt hformats htable hliteral hfill) hown
        halternatives.symm hall

end SchemaRules

end ApiContract
