import ApiContract.Proofs.Respelling

/-!
# Reading respelled schemas

A schema and another way to write it are read in lockstep, as far as both scopes lead each reference
to positions that stand for each other.  What is read refers to twins, except where a way around is
taken.
-/

namespace ApiContract

/-- The position that a discriminator maps a text to: of the component of that name, else of the
component that it refers to. -/
def Scope.targetOf (scope : Scope) (target : String) : Except ContractFault SchemaId :=
  match scope.schemaId? target with
  | some id => .ok id
  | none => scope.schemaOf target

/-- Both scopes lead each reference to positions that stand for each other. -/
structure Pairing.Covers (P : Pairing) (ρ : Rerouting) (scope other : Scope) : Prop where
  self : other.self? = scope.self?
  reference : ∀ reference id, scope.schemaOf reference = .ok id →
    ∃ found, other.schemaOf reference = .ok found ∧ P.twin id found
  target : ∀ target id, scope.targetOf target = .ok id →
    ∃ found, other.targetOf target = .ok found ∧ P.twin id found
  forwards : ∀ target forward id, ρ.forwards target forward → scope.schemaOf target = .ok id →
    ∃ found, other.schemaOf forward = .ok found ∧ P.detour id found
  admits : ∀ filled target id, ρ.admits filled target → scope.schemaOf target = .ok id →
    P.admits filled id

namespace Pairing

variable {P Q : Pairing} {ρ : Rerouting} {scope other : Scope}

theorem Covers.mono (hcovers : P.Covers ρ scope other) (hbelow : P.Below Q) :
    Q.Covers ρ scope other where
  self := hcovers.self
  reference := fun reference id hid =>
    (hcovers.reference reference id hid).imp fun _ hfound => ⟨hfound.1, hbelow.twin _ _ hfound.2⟩
  target := fun target id hid =>
    (hcovers.target target id hid).imp fun _ hfound => ⟨hfound.1, hbelow.twin _ _ hfound.2⟩
  forwards := fun target forward id hforwards hid =>
    (hcovers.forwards target forward id hforwards hid).imp fun _ hfound =>
      ⟨hfound.1, hbelow.detour _ _ hfound.2⟩
  admits := fun filled target id hadmits hid =>
    (hbelow.admits _ _).1 (hcovers.admits filled target id hadmits hid)

/-- What may stand at a place: a twin, or also a detour if a way around may be taken there. -/
def At (P : Pairing) : Option Prop → SchemaId → SchemaId → Prop
  | none => P.twin
  | some filled => P.Seats filled

theorem at_of_twin {first second : SchemaId} (htwin : P.twin first second) (place : Option Prop) :
    P.At place first second := by
  cases place with
  | none => exact htwin
  | some filled => exact .inl htwin

end Pairing

namespace Schema

variable {P : Pairing} {ρ : Rerouting} {scope other : Scope} {members others : Entries Json}

/-! ## Schemas without others inside -/

/-- The schema names no other schema. -/
structure IsOwn (schema : Schema) : Prop where
  properties : schema.properties = []
  items : schema.items? = none
  extras : schema.extras? = none
  allOf : schema.allOf = []
  oneOf : schema.oneOf = []
  anyOf : schema.anyOf = []
  discriminator : schema.discriminator? = none

theorem IsOwn.alike {schema : Schema} (hown : schema.IsOwn) : schema.Alike P schema := by
  obtain ⟨hproperties, hitems, hextras, hallOf, honeOf, hanyOf, hdiscriminator⟩ := hown
  constructor
  case properties => rw [hproperties]; exact .nil
  case items => rw [hitems]; exact .none
  case extras => rw [hextras]; exact .none
  case allOf => rw [hallOf]; exact .nil
  case oneOf => rw [honeOf]; exact .nil
  case anyOf => rw [hanyOf]; exact .nil
  case discriminator => rw [hdiscriminator]; exact .none
  all_goals rfl

theorem isOwn_ofType (type : SchemaType) : (ofType type).IsOwn := by
  constructor <;> rfl

theorem isOwn_of_readOwn {schema : Schema} (hread : readOwn members = .ok schema) :
    schema.IsOwn := by
  obtain ⟨constraints, -, hread⟩ := ok_of_bind_eq_ok hread
  obtain rfl := Except.ok.inj hread
  constructor <;> rfl

theorem readOwn_congr (hplain : ∀ keyword, Json.IsPlain keyword →
    Entries.get? others keyword = Entries.get? members keyword) :
    readOwn others = readOwn members := by
  have hbound : ∀ plain exclusive, Json.IsPlain plain → Json.IsPlain exclusive →
      bound others plain exclusive = bound members plain exclusive := by
    intro plain exclusive hplain' hexclusive
    rw [bound, bound, hplain plain hplain', hplain exclusive hexclusive]
  have hset : ∀ keyword, Json.IsPlain keyword → isSet others keyword = isSet members keyword := by
    intro keyword hkeyword
    rw [isSet, isSet, hplain keyword hkeyword]
  have hconstraints : readConstraints others = readConstraints members := by
    unfold readConstraints readPattern
    simp only [hplain "pattern" (by decide), hplain "minLength" (by decide),
      hplain "maxLength" (by decide), hplain "multipleOf" (by decide),
      hplain "minItems" (by decide), hplain "maxItems" (by decide),
      hplain "minProperties" (by decide), hplain "maxProperties" (by decide),
      hbound "minimum" "exclusiveMinimum" (by decide) (by decide),
      hbound "maximum" "exclusiveMaximum" (by decide) (by decide),
      hset "uniqueItems" (by decide)]
  unfold readOwn readLiterals
  simp only [hconstraints, hplain "format" (by decide), hplain "required" (by decide),
    hplain "default" (by decide), hplain "enum" (by decide), hplain "const" (by decide),
    hset "nullable" (by decide)]

theorem required_of_readOwn {schema : Schema} (hread : readOwn members = .ok schema) :
    schema.required = texts (Entries.get? members "required") := by
  obtain ⟨constraints, -, hread⟩ := ok_of_bind_eq_ok hread
  obtain rfl := Except.ok.inj hread
  rfl

/-! ## Parts -/

section Parts

variable (part : Json → Compilation SchemaId) {json : Json}

theorem readList_eq (member? : PartOf json) :
    readList (fun child _ => part child) member? =
      ((member?.1.bind Json.asArray?).getD []).mapM part := by
  obtain ⟨found, h⟩ := member?
  cases found with
  | none => rfl
  | some found =>
      cases found with
      | array items =>
          change items.attach.mapM (fun item => part item.1) = items.mapM part
          conv_rhs => rw [← List.attach_map_subtype_val items, List.mapM_map]
          rfl
      | _ => rfl

theorem readProperties_eq (member? : PartOf json) :
    readProperties (fun child _ => part child) member? =
      ((member?.1.bind Json.asObject?).getD []).mapM fun (name, property) => do
        return (name, ← part property) := by
  obtain ⟨found, h⟩ := member?
  cases found with
  | none => rfl
  | some found =>
      cases found with
      | object properties =>
          change properties.attach.mapM (fun entry => do
            return (entry.1.1, ← part entry.1.2)) = properties.mapM _
          conv_rhs => rw [← List.attach_map_subtype_val properties, List.mapM_map]
          rfl
      | _ => rfl

theorem readItems_eq (member? : PartOf json) :
    readItems (fun child _ => part child) member? =
      match member?.1 with
      | some items => some <$> part items
      | none => return none := by
  obtain ⟨found, h⟩ := member?
  cases found <;> rfl

theorem readExtras_eq (member? : PartOf json) :
    readExtras (fun child _ => part child) member? =
      match member?.1 with
      | some (.bool isAllowed) => return some (.allowed isAllowed)
      | some extras => do return some (.conforming (← part extras))
      | none => return none := by
  obtain ⟨found, h⟩ := member?
  cases found with
  | none => rfl
  | some found => cases found <;> rfl

end Parts

/-! ## Types -/

theorem mirrors_readTypes (P : Pairing) (names : List String) :
    Mirrors P (names.mapM fun name => (readType name : Compilation SchemaType))
      (names.mapM fun name => (readType name : Compilation SchemaType)) fun _ => Eq := by
  have hall : Mirrors P (names.mapM fun name => (readType name : Compilation SchemaType))
      (names.mapM fun name => (readType name : Compilation SchemaType))
      fun _ => List.Forall₂ Eq :=
    .mapM (Pairing.stable_const Eq) (List.forall₂_same.2 fun name (_ : name ∈ names) => Eq.refl name)
      fun _ name _ _ heq => heq ▸ .of_same (readType name)
  exact hall.imp fun Q types others _ htypes => List.forall₂_eq_eq_eq ▸ htypes

theorem mirrors_pushTypes (P : Pairing) (types : List SchemaType) :
    Mirrors P (types.mapM fun type => Compilation.push (.ofType type))
      (types.mapM fun type => Compilation.push (.ofType type))
      fun Q => List.Forall₂ Q.twin :=
  .mapM Pairing.stable_twin (List.forall₂_same.2 fun type (_ : type ∈ types) => Eq.refl type)
    fun _ type _ _ heq => heq ▸ .push (isOwn_ofType type).alike

theorem mirrors_withType {schema : Schema} (hown : schema.IsOwn) (json? : Option Json) :
    Mirrors P (schema.withType json?) (schema.withType json?) fun Q typed typed' =>
      typed.Alike Q typed' ∧ typed.required = schema.required := by
  have hself : ∀ (Q : Pairing) (type? : Option SchemaType) (nullable : Bool),
      { schema with type?, nullable }.Alike Q { schema with type?, nullable } := by
    intro Q type? nullable
    obtain ⟨hproperties, hitems, hextras, hallOf, honeOf, hanyOf, hdiscriminator⟩ := hown
    exact IsOwn.alike ⟨hproperties, hitems, hextras, hallOf, honeOf, hanyOf, hdiscriminator⟩
  unfold withType
  split
  · refine (Mirrors.of_same _).bind fun Q type _ _ heq => heq ▸ .pure ⟨?_, rfl⟩
    exact hself Q (some type) schema.nullable
  · refine (mirrors_readTypes P _).bind fun Q types _ _ heq => heq ▸ ?_
    dsimp only
    split
    · exact .pure ⟨hself Q _ _, rfl⟩
    · exact .pure ⟨hself Q _ _, rfl⟩
    · next several _ _ =>
        refine (mirrors_pushTypes Q _).bind fun R ids ids' _ htwins => .pure ⟨?_, rfl⟩
        exact { hself R schema.type? (schema.nullable || types.contains .null) with
          anyOf := by
            rw [hown.anyOf, List.nil_append, List.nil_append]
            exact htwins }
  · exact .pure ⟨hown.alike, rfl⟩

/-! ## Discriminators -/

/-- What is read item by item is related if each item is. -/
theorem forall₂_of_mapM_eq_ok {α β : Type} {related : β → β → Prop}
    {first second : α → Except ContractFault β} {items : List α} {results : List β}
    (hitem : ∀ item result, first item = .ok result →
      ∃ result', second item = .ok result' ∧ related result result')
    (hread : items.mapM first = .ok results) :
    ∃ results', items.mapM second = .ok results' ∧ List.Forall₂ related results results' := by
  induction items generalizing results with
  | nil =>
      obtain rfl := Except.ok.inj hread
      exact ⟨[], rfl, .nil⟩
  | cons item rest ih =>
      rw [List.mapM_cons] at hread
      obtain ⟨result, hresult, hread⟩ := ok_of_bind_eq_ok hread
      obtain ⟨others, hothers, hread⟩ := ok_of_bind_eq_ok hread
      obtain rfl := Except.ok.inj hread
      obtain ⟨result', hresult', hrelated⟩ := hitem item result hresult
      obtain ⟨others', hothers', hall⟩ := ih hothers
      refine ⟨result' :: others', ?_, .cons hrelated hall⟩
      rw [List.mapM_cons, hresult', hothers']
      rfl

/-- The position that one entry of an explicit mapping stands for. -/
def mapTag (scope : Scope) (entry : String × Json) : Except ContractFault (String × SchemaId) :=
  match entry.2 with
  | .string target => (scope.targetOf target).map fun id => (entry.1, id)
  | _ => .error (.document (.mappingNotText entry.1))

theorem explicitMapping_eq (scope : Scope) (json? : Option Json) :
    explicitMapping scope json? = ((json?.bind Json.asObject?).getD []).mapM (mapTag scope) := by
  have htag : (fun entry : String × Json =>
      match entry.2 with
      | .string target =>
        match scope.schemaId? target with
        | some id => .ok (entry.1, id)
        | none => (scope.schemaOf target).map fun id => (entry.1, id)
      | _ => .error (.document (.mappingNotText entry.1))) = mapTag scope := by
    funext entry
    unfold mapTag Scope.targetOf
    split
    · split <;> rfl
    · rfl
  unfold explicitMapping
  cases json? with
  | none => rfl
  | some json =>
      cases json with
      | object entries => exact congrArg entries.mapM htag
      | _ => rfl

theorem paired_explicitMapping (hcovers : P.Covers ρ scope other) (json? : Option Json)
    {mapping : Entries SchemaId} (hread : explicitMapping scope json? = .ok mapping) :
    ∃ mapping', explicitMapping other json? = .ok mapping' ∧
      Entries.Paired (fun _ => P.twin) mapping mapping' := by
  rw [explicitMapping_eq] at hread ⊢
  refine forall₂_of_mapM_eq_ok (fun entry result hresult => ?_) hread
  unfold mapTag at hresult ⊢
  split at hresult
  · next target _ =>
      cases hid : scope.targetOf target with
      | error fault =>
          rw [hid] at hresult
          cases hresult
      | ok id =>
          rw [hid] at hresult
          obtain rfl := Except.ok.inj hresult
          obtain ⟨found, hfound, htwin⟩ := hcovers.target target id hid
          rw [hfound]
          exact ⟨(entry.1, found), rfl, rfl, htwin⟩
  · cases hresult

/-- The mapping of a discriminator with the component that a reference names, by its name. -/
def mapReference (scope : Scope) (mapping : Entries SchemaId) (reference : String) :
    Except ContractFault (Entries SchemaId) :=
  match Reference.nameIn? scope.self? "schemas" reference with
  | none => .ok mapping
  | some name =>
    if Entries.contains mapping name then .ok mapping
    else (scope.schemaOf reference).map fun id => Entries.insert mapping name id

theorem paired_mapReference (hcovers : P.Covers ρ scope other) (reference : String)
    {mapping mapping' result : Entries SchemaId}
    (hpaired : Entries.Paired (fun _ => P.twin) mapping mapping')
    (hread : mapReference scope mapping reference = .ok result) :
    ∃ result', mapReference other mapping' reference = .ok result' ∧
      Entries.Paired (fun _ => P.twin) result result' := by
  unfold mapReference at hread ⊢
  rw [hcovers.self]
  split at hread
  · obtain rfl := Except.ok.inj hread
    exact ⟨mapping', rfl, hpaired⟩
  · next name _ =>
      rw [hpaired.contains_eq]
      split at hread
      · next hcontains =>
          obtain rfl := Except.ok.inj hread
          exact ⟨mapping', by rw [if_pos hcontains], hpaired⟩
      · next hnew =>
          rw [if_neg hnew]
          cases hid : scope.schemaOf reference with
          | error fault =>
              rw [hid] at hread
              cases hread
          | ok id =>
              rw [hid] at hread
              obtain rfl := Except.ok.inj hread
              obtain ⟨found, hfound, htwin⟩ := hcovers.reference reference id hid
              exact ⟨_, by rw [hfound]; rfl, hpaired.insert htwin⟩

theorem paired_mapReferences (hcovers : P.Covers ρ scope other) (references : List String)
    {mapping mapping' result : Entries SchemaId}
    (hpaired : Entries.Paired (fun _ => P.twin) mapping mapping')
    (hread : references.foldlM (mapReference scope) mapping = .ok result) :
    ∃ result', references.foldlM (mapReference other) mapping' = .ok result' ∧
      Entries.Paired (fun _ => P.twin) result result' := by
  induction references generalizing mapping mapping' with
  | nil =>
      obtain rfl := Except.ok.inj hread
      exact ⟨mapping', rfl, hpaired⟩
  | cons reference rest ih =>
      rw [List.foldlM_cons] at hread ⊢
      obtain ⟨middle, hmiddle, hread⟩ := ok_of_bind_eq_ok hread
      obtain ⟨middle', hmiddle', hpaired'⟩ := paired_mapReference hcovers reference hpaired hmiddle
      rw [hmiddle']
      exact ih hpaired' hread

/-- The references in the alternatives of a schema. -/
def alternativeReferences (members : Entries Json) : List String :=
  ["oneOf", "anyOf"].flatMap fun keyword => (itemsAt members keyword).filterMap Reference.of?

theorem implicitMapping_eq (scope : Scope) (members : Entries Json) (mapping : Entries SchemaId) :
    implicitMapping scope members mapping =
      (alternativeReferences members).foldlM (mapReference scope) mapping :=
  rfl

theorem alternativeReferences_congr (hmembers : Json.MembersRespelled ρ members others) :
    alternativeReferences others = alternativeReferences members := by
  have hkeyword : ∀ keyword ∈ Json.listKeywords,
      (itemsAt others keyword).filterMap Reference.of? =
        (itemsAt members keyword).filterMap Reference.of? := by
    intro keyword hmem
    have hall := hmembers.lists keyword hmem
    generalize itemsAt members keyword = items, itemsAt others keyword = found at hall ⊢
    induction hall with
    | nil => rfl
    | cons hfirst _ ih => rw [List.filterMap_cons, List.filterMap_cons, hfirst.of_inner, ih]
  simp only [alternativeReferences, List.flatMap_cons, List.flatMap_nil,
    hkeyword "oneOf" (by decide), hkeyword "anyOf" (by decide)]

theorem alike_readDiscriminator (hcovers : P.Covers ρ scope other)
    (hmembers : Json.MembersRespelled ρ members others) (json? : Option Json)
    {discriminator? : Option Discriminator}
    (hread : readDiscriminator scope members json? = .ok discriminator?) :
    ∃ discriminator?', readDiscriminator other others json? = .ok discriminator?' ∧
      Option.Rel (Discriminator.Alike P) discriminator? discriminator?' := by
  unfold readDiscriminator at hread ⊢
  split at hread
  · next discriminator =>
      split at hread
      · cases hread
      · next property hproperty =>
          obtain ⟨explicit, hexplicit, hread⟩ := ok_of_bind_eq_ok hread
          obtain ⟨mapping, hmapping, hread⟩ := ok_of_bind_eq_ok hread
          obtain rfl := Except.ok.inj hread
          obtain ⟨explicit', hexplicit', hpaired⟩ := paired_explicitMapping hcovers _ hexplicit
          rw [implicitMapping_eq] at hmapping
          obtain ⟨mapping', hmapping', hpaired'⟩ :=
            paired_mapReferences hcovers _ hpaired hmapping
          refine ⟨some ⟨property, mapping'⟩, ?_, .some ⟨rfl, hpaired'⟩⟩
          rw [← alternativeReferences_congr hmembers, ← implicitMapping_eq] at hmapping'
          rw [hexplicit']
          change (implicitMapping other others explicit').bind _ = _
          rw [hmapping']
          rfl
  · obtain rfl := Except.ok.inj hread
    exact ⟨none, rfl, .none⟩

/-! ## Whole schemas -/

theorem mirrors_readOwn (P : Pairing) (hmembers : Json.MembersRespelled ρ members others) :
    Mirrors P (liftM (readOwn members) : Compilation Schema) (liftM (readOwn others))
      fun _ own own' => own' = own ∧ own.IsOwn ∧
        own.required = texts (Entries.get? members "required") := by
  rw [readOwn_congr hmembers.plain]
  exact .of_except fun own hown => ⟨own, hown, rfl, isOwn_of_readOwn hown, required_of_readOwn hown⟩

theorem mirrors_readSibling (hcovers : P.Covers ρ scope other)
    (hmembers : Json.MembersRespelled ρ members others) :
    Mirrors P (liftM (readSibling scope (.object members)) : Compilation (List SchemaId))
      (liftM (readSibling other (.object others))) fun Q => List.Forall₂ Q.twin := by
  refine .of_except fun ids hread => ?_
  have hreference : Reference.of? (.object others) = Reference.of? (.object members) :=
    (Json.Respelled.of_inner (hmembers.respelled none))
  unfold readSibling at hread ⊢
  rw [hreference]
  split at hread
  · next reference _ =>
      cases hid : scope.schemaOf reference with
      | error fault =>
          rw [hid] at hread
          cases hread
      | ok id =>
          rw [hid] at hread
          obtain rfl := Except.ok.inj hread
          obtain ⟨found, hfound, htwin⟩ := hcovers.reference reference id hid
          exact ⟨[found], by rw [hfound]; rfl, .cons htwin .nil⟩
  · obtain rfl := Except.ok.inj hread
    exact ⟨[], rfl, .nil⟩

section Read

variable {part part' : Json → Compilation SchemaId}

/-- The parts of a schema and those of another way to write it are read in lockstep. -/
def PartsMirror (P : Pairing) (ρ : Rerouting) (members : Entries Json)
    (part part' : Json → Compilation SchemaId) : Prop :=
  ∀ Q place child child', P.Below Q → Json.Respelled ρ place child child' →
    sizeOf child < sizeOf (Json.object members) →
    Mirrors Q (part child) (part' child') fun R => R.At place

theorem PartsMirror.mono {Q : Pairing} (hparts : PartsMirror P ρ members part part')
    (hbelow : P.Below Q) : PartsMirror Q ρ members part part' :=
  fun R place child child' hbelow' => hparts R place child child' (hbelow.trans hbelow')

theorem sizeOf_lt_of_mem_itemsAt {keyword : String} {item : Json}
    (hmem : item ∈ itemsAt members keyword) : sizeOf item < sizeOf (Json.object members) := by
  unfold itemsAt at hmem
  cases hget : Entries.get? members keyword with
  | none => simp [hget] at hmem
  | some json =>
      cases json with
      | array items =>
          have hitem : item ∈ items := by simpa [hget, Json.asArray?] using hmem
          exact Nat.lt_trans (Json.sizeOf_lt_of_mem_array hitem) (Json.sizeOf_lt_of_get? hget)
      | _ => simp [hget, Json.asArray?] at hmem

theorem sizeOf_lt_of_mem_entriesAt {keyword : String} {entry : String × Json}
    (hmem : entry ∈ entriesAt members keyword) :
    sizeOf entry.2 < sizeOf (Json.object members) := by
  unfold entriesAt at hmem
  cases hget : Entries.get? members keyword with
  | none => simp [hget] at hmem
  | some json =>
      cases json with
      | object entries =>
          have hentry : entry ∈ entries := by simpa [hget, Json.asObject?] using hmem
          exact Nat.lt_trans (Json.sizeOf_lt_of_mem_object hentry) (Json.sizeOf_lt_of_get? hget)
      | _ => simp [hget, Json.asObject?] at hmem

theorem mirrors_readList (hparts : PartsMirror P ρ members part part')
    (hmembers : Json.MembersRespelled ρ members others) {keyword : String}
    (hkeyword : keyword ∈ Json.listKeywords) :
    Mirrors P (readList (fun child _ => part child) (memberOf members keyword))
      (readList (fun child _ => part' child) (memberOf others keyword))
      fun Q => List.Forall₂ Q.twin := by
  rw [readList_eq, readList_eq]
  have hall : List.Forall₂ (fun item item' => item ∈ itemsAt members keyword ∧
      Json.Respelled ρ none item item') (itemsAt members keyword) (itemsAt others keyword) :=
    (List.forall₂_and_left _ _).2 ⟨fun _ hmem => hmem, hmembers.lists keyword hkeyword⟩
  exact .mapM Pairing.stable_twin hall fun Q item item' hbelow hitem =>
    hparts Q none item item' hbelow hitem.2 (sizeOf_lt_of_mem_itemsAt hitem.1)

theorem mirrors_readProperties (hparts : PartsMirror P ρ members part part')
    (hmembers : Json.MembersRespelled ρ members others) :
    Mirrors P (readProperties (fun child _ => part child) (memberOf members "properties"))
      (readProperties (fun child _ => part' child) (memberOf others "properties"))
      fun Q => Entries.Paired fun name =>
        Q.Seats (name ∉ texts (Entries.get? members "required")) := by
  rw [readProperties_eq, readProperties_eq]
  have hall : List.Forall₂ (fun entry entry' => entry ∈ entriesAt members "properties" ∧
      entry'.1 = entry.1 ∧ Json.Respelled ρ (some (entry.1 ∉ texts (Entries.get? members "required")))
        entry.2 entry'.2) (entriesAt members "properties") (entriesAt others "properties") :=
    (List.forall₂_and_left _ _).2 ⟨fun _ hmem => hmem, hmembers.properties⟩
  refine .mapM ?_ hall ?_
  · exact fun Q R entry entry' hbelow hentry => ⟨hentry.1, hbelow.seats hentry.2⟩
  · rintro Q ⟨name, property⟩ ⟨_, property'⟩ hbelow ⟨hmem, rfl, hproperty⟩
    exact (hparts Q _ property property' hbelow hproperty (sizeOf_lt_of_mem_entriesAt hmem)).bind
      fun R id id' _ hseats => .pure ⟨rfl, hseats⟩

theorem mirrors_readItems (hparts : PartsMirror P ρ members part part')
    (hmembers : Json.MembersRespelled ρ members others) :
    Mirrors P (readItems (fun child _ => part child) (memberOf members "items"))
      (readItems (fun child _ => part' child) (memberOf others "items"))
      fun Q => Option.Rel Q.twin := by
  have hrel := hmembers.parts "items" (by decide)
  rw [readItems_eq, readItems_eq]
  simp only [memberOf]
  cases hget : Entries.get? members "items" <;> cases hget' : Entries.get? others "items" <;>
    rw [hget, hget'] at hrel <;> cases hrel
  · exact .pure .none
  · next items items' hitems =>
      exact (hparts P none items items' (.refl P) hitems (Json.sizeOf_lt_of_get? hget)).map
        fun Q id id' _ htwin => .some htwin

theorem mirrors_readExtras (hparts : PartsMirror P ρ members part part')
    (hmembers : Json.MembersRespelled ρ members others) :
    Mirrors P (readExtras (fun child _ => part child) (memberOf members "additionalProperties"))
      (readExtras (fun child _ => part' child) (memberOf others "additionalProperties"))
      fun Q => Option.Rel (Extras.Alike Q) := by
  have hrel := hmembers.parts "additionalProperties" (by decide)
  rw [readExtras_eq, readExtras_eq]
  simp only [memberOf]
  cases hget : Entries.get? members "additionalProperties" <;>
    cases hget' : Entries.get? others "additionalProperties" <;>
    rw [hget, hget'] at hrel <;> cases hrel
  · exact .pure .none
  · next extras extras' hextras =>
      have hmirrors : Mirrors P (do return some (Extras.conforming (← part extras)))
          (do return some (Extras.conforming (← part' extras')))
          fun Q => Option.Rel (Extras.Alike Q) :=
        (hparts P none extras extras' (.refl P) hextras (Json.sizeOf_lt_of_get? hget)).bind
          fun Q id id' _ htwin => .pure (.some (.conforming htwin))
      -- A schema for further properties is no flag in either way to write it.
      cases hextras with
      | same =>
          cases extras with
          | bool isAllowed => exact .pure (.some (.allowed isAllowed))
          | _ => exact hmirrors
      | object => exact hmirrors

end Read

/-- Two schemas whose parts are read in lockstep are read in lockstep. -/
theorem mirrors_read {part part' : Json → Compilation SchemaId}
    (hcovers : P.Covers ρ scope other) (hmembers : Json.MembersRespelled ρ members others)
    (hparts : PartsMirror P ρ members part part') :
    Mirrors P (read scope (.object members) fun child _ => part child)
      (read other (.object others) fun child _ => part' child) fun Q => Schema.Alike Q := by
  have htype := hmembers.plain "type" (by decide)
  have hdiscriminator := hmembers.plain "discriminator" (by decide)
  change Mirrors P (liftM (readOwn members) >>= _) (liftM (readOwn others) >>= _) _
  refine (mirrors_readOwn P hmembers).bind fun P₁ own _ hP₁ ⟨hsame, hown, hrequired⟩ => ?_
  subst hsame
  refine (mirrors_readSibling (hcovers.mono hP₁) hmembers).bind
    fun P₂ sibling sibling' hP₂ hsibling => ?_
  rw [htype]
  refine (mirrors_withType hown _).bind fun P₃ typed typed' hP₃ ⟨htyped, hnames⟩ => ?_
  have hP₁₃ := hP₁.trans (hP₂.trans hP₃)
  refine (mirrors_readProperties (hparts.mono hP₁₃) hmembers).bind
    fun P₄ properties properties' hP₄ hproperties => ?_
  have hP₁₄ := hP₁₃.trans hP₄
  refine (mirrors_readItems (hparts.mono hP₁₄) hmembers).bind fun P₅ items? items?' hP₅ hitems => ?_
  have hP₁₅ := hP₁₄.trans hP₅
  refine (mirrors_readExtras (hparts.mono hP₁₅) hmembers).bind
    fun P₆ extras? extras?' hP₆ hextras => ?_
  have hP₁₆ := hP₁₅.trans hP₆
  refine (mirrors_readList (hparts.mono hP₁₆) hmembers (by decide)).bind
    fun P₇ allOf allOf' hP₇ hallOf => ?_
  have hP₁₇ := hP₁₆.trans hP₇
  refine (mirrors_readList (hparts.mono hP₁₇) hmembers (by decide)).bind
    fun P₈ oneOf oneOf' hP₈ honeOf => ?_
  have hP₁₈ := hP₁₇.trans hP₈
  refine (mirrors_readList (hparts.mono hP₁₈) hmembers (by decide)).bind
    fun P₉ anyOf anyOf' hP₉ hanyOf => ?_
  have hP₁₉ := hP₁₈.trans hP₉
  rw [hdiscriminator]
  have hpicks : Mirrors P₉ (liftM (readDiscriminator scope members
      (Entries.get? members "discriminator")) : Compilation (Option Discriminator))
      (liftM (readDiscriminator other others (Entries.get? members "discriminator")))
      fun Q => Option.Rel (Discriminator.Alike Q) :=
    .of_except fun discriminator? hread =>
      alike_readDiscriminator (hcovers.mono hP₁₉) hmembers _ hread
  refine hpicks.bind fun P₁₀ discriminator? discriminator?' h₉ hdiscriminators => .pure ?_
  have h₈ := hP₉.trans h₉
  have h₇ := hP₈.trans h₈
  have h₆ := hP₇.trans h₇
  have h₅ := hP₆.trans h₆
  have h₄ := hP₅.trans h₅
  have h₃ := hP₄.trans h₄
  have h₂ := hP₃.trans h₃
  have halike := htyped.mono h₃
  exact { halike with
    properties := hproperties.imp fun name _ _ hseats => by
      rw [hnames, hrequired]
      exact h₄.seats hseats
    items := rel_imp hitems h₅.twin
    extras := rel_imp hextras fun _ _ hextra => hextra.mono h₆
    allOf := List.rel_append (hsibling.imp h₂.twin) (hallOf.imp h₇.twin)
    oneOf := honeOf.imp h₈.twin
    anyOf := List.rel_append halike.anyOf (hanyOf.imp h₉.twin)
    discriminator := hdiscriminators }

end Schema

namespace Scope

variable {P : Pairing} {ρ : Rerouting} {scope other : Scope}

theorem mirrors_readComponent_of_object {members others : Entries Json}
    (hcovers : P.Covers ρ scope other) (hmembers : Json.MembersRespelled ρ members others)
    (hplace : Schema.PartsMirror P ρ members scope.placeSchema other.placeSchema) :
    Mirrors P (scope.readComponent (.object members)) (other.readComponent (.object others))
      fun Q => Schema.Alike Q :=
  Schema.mirrors_read hcovers hmembers hplace

/-- A schema that has no members says the same to every reader. -/
theorem mirrors_readComponent_of_not_object {json : Json} (hjson : ∀ members, json ≠ .object members) :
    Mirrors P (scope.readComponent json) (other.readComponent json) fun Q => Schema.Alike Q := by
  have hempty : Schema.IsOwn {} := by constructor <;> rfl
  cases json with
  | object members => exact absurd rfl (hjson members)
  | bool value =>
      cases value with
      | true => exact .pure hempty.alike
      | false => exact .fail _ _
  | _ => exact .fail _ _

theorem bareReference?_congr {members others : Entries Json} {ρ : Rerouting}
    (hmembers : Json.MembersRespelled ρ members others) :
    bareReference? (.object others) = bareReference? (.object members) := by
  have hreference : Reference.of? (.object others) = Reference.of? (.object members) := by
    simp only [Reference.of?, Json.get?, hmembers.plain "$ref" (by decide)]
  have hlength : others.length = members.length := by
    simpa [Entries.keys] using congrArg List.length hmembers.keys
  unfold bareReference?
  rcases members with _ | ⟨first, _ | ⟨second, rest⟩⟩ <;>
    rcases others with _ | ⟨first', _ | ⟨second', rest'⟩⟩ <;> simp at hlength
  · rfl
  · exact hreference
  · rfl

theorem placeSchema_reference (scope : Scope) (target : String) :
    scope.placeSchema (Json.reference target) =
      (liftM (scope.schemaOf target) : Compilation SchemaId) :=
  scope.placeSchema_eq _

/-- A schema that says nothing but which properties there are. -/
theorem readComponent_properties (scope : Scope) (properties : Entries Json) :
    scope.readComponent (.object [("properties", .object properties)]) = (do
      let placed ← properties.mapM fun (name, property) => do
        return (name, ← scope.placeSchema property)
      return { properties := placed }) := by
  have hread : scope.readComponent (.object [("properties", .object properties)]) = (do
      let placed ← Schema.readProperties (fun child _ => scope.placeSchema child)
        (Schema.memberOf [("properties", .object properties)] "properties")
      return { properties := placed }) := rfl
  rw [hread, Schema.readProperties_eq]
  rfl

/-- A description beside a reference makes a schema of its own that asks for nothing but the
component. -/
theorem readComponent_described (scope : Scope) (target : String) (description : Json) :
    scope.readComponent (.object [("$ref", .string target), ("description", description)]) =
      (liftM (scope.schemaOf target) : Compilation SchemaId) >>= fun id => pure (.detour id) := by
  funext table
  have hsibling : Schema.readSibling scope
      (.object [("$ref", .string target), ("description", description)]) =
        (scope.schemaOf target).map fun id => [id] :=
    rfl
  unfold readComponent Schema.read
  simp only [hsibling]
  cases scope.schemaOf target <;> rfl

/-- A component that is nothing but a reference asks for nothing but what it refers to. -/
theorem readComponent_reference (scope : Scope) (target : String) :
    scope.readComponent (Json.reference target) =
      (liftM (scope.schemaOf target) : Compilation SchemaId) >>= fun id => pure (.detour id) := by
  funext table
  have hsibling : Schema.readSibling scope (.object [("$ref", .string target)]) =
      (scope.schemaOf target).map fun id => [id] :=
    rfl
  unfold readComponent Schema.read Json.reference
  simp only [hsibling]
  cases scope.schemaOf target <;> rfl

theorem mirrors_described (hcovers : P.Covers ρ scope other) {filled : Prop} {target : String}
    (description : Json) (hadmits : ρ.admits filled target) :
    Mirrors P (scope.placeSchema (Json.reference target))
      (other.placeSchema (.object [("$ref", .string target), ("description", description)]))
      fun Q => Q.Seats filled := by
  have hplace : other.placeSchema (.object [("$ref", .string target), ("description", description)]) =
      (liftM (other.schemaOf target) : Compilation SchemaId) >>= fun id =>
        Compilation.push (.detour id) := by
    rw [placeSchema_eq]
    change other.readComponent _ >>= Compilation.push = _
    rw [readComponent_described, bind_assoc]
    simp only [pure_bind]
  have htarget : Mirrors P (liftM (scope.schemaOf target) : Compilation SchemaId)
      (liftM (other.schemaOf target)) fun Q id found => Q.twin id found ∧ Q.admits filled id :=
    .of_except fun id hid => (hcovers.reference target id hid).imp fun found hfound =>
      ⟨hfound.1, hfound.2, hcovers.admits filled target id hadmits hid⟩
  rw [placeSchema_reference, hplace, ← bind_pure (liftM (scope.schemaOf target))]
  refine htarget.bind fun Q id found _ ⟨htwin, hadmitsQ⟩ => (Mirrors.push_detour htwin).imp ?_
  rintro R _ second hbelow ⟨rfl, hdetour⟩
  exact .inr ⟨hdetour, (hbelow.admits _ _).1 hadmitsQ⟩

theorem mirrors_forwarded (hcovers : P.Covers ρ scope other) {filled : Prop}
    {target forward : String} (hforwards : ρ.forwards target forward)
    (hadmits : ρ.admits filled target) :
    Mirrors P (scope.placeSchema (Json.reference target))
      (other.placeSchema (Json.reference forward)) fun Q => Q.Seats filled := by
  rw [placeSchema_reference, placeSchema_reference]
  refine .of_except fun id hid => ?_
  obtain ⟨found, hfound, hdetour⟩ := hcovers.forwards target forward id hforwards hid
  exact ⟨found, hfound, .inr ⟨hdetour, hcovers.admits filled target id hadmits hid⟩⟩

/-- A schema and another way to write it are placed in lockstep. -/
theorem mirrors_placeSchema (hcovers : P.Covers ρ scope other) {place : Option Prop}
    {json json' : Json} (hrespelled : Json.Respelled ρ place json json') :
    Mirrors P (scope.placeSchema json) (other.placeSchema json') fun Q => Q.At place := by
  induction hsize : sizeOf json using Nat.strong_induction_on generalizing P place json json' with
  | _ size ih =>
      cases json with
      | object members =>
          rcases hrespelled.cases_object with ⟨others, rfl, hmembers⟩ |
            ⟨filled, target, rfl, rfl, hadmits, hway⟩
          · have hparts : Schema.PartsMirror P ρ members scope.placeSchema other.placeSchema :=
              fun Q place child child' hbelow hchild hlt =>
                ih _ (hsize ▸ hlt) (hcovers.mono hbelow) hchild rfl
            rw [placeSchema_eq, placeSchema_eq, bareReference?_congr hmembers]
            cases hreference : bareReference? (.object members) with
            | none =>
                exact (mirrors_readComponent_of_object hcovers hmembers hparts).bind
                  fun Q schema schema' _ halike => (Mirrors.push halike).imp
                    fun R id id' _ htwin => Pairing.at_of_twin htwin place
            | some reference =>
                exact .of_except fun id hid =>
                  (hcovers.reference reference id hid).imp fun found hfound =>
                    ⟨hfound.1, Pairing.at_of_twin hfound.2 place⟩
          · rcases hway with ⟨description, rfl⟩ | ⟨forward, rfl, hforwards⟩
            · exact mirrors_described hcovers description hadmits
            · exact mirrors_forwarded hcovers hforwards hadmits
      | _ =>
          cases hrespelled
          rw [placeSchema_eq, placeSchema_eq]
          exact (mirrors_readComponent_of_not_object (by simp)).bind
            fun Q schema schema' _ halike => (Mirrors.push halike).imp
              fun R id id' _ htwin => Pairing.at_of_twin htwin place

/-- A component and another way to write it are read in lockstep. -/
theorem mirrors_readComponent (hcovers : P.Covers ρ scope other) {json json' : Json}
    (hrespelled : Json.Respelled ρ none json json') :
    Mirrors P (scope.readComponent json) (other.readComponent json') fun Q => Schema.Alike Q := by
  cases json with
  | object members =>
      rcases hrespelled.cases_object with ⟨others, rfl, hmembers⟩ | ⟨_, _, hplace, -⟩
      · exact mirrors_readComponent_of_object hcovers hmembers
          fun Q place child child' hbelow hchild _ =>
            mirrors_placeSchema (hcovers.mono hbelow) hchild
      · cases hplace
  | _ =>
      cases hrespelled
      exact mirrors_readComponent_of_not_object (by simp)

end Scope

end ApiContract
