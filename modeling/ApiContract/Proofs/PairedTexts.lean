import ApiContract.Parameter.Extraction
import ApiContract.Proofs.Correspondence
import ApiContract.Proofs.MemberSearch

/-!
# Reading texts by tables that correspond

Before a schema judges a value, the texts inside are read as the schema declares them, and the text
of a parameter is split by the shape of its schema.  Twins read alike, because the bounded searches
through members meet twins at each step.
-/

namespace ApiContract

theorem rel_findSome?_of_forall₂ {α β γ δ : Type} {related : α → β → Prop}
    {found : γ → δ → Prop} {first : α → Option γ} {second : β → Option δ} {items : List α}
    {others : List β} (hall : List.Forall₂ related items others)
    (hrel : ∀ item other, related item other → Option.Rel found (first item) (second other)) :
    Option.Rel found (items.findSome? first) (others.findSome? second) := by
  induction hall with
  | nil => exact .none
  | cons hfirst _ ih =>
      rw [List.findSome?_cons, List.findSome?_cons]
      have hhead := hrel _ _ hfirst
      revert hhead
      generalize first _ = value
      generalize second _ = value'
      rintro (hfound | _)
      · exact .some hfound
      · exact ih

theorem rel_or {α β : Type} {related : α → β → Prop} {first rest : Option α}
    {second rest' : Option β} (hfirst : Option.Rel related first second)
    (hrest : Option.Rel related rest rest') :
    Option.Rel related (first.or rest) (second.or rest') := by
  cases hfirst with
  | some hrelated => exact .some hrelated
  | none => exact hrest

theorem rel_head?_of_forall₂ {α β : Type} {related : α → β → Prop} {items : List α}
    {others : List β} (hall : List.Forall₂ related items others) :
    Option.Rel related items.head? others.head? := by
  cases hall with
  | nil => exact .none
  | cons hfirst _ => exact .some hfirst

theorem eq_of_rel_eq {α : Type} {first second : Option α}
    (hrel : Option.Rel (fun value other => other = value) first second) : second = first := by
  cases hrel with
  | some heq => rw [heq]
  | none => rfl

namespace Pairing.Settles

variable {P : Pairing} {table other : SchemaTable} {first second : SchemaId}

/-- What twins hold, taken further in both tables. -/
theorem rel_bind_get? {α β : Type} {found : α → β → Prop} {read : Schema → Option α}
    {read' : Schema → Option β} (hsettles : P.Settles table other) (htwin : P.twin first second)
    (hread : ∀ schema schema', schema.Alike P schema' → Option.Rel found (read schema) (read' schema')) :
    Option.Rel found ((table.get? first).bind read) ((other.get? second).bind read') := by
  obtain ⟨schema, schema', hget, hget', halike⟩ := hsettles.alike first second htwin
  rw [hget, hget']
  exact hread schema schema' halike

end Pairing.Settles

/-! ## Casting -/

namespace SchemaTable

variable {P : Pairing} {table other : SchemaTable} {schema schema' : Schema}

theorem rel_itemSchema? (hsettles : P.Settles table other) (steps : ℕ) :
    ∀ schema schema', schema.Alike P schema' →
      Option.Rel P.twin (table.itemSchema? steps schema) (other.itemSchema? steps schema') := by
  induction steps with
  | zero => exact fun _ _ halike => halike.items
  | succ steps ih =>
      intro schema schema' halike
      unfold itemSchema?
      exact rel_or halike.items (rel_findSome?_of_forall₂ halike.members fun _ _ htwin =>
        hsettles.rel_bind_get? htwin ih)

/-- Positions of which one may be named where the other is, whether a default is filled in or not. -/
def AtSomePlace (P : Pairing) (first second : SchemaId) : Prop :=
  ∃ filled, P.Seats filled first second

theorem rel_furtherSchema? (halike : schema.Alike P schema') :
    Option.Rel (AtSomePlace P) (furtherSchema? schema) (furtherSchema? schema') := by
  have hextras := halike.extras
  unfold furtherSchema?
  revert hextras
  generalize schema.extras? = extras?
  generalize schema'.extras? = extras?'
  rintro (hextras | _)
  · cases hextras with
    | allowed _ => exact .none
    | conforming htwin => exact .some ⟨False, .inl htwin⟩
  · exact .none

theorem rel_propertySchema? (hsettles : P.Settles table other) (name : String) (steps : ℕ) :
    ∀ schema schema', schema.Alike P schema' → Option.Rel (AtSomePlace P)
      (table.propertySchema? name steps schema) (other.propertySchema? name steps schema') := by
  have hdeclared : ∀ schema schema' : Schema, schema.Alike P schema' →
      Option.Rel (AtSomePlace P) (Entries.get? schema.properties name)
        (Entries.get? schema'.properties name) :=
    fun schema _ halike => rel_imp (halike.properties.get? name) fun _ _ hseats => ⟨_, hseats⟩
  induction steps with
  | zero =>
      intro schema schema' halike
      rw [propertySchema?_zero, propertySchema?_zero]
      exact rel_or (hdeclared _ _ halike) (rel_furtherSchema? halike)
  | succ steps ih =>
      intro schema schema' halike
      rw [propertySchema?_succ, propertySchema?_succ]
      refine rel_or (hdeclared _ _ halike) (rel_or ?_ (rel_furtherSchema? halike))
      exact rel_findSome?_of_forall₂ halike.members fun _ _ htwin => hsettles.rel_bind_get? htwin ih

theorem coerceText_congr (hsettles : P.Settles table other) (text : String) (steps : ℕ) :
    ∀ schema schema', schema.Alike P schema' →
      other.coerceText steps schema' text = table.coerceText steps schema text := by
  have htyped : ∀ (steps : ℕ) (schema schema' : Schema) (type : SchemaType),
      schema.Alike P schema' → schema.effectiveType? = some type →
      other.coerceText steps schema' text = table.coerceText steps schema text := by
    intro steps schema schema' type halike htype
    rw [coerceText_of_type htype, coerceText_of_type (halike.effectiveType?_eq.trans htype)]
  induction steps with
  | zero =>
      intro schema schema' halike
      cases htype : schema.effectiveType? with
      | some type => exact htyped 0 schema schema' type halike htype
      | none =>
          rw [coerceText_zero htype, coerceText_zero (halike.effectiveType?_eq.trans htype)]
  | succ steps ih =>
      intro schema schema' halike
      cases htype : schema.effectiveType? with
      | some type => exact htyped (steps + 1) schema schema' type halike htype
      | none =>
          have hmember : ∀ first second, P.twin first second →
              Option.Rel (fun value value' => value' = value) (table.readMember? steps text first)
                (other.readMember? steps text second) := by
            intro first second htwin
            obtain ⟨found, found', hget, hget', hfound⟩ := hsettles.alike first second htwin
            unfold readMember?
            rw [hget, hget', Option.map_some, Option.map_some, ih found found' hfound]
            cases table.coerceText steps found text <;> first | exact .none | exact .some rfl
          rw [coerceText_succ htype, coerceText_succ (halike.effectiveType?_eq.trans htype),
            eq_of_rel_eq (rel_findSome?_of_forall₂ halike.members hmember)]

/-- A value of which a certain number of levels belongs to a kind, level by level. -/
def PassesDown (fits : ℕ → Value → Prop) : Prop :=
  ∀ steps value, fits (steps + 1) value → ∀ child ∈ value.children, fits steps child

/-- One more step of the searches through the members of a schema finds nothing else. -/
structure SearchesEnd (table : SchemaTable) (steps : ℕ) (schema : Schema) : Prop where
  items : table.itemSchema? (steps + 1) schema = table.itemSchema? steps schema
  properties : ∀ name,
    table.propertySchema? name (steps + 1) schema = table.propertySchema? name steps schema
  texts : ∀ text, table.coerceText (steps + 1) schema text = table.coerceText steps schema text

/-- For such a value, the searches through members end a step early wherever a detour may be
taken. -/
def LeavesRoom (P : Pairing) (table : SchemaTable) (fits : ℕ → Value → Prop) : Prop :=
  ∀ steps filled id schema value, P.admits filled id → table.get? id = some schema →
    fits (steps + 1) value →
    (value.isContainer = false ∧ ∀ text, value ≠ .string text) ∨
      ∃ before, steps = before + 1 ∧ table.SearchesEnd before schema

theorem itemSchema?_detour {target : SchemaId} (hget : other.get? target = some schema)
    (steps : ℕ) :
    other.itemSchema? (steps + 1) (.detour target) = other.itemSchema? steps schema := by
  rw [itemSchema?]
  simp [Schema.detour, Schema.members, hget]

theorem propertySchema?_detour {target : SchemaId} (hget : other.get? target = some schema)
    (name : String) (steps : ℕ) :
    other.propertySchema? name (steps + 1) (.detour target) =
      other.propertySchema? name steps schema := by
  rw [propertySchema?_succ]
  simp [Schema.detour, Schema.members, hget, furtherSchema?]

theorem coerceText_detour {target : SchemaId} (hget : other.get? target = some schema)
    (steps : ℕ) (text : String) :
    other.coerceText (steps + 1) (.detour target) text = other.coerceText steps schema text := by
  rw [coerceText_succ rfl]
  simp only [Schema.detour, Schema.members, List.append_nil, List.findSome?_singleton, readMember?,
    hget, Option.map_some]
  cases hread : other.coerceText steps schema text with
  | string found => rw [eq_of_coerceText_eq_string hread]; rfl
  | _ => rfl

/-- Both schemas are searched with the same outcome, up to positions. -/
structure SearchedAlike (P : Pairing) (table other : SchemaTable) (steps : ℕ)
    (schema schema' : Schema) : Prop where
  items : Option.Rel P.twin (table.itemSchema? steps schema) (other.itemSchema? steps schema')
  properties : ∀ name, Option.Rel (AtSomePlace P) (table.propertySchema? name steps schema)
    (other.propertySchema? name steps schema')
  texts : ∀ text, other.coerceText steps schema' text = table.coerceText steps schema text

theorem searchedAlike_of_alike (hsettles : P.Settles table other) (steps : ℕ)
    (halike : schema.Alike P schema') : SearchedAlike P table other steps schema schema' where
  items := rel_itemSchema? hsettles steps schema schema' halike
  properties := fun name => rel_propertySchema? hsettles name steps schema schema' halike
  texts := fun text => coerceText_congr hsettles text steps schema schema' halike

/-- The step that a detour takes is not missed where the searches end a step early. -/
theorem searchedAlike_detour {steps : ℕ} {target : SchemaId} (hends : table.SearchesEnd steps schema)
    (hget : other.get? target = some schema')
    (halike : SearchedAlike P table other steps schema schema') :
    SearchedAlike P table other (steps + 1) schema (.detour target) where
  items := by
    rw [hends.items, itemSchema?_detour hget]
    exact halike.items
  properties := fun name => by
    rw [hends.properties name, propertySchema?_detour hget]
    exact halike.properties name
  texts := fun text => by
    rw [hends.texts text, coerceText_detour hget]
    exact halike.texts text

section Coerce

variable {fits : ℕ → Value → Prop} (hsettles : P.Settles table other) (hfits : PassesDown fits)
  (hroom : LeavesRoom P table fits)

/-- A child is read alike by schemas that may be named in each other's place, if all of these read it
alike. -/
theorem coerceUnder_congr {steps : ℕ} {value : Value}
    (hseats : ∀ filled first second, P.Seats filled first second →
      other.coerceAt steps second value = table.coerceAt steps first value)
    {part? part?' : Option SchemaId} (hparts : Option.Rel (AtSomePlace P) part? part?') :
    other.coerceUnder steps part?' value = table.coerceUnder steps part? value := by
  cases hparts with
  | none => rfl
  | some hplace =>
      obtain ⟨filled, hplace⟩ := hplace
      exact hseats filled _ _ hplace

include hsettles hroom

/-- What may stand where a schema is named is searched alike, unless the value has nothing to read. -/
theorem searchedAlike_of_seats {steps : ℕ} {filled : Prop} {first second : SchemaId} {value : Value}
    (hseats : P.Seats filled first second) (hvalue : fits (steps + 1) value) :
    (value.isContainer = false ∧ ∀ text, value ≠ .string text) ∨ ∃ schema schema',
      table.get? first = some schema ∧ other.get? second = some schema' ∧
        SearchedAlike P table other steps schema schema' := by
  rcases hseats with htwin | ⟨hdetour, hadmits⟩
  · obtain ⟨schema, schema', hget, hget', halike⟩ := hsettles.alike first second htwin
    exact .inr ⟨schema, schema', hget, hget', searchedAlike_of_alike hsettles steps halike⟩
  · obtain ⟨target, htwin, hlead⟩ := hsettles.leads first second hdetour
    obtain ⟨schema, schema', hget, hget', halike⟩ := hsettles.alike first target htwin
    refine (hroom steps filled first schema value hadmits hget hvalue).imp_right ?_
    rintro ⟨before, rfl, hends⟩
    exact ⟨schema, .detour target, hget, hlead,
      searchedAlike_detour hends hget' (searchedAlike_of_alike hsettles before halike)⟩

include hfits

/-- Whatever may stand where a schema is named reads the texts of every such value alike. -/
theorem coerceAt_seats (steps : ℕ) : ∀ value, fits steps value → ∀ filled first second,
    P.Seats filled first second →
    other.coerceAt steps second value = table.coerceAt steps first value := by
  induction steps with
  | zero => exact fun _ _ _ _ _ _ => rfl
  | succ steps ih =>
      intro value hvalue filled first second hseats
      rcases searchedAlike_of_seats hsettles hroom hseats hvalue with
        ⟨hscalar, htext⟩ | ⟨schema, schema', hget, hget', halike⟩
      · rw [coerceAt_scalar hscalar htext, coerceAt_scalar hscalar htext]
      cases value with
      | string text =>
          rw [coerceAt_text hget, coerceAt_text hget']
          exact halike.texts text
      | array items =>
          rw [coerceAt_array hget, coerceAt_array hget']
          refine congrArg Value.array (List.map_congr_left fun item hmem => ?_)
          have hchild := hfits steps _ hvalue item hmem
          exact coerceUnder_congr (ih item hchild) (rel_imp halike.items fun _ _ hitem =>
            ⟨False, .inl hitem⟩)
      | object members =>
          rw [coerceAt_object hget, coerceAt_object hget']
          refine congrArg Value.object (List.map_congr_left fun member hmem => ?_)
          have hchild := hfits steps _ hvalue member.2 (List.mem_map.2 ⟨member, hmem, rfl⟩)
          exact congrArg (Prod.mk member.1)
            (coerceUnder_congr (ih member.2 hchild) (halike.properties member.1))
      | _ => rw [coerceAt_scalar rfl (by simp), coerceAt_scalar rfl (by simp)]

end Coerce

end SchemaTable

/-! ## Splitting -/

namespace Shape

variable {P : Pairing} {table other : SchemaTable}

/-- The names of the properties that the members of an `allOf` declare. -/
def inherited (table : SchemaTable) (schema : Schema) : List String :=
  (schema.allOf.filterMap table.get?).flatMap fun member => Entries.keys member.properties

theorem inherited_congr (hsettles : P.Settles table other) {schema schema' : Schema}
    (halike : schema.Alike P schema') : inherited other schema' = inherited table schema := by
  have hall := halike.allOf
  unfold inherited
  generalize schema.allOf = ids at hall
  generalize schema'.allOf = others at hall
  induction hall with
  | nil => rfl
  | cons htwin _ ih =>
      obtain ⟨found, found', hget, hget', hfound⟩ := hsettles.alike _ _ htwin
      simp only [List.filterMap_cons, hget, hget', List.flatMap_cons, hfound.properties.keys_eq, ih]

theorem ofSchema_succ (steps : ℕ) (id? : Option SchemaId) :
    ofSchema table (steps + 1) id? =
      match id?.bind table.get? with
      | none => .primitive
      | some schema =>
        match schema.effectiveType? with
        | some .array => .array
        | some .object => .object (Entries.keys schema.properties ++ inherited table schema)
        | some _ => .primitive
        | none => ofSchema table steps schema.members.head? := by
  rw [ofSchema]
  rfl

/-- Twins have the same shape. -/
theorem ofSchema_twin (hsettles : P.Settles table other) (steps : ℕ) :
    ∀ id? id?', Option.Rel P.twin id? id?' → ofSchema other steps id?' = ofSchema table steps id? := by
  induction steps with
  | zero => exact fun _ _ _ => rfl
  | succ steps ih =>
      rintro _ _ (htwin | _)
      · obtain ⟨schema, schema', hget, hget', halike⟩ := hsettles.alike _ _ htwin
        rw [ofSchema_succ, ofSchema_succ, Option.bind_some, Option.bind_some, hget, hget']
        simp only [halike.effectiveType?_eq, halike.properties.keys_eq,
          inherited_congr hsettles halike, ih _ _ (rel_head?_of_forall₂ halike.members)]
      · rw [ofSchema_succ, ofSchema_succ]
        rfl

/-- How many compositions are looked through behind the one of a detour. -/
def stepsBehind : ℕ := maxSteps - 1

theorem ofSchema_detour {second target : SchemaId}
    (hget : other.get? second = some (.detour target)) (steps : ℕ) :
    ofSchema other (steps + 1) (some second) = ofSchema other steps (some target) := by
  rw [ofSchema_succ, Option.bind_some, hget]
  rfl

/-- Whatever may stand where a schema is named has its shape, if a step less finds that shape
wherever a detour may be taken. -/
theorem of_seats (hsettles : P.Settles table other)
    (hroom : ∀ filled id, P.admits filled id →
      Shape.of table (some id) = ofSchema table stepsBehind (some id))
    {filled : Prop} {first second : SchemaId} (hseats : P.Seats filled first second) :
    Shape.of other (some second) = Shape.of table (some first) := by
  rcases hseats with htwin | ⟨hdetour, hadmits⟩
  · exact ofSchema_twin hsettles maxSteps _ _ (.some htwin)
  · obtain ⟨target, htwin, hlead⟩ := hsettles.leads first second hdetour
    rw [hroom filled first hadmits]
    exact (ofSchema_detour hlead stepsBehind).trans
      (ofSchema_twin hsettles stepsBehind _ _ (.some htwin))

end Shape

end ApiContract
