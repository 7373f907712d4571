import ApiContract.Proofs.Coercion

/-!
# Searches through members

Where a schema does not say itself what stands inside a value or what type a text has, coercion asks
the members of its composition, theirs in turn, and so on for a bounded number of levels.  Whatever
such a search comes to is said by a schema that takes part in judging the value, in cyclic
compositions too.  For a text the search runs through types: the first one that reads the text counts.
-/

namespace ApiContract.SchemaTable

variable {table : SchemaTable} {id part : SchemaId} {schema declaring : Schema} {steps : Nat}
  {name text : String} {type : SchemaType}

/-! ## Schemas that take part -/

/-- A schema lists another one among the members of its composition. -/
def ListsMember (table : SchemaTable) (whole part : SchemaId) : Prop :=
  ∃ schema, table.get? whole = some schema ∧ part ∈ schema.members

/-- A schema of the composition that starts at a position: the one at this position, or a member in
any number of steps. -/
def TakesPart (table : SchemaTable) (id : SchemaId) (schema : Schema) : Prop :=
  ∃ part, Relation.ReflTransGen table.ListsMember id part ∧ table.get? part = some schema

theorem takesPart_self (hget : table.get? id = some schema) : table.TakesPart id schema :=
  ⟨id, .refl, hget⟩

theorem TakesPart.of_mem_members (hget : table.get? id = some schema)
    (hmem : part ∈ schema.members) (htakes : table.TakesPart part declaring) :
    table.TakesPart id declaring := by
  obtain ⟨last, hpath, hlast⟩ := htakes
  exact ⟨last, hpath.head ⟨schema, hget, hmem⟩, hlast⟩

/-- What a search finds through the members of a schema, it finds at one of them. -/
theorem exists_member_of_findSome? {found : SchemaId} {search : Schema → Option SchemaId}
    {ids : List SchemaId}
    (hfind : (ids.findSome? fun id => (table.get? id).bind search) = some found) :
    ∃ member ∈ ids, ∃ schema, table.get? member = some schema ∧ search schema = some found := by
  obtain ⟨member, hmember, hsearch⟩ := List.exists_of_findSome?_eq_some hfind
  exact ⟨member, hmember, Option.bind_eq_some_iff.1 hsearch⟩

/-! ## Items and properties -/

theorem exists_items_of_itemSchema? (hget : table.get? id = some schema)
    (hfound : table.itemSchema? steps schema = some part) :
    ∃ declaring, table.TakesPart id declaring ∧ declaring.items? = some part := by
  induction steps generalizing id schema with
  | zero => exact ⟨schema, takesPart_self hget, hfound⟩
  | succ steps ih =>
      rw [itemSchema?] at hfound
      rcases Option.or_eq_some_iff.1 hfound with hown | ⟨-, hmembers⟩
      · exact ⟨schema, takesPart_self hget, hown⟩
      · obtain ⟨member, hmember, other, hother, hdeeper⟩ := exists_member_of_findSome? hmembers
        obtain ⟨declaring, htakes, hitems⟩ := ih hother hdeeper
        exact ⟨declaring, .of_mem_members hget hmember htakes, hitems⟩

/-- The schema for all properties that no keyword mentions. -/
def furtherSchema? (schema : Schema) : Option SchemaId :=
  match schema.extras? with
  | some (.conforming id) => some id
  | _ => none

theorem extras?_of_furtherSchema? (hfurther : furtherSchema? schema = some part) :
    schema.extras? = some (.conforming part) := by
  unfold furtherSchema? at hfurther
  split at hfurther
  · next hextras => rw [hextras, Option.some.inj hfurther]
  · cases hfurther

theorem propertySchema?_zero (name : String) (schema : Schema) :
    table.propertySchema? name 0 schema =
      (Entries.get? schema.properties name).or (furtherSchema? schema) := by
  rw [propertySchema?]
  rfl

theorem propertySchema?_succ (name : String) (steps : Nat) (schema : Schema) :
    table.propertySchema? name (steps + 1) schema =
      (Entries.get? schema.properties name).or
        ((schema.members.findSome? fun id => (table.get? id).bind (table.propertySchema? name steps)).or
          (furtherSchema? schema)) := by
  rw [propertySchema?]
  rfl

theorem propertySchema?_of_members_eq_nil (hnone : schema.members = []) :
    table.propertySchema? name steps schema =
      (Entries.get? schema.properties name).or (furtherSchema? schema) := by
  cases steps with
  | zero => exact propertySchema?_zero name schema
  | succ steps =>
      rw [propertySchema?_succ, hnone]
      rfl

theorem exists_governs_of_propertySchema? (hget : table.get? id = some schema)
    (hfound : table.propertySchema? name steps schema = some part) :
    ∃ declaring, table.TakesPart id declaring ∧ declaring.Governs name part := by
  induction steps generalizing id schema with
  | zero =>
      rw [propertySchema?_zero] at hfound
      rcases Option.or_eq_some_iff.1 hfound with hown | ⟨hundeclared, hfurther⟩
      · exact ⟨schema, takesPart_self hget, .inl hown⟩
      · exact ⟨schema, takesPart_self hget, .inr ⟨hundeclared, extras?_of_furtherSchema? hfurther⟩⟩
  | succ steps ih =>
      rw [propertySchema?_succ] at hfound
      rcases Option.or_eq_some_iff.1 hfound with hown | ⟨hundeclared, hrest⟩
      · exact ⟨schema, takesPart_self hget, .inl hown⟩
      rcases Option.or_eq_some_iff.1 hrest with hmembers | ⟨-, hfurther⟩
      · obtain ⟨member, hmember, other, hother, hdeeper⟩ := exists_member_of_findSome? hmembers
        obtain ⟨declaring, htakes, hgoverns⟩ := ih hother hdeeper
        exact ⟨declaring, .of_mem_members hget hmember htakes, hgoverns⟩
      · exact ⟨schema, takesPart_self hget, .inr ⟨hundeclared, extras?_of_furtherSchema? hfurther⟩⟩

/-! ## Texts -/

/-- The types under which coercion tries to read a text, in this order: of the schema itself, else of
its members, so many levels deep. -/
def typesTried (table : SchemaTable) : (steps : Nat) → Schema → List SchemaType
  | steps, schema =>
    match schema.effectiveType? with
    | some type => [type]
    | none =>
      match steps with
      | 0 => []
      | steps + 1 =>
        schema.members.flatMap fun id => ((table.get? id).map (table.typesTried steps)).getD []

theorem typesTried_of_type (htype : schema.effectiveType? = some type) :
    table.typesTried steps schema = [type] := by
  rw [typesTried.eq_def]
  simp only [htype]

theorem typesTried_zero (htype : schema.effectiveType? = none) :
    table.typesTried 0 schema = [] := by
  rw [typesTried.eq_def]
  simp only [htype]

theorem typesTried_succ (htype : schema.effectiveType? = none) :
    table.typesTried (steps + 1) schema =
      schema.members.flatMap fun id => ((table.get? id).map (table.typesTried steps)).getD [] := by
  rw [typesTried.eq_def]
  simp only [htype]

theorem exists_declaring_of_mem_typesTried (hget : table.get? id = some schema)
    (hmem : type ∈ table.typesTried steps schema) :
    ∃ declaring, table.TakesPart id declaring ∧ declaring.effectiveType? = some type := by
  have htyped : ∀ {steps id schema found}, table.get? id = some schema →
      schema.effectiveType? = some found → type ∈ table.typesTried steps schema →
      ∃ declaring, table.TakesPart id declaring ∧ declaring.effectiveType? = some type := by
    intro steps id schema found hget htype hmem
    rw [typesTried_of_type htype, List.mem_singleton] at hmem
    exact ⟨schema, takesPart_self hget, hmem ▸ htype⟩
  induction steps generalizing id schema with
  | zero =>
      cases htype : schema.effectiveType? with
      | some found => exact htyped hget htype hmem
      | none => simp [typesTried_zero htype] at hmem
  | succ steps ih =>
      cases htype : schema.effectiveType? with
      | some found => exact htyped hget htype hmem
      | none =>
          rw [typesTried_succ htype] at hmem
          obtain ⟨member, hmember, hdeeper⟩ := List.mem_flatMap.1 hmem
          cases hother : table.get? member with
          | none => simp [hother] at hdeeper
          | some other =>
              rw [hother, Option.map_some, Option.getD_some] at hdeeper
              obtain ⟨declaring, htakes, hdeclared⟩ := ih hother hdeeper
              exact ⟨declaring, .of_mem_members hget hmember htakes, hdeclared⟩

theorem findSome?_flatMap {α β γ : Type} {within : α → List β} {search : β → Option γ}
    {items : List α} :
    (items.flatMap within).findSome? search =
      items.findSome? fun item => (within item).findSome? search := by
  induction items with
  | nil => rfl
  | cons item rest ih =>
      rw [List.flatMap_cons, List.findSome?_append, ih, List.findSome?_cons]
      cases (within item).findSome? search <;> rfl

/-- The first of some types that reads a text. -/
def firstReading? (types : List SchemaType) (text : String) : Option Value :=
  types.findSome? fun type => readText? type text

theorem exists_type_of_firstReading? {types : List SchemaType} {value : Value}
    (hread : firstReading? types text = some value) :
    ∃ type ∈ types, readText? type text = some value :=
  List.exists_of_findSome?_eq_some hread

theorem firstReading?_singleton : firstReading? [type] text = readText? type text := by
  unfold firstReading?
  rw [List.findSome?_cons]
  cases readText? type text <;> rfl

/-- Coercion of a text is a matter of the types that it tries. -/
theorem coerceText_eq_firstReading? :
    table.coerceText steps schema text =
      (firstReading? (table.typesTried steps schema) text).getD (.string text) := by
  induction steps generalizing schema with
  | zero =>
      cases htype : schema.effectiveType? with
      | some type => rw [coerceText_of_type htype, typesTried_of_type htype, firstReading?_singleton]
      | none => rw [coerceText_zero htype, typesTried_zero htype]; rfl
  | succ steps ih =>
      cases htype : schema.effectiveType? with
      | some type => rw [coerceText_of_type htype, typesTried_of_type htype, firstReading?_singleton]
      | none =>
          have hmember : ∀ id, table.readMember? steps text id =
              firstReading? (((table.get? id).map (table.typesTried steps)).getD []) text := by
            intro id
            unfold readMember?
            cases table.get? id with
            | none => rfl
            | some member =>
                rw [Option.map_some, Option.map_some, Option.getD_some, ih]
                cases hread : firstReading? (table.typesTried steps member) text with
                | none => rfl
                | some value =>
                    obtain ⟨type, -, htype⟩ := exists_type_of_firstReading? hread
                    cases reads_of_readText? htype <;> rfl
          rw [coerceText_succ htype, typesTried_succ htype, funext hmember]
          unfold firstReading?
          rw [findSome?_flatMap]

/-- A text under a schema stays if no type that is tried reads it, and else one of them does. -/
theorem coerceText_cases (table : SchemaTable) (steps : Nat) (schema : Schema) (text : String) :
    (table.coerceText steps schema text = .string text ∧
      ∀ type ∈ table.typesTried steps schema, readText? type text = none) ∨
    ∃ type ∈ table.typesTried steps schema,
      readText? type text = some (table.coerceText steps schema text) := by
  rw [coerceText_eq_firstReading?]
  cases hread : firstReading? (table.typesTried steps schema) text with
  | none => exact .inl ⟨rfl, List.findSome?_eq_none_iff.1 hread⟩
  | some value => exact .inr (exists_type_of_firstReading? hread)

theorem isContainer_coerceText : (table.coerceText steps schema text).isContainer = false := by
  rcases table.coerceText_cases steps schema text with ⟨hstays, -⟩ | ⟨type, -, hread⟩
  · rw [hstays]
    rfl
  · exact (reads_of_readText? hread).isContainer

/-- A text that is still one has not changed. -/
theorem eq_of_coerceText_eq_string {found : String}
    (hread : table.coerceText steps schema text = .string found) : found = text := by
  rcases table.coerceText_cases steps schema text with ⟨hstays, -⟩ | ⟨type, -, htyped⟩
  · exact Value.string.inj (hread.symm.trans hstays)
  · rw [hread] at htyped
    cases reads_of_readText? htyped

end ApiContract.SchemaTable
