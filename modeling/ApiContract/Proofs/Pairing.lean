import ApiContract.Contract.Basic
import ApiContract.Proofs.Insertion

/-!
# Schemas that stand for each other

Two tables may hold the same schemas at different positions.  A `Pairing` says which positions stand
for each other: `twin`s hold the same schema, up to the positions that it refers to, and a `detour`
leads to the twin through a schema that asks for nothing but that twin.  Detours stand only where
the schema of a property, a parameter or a body is named, and where a default would be filled in
only if there is none.
-/

namespace ApiContract

/-! ## Entries of the same names -/

namespace Entries

variable {α β : Type} {related implied : String → α → β → Prop} {entries : Entries α}
  {others : Entries β} {key : String} {value : α} {other : β}

/-- Two maps with the same names in the same order, whose values are related name by name. -/
def Paired (related : String → α → β → Prop) (entries : Entries α) (others : Entries β) : Prop :=
  List.Forall₂ (fun entry other => other.1 = entry.1 ∧ related entry.1 entry.2 other.2)
    entries others

theorem Paired.imp (hpaired : Paired related entries others)
    (himp : ∀ name value other, related name value other → implied name value other) :
    Paired implied entries others :=
  List.Forall₂.imp (fun _ _ hentry => ⟨hentry.1, himp _ _ _ hentry.2⟩) hpaired

theorem paired_self {related : String → α → α → Prop}
    (hrefl : ∀ entry ∈ entries, related entry.1 entry.2 entry.2) : Paired related entries entries :=
  List.forall₂_same.2 fun entry hmem => ⟨rfl, hrefl entry hmem⟩

theorem paired_of_zip (hkeys : keys others = keys entries)
    (hrelated : ∀ pair ∈ entries.zip others, related pair.1.1 pair.1.2 pair.2.2) :
    Paired related entries others := by
  induction entries generalizing others with
  | nil =>
      obtain rfl := List.map_eq_nil_iff.1 hkeys
      exact .nil
  | cons entry rest ih =>
      cases others with
      | nil => cases hkeys
      | cons other tail =>
          obtain ⟨hname, hrest⟩ := List.cons.inj hkeys
          rw [List.zip_cons_cons, List.forall_mem_cons] at hrelated
          exact .cons ⟨hname, hrelated.1⟩ (ih hrest hrelated.2)

theorem Paired.of_mem_zip (hpaired : Paired related entries others)
    {pair : (String × α) × (String × β)} (hpair : pair ∈ entries.zip others) :
    pair.2.1 = pair.1.1 ∧ related pair.1.1 pair.1.2 pair.2.2 :=
  (List.forall₂_iff_zip.1 hpaired).2 hpair

theorem Paired.keys_eq (hpaired : Paired related entries others) : keys others = keys entries :=
  keys_eq_of_forall₂ (List.Forall₂.imp (fun _ _ hentry => hentry.1.symm) hpaired)

theorem Paired.contains_eq (hpaired : Paired related entries others) (key : String) :
    contains others key = contains entries key := by
  rw [Bool.eq_iff_iff, contains_iff, contains_iff, hpaired.keys_eq]

/-- A name has related values in both maps, or none in either. -/
theorem Paired.get? (hpaired : Paired related entries others) (key : String) :
    Option.Rel (related key) (get? entries key) (get? others key) := by
  induction hpaired with
  | nil => exact .none
  | @cons entry other rest tail hfirst _ ih =>
      obtain ⟨_, value⟩ := entry
      obtain ⟨name, found⟩ := other
      obtain ⟨rfl, hrelated⟩ := hfirst
      by_cases hname : name = key
      · subst hname
        simpa [Entries.get?] using Option.Rel.some hrelated
      · simpa [Entries.get?, hname] using ih

theorem Paired.filter (hpaired : Paired related entries others) (keeps : String → Bool) :
    Paired related (List.filter (fun entry => keeps entry.1) entries)
      (List.filter (fun entry => keeps entry.1) others) := by
  induction hpaired with
  | nil => exact .nil
  | @cons entry other rest tail hfirst _ ih =>
      rw [List.filter_cons, List.filter_cons, hfirst.1]
      split
      · exact .cons hfirst ih
      · exact ih

theorem Paired.insert (hpaired : Paired related entries others)
    (hrelated : related key value other) :
    Paired related (insert entries key value) (insert others key other) := by
  induction hpaired with
  | nil => exact .cons ⟨rfl, hrelated⟩ .nil
  | @cons entry head rest tail hfirst hrest ih =>
      obtain ⟨_, old⟩ := entry
      obtain ⟨name, found⟩ := head
      obtain ⟨rfl, hold⟩ := hfirst
      by_cases hname : name = key
      · subst hname
        simp only [Entries.insert, ↓reduceIte]
        exact .cons ⟨rfl, hrelated⟩ hrest
      · simp only [Entries.insert, hname, ↓reduceIte]
        exact .cons ⟨rfl, hold⟩ ih

theorem Paired.ofPairs {pairs : List (String × α)} {more : List (String × β)}
    (hpaired : Paired related pairs more) :
    Paired related (Entries.ofPairs pairs) (Entries.ofPairs more) := by
  have hfold : ∀ (entries : Entries α) (others : Entries β), Paired related entries others →
      Paired related (pairs.foldl (fun entries pair => Entries.insert entries pair.1 pair.2) entries)
        (more.foldl (fun entries pair => Entries.insert entries pair.1 pair.2) others) := by
    induction hpaired with
    | nil => exact fun _ _ hentries => hentries
    | @cons entry other rest tail hfirst _ ih =>
        obtain ⟨_, value⟩ := entry
        obtain ⟨name, found⟩ := other
        obtain ⟨rfl, hrelated⟩ := hfirst
        exact fun entries others hentries => ih _ _ (hentries.insert hrelated)
  exact hfold [] [] .nil

end Entries

/-! ## Pairings -/

/-- Which positions of two tables stand for each other. -/
structure Pairing where
  /-- Both positions hold the same schema, up to positions. -/
  twin : SchemaId → SchemaId → Prop
  /-- The second position holds a schema that asks for nothing but the twin of the first. -/
  detour : SchemaId → SchemaId → Prop
  /-- A detour around the position may be taken.  The proposition says whether an absent value is
  filled in with the default of its schema. -/
  admits : Prop → SchemaId → Prop

namespace Pairing

variable {P Q R : Pairing} {first second : SchemaId} {filled : Prop}

/-- The second position may be named where the first one is.  `filled` says that an absent value
there is filled in with the default of its schema. -/
def Seats (P : Pairing) (filled : Prop) (first second : SchemaId) : Prop :=
  P.twin first second ∨ P.detour first second ∧ P.admits filled first

/-- All that stands for each other under the first pairing does so under the second. -/
structure Below (P Q : Pairing) : Prop where
  twin : ∀ first second, P.twin first second → Q.twin first second
  detour : ∀ first second, P.detour first second → Q.detour first second
  admits : ∀ filled first, P.admits filled first ↔ Q.admits filled first

theorem Below.refl (P : Pairing) : P.Below P :=
  ⟨fun _ _ htwin => htwin, fun _ _ hdetour => hdetour, fun _ _ => Iff.rfl⟩

theorem Below.trans (hfirst : P.Below Q) (hnext : Q.Below R) : P.Below R where
  twin := fun first second htwin => hnext.twin first second (hfirst.twin first second htwin)
  detour := fun first second hdetour =>
    hnext.detour first second (hfirst.detour first second hdetour)
  admits := fun filled first => (hfirst.admits filled first).trans (hnext.admits filled first)

theorem Below.seats (hbelow : P.Below Q) (hseats : P.Seats filled first second) :
    Q.Seats filled first second :=
  hseats.imp (hbelow.twin _ _) fun hdetour =>
    ⟨hbelow.detour _ _ hdetour.1, (hbelow.admits _ _).1 hdetour.2⟩

end Pairing

/-! ## Schemas -/

/-- The same is said about further properties, up to positions. -/
inductive Extras.Alike (P : Pairing) : Extras → Extras → Prop
  | allowed (isAllowed : Bool) : Extras.Alike P (.allowed isAllowed) (.allowed isAllowed)
  | conforming {first second : SchemaId} (htwin : P.twin first second) :
      Extras.Alike P (.conforming first) (.conforming second)

/-- The same property picks the same schemas, up to positions. -/
structure Discriminator.Alike (P : Pairing) (discriminator other : Discriminator) : Prop where
  property : other.property = discriminator.property
  mapping : Entries.Paired (fun _ => P.twin) discriminator.mapping other.mapping

/-- Two schemas say the same, up to positions that stand for each other. -/
structure Schema.Alike (P : Pairing) (schema other : Schema) : Prop where
  type : other.type? = schema.type?
  format : other.format? = schema.format?
  nullable : other.nullable = schema.nullable
  required : other.required = schema.required
  properties : Entries.Paired (fun name => P.Seats (name ∉ schema.required))
    schema.properties other.properties
  items : Option.Rel P.twin schema.items? other.items?
  extras : Option.Rel (Extras.Alike P) schema.extras? other.extras?
  allOf : List.Forall₂ P.twin schema.allOf other.allOf
  oneOf : List.Forall₂ P.twin schema.oneOf other.oneOf
  anyOf : List.Forall₂ P.twin schema.anyOf other.anyOf
  discriminator : Option.Rel (Discriminator.Alike P) schema.discriminator? other.discriminator?
  literals : other.literals? = schema.literals?
  default : other.default? = schema.default?
  constraints : other.constraints = schema.constraints

/-- A schema that asks for nothing but another one. -/
def Schema.detour (id : SchemaId) : Schema := { allOf := [id] }

section Monotone

variable {P Q : Pairing}

theorem rel_imp {α β : Type} {related implied : α → β → Prop} {first : Option α}
    {second : Option β} (hrel : Option.Rel related first second)
    (himp : ∀ value other, related value other → implied value other) :
    Option.Rel implied first second := by
  cases hrel with
  | some hrelated => exact .some (himp _ _ hrelated)
  | none => exact .none

theorem Extras.Alike.mono {extras other : Extras} (halike : extras.Alike P other)
    (hbelow : P.Below Q) : extras.Alike Q other := by
  cases halike with
  | allowed isAllowed => exact .allowed isAllowed
  | conforming htwin => exact .conforming (hbelow.twin _ _ htwin)

theorem Discriminator.Alike.mono {discriminator other : Discriminator}
    (halike : discriminator.Alike P other) (hbelow : P.Below Q) : discriminator.Alike Q other :=
  ⟨halike.property, halike.mapping.imp fun _ => hbelow.twin⟩

theorem Schema.Alike.mono {schema other : Schema} (halike : schema.Alike P other)
    (hbelow : P.Below Q) : schema.Alike Q other where
  type := halike.type
  format := halike.format
  nullable := halike.nullable
  required := halike.required
  properties := halike.properties.imp fun _ _ _ => hbelow.seats
  items := rel_imp halike.items hbelow.twin
  extras := rel_imp halike.extras fun _ _ hextras => hextras.mono hbelow
  allOf := halike.allOf.imp hbelow.twin
  oneOf := halike.oneOf.imp hbelow.twin
  anyOf := halike.anyOf.imp hbelow.twin
  discriminator := rel_imp halike.discriminator fun _ _ hdiscriminator => hdiscriminator.mono hbelow
  literals := halike.literals
  default := halike.default
  constraints := halike.constraints

end Monotone

/-! ## Tables -/

namespace SchemaTable

variable {table other last : SchemaTable} {id : SchemaId} {schema : Schema}

/-- The second table holds the first one in front. -/
structure Extends (table other : SchemaTable) : Prop where
  size : table.size ≤ other.size
  get? : ∀ id, id < table.size → other.get? id = table.get? id

theorem Extends.refl (table : SchemaTable) : table.Extends table :=
  ⟨Nat.le_refl _, fun _ _ => rfl⟩

theorem Extends.trans (hfirst : table.Extends other) (hnext : other.Extends last) :
    table.Extends last where
  size := Nat.le_trans hfirst.size hnext.size
  get? := fun id hid => by
    rw [hnext.get? id (Nat.lt_of_lt_of_le hid hfirst.size), hfirst.get? id hid]

theorem Extends.get?_eq_some (hextends : table.Extends other)
    (hget : table.get? id = some schema) : other.get? id = some schema := by
  rw [hextends.get? id (lt_size_of_get? hget), hget]

theorem exists_get?_of_lt (hid : id < table.size) : ∃ schema, table.get? id = some schema :=
  ⟨_, Array.getElem?_eq_getElem hid⟩

theorem size_push (table : SchemaTable) (schema : Schema) :
    (table.push schema).2.size = table.size + 1 := by
  simp [push, size]

theorem extends_push (table : SchemaTable) (schema : Schema) :
    table.Extends (table.push schema).2 where
  size := by rw [size_push]; omega
  get? := fun id hid => by
    have hid' : id < table.schemas.size := hid
    simp [push, SchemaTable.get?, Array.getElem?_push, Nat.ne_of_lt hid']

end SchemaTable

end ApiContract
