import ApiContract.Contract.Loading
import ApiContract.Proofs.KeyedJson

/-!
# What readers yield

A description is read by three kinds of readers: of a value, of the fields of a record, and of parts
that add to the schema table.  `Yields` says of each that whatever it reads has a property.  One rule
for each way of putting readers together carries a property from the document to what is compiled
from it.
-/

namespace ApiContract

theorem ok_of_bind_eq_ok {ε α β : Type} {first : Except ε α} {next : α → Except ε β} {result : β}
    (hbind : first >>= next = .ok result) :
    ∃ middle, first = .ok middle ∧ next middle = .ok result := by
  cases first with
  | error fault => cases hbind
  | ok middle => exact ⟨middle, rfl, hbind⟩

theorem bind_of_eq_ok {ε α β : Type} {first : Except ε α} {next : α → Except ε β} {middle : α}
    (hfirst : first = .ok middle) : first >>= next = next middle := by
  rw [hfirst]
  rfl

/-! ## Values -/

namespace JsonReader

variable {α : Type} {read : JsonReader α} {holds : α → Prop}

/-- Whatever is read of a keyed value has the property. -/
def Yields (read : JsonReader α) (holds : α → Prop) : Prop :=
  ∀ json : Json, json.Keyed → ∀ value ∈ read json, holds value

theorem yields_true (read : JsonReader α) : read.Yields fun _ => True :=
  fun _ _ _ _ => trivial

theorem yields_any : Yields any Json.Keyed := by
  rintro json hkeyed _ ⟨⟩
  exact hkeyed

theorem Yields.nullable (hread : read.Yields holds) :
    read.nullable.Yields fun value? => ∀ value ∈ value?, holds value := by
  intro json hkeyed
  unfold JsonReader.nullable
  split
  · rintro _ ⟨⟩
    simp
  · refine Json.forall_mem_map fun value hvalue => ?_
    rintro _ ⟨⟩
    exact hread json hkeyed value hvalue

theorem forall₂_of_mem_mapM {β γ : Type} {f : β → Option γ} {items : List β} :
    ∀ values ∈ items.mapM f, List.Forall₂ (fun item value => value ∈ f item) items values := by
  induction items with
  | nil =>
      rintro _ ⟨⟩
      exact .nil
  | cons first rest ih =>
      rw [List.mapM_cons]
      refine Json.forall_mem_bind fun head hhead => Json.forall_mem_bind fun tail htail => ?_
      rintro _ ⟨⟩
      exact .cons hhead (ih tail htail)

theorem Yields.map (hread : read.Yields holds) :
    (JsonReader.map read).Yields fun entries =>
      Entries.Distinct entries ∧ ∀ entry ∈ entries, holds entry.2 := by
  intro json hkeyed entries hentries
  cases hkeyed with
  | @object members hdistinct hmembers =>
      have hall := forall₂_of_mem_mapM entries hentries
      have hnames : Entries.keys entries = Entries.keys members := by
        refine Entries.keys_eq_of_forall₂ (hall.imp fun member entry hentry => ?_)
        obtain ⟨value, -, rfl⟩ := Option.mem_map.1 hentry
        rfl
      constructor
      · rwa [Entries.Distinct, hnames]
      · refine forall_mem_of_forall₂ hall fun member hmember entry hentry => ?_
        obtain ⟨value, hvalue, rfl⟩ := Option.mem_map.1 hentry
        exact hread member.2 (hmembers member hmember) value hvalue
  | _ => simp [JsonReader.map] at hentries

/-- Members that may be anything are kept as they are. -/
theorem map_any_object (members : Entries Json) : map any (.object members) = some members := by
  change members.mapM (fun entry => pure (entry.1, entry.2)) = some members
  rw [List.mapM_pure, List.map_id']
  rfl

end JsonReader

/-! ## Records -/

/-- The fields of a keyed value. -/
def Fields.Keyed : Fields → Prop
  | .named members => (Json.object members).Keyed
  | .ordered items => (Json.array items).Keyed

namespace RecordReader

variable {α β : Type} {read : JsonReader α} {holds : α → Prop} {name : String}

/-- Whatever is read of keyed fields has the property, and the fields that are left are keyed. -/
def Yields (reader : RecordReader α) (holds : α → Prop) : Prop :=
  ∀ fields : Fields, fields.Keyed →
    ∀ result ∈ StateT.run reader fields, holds result.1 ∧ result.2.Keyed

theorem Yields.pure {value : α} (hvalue : holds value) :
    Yields (Pure.pure value : RecordReader α) holds := by
  rintro fields hkeyed _ ⟨⟩
  exact ⟨hvalue, hkeyed⟩

theorem Yields.bind {first : RecordReader α} {next : α → RecordReader β} {after : β → Prop}
    (hfirst : Yields first holds) (hnext : ∀ value, holds value → Yields (next value) after) :
    Yields (first >>= next) after := by
  intro fields hkeyed
  rw [StateT.run_bind]
  refine Json.forall_mem_bind fun result hresult => ?_
  obtain ⟨hvalue, hrest⟩ := hfirst fields hkeyed result hresult
  exact hnext result.1 hvalue result.2 hrest

theorem keyed_get?_object {members : Entries Json} {json : Json}
    (hkeyed : (Json.object members).Keyed) (hget : Entries.get? members name = some json) :
    json.Keyed := by
  cases hkeyed with
  | object _ hmembers => exact hmembers _ (Entries.mem_of_get? hget)

theorem run_lookup?_named (members : Entries Json) :
    StateT.run (lookup? name read) (.named members) =
      match Entries.get? members name with
      | some json => (read json).map fun value => (some value, Fields.named members)
      | none => some (none, .named members) := by
  cases hget : Entries.get? members name with
  | none => simp [lookup?, hget]
  | some json =>
      simp only [lookup?, StateT.run_bind, StateT.run_get, pure_bind, hget]
      cases read json <;> rfl

/-- What a field of an object is read as, with a value for its absence. -/
def fieldOf? (members : Entries Json) (name : String) (read : JsonReader α) (absent : α) : Option α :=
  match Entries.get? members name with
  | some json => read json
  | none => some absent

theorem fieldOf?_insert_self (members : Entries Json) (json : Json) (absent : α) :
    fieldOf? (Entries.insert members name json) name read absent = read json := by
  rw [fieldOf?, Entries.get?_insert_self]

theorem fieldOf?_insert_of_ne {other : String} (members : Entries Json) (json : Json) (absent : α)
    (hne : other ≠ name) :
    fieldOf? (Entries.insert members name json) other read absent =
      fieldOf? members other read absent := by
  rw [fieldOf?, fieldOf?, Entries.get?_insert_of_ne hne]

/-- Reading a field of an object leaves all its members for the fields behind it. -/
theorem run_fieldOr_bind (members : Entries Json) (absent : α) (next : α → RecordReader β) :
    StateT.run (fieldOr name read absent >>= next) (.named members) =
      (fieldOf? members name read absent).bind fun value =>
        StateT.run (next value) (.named members) := by
  rw [StateT.run_bind, fieldOr, StateT.run_bind, run_lookup?_named, fieldOf?]
  cases Entries.get? members name with
  | none => rfl
  | some json =>
      dsimp only
      cases read json <;> rfl

theorem run_field?_bind (members : Entries Json) (next : Option α → RecordReader β) :
    StateT.run (field? name read >>= next) (.named members) =
      (fieldOf? members name read.nullable none).bind fun value? =>
        StateT.run (next value?) (.named members) := by
  rw [StateT.run_bind, field?, StateT.run_bind, StateT.run_get, pure_bind, StateT.run_bind,
    run_lookup?_named, fieldOf?]
  cases Entries.get? members name with
  | none => rfl
  | some json =>
      dsimp only
      cases read.nullable json <;> rfl

theorem run_lookup?_ordered (items : List Json) :
    StateT.run (lookup? name read) (.ordered items) =
      match items with
      | [] => some (none, Fields.ordered [])
      | json :: rest => (read json).map fun value => (some value, Fields.ordered rest) := by
  cases items with
  | nil => rfl
  | cons json rest =>
      simp only [lookup?, StateT.run_bind, StateT.run_get, pure_bind, StateT.run_set]
      cases read json <;> rfl

theorem yields_lookup? (hread : read.Yields holds) :
    Yields (lookup? name read) fun value? => ∀ value ∈ value?, holds value := by
  intro fields hkeyed
  cases fields with
  | named members =>
      rw [run_lookup?_named]
      split
      · next json hget =>
          refine Json.forall_mem_map fun value hvalue => ⟨?_, hkeyed⟩
          rintro _ ⟨⟩
          exact hread json (keyed_get?_object hkeyed hget) value hvalue
      · rintro _ ⟨⟩
        exact ⟨by simp, hkeyed⟩
  | ordered items =>
      rw [run_lookup?_ordered]
      cases hkeyed with
      | array hitems =>
          cases items with
          | nil =>
              rintro _ ⟨⟩
              exact ⟨by simp, .array hitems⟩
          | cons json rest =>
              refine Json.forall_mem_map fun value hvalue => ⟨?_, ?_⟩
              · rintro _ ⟨⟩
                exact hread json (hitems json List.mem_cons_self) value hvalue
              · exact .array fun item hmem => hitems item (List.mem_cons_of_mem _ hmem)

theorem yields_fieldOr {absent : α} (hread : read.Yields holds) (habsent : holds absent) :
    Yields (fieldOr name read absent) holds := by
  refine (yields_lookup? hread).bind fun value? hvalue? => .pure ?_
  cases value? with
  | none => exact habsent
  | some value => exact hvalue? value rfl

theorem yields_field? (hread : read.Yields holds) :
    Yields (field? name read) fun value? => ∀ value ∈ value?, holds value := by
  have hget : Yields (get : RecordReader Fields) fun _ => True := by
    rintro fields hkeyed _ ⟨⟩
    exact ⟨trivial, hkeyed⟩
  refine hget.bind fun fields _ => (yields_lookup? hread.nullable).bind fun value? hvalue? => ?_
  split
  · exact .pure (hvalue? _ rfl)
  · exact .pure (by simp)
  · intro fields hkeyed result hresult
    cases hresult

theorem yields_mapM {candidates : List β} {reader : β → RecordReader α}
    (hreader : ∀ candidate ∈ candidates, Yields (reader candidate) holds) :
    Yields (candidates.mapM reader) fun values => ∀ value ∈ values, holds value := by
  induction candidates with
  | nil => exact .pure (by simp)
  | cons first rest ih =>
      rw [List.mapM_cons]
      refine (hreader first List.mem_cons_self).bind fun head hhead => ?_
      refine (ih fun candidate hmem => hreader candidate (List.mem_cons_of_mem _ hmem)).bind
        fun tail htail => .pure ?_
      rw [List.forall_mem_cons]
      exact ⟨hhead, htail⟩

theorem Yields.run {reader : RecordReader α} (hreader : Yields reader holds) :
    (RecordReader.run reader).Yields holds := by
  intro json hkeyed
  unfold RecordReader.run
  split
  · next members =>
      exact Json.forall_mem_map fun result hresult => (hreader (.named members) hkeyed result hresult).1
  · next items =>
      split
      · next value heq =>
          rintro _ ⟨⟩
          exact (hreader (.ordered items) hkeyed _ heq).1
      · simp
  · simp

end RecordReader

/-! ## Parts that add to the schema table -/

namespace Compilation

variable {α β : Type} {holds : α → Prop}

/-- Whatever is read has the property, at any schema table. -/
def Yields (part : Compilation α) (holds : α → Prop) : Prop :=
  ∀ table result, StateT.run part table = .ok result → holds result.1

theorem yields_true (part : Compilation α) : Yields part fun _ => True :=
  fun _ _ _ => trivial

theorem Yields.pure {value : α} (hvalue : holds value) :
    Yields (Pure.pure value : Compilation α) holds := by
  rintro table _ ⟨⟩
  exact hvalue

theorem Yields.bind {first : Compilation α} {next : α → Compilation β} {after : β → Prop}
    (hfirst : Yields first holds) (hnext : ∀ value, holds value → Yields (next value) after) :
    Yields (first >>= next) after := by
  intro table result hresult
  rw [StateT.run_bind] at hresult
  obtain ⟨middle, hmiddle, hresult⟩ := ok_of_bind_eq_ok hresult
  exact hnext middle.1 (hfirst table middle hmiddle) middle.2 result hresult

theorem Yields.of_except {value : Except ContractFault α}
    (hvalue : ∀ found, value = .ok found → holds found) :
    Yields (liftM value : Compilation α) holds := by
  intro table result hresult
  cases value with
  | error fault => cases hresult
  | ok found =>
      cases hresult
      exact hvalue found rfl

theorem Yields.fail (cause : DocumentFault) : Yields (Compilation.fail cause) holds := by
  rintro table _ ⟨⟩

/-- Parts that are read one after the other are related to what they are read from. -/
theorem yields_mapM {candidates : List β} {part : β → Compilation α} {related : β → α → Prop}
    (hpart : ∀ candidate ∈ candidates, Yields (part candidate) (related candidate)) :
    Yields (candidates.mapM part) (List.Forall₂ related candidates) := by
  induction candidates with
  | nil => exact .pure .nil
  | cons first rest ih =>
      rw [List.mapM_cons]
      refine (hpart first List.mem_cons_self).bind fun head hhead => ?_
      refine (ih fun candidate hmem => hpart candidate (List.mem_cons_of_mem _ hmem)).bind
        fun tail htail => .pure ?_
      exact .cons hhead htail

end Compilation

/-- A schema that is nothing but a reference is the place that it leads to. -/
theorem Scope.placeSchema_eq (scope : Scope) (json : Json) :
    scope.placeSchema json =
      (Scope.bareReference? json).elim (scope.readComponent json >>= Compilation.push)
        fun reference => (scope.schemaOf reference : Compilation SchemaId) := by
  rw [Scope.placeSchema]
  split
  · next hbare =>
      rw [hbare]
      rfl
  · next hbare =>
      rw [hbare]
      rfl

end ApiContract
