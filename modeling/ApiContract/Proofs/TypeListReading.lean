import ApiContract.Proofs.ClosedContracts

/-!
# Reading a list of types

A schema may list several types in the place of one.  Each of them becomes a schema of its own that
has nothing but this type, and these schemas are put in front of the members of `anyOf`.  In all
else, the schema is read as if the list were not there, from a table that holds the schemas of the
list already.  Reading only adds to the table, so they are still there in the end.
-/

namespace ApiContract

theorem Entries.get?_filter_of_ne {α : Type} (entries : Entries α) {key other : String}
    (hother : other ≠ key) :
    Entries.get? (entries.filter fun entry => entry.1 ≠ key) other =
      Entries.get? entries other := by
  induction entries with
  | nil => rfl
  | cons entry rest ih =>
      by_cases hkey : entry.1 = key
      · have hskipped : entry.1 ≠ other := hkey ▸ hother.symm
        rw [List.filter_cons_of_neg (by simpa using hkey), ih, Entries.get?, if_neg hskipped]
      · rw [List.filter_cons_of_pos (by simpa using hkey), Entries.get?, Entries.get?, ih]

/-! ## Reading only adds to the table -/

namespace Compilation

variable {α β : Type}

/-- What the table holds stays where it is. -/
def OnlyAdds (part : Compilation α) : Prop :=
  ∀ table result, StateT.run part table = .ok result → table.Extends result.2

theorem OnlyAdds.pure (value : α) : OnlyAdds (Pure.pure value : Compilation α) := by
  intro table result hrun
  obtain rfl := Except.ok.inj hrun
  exact .refl table

theorem OnlyAdds.bind {first : Compilation α} {next : α → Compilation β}
    (hfirst : OnlyAdds first) (hnext : ∀ value, OnlyAdds (next value)) :
    OnlyAdds (first >>= next) := by
  intro table result hrun
  rw [StateT.run_bind] at hrun
  obtain ⟨middle, hmiddle, hrun⟩ := ok_of_bind_eq_ok hrun
  exact (hfirst table middle hmiddle).trans (hnext middle.1 middle.2 result hrun)

theorem run_liftM_eq_ok_iff {value : Except ContractFault α} {found : α}
    {table after : SchemaTable} :
    StateT.run (liftM value : Compilation α) table = .ok (found, after) ↔
      value = .ok found ∧ after = table := by
  cases value with
  | error fault => exact iff_of_false (by rintro ⟨⟩) (by simp)
  | ok other =>
      constructor
      · intro hrun
        obtain ⟨rfl, rfl⟩ := Prod.mk.inj (Except.ok.inj hrun)
        exact ⟨rfl, rfl⟩
      · rintro ⟨hfound, rfl⟩
        obtain rfl := Except.ok.inj hfound
        rfl

theorem OnlyAdds.of_except (value : Except ContractFault α) :
    OnlyAdds (liftM value : Compilation α) := by
  intro table result hrun
  obtain ⟨-, hsame⟩ := run_liftM_eq_ok_iff.1 (show _ = Except.ok (result.1, result.2) from hrun)
  rw [hsame]
  exact .refl table

theorem OnlyAdds.fail (cause : DocumentFault) :
    OnlyAdds (Compilation.fail cause : Compilation α) := by
  intro table result hrun
  cases hrun

theorem OnlyAdds.push (schema : Schema) : OnlyAdds (Compilation.push schema) := by
  intro table result hrun
  obtain rfl := Except.ok.inj hrun
  exact SchemaTable.extends_push table schema

theorem OnlyAdds.mapM {part : β → Compilation α} (hpart : ∀ item, OnlyAdds (part item))
    (items : List β) : OnlyAdds (items.mapM part) := by
  induction items with
  | nil => exact .pure []
  | cons first rest ih =>
      rw [List.mapM_cons]
      exact (hpart first).bind fun head => ih.bind fun tail => .pure (head :: tail)

end Compilation

open Compilation

namespace Schema

/-- Adds the schemas inside a schema to what it says without them. -/
def readParts (scope : Scope) (members : Entries Json) (part : PartReader (.object members))
    (sibling : List SchemaId) (typed : Schema) : Compilation Schema := do
  let properties ← readProperties part (memberOf members "properties")
  let items? ← readItems part (memberOf members "items")
  let extras? ← readExtras part (memberOf members "additionalProperties")
  let allOf ← readList part (memberOf members "allOf")
  let oneOf ← readList part (memberOf members "oneOf")
  let anyOf ← readList part (memberOf members "anyOf")
  let discriminator? ← readDiscriminator scope members (Entries.get? members "discriminator")
  return { typed with
    properties, items?, extras?, oneOf, discriminator?
    allOf := sibling ++ allOf
    anyOf := typed.anyOf ++ anyOf }

theorem read_object (scope : Scope) (members : Entries Json) (part : PartReader (.object members)) :
    read scope (.object members) part = (do
      let own ← (readOwn members : Compilation Schema)
      let sibling ← (readSibling scope (.object members) : Compilation (List SchemaId))
      let typed ← own.withType (Entries.get? members "type")
      readParts scope members part sibling typed) :=
  rfl

theorem onlyAdds_withType (schema : Schema) (json? : Option Json) :
    OnlyAdds (schema.withType json?) := by
  unfold withType
  split
  · exact (OnlyAdds.of_except _).bind fun type => .pure _
  · refine (OnlyAdds.mapM (fun name => .of_except _) _).bind fun types => ?_
    dsimp only
    split
    · exact .pure _
    · exact .pure _
    · exact (OnlyAdds.mapM (fun type => .push _) _).bind fun ids => .pure _
  · exact .pure schema

section Parts

variable {json : Json} {part : PartReader json} (hpart : ∀ child hsize, OnlyAdds (part child hsize))

include hpart

theorem onlyAdds_readList (member? : PartOf json) : OnlyAdds (readList part member?) := by
  unfold readList
  split
  · apply OnlyAdds.mapM
    intro item
    exact hpart item.1 _
  · exact .pure []

theorem onlyAdds_readProperties (member? : PartOf json) :
    OnlyAdds (readProperties part member?) := by
  unfold readProperties
  split
  · apply OnlyAdds.mapM
    intro entry
    exact (hpart entry.1.2 _).bind fun id => .pure _
  · exact .pure []

theorem onlyAdds_readItems (member? : PartOf json) : OnlyAdds (readItems part member?) := by
  unfold readItems
  split
  · rw [map_eq_pure_bind]
    exact (hpart _ _).bind fun id => .pure _
  · exact .pure none

theorem onlyAdds_readExtras (member? : PartOf json) : OnlyAdds (readExtras part member?) := by
  obtain ⟨found, hsize⟩ := member?
  cases found with
  | none => exact .pure none
  | some extras =>
      have hconforming := (hpart extras (hsize extras rfl)).bind fun id =>
        OnlyAdds.pure (some (Extras.conforming id))
      cases extras with
      | bool isAllowed => exact .pure _
      | _ => exact hconforming

end Parts

theorem onlyAdds_readParts {scope : Scope} {members : Entries Json}
    {part : PartReader (.object members)} (hpart : ∀ child hsize, OnlyAdds (part child hsize))
    (sibling : List SchemaId) (typed : Schema) :
    OnlyAdds (readParts scope members part sibling typed) := by
  refine (onlyAdds_readProperties hpart _).bind fun properties => ?_
  refine (onlyAdds_readItems hpart _).bind fun items? => ?_
  refine (onlyAdds_readExtras hpart _).bind fun extras? => ?_
  refine (onlyAdds_readList hpart _).bind fun allOf => ?_
  refine (onlyAdds_readList hpart _).bind fun oneOf => ?_
  refine (onlyAdds_readList hpart _).bind fun anyOf => ?_
  exact (OnlyAdds.of_except _).bind fun discriminator? => .pure _

theorem onlyAdds_read (scope : Scope) {json : Json} {part : PartReader json}
    (hpart : ∀ child hsize, OnlyAdds (part child hsize)) : OnlyAdds (read scope json part) := by
  cases json with
  | object members =>
      rw [read_object]
      refine (OnlyAdds.of_except _).bind fun own => ?_
      refine (OnlyAdds.of_except _).bind fun sibling => ?_
      refine (onlyAdds_withType own _).bind fun typed => ?_
      exact onlyAdds_readParts hpart sibling typed
  | bool isAnything =>
      cases isAnything with
      | true => exact .pure ({} : Schema)
      | false => exact .fail _
  | _ => exact .fail _

end Schema

theorem Scope.onlyAdds_placeSchema (scope : Scope) (json : Json) :
    OnlyAdds (scope.placeSchema json) := by
  rw [Scope.placeSchema]
  split
  · exact .of_except _
  · exact (Schema.onlyAdds_read scope fun child _ => scope.onlyAdds_placeSchema child).bind
      fun schema => .push schema
termination_by sizeOf json

/-! ## The list -/

namespace Schema

/-- The types that a list names, null apart. -/
def listedTypes (names : List Json) : List SchemaType :=
  ((names.filterMap Json.asString?).filterMap SchemaType.ofName?).filter (· != .null)

/-- The members of a schema without its type. -/
def withoutType (members : Entries Json) : Entries Json :=
  members.filter fun member => member.1 ≠ "type"

/-- A schema with further members of `anyOf` in front of its own. -/
def withFront (schema : Schema) (nullable : Bool) (ids : List SchemaId) : Schema :=
  { schema with nullable, anyOf := ids ++ schema.anyOf }

/-- The positions hold schemas that have nothing but a type each. -/
def HoldsTypes (table : SchemaTable) (ids : List SchemaId) (types : List SchemaType) : Prop :=
  List.Forall₂ (fun id type => table.get? id = some (ofType type)) ids types

theorem HoldsTypes.mono {table other : SchemaTable} {ids : List SchemaId} {types : List SchemaType}
    (hholds : HoldsTypes table ids types) (hextends : table.Extends other) :
    HoldsTypes other ids types :=
  hholds.imp fun _ _ hget => hextends.get?_eq_some hget

theorem eq_of_run_readTypes {names : List String} {table : SchemaTable}
    {result : List SchemaType × SchemaTable}
    (hrun : StateT.run (names.mapM fun name => (readType name : Compilation SchemaType)) table =
      .ok result) : result = (names.filterMap SchemaType.ofName?, table) := by
  induction names generalizing result with
  | nil =>
      obtain rfl := Except.ok.inj hrun
      rfl
  | cons name rest ih =>
      rw [List.mapM_cons, StateT.run_bind] at hrun
      obtain ⟨⟨type, middle⟩, hfirst, hrun⟩ := ok_of_bind_eq_ok hrun
      rw [StateT.run_bind] at hrun
      obtain ⟨more, hmore, hrun⟩ := ok_of_bind_eq_ok hrun
      have hname : SchemaType.ofName? name = some type ∧ middle = table := by
        unfold readType at hfirst
        cases hfound : SchemaType.ofName? name with
        | none =>
            rw [hfound] at hfirst
            cases hfirst
        | some found =>
            rw [hfound] at hfirst
            obtain ⟨rfl, rfl⟩ := Prod.mk.inj (Except.ok.inj hfirst)
            exact ⟨rfl, rfl⟩
      obtain ⟨hname, rfl⟩ := hname
      obtain rfl := ih hmore
      obtain rfl := Except.ok.inj hrun
      rw [List.filterMap_cons_some hname]

theorem exists_run_pushTypes (types : List SchemaType) (table : SchemaTable) : ∃ ids after,
    StateT.run (types.mapM fun type => Compilation.push (.ofType type)) table =
        .ok (ids, after) ∧
      table.Extends after ∧ (∀ id ∈ ids, table.size ≤ id) ∧ HoldsTypes after ids types := by
  induction types generalizing table with
  | nil => exact ⟨[], table, rfl, .refl table, by simp, .nil⟩
  | cons type rest ih =>
      have hpush := SchemaTable.extends_push table (ofType type)
      obtain ⟨ids, after, hrun, hextends, hbehind, hholds⟩ := ih (table.push (ofType type)).2
      have hfirst := hextends.get?_eq_some (SchemaTable.get?_push_self table (ofType type))
      refine ⟨table.size :: ids, after, ?_, hpush.trans hextends, ?_, .cons hfirst hholds⟩
      · rw [List.mapM_cons, StateT.run_bind]
        refine (bind_of_eq_ok rfl).trans ?_
        rw [StateT.run_bind]
        exact (bind_of_eq_ok hrun).trans rfl
      · rw [List.forall_mem_cons]
        exact ⟨Nat.le_refl _, fun id hmem => Nat.le_trans hpush.size (hbehind id hmem)⟩

/-- A list of several types makes them the first members of `anyOf`. -/
theorem exists_of_run_withType {own typed : Schema} {names : List Json} {table after : SchemaTable}
    (hseveral : 2 ≤ (listedTypes names).length)
    (hrun : StateT.run (own.withType (some (.array names))) table = .ok (typed, after)) :
    ∃ ids, typed = { own with nullable := typed.nullable, anyOf := own.anyOf ++ ids } ∧
      (∀ id ∈ ids, table.size ≤ id) ∧ HoldsTypes after ids (listedTypes names) := by
  unfold withType at hrun
  rw [StateT.run_bind] at hrun
  obtain ⟨result, htypes, hrun⟩ := ok_of_bind_eq_ok hrun
  obtain rfl := eq_of_run_readTypes htypes
  dsimp only at hrun
  split at hrun
  · next hnone =>
      rw [listedTypes, hnone] at hseveral
      simp at hseveral
  · next only hone =>
      rw [listedTypes, hone] at hseveral
      simp at hseveral
  · obtain ⟨ids, behind, hpush, -, hbehind, hholds⟩ :=
      exists_run_pushTypes (listedTypes names) table
    rw [StateT.run_bind, ← listedTypes, hpush] at hrun
    obtain ⟨rfl, rfl⟩ := Prod.mk.inj (Except.ok.inj hrun)
    exact ⟨ids, rfl, hbehind, hholds⟩

/-! ## The rest of the schema -/

theorem get?_withoutType (members : Entries Json) {keyword : String} (hother : keyword ≠ "type") :
    Entries.get? (withoutType members) keyword = Entries.get? members keyword :=
  Entries.get?_filter_of_ne members hother

theorem get?_withoutType_self (members : Entries Json) :
    Entries.get? (withoutType members) "type" = none := by
  rw [Entries.get?_eq_none_iff, withoutType, Entries.keys, List.mem_map]
  rintro ⟨member, hmem, hname⟩
  exact of_decide_eq_true (List.mem_filter.1 hmem).2 hname

theorem type?_of_readOwn {members : Entries Json} {own : Schema}
    (hread : readOwn members = .ok own) : own.type? = none := by
  obtain ⟨constraints, -, hread⟩ := ok_of_bind_eq_ok hread
  obtain rfl := Except.ok.inj hread
  rfl

theorem readOwn_withoutType (members : Entries Json) :
    readOwn (withoutType members) = readOwn members := by
  unfold readOwn readConstraints readPattern readLiterals isSet bound
  simp (disch := decide) only [get?_withoutType]

theorem readSibling_withoutType (scope : Scope) (members : Entries Json) :
    readSibling scope (.object (withoutType members)) = readSibling scope (.object members) := by
  unfold readSibling Reference.of? Json.get?
  simp (disch := decide) only [get?_withoutType]

theorem readDiscriminator_withoutType (scope : Scope) (members : Entries Json)
    (json? : Option Json) :
    readDiscriminator scope (withoutType members) json? =
      readDiscriminator scope members json? := by
  unfold readDiscriminator implicitMapping
  simp (disch := decide) only [List.flatMap_cons, List.flatMap_nil, get?_withoutType]

theorem readParts_withoutType (scope : Scope) (members : Entries Json)
    (part : Json → Compilation SchemaId) (sibling : List SchemaId) (typed : Schema) :
    readParts scope (withoutType members) (fun child _ => part child) sibling typed =
      readParts scope members (fun child _ => part child) sibling typed := by
  unfold readParts memberOf
  simp (disch := decide) only [readProperties_eq, readItems_eq, readExtras_eq, readList_eq,
    readDiscriminator_withoutType, get?_withoutType]

/-- What is in `anyOf` before the parts are read stays in front of what is read. -/
theorem exists_of_run_readParts {scope : Scope} {members : Entries Json}
    {part : PartReader (.object members)} {sibling ids : List SchemaId} {own schema : Schema}
    {nullable : Bool} {table after : SchemaTable} (hown : own.anyOf = [])
    (hrun : StateT.run (readParts scope members part sibling { own with nullable, anyOf := ids })
      table = .ok (schema, after)) :
    ∃ beside, StateT.run (readParts scope members part sibling own) table = .ok (beside, after) ∧
      schema = beside.withFront nullable ids ∧ beside.type? = own.type? := by
  obtain ⟨⟨properties, table₁⟩, hproperties, hrun⟩ := ok_of_bind_eq_ok hrun
  obtain ⟨⟨items?, table₂⟩, hitems, hrun⟩ := ok_of_bind_eq_ok hrun
  obtain ⟨⟨extras?, table₃⟩, hextras, hrun⟩ := ok_of_bind_eq_ok hrun
  obtain ⟨⟨allOf, table₄⟩, hallOf, hrun⟩ := ok_of_bind_eq_ok hrun
  obtain ⟨⟨oneOf, table₅⟩, honeOf, hrun⟩ := ok_of_bind_eq_ok hrun
  obtain ⟨⟨anyOf, table₆⟩, hanyOf, hrun⟩ := ok_of_bind_eq_ok hrun
  obtain ⟨⟨discriminator?, table₇⟩, hdiscriminator, hrun⟩ := ok_of_bind_eq_ok hrun
  obtain ⟨rfl, rfl⟩ := Prod.mk.inj (Except.ok.inj hrun)
  refine ⟨{ own with
    properties, items?, extras?, oneOf, discriminator?
    allOf := sibling ++ allOf
    anyOf }, ?_, rfl, rfl⟩
  refine (bind_of_eq_ok hproperties).trans ?_
  refine (bind_of_eq_ok hitems).trans ?_
  refine (bind_of_eq_ok hextras).trans ?_
  refine (bind_of_eq_ok hallOf).trans ?_
  refine (bind_of_eq_ok honeOf).trans ?_
  refine (bind_of_eq_ok hanyOf).trans ?_
  refine (bind_of_eq_ok hdiscriminator).trans ?_
  rw [hown]
  rfl

end Schema

namespace Scope

/-- A schema with a list of several types is read like the schema without the list, from a table
that holds the listed types behind what was there; their positions come first in `anyOf`. -/
theorem exists_of_run_readComponent {scope : Scope} {members : Entries Json} {names : List Json}
    {schema : Schema} {before after : SchemaTable}
    (htype : Entries.get? members "type" = some (.array names))
    (hseveral : 2 ≤ (Schema.listedTypes names).length)
    (hrun : StateT.run (scope.readComponent (.object members)) before = .ok (schema, after)) :
    ∃ middle beside ids, before.Extends middle ∧
      StateT.run (scope.readComponent (.object (Schema.withoutType members))) middle =
        .ok (beside, after) ∧
      schema = beside.withFront schema.nullable ids ∧
      beside.type? = none ∧ (∀ id ∈ ids, before.size ≤ id) ∧
      Schema.HoldsTypes after ids (Schema.listedTypes names) := by
  rw [readComponent, Schema.read_object, htype] at hrun
  obtain ⟨⟨own, table⟩, hrunOwn, hafterOwn⟩ := ok_of_bind_eq_ok hrun
  obtain ⟨hown, rfl⟩ := run_liftM_eq_ok_iff.1 hrunOwn
  obtain ⟨⟨sibling, table⟩, hrunSibling, hafterSibling⟩ := ok_of_bind_eq_ok hafterOwn
  obtain ⟨hsibling, rfl⟩ := run_liftM_eq_ok_iff.1 hrunSibling
  obtain ⟨⟨typed, middle⟩, htyped, hparts⟩ := ok_of_bind_eq_ok hafterSibling
  have hadds := Schema.onlyAdds_withType own _ _ _ htyped
  have hplain : own.anyOf = [] := (Schema.isOwn_of_readOwn hown).anyOf
  obtain ⟨ids, hlist, hbehind, hholds⟩ := Schema.exists_of_run_withType hseveral htyped
  rw [hplain, List.nil_append] at hlist
  rw [hlist] at hparts
  obtain ⟨beside, hbeside, hschema, hbesideType⟩ := Schema.exists_of_run_readParts hplain hparts
  refine ⟨middle, beside, ids, hadds, ?_, ?_, ?_, hbehind, ?_⟩
  · rw [readComponent, Schema.read_object, Schema.readOwn_withoutType,
      Schema.readSibling_withoutType, Schema.get?_withoutType_self, hown, hsibling]
    simp only [Schema.readParts_withoutType scope members scope.placeSchema]
    exact hbeside
  · obtain rfl := hschema
    rfl
  · rw [hbesideType, Schema.type?_of_readOwn hown]
  · exact hholds.mono (Schema.onlyAdds_readParts (fun child _ => scope.onlyAdds_placeSchema child)
      sibling _ _ _ hparts)

/-- At some stage of the table, a body is read as a schema, and what the body adds behind the table
of that stage is held as well. -/
def IsReadAs (scope : Scope) (final : SchemaTable) (body : Json) (schema : Schema) : Prop :=
  ∃ before after, scope.components.schemas.length ≤ before.size ∧
    StateT.run (scope.readComponent body) before = .ok (schema, after) ∧
    ∀ id, before.size ≤ id → id < after.size → final.get? id = after.get? id

/-- A schema with a list of several types is filled in as the schema without the list is read, but
for the listed types in front of its members of `anyOf`. -/
theorem IsFilledIn.exists_beside {scope : Scope} {final : SchemaTable} {index : SchemaId}
    {members : Entries Json} {names : List Json}
    (hfilled : scope.IsFilledIn final index (.object members))
    (htype : Entries.get? members "type" = some (.array names))
    (hseveral : 2 ≤ (Schema.listedTypes names).length) :
    ∃ beside nullable ids,
      scope.IsReadAs final (.object (Schema.withoutType members)) beside ∧
      final.get? index = some (beside.withFront nullable ids) ∧ beside.type? = none ∧
      Schema.HoldsTypes final ids (Schema.listedTypes names) := by
  obtain ⟨before, after, schema, hcount, hrun, hget, hbehind⟩ := hfilled
  obtain ⟨middle, beside, ids, hextends, hread, hschema, huntyped, hnew, hholds⟩ :=
    exists_of_run_readComponent htype hseveral hrun
  refine ⟨beside, schema.nullable, ids, ?_, hschema ▸ hget, huntyped, ?_⟩
  · exact ⟨middle, after, Nat.le_trans hcount hextends.size, hread,
      fun id hle hlt => hbehind id (Nat.le_trans hextends.size hle) hlt⟩
  · have hboth : List.Forall₂ (fun id type => id ∈ ids ∧ after.get? id = some (.ofType type)) ids
        (Schema.listedTypes names) :=
      (List.forall₂_and_left _ _).2 ⟨fun _ hmem => hmem, hholds⟩
    refine hboth.imp fun id type ⟨hmem, hbare⟩ => ?_
    rw [hbehind id (hnew id hmem) (SchemaTable.lt_size_of_get? hbare), hbare]

end Scope

end ApiContract
