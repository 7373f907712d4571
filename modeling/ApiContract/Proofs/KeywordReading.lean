import ApiContract.Proofs.Multiples
import ApiContract.Proofs.TypeListReading

/-!
# Reading the keywords of a schema

A schema with a single type and no other schemas inside is held as its own keywords say.  Numbers
among the keywords become binary64 numbers, so an integer is rounded where it is read.
-/

namespace ApiContract

open Binary64

theorem Entries.forall_get?_iff {α : Type} {entries : Entries α} {key : String} {value : α}
    {P : α → Prop} (hget : Entries.get? entries key = some value) :
    (∀ found, Entries.get? entries key = some found → P found) ↔ P value := by
  simp [hget]

/-! ## Numbers of a document -/

/-- A number of a document that is an integer. -/
inductive Json.Denotes : Json → ℤ → Prop
  | integer (i : ℤ) : Denotes (.integer i) i
  | decimal {x : Binary64} {i : ℤ} (hvalue : x.value? = some (i : ℚ)) : Denotes (.decimal x) i

/-- A number of a document that is an integer with a magnitude below a limit. -/
def Json.IsWithin (limit : ℕ) (json : Json) : Prop := ∃ i : ℤ, json.Denotes i ∧ i.natAbs < limit

namespace Json

variable {json : Json} {i j : ℤ}

theorem Denotes.unique (hi : json.Denotes i) (hj : json.Denotes j) : i = j := by
  cases hi with
  | integer => cases hj; rfl
  | decimal hi =>
      cases hj with
      | decimal hj => exact Int.cast_inj.1 (Option.some.inj (hi.symm.trans hj))

/-- An integer of a document is read as the number that is nearest to it. -/
theorem Denotes.exists_asBinary64? (hdenotes : json.Denotes i) (hlt : i.natAbs < 2 ^ 64) :
    ∃ x, json.asBinary64? = some x ∧ x.value? = some (nearest i : ℚ) := by
  cases hdenotes with
  | integer => exact ⟨ofInt i, rfl, value?_ofInt hlt⟩
  | @decimal x _ hvalue => exact ⟨x, rfl, by rw [nearest_eq_of_value? hvalue, hvalue]⟩

theorem Denotes.asBinary64?_of_ne_zero (hdenotes : json.Denotes i) (hlt : i.natAbs < 2 ^ 64)
    (hne : i ≠ 0) : json.asBinary64? = some (ofInt i) := by
  cases hdenotes with
  | integer => rfl
  | decimal hvalue => rw [asBinary64?, eq_ofInt_of_value? hvalue hne hlt]

theorem isWithin_integer {limit : ℕ} (hlt : i.natAbs < limit) : (Json.integer i).IsWithin limit :=
  ⟨i, .integer i, hlt⟩

theorem Denotes.ne_bool (hdenotes : json.Denotes i) (flag : Bool) : json ≠ .bool flag := by
  rintro rfl
  cases hdenotes

end Json

namespace Schema

variable {members : Entries Json} {keyword : String} {keywords : List String} {i j : ℤ}

/-- The keyword has an integer for its value. -/
def Declares (members : Entries Json) (keyword : String) (i : ℤ) : Prop :=
  ∃ json, Entries.get? members keyword = some json ∧ json.Denotes i

/-- The keyword is set to true. -/
def Flags (members : Entries Json) (keyword : String) : Prop :=
  Entries.get? members keyword = some (.bool true)

theorem Declares.unique (hi : Declares members keyword i) (hj : Declares members keyword j) :
    i = j := by
  obtain ⟨json, hget, hdenotes⟩ := hi
  obtain ⟨other, hother, hdenotes'⟩ := hj
  obtain rfl := Option.some.inj (hget.symm.trans hother)
  exact hdenotes.unique hdenotes'

theorem Declares.not_flags (hdeclares : Declares members keyword i) : ¬ Flags members keyword := by
  intro hflags
  obtain ⟨json, hget, hdenotes⟩ := hdeclares
  exact hdenotes.ne_bool true (Option.some.inj (hget.symm.trans hflags))

theorem Declares.natAbs_lt {limit : ℕ} (hdeclares : Declares members keyword i)
    (hwithin : ∀ json, Entries.get? members keyword = some json →
      (∃ flag, json = .bool flag) ∨ json.IsWithin limit) : i.natAbs < limit := by
  obtain ⟨json, hget, hdenotes⟩ := hdeclares
  rcases hwithin json hget with ⟨flag, hflag⟩ | ⟨j, hj, hlt⟩
  · exact absurd hflag (hdenotes.ne_bool flag)
  · rwa [hdenotes.unique hj]

/-- What holds of the number that a keyword is read as, in terms of the integer that it declares. -/
theorem forall_number_iff {limit : ℕ} {P : Binary64 → Prop} {Q : ℤ → Prop}
    (hlimit : limit ≤ 2 ^ 64)
    (hwithin : ∀ json, Entries.get? members keyword = some json → json.IsWithin limit)
    (hiff : ∀ x (k : ℤ), Declares members keyword k → k.natAbs < limit →
      x.value? = some (nearest k : ℚ) → (k ≠ 0 → x = ofInt k) → (P x ↔ Q k)) :
    (∀ x, (Entries.get? members keyword).bind Json.asBinary64? = some x → P x) ↔
      ∀ k, Declares members keyword k → Q k := by
  -- A keyword that is there declares exactly one integer; one that is not there declares nothing.
  by_cases hthere : ∃ json, Entries.get? members keyword = some json
  · obtain ⟨json, hget⟩ := hthere
    obtain ⟨k, hdenotes, hlt⟩ := hwithin json hget
    have hdeclares : Declares members keyword k := ⟨json, hget, hdenotes⟩
    obtain ⟨x, hx, hvalue⟩ := hdenotes.exists_asBinary64? (hlt.trans_le hlimit)
    have hparts := hiff x k hdeclares hlt hvalue fun hne => Option.some.inj
      (hx.symm.trans (hdenotes.asBinary64?_of_ne_zero (hlt.trans_le hlimit) hne))
    rw [hget]
    constructor
    · intro hnumber other hother
      rw [hother.unique hdeclares]
      exact hparts.1 (hnumber x hx)
    · intro hdeclared y hy
      obtain rfl := Option.some.inj (hx.symm.trans hy)
      exact hparts.2 (hdeclared k hdeclares)
  · rw [not_exists] at hthere
    rw [Option.eq_none_iff_forall_ne_some.2 hthere]
    refine iff_of_true (by simp) fun k ⟨json, hget, _⟩ => ?_
    exact absurd hget (hthere json)

/-- No other keywords are there. -/
def UsesOnly (members : Entries Json) (keywords : List String) : Prop :=
  ∀ keyword ∈ Entries.keys members, keyword ∈ keywords

instance (members : Entries Json) (keywords : List String) :
    Decidable (UsesOnly members keywords) :=
  inferInstanceAs (Decidable (∀ keyword ∈ Entries.keys members, keyword ∈ keywords))

theorem UsesOnly.get?_eq_none (honly : UsesOnly members keywords)
    (hother : keyword ∉ keywords) : Entries.get? members keyword = none :=
  Entries.get?_eq_none_iff.2 fun hmem => hother (honly keyword hmem)

theorem UsesOnly.mono {others : List String} (honly : UsesOnly members keywords)
    (hsubset : keywords ⊆ others) : UsesOnly members others :=
  fun keyword hmem => hsubset (honly keyword hmem)

/-! ## Schemas of a single type -/

/-- The keywords whose values hold other schemas, items apart, and the reference to another. -/
def partKeywords : List String :=
  ["$ref", "properties", "additionalProperties", "allOf", "oneOf", "anyOf", "discriminator"]

theorem UsesOnly.forall_partKeywords (honly : UsesOnly members keywords)
    (hdisjoint : ∀ keyword ∈ partKeywords, keyword ∉ keywords) :
    ∀ keyword ∈ partKeywords, Entries.get? members keyword = none :=
  fun keyword hmem => honly.get?_eq_none (hdisjoint keyword hmem)

theorem IsOwn.setType {own : Schema} (hown : own.IsOwn) (type : SchemaType) :
    IsOwn { own with type? := some type } :=
  ⟨hown.properties, hown.items, hown.extras, hown.allOf, hown.oneOf, hown.anyOf,
    hown.discriminator⟩

theorem run_withType_name {own typed : Schema} {type : SchemaType} {table after : SchemaTable}
    (hrun : StateT.run (own.withType (some (.string type.name))) table = .ok (typed, after)) :
    typed = { own with type? := some type } ∧ after = table := by
  have hname : readType type.name = .ok type := by
    unfold readType
    rw [SchemaType.ofName?_name]
  unfold withType at hrun
  dsimp only at hrun
  rw [hname] at hrun
  obtain ⟨rfl, rfl⟩ := Prod.mk.inj (Except.ok.inj hrun)
  exact ⟨rfl, rfl⟩

theorem exists_of_run_readParts_of_plain {scope : Scope} {typed schema : Schema}
    {part : Json → Compilation SchemaId} {table after : SchemaTable}
    (hplain : ∀ keyword ∈ partKeywords, Entries.get? members keyword = none)
    (hown : typed.IsOwn)
    (hrun : StateT.run (readParts scope members (fun child _ => part child) [] typed) table =
      .ok (schema, after)) :
    ∃ items?, schema = { typed with items? } ∧
      (Entries.get? members "items" = none → items? = none) := by
  unfold partKeywords at hplain
  simp only [List.forall_mem_cons, List.not_mem_nil, false_imp_iff, implies_true, and_true]
    at hplain
  obtain ⟨-, hproperties, hextras, hallOf, honeOf, hanyOf, hdiscriminator⟩ := hplain
  unfold readParts memberOf at hrun
  simp only [readProperties_eq, readItems_eq, readExtras_eq, readList_eq, hproperties, hextras,
    hallOf, honeOf, hanyOf, hdiscriminator] at hrun
  obtain ⟨⟨items?, behind⟩, hitems, hrun⟩ := ok_of_bind_eq_ok hrun
  obtain ⟨rfl, -⟩ := Prod.mk.inj (Except.ok.inj hrun)
  refine ⟨items?, ?_, fun hnone => ?_⟩
  · simp [hown.properties, hown.extras, hown.allOf, hown.oneOf, hown.anyOf, hown.discriminator]
  · rw [hnone] at hitems
    exact (Prod.mk.inj (Except.ok.inj hitems)).1.symm

theorem readSibling_of_none {scope : Scope} (hplain : Entries.get? members "$ref" = none) :
    readSibling scope (.object members) = .ok [] := by
  unfold readSibling Reference.of? Json.get?
  dsimp only
  rw [hplain]
  rfl

end Schema

/-- A schema of a single type, without other schemas inside, is held as what its own keywords say
together with its type. -/
theorem Scope.IsFilledIn.exists_own {scope : Scope} {final : SchemaTable} {index : SchemaId}
    {members : Entries Json} (hfilled : scope.IsFilledIn final index (.object members))
    (type : SchemaType)
    (htype : Entries.get? members "type" = some (.string type.name))
    (hplain : ∀ keyword ∈ Schema.partKeywords, Entries.get? members keyword = none) :
    ∃ own items?, Schema.readOwn members = .ok own ∧
      final.get? index = some { own with type? := some type, items? } ∧
      (Entries.get? members "items" = none → items? = none) := by
  obtain ⟨before, after, schema, -, hrun, hget, -⟩ := hfilled
  rw [readComponent, Schema.read_object, htype] at hrun
  obtain ⟨⟨own, table⟩, hrunOwn, hafterOwn⟩ := ok_of_bind_eq_ok hrun
  obtain ⟨hown, rfl⟩ := Compilation.run_liftM_eq_ok_iff.1 hrunOwn
  obtain ⟨⟨sibling, table⟩, hrunSibling, hafterSibling⟩ := ok_of_bind_eq_ok hafterOwn
  obtain ⟨hsibling, rfl⟩ := Compilation.run_liftM_eq_ok_iff.1 hrunSibling
  obtain ⟨⟨typed, middle⟩, htyped, hparts⟩ := ok_of_bind_eq_ok hafterSibling
  obtain ⟨rfl, rfl⟩ := Schema.run_withType_name htyped
  rw [Schema.readSibling_of_none (hplain "$ref" (by decide))] at hsibling
  obtain rfl := Except.ok.inj hsibling
  obtain ⟨items?, hschema, hnone⟩ := Schema.exists_of_run_readParts_of_plain hplain
    ((Schema.isOwn_of_readOwn hown).setType type) hparts
  refine ⟨own, items?, hown, ?_, hnone⟩
  rw [hget, hschema]

/-! ## Keywords for numbers and for items -/

namespace Schema

variable {members : Entries Json}

/-- The keywords that a number has to respect, with the type. -/
def numericKeywords : List String :=
  ["type", "enum", "minimum", "maximum", "exclusiveMinimum", "exclusiveMaximum", "multipleOf"]

/-- What the keywords for numbers say. -/
def numericConstraints (members : Entries Json) : Constraints where
  minimum? := (bound members "minimum" "exclusiveMinimum").1
  maximum? := (bound members "maximum" "exclusiveMaximum").1
  exclusiveMinimum := (bound members "minimum" "exclusiveMinimum").2
  exclusiveMaximum := (bound members "maximum" "exclusiveMaximum").2
  multipleOf? := (Entries.get? members "multipleOf").bind Json.asBinary64?

theorem readOwn_of_numeric (honly : UsesOnly members numericKeywords) :
    readOwn members =
      .ok { literals? := readLiterals members, constraints := numericConstraints members } := by
  have hnone := @honly.get?_eq_none
  unfold readOwn readConstraints readPattern isSet numericConstraints
  simp (disch := decide) only [hnone]
  rfl

theorem readOwn_of_unique (honly : UsesOnly members ["type", "items", "uniqueItems"]) :
    readOwn members =
      .ok { constraints := { uniqueItems := isSet members "uniqueItems" } } := by
  have hnone := @honly.get?_eq_none
  unfold readOwn readConstraints readPattern readLiterals bound isSet
  simp (disch := decide) only [hnone]
  rfl

end Schema

namespace Scope.IsFilledIn

variable {scope : Scope} {final : SchemaTable} {index : SchemaId} {members : Entries Json}

theorem get?_of_numeric (hfilled : scope.IsFilledIn final index (.object members))
    (hinteger : Entries.get? members "type" = some (.string "integer"))
    (honly : Schema.UsesOnly members Schema.numericKeywords) :
    final.get? index = some {
      type? := some .integer
      literals? := Schema.readLiterals members
      constraints := Schema.numericConstraints members } := by
  obtain ⟨own, items?, hown, hget, hitems⟩ :=
    hfilled.exists_own .integer hinteger (honly.forall_partKeywords (by decide))
  obtain rfl := hitems (honly.get?_eq_none (by decide))
  rw [Schema.readOwn_of_numeric honly] at hown
  obtain rfl := Except.ok.inj hown
  exact hget

theorem exists_get?_of_unique (hfilled : scope.IsFilledIn final index (.object members))
    (harray : Entries.get? members "type" = some (.string "array"))
    (honly : Schema.UsesOnly members ["type", "items", "uniqueItems"]) :
    ∃ items?, (Entries.get? members "items" = none → items? = none) ∧
      final.get? index = some {
        type? := some .array
        items?
        constraints := { uniqueItems := Schema.isSet members "uniqueItems" } } := by
  obtain ⟨own, items?, hown, hget, hitems⟩ :=
    hfilled.exists_own .array harray (honly.forall_partKeywords (by decide))
  rw [Schema.readOwn_of_unique honly] at hown
  obtain rfl := Except.ok.inj hown
  exact ⟨items?, hitems, hget⟩

end Scope.IsFilledIn

end ApiContract
