import ApiContract.Proofs.Lockstep

/-!
# Descriptions that say the same

The same schema can be written in several ways: where a property, a parameter or a body names a
component by a reference, a description may stand beside the reference, or the reference may lead to
another component that is nothing but the reference.  `Respelled` is this relation, and schemas that
are written in different ways are read in lockstep.
-/

namespace ApiContract

/-- The ways around that a description may take. -/
structure Rerouting where
  /-- A way around may be taken in place of the reference.  The proposition says whether an absent
  value is filled in with the default of the component. -/
  admits : Prop → String → Prop
  /-- The second reference leads to a component that is nothing but the first one. -/
  forwards : String → String → Prop

/-- The items of the list under a keyword. -/
def Schema.itemsAt (members : Entries Json) (keyword : String) : List Json :=
  ((Entries.get? members keyword).bind Json.asArray?).getD []

/-- The members of the object under a keyword. -/
def Schema.entriesAt (members : Entries Json) (keyword : String) : Entries Json :=
  ((Entries.get? members keyword).bind Json.asObject?).getD []

namespace Json

/-- The object that is nothing but a reference. -/
def reference (target : String) : Json := .object [("$ref", .string target)]

/-- The keywords with schemas inside. -/
def listKeywords : List String := ["allOf", "oneOf", "anyOf"]

def partKeywords : List String := ["items", "additionalProperties"]

def IsPlain (keyword : String) : Prop :=
  keyword ≠ "properties" ∧ keyword ∉ partKeywords ∧ keyword ∉ listKeywords

instance (keyword : String) : Decidable (IsPlain keyword) :=
  inferInstanceAs (Decidable (_ ∧ _))

/-- The second schema says what the first one says.  `some filled` stands for a place where a way
around may be taken, and says whether an absent value is filled in there with a default. -/
inductive Respelled (ρ : Rerouting) : Option Prop → Json → Json → Prop
  | same (place : Option Prop) (json : Json) : Respelled ρ place json json
  | described {filled : Prop} (target : String) (description : Json)
      (hadmits : ρ.admits filled target) :
      Respelled ρ (some filled) (reference target)
        (.object [("$ref", .string target), ("description", description)])
  | forwarded {filled : Prop} {target other : String} (hforwards : ρ.forwards target other)
      (hadmits : ρ.admits filled target) :
      Respelled ρ (some filled) (reference target) (reference other)
  | object (place : Option Prop) {members others : Entries Json}
      (hkeys : Entries.keys others = Entries.keys members)
      (hplain : ∀ keyword, IsPlain keyword →
        Entries.get? others keyword = Entries.get? members keyword)
      (hnames : Entries.keys (Schema.entriesAt others "properties") =
        Entries.keys (Schema.entriesAt members "properties"))
      (hproperties : ∀ pair ∈ (Schema.entriesAt members "properties").zip
          (Schema.entriesAt others "properties"),
        Respelled ρ (some (pair.1.1 ∉ Schema.texts (Entries.get? members "required")))
          pair.1.2 pair.2.2)
      (hparts : ∀ keyword ∈ partKeywords, ∀ part other, Entries.get? members keyword = some part →
        Entries.get? others keyword = some other → Respelled ρ none part other)
      (hlengths : ∀ keyword ∈ listKeywords, (Schema.itemsAt others keyword).length =
        (Schema.itemsAt members keyword).length)
      (hlists : ∀ keyword ∈ listKeywords, ∀ pair ∈ (Schema.itemsAt members keyword).zip
          (Schema.itemsAt others keyword), Respelled ρ none pair.1 pair.2) :
      Respelled ρ place (.object members) (.object others)

/-- The members of a schema and those of another way to write it. -/
structure MembersRespelled (ρ : Rerouting) (members others : Entries Json) : Prop where
  keys : Entries.keys others = Entries.keys members
  plain : ∀ keyword, IsPlain keyword → Entries.get? others keyword = Entries.get? members keyword
  properties : Entries.Paired (fun name => Respelled ρ
      (some (name ∉ Schema.texts (Entries.get? members "required"))))
    (Schema.entriesAt members "properties") (Schema.entriesAt others "properties")
  parts : ∀ keyword ∈ partKeywords, Option.Rel (Respelled ρ none) (Entries.get? members keyword)
    (Entries.get? others keyword)
  lists : ∀ keyword ∈ listKeywords, List.Forall₂ (Respelled ρ none)
    (Schema.itemsAt members keyword) (Schema.itemsAt others keyword)

variable {ρ : Rerouting} {place : Option Prop} {json other : Json} {members others : Entries Json}

theorem membersRespelled_refl (ρ : Rerouting) (members : Entries Json) :
    MembersRespelled ρ members members where
  keys := rfl
  plain := fun _ _ => rfl
  properties := Entries.paired_self fun _ _ => .same _ _
  parts := fun keyword _ => by
    cases Entries.get? members keyword with
    | none => exact .none
    | some part => exact .some (.same _ part)
  lists := fun _ _ => List.forall₂_same.2 fun _ _ => .same _ _

theorem MembersRespelled.respelled (hmembers : MembersRespelled ρ members others)
    (place : Option Prop) : Respelled ρ place (.object members) (.object others) := by
  refine .object place hmembers.keys hmembers.plain hmembers.properties.keys_eq ?_ ?_ ?_ ?_
  · exact fun pair hpair => (hmembers.properties.of_mem_zip hpair).2
  · intro keyword hkeyword part other hpart hother
    have hrel := hmembers.parts keyword hkeyword
    rw [hpart, hother] at hrel
    exact Option.rel_some_some.1 hrel
  · exact fun keyword hkeyword => (hmembers.lists keyword hkeyword).length_eq.symm
  · exact fun keyword hkeyword pair hpair =>
      (List.forall₂_iff_zip.1 (hmembers.lists keyword hkeyword)).2 hpair

theorem rel_get?_of_keys_eq {related : Json → Json → Prop}
    (hkeys : Entries.keys others = Entries.keys members) {keyword : String}
    (hrelated : ∀ part other, Entries.get? members keyword = some part →
      Entries.get? others keyword = some other → related part other) :
    Option.Rel related (Entries.get? members keyword) (Entries.get? others keyword) := by
  cases hpart : Entries.get? members keyword with
  | none =>
      rw [Entries.get?_eq_none_iff, ← hkeys, ← Entries.get?_eq_none_iff] at hpart
      rw [hpart]
      exact .none
  | some part =>
      have hmem := Entries.mem_keys_iff.2 ⟨_, Entries.mem_of_get? hpart⟩
      rw [← hkeys] at hmem
      obtain ⟨other, hother⟩ := Entries.get?_of_mem_keys hmem
      rw [hother]
      exact .some (hrelated part other hpart hother)

/-- A schema with members is written in another way through a way around, or member by member. -/
theorem Respelled.cases_object (hrespelled : Respelled ρ place (.object members) other) :
    (∃ others, other = .object others ∧ MembersRespelled ρ members others) ∨
      ∃ filled target, place = some filled ∧ members = [("$ref", .string target)] ∧
        ρ.admits filled target ∧
        ((∃ description,
            other = .object [("$ref", .string target), ("description", description)]) ∨
          ∃ forward, other = reference forward ∧ ρ.forwards target forward) := by
  cases hrespelled with
  | same => exact .inl ⟨members, rfl, membersRespelled_refl ρ members⟩
  | described target description hadmits =>
      exact .inr ⟨_, target, rfl, rfl, hadmits, .inl ⟨description, rfl⟩⟩
  | forwarded hforwards hadmits => exact .inr ⟨_, _, rfl, rfl, hadmits, .inr ⟨_, rfl, hforwards⟩⟩
  | @object _ _ others hkeys hplain hnames hproperties hparts hlengths hlists =>
      refine .inl ⟨others, rfl, ⟨hkeys, hplain, ?_, ?_, ?_⟩⟩
      · exact Entries.paired_of_zip hnames hproperties
      · exact fun keyword hmem => rel_get?_of_keys_eq hkeys (hparts keyword hmem)
      · intro keyword hmem
        rw [List.forall₂_iff_zip]
        exact ⟨(hlengths keyword hmem).symm, fun {part other} hpair =>
          hlists keyword hmem (part, other) hpair⟩

theorem Respelled.of_inner (hrespelled : Respelled ρ none json other) :
    Reference.of? other = Reference.of? json := by
  cases json with
  | object members =>
      rcases hrespelled.cases_object with ⟨others, rfl, hmembers⟩ | ⟨_, _, hplace, -⟩
      · have hreference := hmembers.plain "$ref" (by decide)
        simp only [Reference.of?, Json.get?, hreference]
      · simp at hplace
  | _ =>
      cases hrespelled
      rfl

end Json

end ApiContract
