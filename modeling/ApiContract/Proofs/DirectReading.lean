import ApiContract.Proofs.Agreement
import ApiContract.Proofs.MemberSearch

/-!
# Reading without alternatives

Coercion reads a text as what a schema asks for at its place, and the schema judges the result.  As
long as `oneOf` and `anyOf` are left out of the reading, it makes no difference to a value that is
accepted as it is: whatever is found through `allOf`, below items and properties has to accept the
texts themselves, so none of it asks for anything but texts.
-/

namespace ApiContract

def Schema.withoutAlternatives (schema : Schema) : Schema := { schema with oneOf := [], anyOf := [] }

@[simp] theorem Schema.effectiveType?_withoutAlternatives (schema : Schema) :
    schema.withoutAlternatives.effectiveType? = schema.effectiveType? := rfl

@[simp] theorem Schema.members_withoutAlternatives (schema : Schema) :
    schema.withoutAlternatives.members = schema.allOf := by
  simp [members, withoutAlternatives]

namespace SchemaTable

/-- The schemas of a table with nothing left of their `oneOf` and `anyOf`. -/
def withoutAlternatives (table : SchemaTable) : SchemaTable :=
  ⟨table.schemas.map Schema.withoutAlternatives⟩

variable {table : SchemaTable} {id part : SchemaId} {schema : Schema} {steps : Nat}

theorem get?_withoutAlternatives (table : SchemaTable) (id : SchemaId) :
    table.withoutAlternatives.get? id = (table.get? id).map Schema.withoutAlternatives :=
  Array.getElem?_map

theorem exists_get?_of_withoutAlternatives {direct : Schema}
    (hget : table.withoutAlternatives.get? id = some direct) :
    ∃ schema, table.get? id = some schema ∧ schema.withoutAlternatives = direct := by
  rw [get?_withoutAlternatives] at hget
  exact Option.map_eq_some_iff.1 hget

theorem conjunct_self (hget : table.get? id = some schema) : table.Conjunct id schema :=
  ⟨id, .refl, hget⟩

theorem Conjunct.reaches {declaring : Schema} (hconjunct : table.Conjunct id declaring) :
    ∃ last, table.Reaches [] id last ∧ table.get? last = some declaring := by
  obtain ⟨last, hpath, hlast⟩ := hconjunct
  exact ⟨last, reaches_nil_iff.2 hpath, hlast⟩

/-! ## What is found without alternatives -/

/-- Without alternatives only the conjuncts of a schema take part. -/
theorem exists_conjunct_of_takesPart {direct : Schema}
    (htakes : table.withoutAlternatives.TakesPart id direct) :
    ∃ schema, table.Conjunct id schema ∧ schema.withoutAlternatives = direct := by
  obtain ⟨last, hpath, hlast⟩ := htakes
  obtain ⟨schema, hschema, rfl⟩ := exists_get?_of_withoutAlternatives hlast
  have hincludes : ∀ whole part, table.withoutAlternatives.ListsMember whole part →
      table.Includes whole part := by
    rintro whole part ⟨direct, hdirect, hmem⟩
    obtain ⟨schema, hget, rfl⟩ := exists_get?_of_withoutAlternatives hdirect
    rw [Schema.members_withoutAlternatives] at hmem
    exact ⟨schema, hget, hmem⟩
  exact ⟨schema, ⟨last, Relation.ReflTransGen.mono hincludes _ _ hpath, hschema⟩, rfl⟩

/-- Among schemas that leave texts as they are, a text stays a text. -/
theorem coerceText_withoutAlternatives {text : String} (hget : table.get? id = some schema)
    (htexts : ∀ declaring, table.Conjunct id declaring →
      declaring.effectiveType? = none ∨ declaring.effectiveType? = some .string) :
    table.withoutAlternatives.coerceText steps schema.withoutAlternatives text = .string text := by
  have hdirect : table.withoutAlternatives.get? id = some schema.withoutAlternatives := by
    rw [get?_withoutAlternatives, hget, Option.map_some]
  have hunread : firstReading?
      (table.withoutAlternatives.typesTried steps schema.withoutAlternatives) text = none := by
    unfold firstReading?
    rw [List.findSome?_eq_none_iff]
    intro type hmem
    obtain ⟨direct, htakes, htype⟩ := exists_declaring_of_mem_typesTried hdirect hmem
    obtain ⟨declaring, hconjunct, rfl⟩ := exists_conjunct_of_takesPart htakes
    rw [Schema.effectiveType?_withoutAlternatives] at htype
    rcases htexts declaring hconjunct with hnone | hstring
    · simp [hnone] at htype
    · obtain rfl := Option.some.inj (hstring.symm.trans htype)
      rfl
  rw [coerceText_eq_firstReading?, hunread, Option.getD_none]

end SchemaTable

/-! ## What acceptance says about each conjunct -/

namespace SchemaRules

variable {rules : SchemaRules} {fills trail trail' : List SchemaId} {id part : SchemaId}
  {value : Value} {schema : Schema} {steps : Nat}

theorem isAccepted_parts_of_judgeParts {near : Neighbours value}
    (hhere : ∀ id, (near.here id).IsExplained)
    (haccepted : (rules.judgeParts schema value near).isAccepted) :
    (rules.judgeOwn schema value near).isAccepted ∧
      ∀ part ∈ schema.allOf, (near.here part).isAccepted := by
  obtain ⟨typed, htyped⟩ := Judgement.isAccepted_iff.1 haccepted
  obtain ⟨own, alternatives, included, hown, -, hincluded, -⟩ :=
    (judgeParts_eq_accepted_iff hhere).1 htyped
  refine ⟨Judgement.isAccepted_iff.2 ⟨own, hown⟩, ?_⟩
  have hall := Judgement.exists_forall₂_iff.1 ⟨included, hincluded⟩
  intro part hpart
  exact Judgement.isAccepted_iff.2 (hall part hpart)

/-- A value that is accepted is accepted by every schema that is included off the trail. -/
theorem isAccepted_judgeOwn_of_reaches : ∀ fills trail id value, value ≠ .null →
    (rules.applyAt fills trail id value).isAccepted →
    ∀ part schema, rules.schemas.Reaches trail id part → rules.schemas.get? part = some schema →
      (rules.judgeOwn schema value (rules.neighbours fills [] value)).isAccepted := by
  refine applyAt.induct rules _ ?_ ?_ ?_
  · intro fills trail id value hget _ _ part schema hreaches hpart
    rcases SchemaTable.reaches_iff.1 hreaches with ⟨-, rfl | ⟨next, ⟨whole, hwhole, -⟩, -⟩⟩
    · simp [hget] at hpart
    · simp [hget] at hwhole
  · intro fills trail id value _ _ hmem _ _ part schema hreaches _
    exact absurd hmem hreaches.start_notMem
  · intro fills trail id value schema hget hnew hhere _ _ hnull haccepted part other hreaches hpart
    rw [applyAt_eq_judge hget hnew, judge_of_ne_null hnull] at haccepted
    have hexplained : ∀ member,
        ((rules.neighbours fills (id :: trail) value).here member).IsExplained :=
      fun member => isExplained_applyAt _ _ _ _ _
    obtain ⟨hown, hincluded⟩ := isAccepted_parts_of_judgeParts hexplained haccepted
    rcases SchemaTable.reaches_iff.1 hreaches with ⟨-, rfl | ⟨next, ⟨whole, hwhole, hmem⟩, hrest⟩⟩
    · obtain rfl := Option.some.inj (hget.symm.trans hpart)
      rwa [judgeOwn_neighbours] at hown
    · obtain rfl := Option.some.inj (hget.symm.trans hwhole)
      exact hhere next hnull (hincluded next hmem) part other hrest hpart

theorem isAccepted_judgeOwn_of_conjunct (hnull : value ≠ .null)
    (haccepted : (rules.applyAt fills [] id value).isAccepted)
    (hconjunct : rules.schemas.Conjunct id schema) :
    (rules.judgeOwn schema value (rules.neighbours fills [] value)).isAccepted := by
  obtain ⟨part, hreaches, hpart⟩ := hconjunct.reaches
  exact isAccepted_judgeOwn_of_reaches fills [] id value hnull haccepted part schema hreaches hpart

/-! ## What a schema on its own asks for -/

theorem exists_judgeType_of_judgeOwn {near : Neighbours value}
    (haccepted : (rules.judgeOwn schema value near).isAccepted) :
    ∃ typed, rules.judgeType schema value near = .accepted typed := by
  obtain ⟨⟨typed, htyped, -⟩, -⟩ := isAccepted_judgeOwn.1 haccepted
  exact ⟨typed, htyped⟩

theorem effectiveType?_of_judgeOwn_text {text : String}
    (haccepted : (rules.judgeOwn schema (.string text)
      (rules.neighbours fills trail (.string text))).isAccepted) :
    schema.effectiveType? = none ∨ schema.effectiveType? = some .string := by
  obtain ⟨typed, htyped⟩ := exists_judgeType_of_judgeOwn haccepted
  cases typesAs_of_judgeType htyped with
  | untyped htype => exact .inl htype
  | @primitive type _ _ htype harray hobject hprimitive =>
      cases type <;> simp_all [primitive?]

theorem isAccepted_item_of_judgeOwn {items : List Value}
    (haccepted : (rules.judgeOwn schema (.array items)
      (rules.neighbours fills trail (.array items))).isAccepted)
    (hitems : schema.items? = some part) {item : Value} (hitem : item ∈ items) :
    (rules.applyAt fills [] part item).isAccepted := by
  obtain ⟨typed, htyped⟩ := exists_judgeType_of_judgeOwn haccepted
  cases typesAs_of_judgeType htyped with
  | untyped htype =>
      obtain ⟨-, -, -, hnone⟩ := nothing_inside_of_none htype
      simp [hnone] at hitems
  | items htype hjudge =>
      have hjudged := Judgement.isAccepted_iff.2 ⟨_, hjudge⟩
      exact isAccepted_judgeItems_iff.1 hjudged part hitems item hitem
  | @primitive type _ _ htype harray hobject hprimitive =>
      cases type <;> simp_all [primitive?, Value.isTextual]

theorem not_governs_of_none {name : String} (htype : schema.effectiveType? = none) :
    ¬ schema.Governs name part := by
  obtain ⟨hproperties, -, hextras, -⟩ := nothing_inside_of_none htype
  simp [Schema.Governs, hproperties, hextras]

theorem isAccepted_property_of_judgeOwn {members : Entries Value}
    (haccepted : (rules.judgeOwn schema (.object members)
      (rules.neighbours fills trail (.object members))).isAccepted)
    {member : String × Value} (hmember : member ∈ members)
    (hgoverns : schema.Governs member.1 part) :
    (rules.applyAt fills [] part member.2).isAccepted := by
  obtain ⟨typed, htyped⟩ := exists_judgeType_of_judgeOwn haccepted
  cases typesAs_of_judgeType htyped with
  | untyped htype => exact absurd hgoverns (not_governs_of_none htype)
  | members htype hjudge =>
      obtain ⟨-, present, -, hpresent, -, -⟩ := judgeMembers_eq_accepted_iff.1 hjudge
      obtain ⟨result, hresult, -⟩ :=
        Judgement.exists_forall₂_iff.1 ⟨present, hpresent⟩ member hmember
      rw [judgeMember, propertySchema_eq_ok_some_iff.2 hgoverns] at hresult
      exact Judgement.isAccepted_iff.2 ⟨_, hresult⟩
  | @primitive type _ _ htype harray hobject hprimitive =>
      cases type <;> simp_all [primitive?, Value.isTextual]

/-! ## Reading leaves accepted values alone -/

open SchemaTable in
theorem coerceAt_withoutAlternatives (haccepted : (rules.applyAt fills [] id value).isAccepted) :
    rules.schemas.withoutAlternatives.coerceAt steps id value = value := by
  induction steps generalizing id value with
  | zero => exact coerceAt_zero value
  | succ steps ih =>
      cases hget : rules.schemas.get? id with
      | none =>
          have hdirect : rules.schemas.withoutAlternatives.get? id = none := by
            rw [get?_withoutAlternatives, hget, Option.map_none]
          exact coerceAt_of_get?_eq_none hdirect value
      | some schema =>
          have hdirect : rules.schemas.withoutAlternatives.get? id =
              some schema.withoutAlternatives := by
            rw [get?_withoutAlternatives, hget, Option.map_some]
          have hown : value ≠ .null → ∀ declaring, rules.schemas.Conjunct id declaring →
              (rules.judgeOwn declaring value (rules.neighbours fills [] value)).isAccepted :=
            fun hnull _ hconjunct => isAccepted_judgeOwn_of_conjunct hnull haccepted hconjunct
          refine coerceAt_eq_self hdirect ?_ ?_ ?_
          · rintro text rfl
            apply coerceText_withoutAlternatives hget
            intro declaring hconjunct
            exact effectiveType?_of_judgeOwn_text (hown (by simp) declaring hconjunct)
          · rintro items rfl item hitem part hfound
            obtain ⟨direct, htakes, hitems⟩ := exists_items_of_itemSchema? hdirect hfound
            obtain ⟨declaring, hconjunct, rfl⟩ := exists_conjunct_of_takesPart htakes
            exact ih (isAccepted_item_of_judgeOwn (hown (by simp) declaring hconjunct) hitems hitem)
          · rintro members rfl member hmember part hfound
            obtain ⟨direct, htakes, hgoverns⟩ := exists_governs_of_propertySchema? hdirect hfound
            obtain ⟨declaring, hconjunct, rfl⟩ := exists_conjunct_of_takesPart htakes
            exact ih (isAccepted_property_of_judgeOwn (hown (by simp) declaring hconjunct) hmember
              hgoverns)

end SchemaRules
end ApiContract
