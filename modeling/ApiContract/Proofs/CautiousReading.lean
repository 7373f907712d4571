import ApiContract.Proofs.Choices

/-!
# Cautious reading

Where a schema has alternatives, reading the texts of a value may turn the verdict on it.  It does
not if every choice accepts what it reads, and if every other schema that looks at a text passes the
same verdict on what the text is read as.  Values for which alternatives do nothing worse are read
cautiously: what was accepted before the reading is accepted after it.
-/

namespace ApiContract

/-- A schema joins in judging the values of another, as it is one of those that this one is composed
of. -/
def SchemaTable.Joins (table : SchemaTable) (id : SchemaId) (joined : Schema) : Prop :=
  ∃ part, Relation.ReflTransGen table.Composes id part ∧ table.get? part = some joined

namespace SchemaRules

/-- A schema does not mind that a part of a value is read by the schema that was found for it: the
verdict stays, or it is this very schema and accepts the part as it stands. -/
def Bears (rules : SchemaRules) (steps : Nat) (found? : Option SchemaId) (part : SchemaId)
    (child : Value) : Prop :=
  (found? = some part ∧ (rules.apply part child).isAccepted) ∨
    (rules.apply part child).AgreesWith
      (rules.apply part (rules.schemas.coerceUnder steps found? child))

/-- Alternatives have no part in how a value is read, or they read a text as what they accept, or all
schemas that join in judging an array or an object bear how its parts are read. -/
inductive ReadsCautiously (rules : SchemaRules) : (steps : Nat) → SchemaId → Value → Prop
  | directly {steps : Nat} {id : SchemaId} {value : Value}
      (hsame : rules.schemas.withoutAlternatives.coerceAt steps id value =
        rules.schemas.coerceAt steps id value) :
      ReadsCautiously rules steps id value
  | choice {steps : Nat} {id : SchemaId} {choice : Schema} {text : String}
      (hget : rules.schemas.get? id = some choice) (hchoice : choice.IsChoice)
      (hwelcomes : ∀ part value, rules.schemas.FirstReads steps choice text part value →
        rules.Welcomes id choice part value) :
      ReadsCautiously rules (steps + 2) id (.string text)
  | items {steps : Nat} {id : SchemaId} {schema : Schema} {items : List Value}
      (hget : rules.schemas.get? id = some schema)
      (hbounds : ∀ joined, rules.schemas.Joins id joined → (boundFaults joined (.array items) = [] ↔
        boundFaults joined (rules.schemas.coerceAt (steps + 1) id (.array items)) = []))
      (hbears : ∀ joined, rules.schemas.Joins id joined → ∀ part, joined.items? = some part →
        ∀ item ∈ items, rules.Bears steps (rules.schemas.itemSchema? steps schema) part item)
      (hitems : ∀ part, rules.schemas.itemSchema? steps schema = some part → ∀ item ∈ items,
        (rules.apply part item).isAccepted → ReadsCautiously rules steps part item) :
      ReadsCautiously rules (steps + 1) id (.array items)
  | members {steps : Nat} {id : SchemaId} {schema : Schema} {members : Entries Value}
      (hget : rules.schemas.get? id = some schema)
      (hbounds : ∀ joined, rules.schemas.Joins id joined →
        (boundFaults joined (.object members) = [] ↔
          boundFaults joined (rules.schemas.coerceAt (steps + 1) id (.object members)) = []))
      (hpicks : ∀ joined, rules.schemas.Joins id joined → ∀ discriminator,
        joined.tagging? = some discriminator → ∀ part,
          discriminator.Picks (.object members) part ↔
            discriminator.Picks (rules.schemas.coerceAt (steps + 1) id (.object members)) part)
      (hbears : ∀ joined, rules.schemas.Joins id joined → ∀ member ∈ members, ∀ part,
        joined.Governs member.1 part →
          rules.Bears steps (rules.schemas.propertySchema? member.1 steps schema) part member.2)
      (hmembers : ∀ member ∈ members, ∀ part,
        rules.schemas.propertySchema? member.1 steps schema = some part →
          (rules.apply part member.2).isAccepted → ReadsCautiously rules steps part member.2) :
      ReadsCautiously rules (steps + 1) id (.object members)

variable {rules : SchemaRules} {id part : SchemaId} {value child : Value} {schema : Schema}
  {steps : Nat} {found? : Option SchemaId}

theorem Bears.agrees (hbears : rules.Bears steps found? part child)
    (hread : found? = some part → (rules.apply part child).isAccepted →
      (rules.apply part (rules.schemas.coerceAt steps part child)).isAccepted) :
    (rules.apply part child).AgreesWith
      (rules.apply part (rules.schemas.coerceUnder steps found? child)) := by
  rcases hbears with ⟨hfound, haccepted⟩ | hagrees
  · rw [hfound]
    exact Judgement.agreesWith_of_isAccepted haccepted (hread hfound haccepted)
  · exact hagrees

theorem readsCautiously_of_isPlainUnion {union : Schema} (hget : rules.schemas.get? id = some union)
    (hplain : rules.schemas.IsPlainUnion union) (text : String) :
    rules.ReadsCautiously (steps + 2) id (.string text) :=
  .choice hget hplain.toIsChoice fun _ _ hreads => welcomes_of_isPlainUnion hget hplain hreads

theorem eq_of_joins {joined : Schema} (hget : rules.schemas.get? id = some schema)
    (halone : schema.components = []) (hjoins : rules.schemas.Joins id joined) :
    joined = schema := by
  obtain ⟨part, hpath, hjoined⟩ := hjoins
  rcases Relation.ReflTransGen.cases_head hpath with rfl | ⟨next, ⟨whole, hwhole, hmem⟩, -⟩
  · exact Option.some.inj (hjoined.symm.trans hget)
  · rw [Option.some.inj (hwhole.symm.trans hget), halone] at hmem
    exact absurd hmem List.not_mem_nil

/-- Lists that are not compared as a whole leave cautious reading to their items. -/
theorem readsCautiously_items {items : List Value} (hget : rules.schemas.get? id = some schema)
    (halone : schema.components = []) (hliterals : schema.literals? = none)
    (hunique : schema.constraints.uniqueItems = false) (hitems : schema.items? = some part)
    (haccepted : ∀ item ∈ items, (rules.apply part item).isAccepted)
    (hcautious : ∀ item ∈ items, rules.ReadsCautiously steps part item) :
    rules.ReadsCautiously (steps + 1) id (.array items) := by
  have hfound : rules.schemas.itemSchema? steps schema = some part :=
    SchemaTable.itemSchema?_of_items hitems
  refine .items hget ?_ ?_ ?_
  · intro joined hjoins
    obtain rfl := eq_of_joins hget halone hjoins
    rw [SchemaTable.coerceAt_array hget, boundFaults_eq_nil_iff, boundFaults_eq_nil_iff]
    simp [Constraints.excesses, Constraints.itemExcesses, hunique, hliterals]
  · intro joined hjoins other hother item hitem
    obtain rfl := eq_of_joins hget halone hjoins
    obtain rfl := Option.some.inj (hitems.symm.trans hother)
    exact .inl ⟨hfound, haccepted item hitem⟩
  · intro other hother item hitem _
    obtain rfl := Option.some.inj (hfound.symm.trans hother)
    exact hcautious item hitem

open SchemaTable in
/-- A choice that accepts what it reads does so at a text. -/
theorem isAccepted_choice {choice : Schema} {text : String}
    (hget : rules.schemas.get? id = some choice) (hchoice : choice.IsChoice)
    (hwelcomes : ∀ part value, rules.schemas.FirstReads steps choice text part value →
      rules.Welcomes id choice part value)
    (haccepted : (rules.applyAt [] [] id (.string text)).isAccepted) :
    (rules.applyAt [] [] id
      (rules.schemas.coerceAt (steps + 2) id (.string text))).isAccepted := by
  rw [coerceAt_text hget, coerceText_succ hchoice.untyped]
  cases hread : choice.members.findSome? (rules.schemas.readMember? steps text) with
  | none => rwa [Option.getD_none]
  | some value =>
      obtain ⟨before, part, behind, hsplit, hpart, hbefore⟩ := List.findSome?_eq_some_iff.1 hread
      have hreads : rules.schemas.FirstReads steps choice text part value :=
        ⟨before, behind, hsplit, hbefore, hpart⟩
      rw [Option.getD_some]
      exact isAccepted_applyAt_of_welcomes hget hchoice hreads (hwelcomes part value hreads)

open SchemaTable in
/-- A value that is accepted is still accepted after it was read cautiously. -/
theorem isAccepted_applyAt_coerceAt (hreads : rules.ReadsCautiously steps id value)
    (haccepted : (rules.applyAt [] [] id value).isAccepted) :
    (rules.applyAt [] [] id (rules.schemas.coerceAt steps id value)).isAccepted := by
  induction hreads with
  | directly hsame =>
      rw [← hsame, coerceAt_withoutAlternatives haccepted]
      exact haccepted
  | choice hget hchoice hwelcomes => exact isAccepted_choice hget hchoice hwelcomes haccepted
  | @items steps id schema items hget hbounds hbears _ ih =>
      rw [coerceAt_array hget] at hbounds ⊢
      refine (applyAt_agrees [] [] id _ _ (by simp) (by simp) ?_).isAccepted.1 haccepted
      intro other joined hpath hother
      have hjoins : rules.schemas.Joins id joined := ⟨other, hpath, hother⟩
      refine ⟨judgeOwn_agrees rfl rfl ?_ (hbounds joined hjoins), ?_⟩
      · refine judgeType_array_agrees fun part hpart item hitem => ?_
        exact (hbears joined hjoins part hpart item hitem).agrees fun hfound haccepts =>
          ih part hfound item hitem haccepts haccepts
      · rintro discriminator - part
        simp [Discriminator.Picks]
  | @members steps id schema members hget hbounds hpicks hbears _ ih =>
      rw [coerceAt_object hget] at hbounds hpicks ⊢
      refine (applyAt_agrees [] [] id _ _ (by simp) (by simp) ?_).isAccepted.1 haccepted
      intro other joined hpath hother
      have hjoins : rules.schemas.Joins id joined := ⟨other, hpath, hother⟩
      refine ⟨judgeOwn_agrees rfl rfl ?_ (hbounds joined hjoins), hpicks joined hjoins⟩
      refine judgeType_object_agrees fun member hmember part hgoverns => ?_
      exact (hbears joined hjoins member hmember part hgoverns).agrees fun hfound haccepts =>
        ih member hmember part hfound haccepts haccepts

end SchemaRules
end ApiContract
