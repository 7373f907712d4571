import ApiContract.Contract.Loading
import ApiContract.Proofs.Nesting
import ApiContract.Proofs.Reading
import Mathlib.Tactic

/-!
# Filling in defaults

A default is applied to its schema with nothing around it, so nothing stops a default that asks for
itself.  This file shows that nothing else can go on forever: a call returns exactly when it starts no
infinite chain of defaults, each filled in while the one before it is.
-/

namespace ApiContract

namespace SchemaRules

/-- Applying a schema to a value fills in the default of a property, here or below, but not inside
another default. -/
inductive Fills (rules : SchemaRules) : List SchemaId → SchemaId → Value → SchemaId → Prop
  | own {trail : List SchemaId} {id : SchemaId} {value : Value} {schema : Schema} {name : String}
      {property : SchemaId} {literal : Json} (hget : rules.schemas.get? id = some schema)
      (hnew : id ∉ trail) (happart : rules.TakesApart schema value)
      (hfills : rules.FillsIn schema value (name, property, literal)) :
      Fills rules trail id value property
  | here {trail : List SchemaId} {id part property : SchemaId} {value : Value} {schema : Schema}
      (hget : rules.schemas.get? id = some schema) (hnew : id ∉ trail)
      (happart : rules.TakesApart schema value)
      (hconsults : Consults (fun other => rules.applyAt [] (id :: trail) other value) schema value
        part)
      (hpart : Fills rules (id :: trail) part value property) : Fills rules trail id value property
  | inside {trail : List SchemaId} {id part property : SchemaId} {value child : Value}
      {schema : Schema} (hget : rules.schemas.get? id = some schema) (hnew : id ∉ trail)
      (happart : rules.TakesApart schema value) (hlooks : LooksInto schema value part child)
      (hchild : Fills rules [] part child property) : Fills rules trail id value property

/-- Filling in the default of a property fills in that of another. -/
def LeadsTo (rules : SchemaRules) (property later : SchemaId) : Prop :=
  ∃ schema literal, rules.schemas.get? property = some schema ∧ schema.default? = some literal ∧
    rules.Fills [] property (.ofJson literal) later

/-- The default of a property, applied to it, is never done. -/
def IsEndless (rules : SchemaRules) (property : SchemaId) : Prop :=
  ∃ schema literal, rules.schemas.get? property = some schema ∧ schema.default? = some literal ∧
    ¬ (rules.apply property (.ofJson literal)).HasEnded

/-- Applying a schema to a value starts an infinite chain of nested defaults. -/
def FillsForever (rules : SchemaRules) (id : SchemaId) (value : Value) : Prop :=
  ∃ chain : ℕ → SchemaId, rules.Fills [] id value (chain 0) ∧
    ∀ n, rules.LeadsTo (chain n) (chain (n + 1))

variable {rules : SchemaRules} {fills trail : List SchemaId} {id property : SchemaId}
  {value : Value} {schema : Schema} {literal : Json} {chain : ℕ → SchemaId}

theorem hasEnded_fillAt_iff :
    (rules.fillAt fills property literal).HasEnded ↔
      (property ∈ rules.schemas.ids ∧ property ∉ fills) ∧
        (rules.applyAt (property :: fills) [] property (.ofJson literal)).HasEnded := by
  unfold fillAt
  split
  · next hfree => simp [hfree]
  · next hfilling => simp [hfilling, Judgement.HasEnded]

theorem hasEnded_applyAt_iff (hget : rules.schemas.get? id = some schema) (hnew : id ∉ trail) :
    (rules.applyAt fills trail id value).HasEnded ↔ (rules.TakesApart schema value →
      (∀ part, Consults (fun other => rules.applyAt fills (id :: trail) other value) schema value
          part → (rules.applyAt fills (id :: trail) part value).HasEnded) ∧
      (∀ part child, LooksInto schema value part child →
        (rules.applyAt fills [] part child).HasEnded) ∧
      ∀ missing, rules.FillsIn schema value missing →
        (rules.fillAt fills missing.2.1 missing.2.2).HasEnded) := by
  rw [applyAt_eq_judge hget hnew, hasEnded_judge_iff]
  rfl

/-- All that is filled in has ended when the whole has. -/
theorem hasEnded_of_fills (hfills : rules.Fills trail id value property) :
    ∀ fills, (rules.applyAt fills trail id value).HasEnded →
      ∃ schema literal, rules.schemas.get? property = some schema ∧
        schema.default? = some literal ∧ (rules.fillAt fills property literal).HasEnded := by
  induction hfills with
  | own hget hnew happart hmissing =>
      intro fills hended
      have hfilled := ((hasEnded_applyAt_iff hget hnew).1 hended happart).2.2 _ hmissing
      obtain ⟨found, hfound, hdefault⟩ := hmissing.exists_default
      exact ⟨found, _, hfound, hdefault, hfilled⟩
  | here hget hnew happart hconsults _ ih =>
      intro fills hended
      have hparts := ((hasEnded_applyAt_iff hget hnew).1 hended happart).1
      have hsame := hconsults.of_approximates
        (fun part _ => applyAt_approximates_unfilled fills _ part _) hparts
      exact ih fills (hparts _ hsame)
  | inside hget hnew happart hlooks _ ih =>
      intro fills hended
      exact ih fills (((hasEnded_applyAt_iff hget hnew).1 hended happart).2.1 _ _ hlooks)

/-- An infinite chain would fill in more and more different defaults. -/
theorem not_fills_of_leadsTo (hended : (rules.applyAt fills trail id value).HasEnded)
    (hchain : ∀ n, rules.LeadsTo (chain n) (chain (n + 1))) :
    ¬ rules.Fills trail id value (chain 0) := by
  induction hcount : unseen rules.schemas.ids fills using Nat.strong_induction_on
    generalizing fills trail id value chain with
  | _ count ih =>
      intro hfills
      obtain ⟨schema, literal, hget, hdefault, hfilled⟩ := hasEnded_of_fills hfills fills hended
      obtain ⟨⟨hmem, hnew⟩, hnext⟩ := hasEnded_fillAt_iff.1 hfilled
      obtain ⟨found, other, hfound, hother, hleads⟩ := hchain 0
      obtain rfl := Option.some.inj (hget.symm.trans hfound)
      obtain rfl := Option.some.inj (hdefault.symm.trans hother)
      have hlt : unseen rules.schemas.ids (chain 0 :: fills) < count :=
        hcount ▸ unseen_cons_lt hmem hnew
      have hrest : ∀ n, rules.LeadsTo (chain (n + 1)) (chain (n + 1 + 1)) := fun n => hchain (n + 1)
      exact ih _ hlt hnext hrest rfl hleads

/-- A judgement that does not end fills in a default that does not end. -/
theorem exists_fills_of_not_hasEnded (hendless : ¬ (rules.applyAt [] trail id value).HasEnded) :
    ∃ property, rules.Fills trail id value property ∧ rules.IsEndless property := by
  by_contra hnone
  simp only [not_exists, not_and] at hnone
  have hall : ∀ fills trail id value, fills = [] →
      (∀ property, rules.Fills trail id value property → ¬ rules.IsEndless property) →
      (rules.applyAt fills trail id value).HasEnded := by
    refine applyAt.induct rules _ ?_ ?_ ?_
    · intro fills trail id value hget _ _
      rw [applyAt_of_get?_eq_none hget]
      exact Judgement.hasEnded_accepted _
    · intro fills trail id value schema hget hmem _ _
      rw [applyAt_of_mem hmem]
      exact Judgement.hasEnded_accepted _
    · intro fills trail id value schema hget hnew hhere hinside _ hnil hreturn
      subst hnil
      rw [hasEnded_applyAt_iff hget hnew]
      intro happart
      have hparts : ∀ part, Consults (fun other => rules.applyAt [] (id :: trail) other value)
          schema value part → (rules.applyAt [] (id :: trail) part value).HasEnded := by
        intro part hconsults
        apply hhere part rfl
        intro property hfills
        exact hreturn property (.here hget hnew happart hconsults hfills)
      have hchildren : ∀ part child, LooksInto schema value part child →
          (rules.applyAt [] [] part child).HasEnded := by
        intro part child hlooks
        apply hinside child (mem_children_of_asks hlooks.2) part rfl
        intro property hfills
        exact hreturn property (.inside hget hnew happart hlooks hfills)
      have hdefaults : ∀ missing, rules.FillsIn schema value missing →
          (rules.fillAt [] missing.2.1 missing.2.2).HasEnded := by
        rintro ⟨name, property, literal⟩ hmissing
        have hfills := Fills.own hget hnew happart hmissing
        obtain ⟨found, hfound, hdefault⟩ := hmissing.exists_default
        rw [fillAt_nil_eq_apply hfound hdefault]
        by_contra hnot
        exact hreturn property hfills ⟨found, literal, hfound, hdefault, hnot⟩
      exact ⟨hparts, hchildren, hdefaults⟩
  exact hendless (hall [] trail id value rfl hnone)

/-- A default that is never done is the start of an infinite chain. -/
theorem IsEndless.exists_chain (hendless : rules.IsEndless property) :
    ∃ chain : ℕ → SchemaId, chain 0 = property ∧
      ∀ n, rules.LeadsTo (chain n) (chain (n + 1)) := by
  have hstep : ∀ part : { part // rules.IsEndless part },
      ∃ later : { later // rules.IsEndless later }, rules.LeadsTo part.1 later.1 := by
    rintro ⟨part, found, default, hfound, hdefault, hnot⟩
    obtain ⟨later, hfills, hlater⟩ := exists_fills_of_not_hasEnded hnot
    exact ⟨⟨later, hlater⟩, found, default, hfound, hdefault, hfills⟩
  choose next hnext using hstep
  refine ⟨fun n => (next^[n] ⟨property, hendless⟩).1, rfl, fun n => ?_⟩
  simp only [Function.iterate_succ_apply']
  exact hnext _

theorem hasEnded_apply_iff_not_fillsForever :
    (rules.apply id value).HasEnded ↔ ¬ rules.FillsForever id value := by
  constructor
  · rintro hended ⟨chain, hfirst, hchain⟩
    exact not_fills_of_leadsTo hended hchain hfirst
  · intro hfinite
    by_contra hendless
    obtain ⟨property, hfills, hproperty⟩ := exists_fills_of_not_hasEnded hendless
    obtain ⟨chain, rfl, hchain⟩ := hproperty.exists_chain
    exact hfinite ⟨chain, hfills, hchain⟩

/-- A call returns unless it starts an infinite chain of nested defaults, which is when nothing comes
of applying the schema. -/
theorem returns_iff_not_fillsForever (rules : SchemaRules) (id : SchemaId) (value : Value) :
    (rules.Returns (.start id value) ↔ ¬ rules.FillsForever id value) ∧
      (rules.apply id value = .unending ↔ rules.FillsForever id value) := by
  constructor
  · rw [returns_start_iff, hasEnded_apply_iff_not_fillsForever]
  · rw [← not_iff_not]
    exact hasEnded_apply_iff_not_fillsForever

/-- A component with a default that lacks a property of the component itself. -/
theorem component_fills_itself_forever :
    let link : Json := .object [("$ref", .string "#/components/schemas/Node")]
    let component : Json := .object [("type", .string "object"),
      ("properties", .object [("next", link)]), ("default", .object [])]
    let json : Json := .object [("openapi", .string "3.1.0"),
      ("components", .object [("schemas", .object [("Node", component)])])]
    let node : Schema := {
      type? := some .object
      properties := [("next", 0)]
      default? := some (.object []) }
    let rules : SchemaRules := { schemas := ⟨#[node]⟩, formats := Format.standard }
    Contract.ofJson json = .ok { schemas := rules.schemas } ∧
      rules.FillsForever 0 (.object []) ∧ ¬ rules.Returns (.start 0 (.object [])) := by
  intro link component json node rules
  let scope : Scope := ⟨none, { schemas := [("Node", component)] }⟩
  have hlink : scope.schemaOf = fun reference =>
      if reference = "#/components/schemas/Node" then .ok 0 else scope.schemaOf reference := by
    funext reference
    split
    · next heq =>
        rw [heq]
        with_unfolding_all rfl
    · rfl
  have hcomponent : scope.readComponent component = fun table => .ok (node, table) := by
    unfold Scope.readComponent
    simp only [Scope.placeSchema_eq]
    rw [hlink]
    rfl
  have hread : scope.readComponents {} = .ok ((), rules.schemas) := by
    change ((scope.readComponent component _).bind _).bind _ = _
    rw [hcomponent]
    rfl
  have hcompile : Contract.ofJson json = .ok { schemas := rules.schemas } := by
    change ((scope.readComponents {}).bind _).bind _ = _
    rw [hread]
    rfl
  have hnode : rules.schemas.get? 0 = some node := rfl
  have happart : rules.TakesApart node (.object []) := by simp [TakesApart]
  have hmissing : rules.FillsIn node (.object []) ("next", 0, .object []) :=
    ⟨rfl, [], rfl, List.mem_singleton.2 rfl⟩
  have hfills : rules.Fills [] 0 (.object []) 0 := .own hnode List.not_mem_nil happart hmissing
  have hleads : rules.LeadsTo 0 0 := ⟨node, .object [], rfl, rfl, hfills⟩
  have hforever : rules.FillsForever 0 (.object []) := ⟨fun _ => 0, hfills, fun _ => hleads⟩
  refine ⟨hcompile, hforever, fun hreturns => ?_⟩
  exact hasEnded_apply_iff_not_fillsForever.1 (returns_start_iff.1 hreturns) hforever

end SchemaRules

end ApiContract
