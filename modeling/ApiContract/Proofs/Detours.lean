import ApiContract.Proofs.PairedContracts
import ApiContract.Proofs.SeeingThrough
import ApiContract.Proofs.Sparing
import Mathlib.Tactic

/-!
# Ways around a schema

A detour asks for nothing but another schema.  It takes one step of each bounded search through
members, and it has no default.  So it makes no difference around a schema where these searches come
to their end a step early, for plain values of which the judgement fills in no default that the detour
hides.
-/

namespace ApiContract

open SchemaRules

/-! ## Plain values -/

namespace Value

variable {value : Value}

theorem isPlain_of_mem_children (hplain : value.IsPlain) {child : Value}
    (hchild : child ∈ value.children) : child.IsPlain := by
  obtain ⟨hkeyed, hsame⟩ := hplain
  have hchildSame := same_of_mem_children hkeyed hsame hchild
  obtain ⟨-, hchildren⟩ := hkeyed
  exact ⟨hchildren child hchild, hchildSame⟩

theorem isPlain_array {items : List Value} (hitems : ∀ item ∈ items, item.IsPlain) :
    (Value.array items).IsPlain := by
  refine ⟨keyed_array_iff.2 fun item hmem => (hitems item hmem).keyed, ?_⟩
  rw [same, sameItems_iff]
  refine ⟨rfl, fun index item other hitem hother => ?_⟩
  obtain rfl := Option.some.inj (hitem.symm.trans hother)
  exact (hitems item (List.mem_of_getElem? hitem)).same

theorem isPlain_object {members : Entries Value} (hdistinct : Entries.Distinct members)
    (hmembers : ∀ member ∈ members, member.2.IsPlain) : (Value.object members).IsPlain := by
  refine ⟨keyed_object_iff.2 ⟨hdistinct, fun member hmem => (hmembers member hmem).keyed⟩, ?_⟩
  rw [same, Bool.and_eq_true, sameMembers_iff]
  refine ⟨beq_self_eq_true _, fun member hmem => ⟨member.2, ?_, (hmembers member hmem).same⟩⟩
  exact hdistinct.get?_eq_some_iff.2 hmem

end Value

namespace SchemaTable

variable {table : SchemaTable} {schema : Schema} {text : String} {value : Value}

theorem isPlain_string (text : String) : (Value.string text).IsPlain :=
  ⟨Value.keyed_of_not_isContainer rfl, beq_self_eq_true text⟩

theorem isFinite_of_readText? {number : Binary64}
    (hread : readText? .number text = some (.number number)) : number.isFinite := by
  unfold readText? at hread
  dsimp only at hread
  split at hread
  · cases hread
  · obtain ⟨found, hfound, heq⟩ := Option.map_eq_some_iff.1 hread
    obtain rfl := Value.number.inj heq
    exact (Option.filter_eq_some_iff.1 hfound).2

theorem same_of_isFinite {number : Binary64} (hfinite : number.isFinite) : number.same number := by
  cases number with
  | finite negative units representable => simp [Binary64.same, Binary64.compare?]
  | _ => cases hfinite

theorem isPlain_of_readText? {type : SchemaType} (hread : readText? type text = some value) :
    value.IsPlain := by
  have hkeyed := Value.keyed_of_not_isContainer (reads_of_readText? hread).isContainer
  refine ⟨hkeyed, ?_⟩
  cases reads_of_readText? hread with
  | number n => exact same_of_isFinite (isFinite_of_readText? hread)
  | null => rfl
  | integer i => exact beq_self_eq_true i
  | integral i => exact beq_self_eq_true i
  | boolean b => exact beq_self_eq_true b

theorem isPlain_coerceText (steps : ℕ) (schema : Schema) :
    (table.coerceText steps schema text).IsPlain := by
  rcases table.coerceText_cases steps schema text with ⟨hstays, -⟩ | ⟨type, -, hread⟩
  · exact hstays ▸ isPlain_string text
  · exact isPlain_of_readText? hread

/-- Reading the texts of a value brings in no number that differs from itself. -/
theorem isPlain_coerceAt (steps : ℕ) : ∀ id value, value.IsPlain →
    (table.coerceAt steps id value).IsPlain := by
  induction steps with
  | zero => exact fun _ _ hvalue => hvalue
  | succ steps ih =>
      intro id value hvalue
      have hunder : ∀ part? child, child ∈ value.children →
          (table.coerceUnder steps part? child).IsPlain := by
        intro part? child hchild
        have hplain := Value.isPlain_of_mem_children hvalue hchild
        cases part? with
        | none => exact hplain
        | some part => exact ih part child hplain
      cases hget : table.get? id with
      | none => rwa [coerceAt_of_get?_eq_none hget]
      | some schema =>
          cases value with
          | string text =>
              rw [coerceAt_text hget]
              exact isPlain_coerceText steps schema
          | array items =>
              rw [coerceAt_array hget]
              refine Value.isPlain_array fun item hmem => ?_
              obtain ⟨child, hchild, rfl⟩ := List.mem_map.1 hmem
              exact hunder _ child hchild
          | object members =>
              rw [coerceAt_object hget]
              have hkeys : Entries.Distinct members := (Value.keyed_object_iff.1 hvalue.keyed).1
              refine Value.isPlain_object ?_ fun member hmem => ?_
              · refine Entries.distinct_of_keys_eq ?_ hkeys
                simp [Entries.keys]
              · obtain ⟨child, hchild, rfl⟩ := List.mem_map.1 hmem
                exact hunder _ child.2 (List.mem_map_of_mem hchild)
          | _ => rwa [coerceAt_scalar rfl (by simp)]

end SchemaTable

/-! ## Levels of values -/

/-- The values inside go at most so many levels down. -/
def Value.NestsWithin : ℕ → Value → Prop
  | 0, value => value.children = []
  | levels + 1, value => ∀ child ∈ value.children, child.NestsWithin levels

/-- The steps of coercion suffice for the levels of the value, with some to spare. -/
def SchemaTable.FitsLevels (depth steps : ℕ) (value : Value) : Prop :=
  ∃ levels, value.NestsWithin levels ∧ levels + depth + 2 ≤ steps

theorem SchemaTable.passesDown_fitsLevels (depth : ℕ) : PassesDown (FitsLevels depth) := by
  rintro steps value ⟨levels, hnests, hle⟩ child hchild
  cases levels with
  | zero =>
      have hnone : value.children = [] := hnests
      simp [hnone] at hchild
  | succ levels => exact ⟨levels, hnests child hchild, by omega⟩

/-! ## Where a detour makes no difference -/

namespace SchemaTable

variable {table : SchemaTable} {depth : ℕ} {id : SchemaId} {schema : Schema}

/-- The searches through the members of a schema find with a step less what they find with all their
steps.  Coercion searches with fewer steps the deeper it is in a value, so its searches have to end
within `depth` steps. -/
structure AllowsDetour (table : SchemaTable) (depth : ℕ) (id : SchemaId) : Prop where
  null : ∀ schema, table.get? id = some schema →
    admitsNull table nullSteps schema = admitsNull table nullStepsBehind schema
  shape : Shape.of table (some id) = Shape.ofSchema table Shape.stepsBehind (some id)
  texts : ∀ schema, table.get? id = some schema → ∀ steps, depth ≤ steps →
    table.SearchesEnd steps schema

theorem leavesRoom {P : Pairing}
    (hallows : ∀ filled id, P.admits filled id → table.AllowsDetour depth id) :
    LeavesRoom P table (FitsLevels depth) := by
  rintro steps filled id schema value hadmits hget ⟨levels, -, hle⟩
  exact .inr ⟨steps - 1, by omega,
    (hallows filled id hadmits).texts schema hget (steps - 1) (by omega)⟩

/-- The compositions at a schema go at most so many levels down. -/
def MembersNestWithin (table : SchemaTable) : ℕ → Schema → Prop
  | 0, schema => schema.members = []
  | depth + 1, schema => ∀ id ∈ schema.members, ∀ member, table.get? id = some member →
      table.MembersNestWithin depth member

theorem findSome?_congr_of_mem {α β : Type} {first second : α → Option β} {items : List α}
    (hsame : ∀ item ∈ items, first item = second item) :
    items.findSome? first = items.findSome? second := by
  induction items with
  | nil => rfl
  | cons item rest ih =>
      rw [List.forall_mem_cons] at hsame
      rw [List.findSome?_cons, List.findSome?_cons, hsame.1, ih hsame.2]

theorem bind_get?_congr {α : Type} {first second : Schema → Option α}
    (hsame : ∀ schema, table.get? id = some schema → first schema = second schema) :
    (table.get? id).bind first = (table.get? id).bind second := by
  cases hget : table.get? id with
  | none => rfl
  | some schema => exact hsame schema hget

/-- Without members, the steps make no difference. -/
theorem searchesEnd_of_members_eq_nil (hnone : schema.members = []) (steps : ℕ) :
    table.SearchesEnd steps schema where
  items := by cases steps <;> simp [itemSchema?, hnone]
  properties := fun name => by
    rw [propertySchema?_of_members_eq_nil hnone, propertySchema?_of_members_eq_nil hnone]
  texts := fun text => by
    cases htype : schema.effectiveType? with
    | some type => rw [coerceText_of_type htype, coerceText_of_type htype]
    | none =>
        rw [coerceText_of_members_eq_nil hnone htype, coerceText_of_members_eq_nil hnone htype]

/-- A search goes one step further where those from the members have come to their end. -/
theorem searchesEnd_succ {steps : ℕ} (hmembers : ∀ id ∈ schema.members, ∀ member,
    table.get? id = some member → table.SearchesEnd steps member) :
    table.SearchesEnd (steps + 1) schema where
  items := by
    rw [itemSchema?, itemSchema?]
    refine congrArg (schema.items?.or ·) (findSome?_congr_of_mem fun id hid => ?_)
    exact bind_get?_congr fun member hget => (hmembers id hid member hget).items
  properties := fun name => by
    rw [propertySchema?_succ, propertySchema?_succ]
    refine congrArg (fun found => (Entries.get? schema.properties name).or
      (found.or (furtherSchema? schema))) (findSome?_congr_of_mem fun id hid => ?_)
    exact bind_get?_congr fun member hget => (hmembers id hid member hget).properties name
  texts := fun text => by
    cases htype : schema.effectiveType? with
    | some type => rw [coerceText_of_type htype, coerceText_of_type htype]
    | none =>
        rw [coerceText_succ htype, coerceText_succ htype]
        refine congrArg (fun found : Option Value => found.getD (.string text))
          (findSome?_congr_of_mem fun id hid => readMember?_congr fun member hget => ?_)
        exact (hmembers id hid member hget).texts text

/-- Once the steps cover the compositions, one more finds nothing else. -/
theorem searchesEnd_of_membersNestWithin {steps : ℕ} (hnests : table.MembersNestWithin depth schema)
    (hle : depth ≤ steps) : table.SearchesEnd steps schema := by
  induction depth generalizing steps schema with
  | zero => exact searchesEnd_of_members_eq_nil hnests steps
  | succ depth ih =>
      obtain ⟨before, rfl⟩ : ∃ before, steps = before + 1 := ⟨steps - 1, by omega⟩
      exact searchesEnd_succ fun id hid member hget => ih (hnests id hid member hget) (by omega)

theorem admitsNull_of_membersNestWithin {steps : ℕ} (hnests : table.MembersNestWithin depth schema)
    (hlt : depth < steps) :
    admitsNull table (steps + 1) schema = admitsNull table steps schema := by
  induction depth generalizing steps schema with
  | zero =>
      obtain ⟨before, rfl⟩ : ∃ before, steps = before + 1 := ⟨steps - 1, by omega⟩
      have hnone : (schema.allOf = [] ∧ schema.oneOf = []) ∧ schema.anyOf = [] := by
        have hmembers : schema.members = [] := hnests
        simpa [Schema.members, and_assoc] using hmembers
      rw [admitsNull_succ, admitsNull_succ, hnone.1.1, hnone.1.2, hnone.2]
      rfl
  | succ depth ih =>
      obtain ⟨before, rfl⟩ : ∃ before, steps = before + 1 := ⟨steps - 1, by omega⟩
      have hmember : ∀ id ∈ schema.members,
          memberAdmitsNull table (before + 1) id = memberAdmitsNull table before id := by
        intro id hid
        unfold memberAdmitsNull
        cases hget : table.get? id with
        | none => rfl
        | some member => exact ih (hnests id hid member hget) (by omega)
      have hany : ∀ ids : List SchemaId, (∀ id ∈ ids, id ∈ schema.members) →
          ids.any (memberAdmitsNull table (before + 1)) =
            ids.any (memberAdmitsNull table before) := fun ids hids =>
        any_eq_any_of_forall₂ (List.forall₂_same.2 fun id hid => hmember id (hids id hid))
          fun _ _ hsame => hsame
      have hall : ∀ ids : List SchemaId, (∀ id ∈ ids, id ∈ schema.members) →
          ids.all (memberAdmitsNull table (before + 1)) =
            ids.all (memberAdmitsNull table before) := fun ids hids =>
        all_eq_all_of_forall₂ (List.forall₂_same.2 fun id hid => hmember id (hids id hid))
          fun _ _ hsame => hsame
      rw [admitsNull_succ, admitsNull_succ, hany schema.oneOf, hany schema.anyOf, hall schema.allOf]
      all_goals simp +contextual [Schema.members]

theorem ofSchema_of_get?_eq_none (hget : table.get? id = none) (steps : ℕ) :
    Shape.ofSchema table steps (some id) = .primitive := by
  cases steps with
  | zero => rfl
  | succ steps =>
      rw [Shape.ofSchema_succ, Option.bind_some, hget]

theorem ofSchema_none (steps : ℕ) : Shape.ofSchema table steps none = .primitive := by
  cases steps <;> rfl

theorem ofSchema_of_membersNestWithin {steps : ℕ} (hget : table.get? id = some schema)
    (hnests : table.MembersNestWithin depth schema) (hlt : depth < steps) :
    Shape.ofSchema table (steps + 1) (some id) = Shape.ofSchema table steps (some id) := by
  induction depth generalizing steps id schema with
  | zero =>
      obtain ⟨before, rfl⟩ : ∃ before, steps = before + 1 := ⟨steps - 1, by omega⟩
      have hnone : schema.members = [] := hnests
      rw [Shape.ofSchema_succ, Shape.ofSchema_succ, Option.bind_some, hget]
      simp only [hnone, List.head?_nil, ofSchema_none]
  | succ depth ih =>
      obtain ⟨before, rfl⟩ : ∃ before, steps = before + 1 := ⟨steps - 1, by omega⟩
      have hhead : Shape.ofSchema table (before + 1) schema.members.head? =
          Shape.ofSchema table before schema.members.head? := by
        cases hfirst : schema.members.head? with
        | none => rw [ofSchema_none, ofSchema_none]
        | some first =>
            cases hmember : table.get? first with
            | none => rw [ofSchema_of_get?_eq_none hmember, ofSchema_of_get?_eq_none hmember]
            | some member =>
                exact ih hmember (hnests first (List.mem_of_mem_head? hfirst) member hmember)
                  (by omega)
      rw [Shape.ofSchema_succ, Shape.ofSchema_succ, Option.bind_some, hget]
      simp only [hhead]

/-- A detour makes no difference around a schema whose compositions go down few levels. -/
theorem allowsDetour_of_membersNestWithin (hdepth : depth < Shape.stepsBehind)
    (hget : table.get? id = some schema) (hnests : table.MembersNestWithin depth schema) :
    table.AllowsDetour depth id := by
  have hsame : ∀ found, table.get? id = some found → found = schema :=
    fun found hfound => Option.some.inj (hfound.symm.trans hget)
  have hnull : depth < nullStepsBehind := Nat.lt_of_lt_of_le hdepth (by decide)
  constructor
  · exact fun found hfound => hsame found hfound ▸ admitsNull_of_membersNestWithin hnests hnull
  · exact ofSchema_of_membersNestWithin hget hnests hdepth
  · exact fun found hfound steps hle =>
      hsame found hfound ▸ searchesEnd_of_membersNestWithin hnests hle

/-! ## Chains of detours -/

section Chain

variable {last next : SchemaId} {count steps : ℕ} {text : String}

/-- Each detour takes one step of the search for the shape of a parameter. -/
theorem ofSchema_of_leadsIn (hleads : table.LeadsIn last count id) (steps : ℕ) :
    Shape.ofSchema table (steps + count) (some id) = Shape.ofSchema table steps (some last) := by
  induction hleads with
  | here => rfl
  | detour hget _ ih => rw [← ih, ← Nat.add_assoc, Shape.ofSchema_detour hget]

theorem ofSchema_of_leadsIn_of_le (hleads : table.LeadsIn last count id) (hle : steps ≤ count) :
    Shape.ofSchema table steps (some id) = .primitive := by
  induction hleads generalizing steps with
  | here =>
      obtain rfl := Nat.le_zero.1 hle
      rfl
  | detour hget _ ih =>
      cases steps with
      | zero => rfl
      | succ steps =>
          rw [Shape.ofSchema_detour hget]
          exact ih (Nat.le_of_succ_le_succ hle)

/-- A parameter behind too many detours is split as if it were a single value. -/
theorem shape_of_leadsIn (hleads : table.LeadsIn last count id) :
    Shape.of table (some id) =
      if count < Shape.maxSteps then Shape.ofSchema table (Shape.maxSteps - count) (some last)
      else .primitive := by
  split
  · next hlt => rw [← ofSchema_of_leadsIn hleads, Nat.sub_add_cancel hlt.le, Shape.of]
  · next hge => exact ofSchema_of_leadsIn_of_le hleads (Nat.le_of_not_lt hge)

theorem coerceAt_text_detour (hget : table.get? id = some (.detour next)) (steps : ℕ)
    (text : String) :
    table.coerceAt (steps + 2) id (.string text) = table.coerceAt (steps + 1) next (.string text) := by
  rw [coerceAt_text hget]
  cases hnext : table.get? next with
  | some schema => rw [coerceText_detour hnext, coerceAt_text hnext]
  | none =>
      rw [coerceAt_of_get?_eq_none hnext, coerceText_succ rfl]
      simp [Schema.detour, Schema.members, readMember?, hnext]

/-- Each detour takes one of the steps in which a text is read. -/
theorem coerceAt_text_of_leadsIn (hleads : table.LeadsIn last count id) (steps : ℕ) :
    table.coerceAt (steps + 1 + count) id (.string text) =
      table.coerceAt (steps + 1) last (.string text) := by
  induction hleads with
  | here => rfl
  | @detour count id next hget _ ih =>
      have hsteps : steps + 1 + (count + 1) = steps + count + 2 := by omega
      have hsteps' : steps + count + 1 = steps + 1 + count := by omega
      rw [hsteps, coerceAt_text_detour hget, hsteps', ih]

theorem coerceAt_text_of_leadsIn_of_le (hleads : table.LeadsIn last count id)
    (hle : steps ≤ count) : table.coerceAt steps id (.string text) = .string text := by
  induction hleads generalizing steps with
  | here =>
      obtain rfl := Nat.le_zero.1 hle
      exact coerceAt_zero _
  | @detour count id next hget _ ih =>
      match steps with
      | 0 => exact coerceAt_zero _
      | 1 => rw [coerceAt_text hget, coerceText_zero rfl]
      | steps + 2 =>
          rw [coerceAt_text_detour hget]
          exact ih (Nat.le_of_succ_le_succ hle)

/-- A text behind too many detours stays a text. -/
theorem coerce_text_of_leadsIn (hleads : table.LeadsIn last count id) (text : String) :
    table.coerce id (.string text) =
      if count < coercionSteps then table.coerceAt (coercionSteps - count) last (.string text)
      else .string text := by
  split
  · next hlt =>
      obtain ⟨steps, hsteps⟩ : ∃ steps, coercionSteps - count = steps + 1 :=
        ⟨coercionSteps - count - 1, by omega⟩
      have htotal : coercionSteps = steps + 1 + count := by omega
      rw [hsteps, ← coerceAt_text_of_leadsIn hleads, coerce, htotal]
  · next hge => exact coerceAt_text_of_leadsIn_of_le hleads (Nat.le_of_not_lt hge)

end Chain

/-! ## Values that a detour leaves alone -/

/-- The properties of each schema have distinct names, and each default is a plain value. -/
structure IsPlain (table : SchemaTable) : Prop where
  keyed : table.IsKeyed
  defaults : ∀ id schema literal, table.get? id = some schema → schema.default? = some literal →
    (Value.ofJson literal).IsPlain

/-- A plain value of which the judgement fills in no default that a detour would hide. -/
structure Admits (table : SchemaTable) (hidden : SchemaId → Prop) (id : SchemaId) (value : Value) :
    Prop where
  plain : value.IsPlain
  spares : table.Spares hidden id value

/-- Bodies of plain values of few levels, and defaults, whose judgement fills in no default that a
detour would hide. -/
def readable (table : SchemaTable) (hidden : SchemaId → Prop) (levels : ℕ) : Validator.Readable where
  body := fun id body =>
    table.Admits hidden id body.value ∧ (body.isTextual → body.value.NestsWithin levels)
  default := fun id literal => ¬ hidden id ∧ table.Spares hidden id (.ofJson literal)

variable {P : Pairing} {hidden : SchemaId → Prop}

theorem inherits_admits {rules : SchemaRules} (hplain : rules.schemas.IsPlain)
    (hhidden : ∀ id, P.admits True id → hidden id) :
    rules.Inherits P (rules.schemas.Admits hidden) where
  here := fun id value schema part hgood hget hmem =>
    ⟨hgood.plain, hgood.spares.of_comesTo (.here .self hget hmem)⟩
  inside := fun id value schema part child hgood hget hasks =>
    ⟨Value.isPlain_of_mem_children hgood.plain (SchemaRules.mem_children_of_asks hasks),
      hgood.spares.of_comesTo (.inside .self hget hasks)⟩
  filled := fun id value schema missing hgood hget hfills => by
    have hfilled := fillsIn_iff.1 hfills
    obtain ⟨found, hfound, hdefault⟩ := hfills.exists_default
    exact ⟨hplain.defaults _ found _ hfound hdefault,
      hgood.spares.of_comesTo (.filled .self hget hfilled)⟩
  bare := fun id value schema missing hgood hget hfills hadmits =>
    hgood.spares id value schema _ _ _ .self hget (fillsIn_iff.1 hfills)
      (hhidden _ hadmits)

end SchemaTable

end ApiContract
