import ApiContract.Proofs.MemberSearch

/-!
# What coercion makes of a value

Coercion leaves the form of a value as it is and touches nothing but texts.  A text is governed by
the schema that coercion finds for its place, and it stays a text or becomes what a schema of the
composition of that one reads it as.  What was read is no text any more, and a text that stayed is
looked up in the same way the second time, so that a second coercion changes nothing.
-/

namespace ApiContract

/-! ## Values that differ in their texts -/

namespace Value

/-- A value comes from another by reading texts: arrays have the same length, objects have the same
names in the same order, all other leaves are the same, and `reads` tells what may stand for the text
at a path. -/
inductive ReadAs : (reads : InstancePath → String → Value → Prop) → Value → Value → Prop
  | text {reads : InstancePath → String → Value → Prop} {text : String} {result : Value}
      (hreads : reads [] text result) : ReadAs reads (.string text) result
  | leaf {reads : InstancePath → String → Value → Prop} {value : Value}
      (hleaf : value.isContainer = false) (htext : ∀ text, value ≠ .string text) :
      ReadAs reads value value
  | items {reads : InstancePath → String → Value → Prop} {items others : List Value}
      (hlength : items.length = others.length)
      (hitems : ∀ (index : Nat) (item other : Value), items[index]? = some item →
        others[index]? = some other →
        ReadAs (fun path => reads (.index index :: path)) item other) :
      ReadAs reads (.array items) (.array others)
  | members {reads : InstancePath → String → Value → Prop} {members others : Entries Value}
      (hkeys : Entries.keys members = Entries.keys others)
      (hmembers : ∀ (index : Nat) (name : String) (member other : Value),
        members[index]? = some (name, member) → others[index]? = some (name, other) →
        ReadAs (fun path => reads (.key name :: path)) member other) :
      ReadAs reads (.object members) (.object others)

variable {reads : InstancePath → String → Value → Prop} {value : Value}

/-- What holds of a value as soon as it holds of all values directly inside holds of every value. -/
theorem induction_on_children {holds : Value → Prop}
    (hholds : ∀ value, (∀ child ∈ value.children, holds child) → holds value) (value : Value) :
    holds value :=
  hholds value fun child _ => induction_on_children hholds child
termination_by sizeOf value
decreasing_by exact sizeOf_lt_of_mem_children ‹_›

theorem readAs_map_items {items : List Value} {read : Value → Value}
    (hread : ∀ (index : Nat) (item : Value),
      ReadAs (fun path => reads (.index index :: path)) item (read item)) :
    ReadAs reads (.array items) (.array (items.map read)) := by
  refine .items (by rw [List.length_map]) fun index item other hitem hother => ?_
  rw [List.getElem?_map, hitem, Option.map_some] at hother
  obtain rfl := Option.some.inj hother
  exact hread index item

theorem readAs_map_members {members : Entries Value} {read : String × Value → Value}
    (hread : ∀ member : String × Value,
      ReadAs (fun path => reads (.key member.1 :: path)) member.2 (read member)) :
    ReadAs reads (.object members)
      (.object (members.map fun member => (member.1, read member))) := by
  refine .members ?_ fun index name member other hmember hother => ?_
  · simp [Entries.keys]
  · rw [List.getElem?_map, hmember, Option.map_some] at hother
    obtain ⟨-, rfl⟩ := Prod.mk.inj (Option.some.inj hother)
    exact hread (name, member)

/-- Where every text may stay, the whole value may. -/
theorem readAs_self (hstays : ∀ path text, reads path text (.string text)) :
    ReadAs reads value value := by
  induction value using induction_on_children generalizing reads with
  | hholds value ih =>
      cases value with
      | string text => exact .text (hstays [] text)
      | array items =>
          refine .items rfl fun index item other hitem hother => ?_
          obtain rfl := Option.some.inj (hitem.symm.trans hother)
          exact ih item (List.mem_of_getElem? hitem) fun path => hstays (.index index :: path)
      | object members =>
          refine .members rfl fun index name member other hmember hother => ?_
          obtain ⟨-, rfl⟩ := Prod.mk.inj (Option.some.inj (hmember.symm.trans hother))
          have hchild : member ∈ (Value.object members).children :=
            List.mem_map_of_mem (List.mem_of_getElem? hmember)
          exact ih member hchild fun path => hstays (.key name :: path)
      | _ => exact .leaf rfl (by simp)

end Value

/-! ## Schemas that govern -/

/-- A schema names another one for a child of a value: for the items, or for the property. -/
def Schema.NamesFor (schema : Schema) : Segment → SchemaId → Prop
  | .index _, part => schema.items? = some part
  | .key name, part => schema.Governs name part

namespace SchemaTable

/-- The schema that coercion finds for a child of a value under a schema. -/
def partSchema? (table : SchemaTable) (steps : Nat) (schema : Schema) :
    Segment → Option SchemaId
  | .index _ => table.itemSchema? steps schema
  | .key name => table.propertySchema? name steps schema

/-- The schema that governs what stands at the end of a path, where coercion comes down to it: the
levels of the value and those of the searches through members draw on the same number of steps. -/
def governor? (table : SchemaTable) : (steps : Nat) → SchemaId → InstancePath → Option SchemaId
  | 0, _, _ => none
  | _ + 1, id, [] => some id
  | steps + 1, id, segment :: path =>
    (table.get? id).bind fun schema =>
      (table.partSchema? steps schema segment).bind fun part => table.governor? steps part path

/-- From a schema down a path: at each step some schema that takes part names the next one. -/
inductive LeadsDown (table : SchemaTable) : SchemaId → InstancePath → SchemaId → Prop
  | here {id : SchemaId} : LeadsDown table id [] id
  | inside {id part last : SchemaId} {schema : Schema} {segment : Segment} {path : InstancePath}
      (htakes : table.TakesPart id schema) (hnames : schema.NamesFor segment part)
      (hbelow : LeadsDown table part path last) : LeadsDown table id (segment :: path) last

/-- A text is read as a value under the effective type of a schema that takes part. -/
def ReadsText (table : SchemaTable) (id : SchemaId) (text : String) (value : Value) : Prop :=
  ∃ schema type, table.TakesPart id schema ∧ schema.effectiveType? = some type ∧
    readText? type text = some value

/-- None of the types that coercion tries for a text at a path reads it. -/
def LeavesText (table : SchemaTable) (steps : Nat) (id : SchemaId) (path : InstancePath)
    (text : String) : Prop :=
  ∀ governor schema, table.governor? steps id path = some governor →
    table.get? governor = some schema →
      ∀ type ∈ table.typesTried (steps - path.length - 1) schema, readText? type text = none

/-- What coercion makes of a text at a path: it stays if it has to, else it becomes what it is read as
in the composition of the schema that governs its place. -/
def MakesOfText (table : SchemaTable) (steps : Nat) (id : SchemaId) (path : InstancePath)
    (text : String) (result : Value) : Prop :=
  (result = .string text ∧ table.LeavesText steps id path text) ∨
    (result.kind ∈ [.integer, .number, .boolean, .null] ∧
      ∃ governor, table.governor? steps id path = some governor ∧
        table.ReadsText governor text result)

variable {table : SchemaTable} {id part : SchemaId} {schema : Schema} {steps : Nat}
  {segment : Segment} {path : InstancePath} {text : String} {value child : Value}

theorem exists_namesFor_of_partSchema? (hget : table.get? id = some schema)
    (hpart : table.partSchema? steps schema segment = some part) :
    ∃ declaring, table.TakesPart id declaring ∧ declaring.NamesFor segment part := by
  cases segment with
  | index position => exact exists_items_of_itemSchema? hget hpart
  | key name => exact exists_governs_of_propertySchema? hget hpart

/-- The schema that governs a place is named for it, level by level. -/
theorem leadsDown_of_governor? {governor : SchemaId}
    (hgovernor : table.governor? steps id path = some governor) :
    table.LeadsDown id path governor := by
  induction path generalizing steps id with
  | nil =>
      cases steps with
      | zero => cases hgovernor
      | succ steps =>
          obtain rfl := Option.some.inj hgovernor
          exact .here
  | cons segment path ih =>
      cases steps with
      | zero => cases hgovernor
      | succ steps =>
          obtain ⟨schema, hget, hrest⟩ := Option.bind_eq_some_iff.1 hgovernor
          obtain ⟨part, hpart, hbelow⟩ := Option.bind_eq_some_iff.1 hrest
          obtain ⟨declaring, htakes, hnames⟩ := exists_namesFor_of_partSchema? hget hpart
          exact .inside htakes hnames (ih hbelow)

theorem governor?_cons (hget : table.get? id = some schema) :
    table.governor? (steps + 1) id (segment :: path) =
      (table.partSchema? steps schema segment).bind fun part => table.governor? steps part path := by
  rw [governor?, hget, Option.bind_some]

/-- Below a child, the schema that was found for the child governs. -/
theorem makesOfText_cons (hget : table.get? id = some schema)
    (hpart : table.partSchema? steps schema segment = some part) :
    (fun path => table.MakesOfText (steps + 1) id (segment :: path)) =
      table.MakesOfText steps part := by
  funext path text result
  have hgovernor : table.governor? (steps + 1) id (segment :: path) =
      table.governor? steps part path := by
    rw [governor?_cons hget, hpart, Option.bind_some]
  have hleft : steps + 1 - (segment :: path).length - 1 = steps - path.length - 1 := by
    rw [List.length_cons]
    omega
  simp only [MakesOfText, LeavesText, hgovernor, hleft]

/-- Where no schema governs, a text stays. -/
theorem makesOfText_self
    (hnone : ∀ governor, table.governor? steps id path = some governor →
      table.get? governor = none) : table.MakesOfText steps id path text (.string text) := by
  refine .inl ⟨rfl, fun governor schema hgovernor hget => ?_⟩
  rw [hnone governor hgovernor] at hget
  cases hget

theorem governor?_of_get?_eq_none (hget : table.get? id = none) {governor : SchemaId}
    (hgovernor : table.governor? steps id path = some governor) : table.get? governor = none := by
  cases steps with
  | zero => cases hgovernor
  | succ steps =>
      cases path with
      | nil =>
          obtain rfl := Option.some.inj hgovernor
          exact hget
      | cons segment path =>
          rw [governor?, hget] at hgovernor
          cases hgovernor

theorem Reads.kind_mem {type : SchemaType} (hreads : Reads type value) :
    value.kind ∈ [.integer, .number, .boolean, .null] := by
  cases hreads <;> simp [Value.kind]

theorem makesOfText_coerceText (hget : table.get? id = some schema) :
    table.MakesOfText (steps + 1) id [] text (table.coerceText steps schema text) := by
  rcases table.coerceText_cases steps schema text with ⟨hstays, hunread⟩ | ⟨type, hmem, hread⟩
  · refine .inl ⟨hstays, fun governor other hgovernor hother => ?_⟩
    obtain rfl := Option.some.inj hgovernor
    obtain rfl := Option.some.inj (hget.symm.trans hother)
    exact hunread
  · obtain ⟨declaring, htakes, htype⟩ := exists_declaring_of_mem_typesTried hget hmem
    exact .inr ⟨(reads_of_readText? hread).kind_mem, id, rfl, declaring, type, htakes, htype, hread⟩

/-! ## One level -/

/-- A child under the schema that is found for it, given what coercion does one step further down. -/
theorem readAs_coerceUnder (hget : table.get? id = some schema)
    (hbelow : ∀ (part : SchemaId) (child : Value),
      child.ReadAs (table.MakesOfText steps part) (table.coerceAt steps part child)) :
    child.ReadAs (fun path => table.MakesOfText (steps + 1) id (segment :: path))
      (table.coerceUnder steps (table.partSchema? steps schema segment) child) := by
  cases hpart : table.partSchema? steps schema segment with
  | none =>
      refine Value.readAs_self fun path text => makesOfText_self fun governor hgovernor => ?_
      rw [governor?_cons hget, hpart] at hgovernor
      cases hgovernor
  | some part =>
      rw [makesOfText_cons hget hpart]
      exact hbelow part child

theorem readAs_coerceAt (table : SchemaTable) (steps : Nat) (id : SchemaId) (value : Value) :
    value.ReadAs (table.MakesOfText steps id) (table.coerceAt steps id value) := by
  induction steps generalizing id value with
  | zero =>
      rw [coerceAt_zero]
      refine Value.readAs_self fun path text => makesOfText_self fun governor hgovernor => ?_
      cases hgovernor
  | succ steps ih =>
      cases hget : table.get? id with
      | none =>
          rw [coerceAt_of_get?_eq_none hget]
          exact Value.readAs_self fun path text => makesOfText_self fun governor hgovernor =>
            governor?_of_get?_eq_none hget hgovernor
      | some schema =>
          cases value with
          | string text =>
              rw [coerceAt_text hget]
              exact .text (makesOfText_coerceText hget)
          | array items =>
              rw [coerceAt_array hget]
              exact Value.readAs_map_items fun index item => readAs_coerceUnder hget ih
          | object members =>
              rw [coerceAt_object hget]
              exact Value.readAs_map_members fun member => readAs_coerceUnder hget ih
          | _ =>
              rw [coerceAt_scalar rfl (by simp)]
              exact .leaf rfl (by simp)

/-! ## Coercion again -/

theorem coerceAt_coerceText (hget : table.get? id = some schema) :
    table.coerceAt (steps + 1) id (table.coerceText steps schema text) =
      table.coerceText steps schema text := by
  rcases table.coerceText_cases steps schema text with ⟨hstays, -⟩ | ⟨type, -, hread⟩
  · rw [hstays, coerceAt_text hget, hstays]
  · have hreads := reads_of_readText? hread
    refine coerceAt_scalar hreads.isContainer fun other hother => ?_
    rw [hother] at hreads
    cases hreads

theorem coerceUnder_coerceUnder {part? : Option SchemaId}
    (hagain : ∀ part child, table.coerceAt steps part (table.coerceAt steps part child) =
      table.coerceAt steps part child) :
    table.coerceUnder steps part? (table.coerceUnder steps part? child) =
      table.coerceUnder steps part? child := by
  cases part? with
  | none => rfl
  | some part => exact hagain part child

theorem coerceAt_coerceAt (table : SchemaTable) (steps : Nat) (id : SchemaId) (value : Value) :
    table.coerceAt steps id (table.coerceAt steps id value) = table.coerceAt steps id value := by
  induction steps generalizing id value with
  | zero => rw [coerceAt_zero, coerceAt_zero]
  | succ steps ih =>
      cases hget : table.get? id with
      | none => rw [coerceAt_of_get?_eq_none hget, coerceAt_of_get?_eq_none hget]
      | some schema =>
          cases value with
          | string text => rw [coerceAt_text hget, coerceAt_coerceText hget]
          -- names and positions are kept, so the second search for each child finds the same schema
          | array items =>
              rw [coerceAt_array hget, coerceAt_array hget, List.map_map]
              congr 1
              exact List.map_congr_left fun item _ => coerceUnder_coerceUnder ih
          | object members =>
              rw [coerceAt_object hget, coerceAt_object hget, List.map_map]
              congr 1
              refine List.map_congr_left fun member _ => ?_
              exact Prod.ext rfl (coerceUnder_coerceUnder ih)
          | _ => exact congrArg (table.coerceAt (steps + 1) id) (coerceAt_scalar rfl (by simp))

/-- Coercion keeps arrays, names and all leaves but texts.  A text stays if none of the types that are
tried for its place reads it, and else becomes an integer, a number, a boolean or null, as a schema in
the composition of the one that governs its place reads it; that one is named for the place, level by
level.  A second coercion changes nothing. -/
theorem coercion_reads_only_texts_and_once (table : SchemaTable) (id : SchemaId) (value : Value) :
    value.ReadAs (table.MakesOfText coercionSteps id) (table.coerce id value) ∧
      (∀ path governor, table.governor? coercionSteps id path = some governor →
        table.LeadsDown id path governor) ∧
      table.coerce id (table.coerce id value) = table.coerce id value :=
  ⟨readAs_coerceAt table coercionSteps id value,
    fun _ _ hgovernor => leadsDown_of_governor? hgovernor,
    coerceAt_coerceAt table coercionSteps id value⟩

end SchemaTable
end ApiContract
