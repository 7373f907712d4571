import ApiContract.Proofs.Conformance
import ApiContract.Proofs.Insertion
import ApiContract.Proofs.QueryLists

/-!
# Declared names of an exploded object

An exploded object takes its members from the pairs of the query, and which pairs belong to it depends
on the names that its schema is seen to declare.  These are found by one path through the
compositions: from a schema without a type to the first of its members, until a schema with a type
tells its own names and those of the schemas that it includes directly.  All other names that are
declared along `allOf` are overlooked, so their pairs belong only to objects without any listed name.
-/

namespace ApiContract

/-! ## What a shape lists -/

/-- The names that a schema declares itself or through a schema that it includes directly. -/
def Schema.listed (table : SchemaTable) (schema : Schema) : List String :=
  Entries.keys schema.properties ++
    (schema.allOf.filterMap table.get?).flatMap fun member => Entries.keys member.properties

namespace SchemaTable

/-- The first members of schemas without a type lead to a schema with a type. -/
inductive Leads (table : SchemaTable) : (steps : Nat) → SchemaId → Schema → Prop
  | typed {steps : Nat} {id : SchemaId} {schema : Schema} (hget : table.get? id = some schema)
      (htype : schema.effectiveType?.isSome) : Leads table (steps + 1) id schema
  | first {steps : Nat} {id member : SchemaId} {schema leading : Schema}
      (hget : table.get? id = some schema) (htype : schema.effectiveType? = none)
      (hmember : schema.members.head? = some member) (hrest : Leads table steps member leading) :
      Leads table (steps + 1) id leading

/-- A property of a schema or of one that it includes, at any depth. -/
def Declares (table : SchemaTable) (id : SchemaId) (name : String) : Prop :=
  ∃ schema, table.Conjunct id schema ∧ name ∈ Entries.keys schema.properties

/-- The shape of a schema is that of an object to which the name belongs: it is listed, or the
object lists no name at all. -/
def Sees (table : SchemaTable) (id : SchemaId) (name : String) : Prop :=
  ∃ leading, table.Leads Shape.maxSteps id leading ∧ leading.effectiveType? = some .object ∧
    (leading.listed table = [] ∨ name ∈ leading.listed table)

end SchemaTable

section Shapes

variable {table : SchemaTable} {id : SchemaId} {schema : Schema} {steps : Nat} {name : String}

theorem Schema.mem_listed_iff :
    name ∈ schema.listed table ↔ name ∈ Entries.keys schema.properties ∨
      ∃ part ∈ schema.allOf, ∃ member, table.get? part = some member ∧
        name ∈ Entries.keys member.properties := by
  simp only [listed, List.mem_append, List.mem_flatMap, List.mem_filterMap]
  constructor
  · rintro (hown | ⟨member, ⟨part, hpart, hget⟩, hname⟩)
    · exact .inl hown
    · exact .inr ⟨part, hpart, member, hget, hname⟩
  · rintro (hown | ⟨part, hpart, member, hget, hname⟩)
    · exact .inl hown
    · exact .inr ⟨member, ⟨part, hpart, hget⟩, hname⟩

theorem Shape.ofSchema_none : ofSchema table steps none = .primitive := by
  cases steps <;> rfl

theorem Shape.ofSchema_eq_object_iff {names : List String} :
    ofSchema table steps (some id) = .object names ↔
      ∃ leading, table.Leads steps id leading ∧ leading.effectiveType? = some .object ∧
        leading.listed table = names := by
  induction steps generalizing id with
  | zero =>
      constructor
      · intro hshape
        cases hshape
      · rintro ⟨leading, hleads, -⟩
        cases hleads
  | succ steps ih =>
      cases hget : table.get? id with
      | none =>
          have hshape : ofSchema table (steps + 1) (some id) = .primitive := by
            simp [ofSchema, hget]
          rw [hshape]
          constructor
          · intro hobject
            cases hobject
          · rintro ⟨leading, hleads, -⟩
            cases hleads <;> simp_all
      | some schema =>
          cases htype : schema.effectiveType? with
          | some type =>
              have hleads : ∀ leading, table.Leads (steps + 1) id leading ↔ leading = schema := by
                intro leading
                constructor
                · intro hleads
                  cases hleads <;> simp_all
                · rintro rfl
                  exact .typed hget (by simp [htype])
              simp only [hleads, exists_eq_left, htype, ofSchema, Option.bind_some, hget]
              cases type <;> simp [Schema.listed]
          | none =>
              have hleads : ∀ leading, table.Leads (steps + 1) id leading ↔
                  ∃ member, schema.members.head? = some member ∧
                    table.Leads steps member leading := by
                intro leading
                constructor
                · intro hleads
                  cases hleads <;> simp_all
                · rintro ⟨member, hmember, hrest⟩
                  exact .first hget htype hmember hrest
              simp only [hleads, ofSchema, Option.bind_some, hget, htype]
              cases hmember : schema.members.head? with
              | none => simp [ofSchema_none]
              | some member => simp [ih]

theorem Shape.of_eq_object_iff {names : List String} :
    of table (some id) = .object names ↔
      ∃ leading, table.Leads maxSteps id leading ∧ leading.effectiveType? = some .object ∧
        leading.listed table = names :=
  ofSchema_eq_object_iff

/-- Nothing is overlooked by a schema for objects if what it includes includes nothing further. -/
theorem SchemaTable.sees_of_declares (hget : table.get? id = some schema)
    (htype : schema.effectiveType? = some .object)
    (hflat : ∀ part ∈ schema.allOf, ∀ member, table.get? part = some member → member.allOf = [])
    (hdeclares : table.Declares id name) : table.Sees id name := by
  obtain ⟨declaring, ⟨last, hpath, hlast⟩, hname⟩ := hdeclares
  have hlisted : name ∈ schema.listed table := by
    rw [Schema.mem_listed_iff]
    rcases Relation.ReflTransGen.cases_head hpath with rfl | ⟨next, hincludes, hrest⟩
    · obtain rfl : schema = declaring := Option.some.inj (hget.symm.trans hlast)
      exact .inl hname
    · obtain ⟨whole, hwhole, hnext⟩ := hincludes
      obtain rfl : schema = whole := Option.some.inj (hget.symm.trans hwhole)
      rcases Relation.ReflTransGen.cases_head hrest with rfl | ⟨deeper, ⟨member, hmember, hdeeper⟩, -⟩
      · exact .inr ⟨next, hnext, declaring, hlast, hname⟩
      · rw [hflat next hnext member hmember] at hdeeper
        exact absurd hdeeper List.not_mem_nil
  exact ⟨schema, .typed hget (by simp [htype]), htype, .inr hlisted⟩

end Shapes

/-! ## What an object takes from a query -/

theorem Entries.get?_ofPairs {α : Type} (pairs : List (String × α)) (key : String) :
    get? (ofPairs pairs) key = (pairs.filter fun pair => pair.1 = key).getLast?.map Prod.snd := by
  induction pairs using List.reverseRecOn with
  | nil => rfl
  | append_singleton pairs pair ih =>
      have hstep : ofPairs (pairs ++ [pair]) = insert (ofPairs pairs) pair.1 pair.2 := by
        rw [ofPairs, List.foldl_append]
        rfl
      rw [hstep, List.filter_append]
      by_cases hkey : pair.1 = key
      · subst hkey
        rw [get?_insert_self]
        simp
      · rw [get?_insert_of_ne (Ne.symm hkey), ih]
        simp [hkey]

namespace StyleReader

variable {pairs : List (String × String)} {names : List String} {name text : String}
  {parameter : Parameter} {shape : Shape}

/-- The pairs that belong to an object with the listed names. -/
def listedPairs (names : List String) (pairs : List (String × String)) : List (String × String) :=
  pairs.filter fun pair => names.isEmpty || names.contains pair.1

theorem ofQuery_eq_object_iff (hexplode : parameter.explode = true) {members : Entries Value} :
    ofQuery ',' parameter shape pairs = .ok (some (.object members)) ↔
      ∃ names, shape = .object names ∧ listedPairs names pairs ≠ [] ∧
        objectOf (listedPairs names pairs) = .object members := by
  cases shape with
  | primitive => simp [ofQuery]
  | array => simp [ofQuery, hexplode, arrayOf]
  | object names =>
      have hread : ofQuery ',' parameter (.object names) pairs =
          .ok (if (listedPairs names pairs).isEmpty then none
            else some (objectOf (listedPairs names pairs))) := by
        simp only [ofQuery, hexplode, if_true]
        rfl
      rw [hread]
      by_cases hnone : listedPairs names pairs = [] <;> simp [hnone]

theorem textsOf_listedPairs (names : List String) (pairs : List (String × String)) (name : String) :
    textsOf (listedPairs names pairs) name =
      if names = [] ∨ name ∈ names then textsOf pairs name else [] := by
  unfold textsOf listedPairs
  rw [List.filter_filter]
  split
  · next hbelongs =>
      congr 1
      refine List.filter_congr fun pair _ => ?_
      by_cases hname : pair.1 = name <;> simp_all
  · next hother =>
      rw [List.filter_eq_nil_iff.2, List.map_nil]
      intro pair _
      by_cases hname : pair.1 = name <;> simp_all

theorem get?_objectOf {members : Entries Value} (hobject : objectOf pairs = .object members)
    (name : String) :
    Entries.get? members name = (textsOf pairs name).getLast?.map .string := by
  obtain rfl := Value.object.inj hobject
  rw [Entries.get?_ofPairs, List.filter_map, List.getLast?_map, textsOf, List.getLast?_map]
  simp only [Option.map_map]
  rfl

end StyleReader

/-! ## Kept pairs -/

section Keeping

variable {table : SchemaTable} {parameter : Parameter} {id : SchemaId} {request : Request}
  {captures : Entries String} {name text : String}

/-- The object that is read for a parameter has a member for a name. -/
def StyleRegistry.Keeps (registry : StyleRegistry) (table : SchemaTable) (parameter : Parameter)
    (sources : ParameterSources) (name text : String) : Prop :=
  ∃ members, registry.extract table parameter sources = .ok (some (.object members)) ∧
    Entries.get? members name = some (.string text)

theorem StyleRegistry.keeps_iff_sees (hform : parameter.IsForm) (hexplode : parameter.explode = true)
    (hschema : parameter.schema? = some id)
    (htext : (StyleReader.textsOf request.queryPairs name).getLast? = some text) :
    standard.Keeps table parameter (.ofRequest request captures) name text ↔
      table.Sees id name := by
  have hquery : (ParameterSources.ofRequest request captures).query = request.queryPairs := rfl
  have hextract : ∀ members, standard.extract table parameter (.ofRequest request captures) =
      .ok (some (.object members)) ↔ ∃ names, Shape.of table (some id) = .object names ∧
        StyleReader.listedPairs names request.queryPairs ≠ [] ∧
        StyleReader.objectOf (StyleReader.listedPairs names request.queryPairs) =
          .object members := by
    intro members
    rw [extract_form_iff hform rfl, hschema, hquery, StyleReader.ofQuery_eq_object_iff hexplode]
  constructor
  · rintro ⟨members, hread, hmember⟩
    obtain ⟨names, hshape, -, hobject⟩ := (hextract members).1 hread
    obtain ⟨leading, hleads, htype, hlisted⟩ := Shape.of_eq_object_iff.1 hshape
    refine ⟨leading, hleads, htype, ?_⟩
    rw [hlisted]
    by_contra hother
    rw [StyleReader.get?_objectOf hobject, StyleReader.textsOf_listedPairs, if_neg hother] at hmember
    cases hmember
  · rintro ⟨leading, hleads, htype, hbelongs⟩
    have hshape : Shape.of table (some id) = .object (leading.listed table) :=
      Shape.of_eq_object_iff.2 ⟨leading, hleads, htype, rfl⟩
    have htexts := StyleReader.textsOf_listedPairs (leading.listed table) request.queryPairs name
    rw [if_pos hbelongs] at htexts
    have hpresent : StyleReader.listedPairs (leading.listed table) request.queryPairs ≠ [] := by
      intro hnone
      rw [← htexts, hnone] at htext
      cases htext
    refine ⟨_, (hextract _).2 ⟨_, hshape, hpresent, rfl⟩, ?_⟩
    rw [StyleReader.get?_objectOf rfl, htexts, htext]
    rfl

end Keeping

/-- For any query, the declared pairs in it are all kept, each with the last text of its name, if and
only if each of their names is seen. -/
theorem StyleRegistry.keeps_declared_iff {table : SchemaTable} {parameter : Parameter}
    {id : SchemaId} (hform : parameter.IsForm) (hexplode : parameter.explode = true)
    (hschema : parameter.schema? = some id) (request : Request) (captures : Entries String) :
    (∀ name text, table.Declares id name →
        (StyleReader.textsOf request.queryPairs name).getLast? = some text →
        standard.Keeps table parameter (.ofRequest request captures) name text) ↔
      ∀ name ∈ Entries.keys request.queryPairs, table.Declares id name → table.Sees id name := by
  have hkeeps : ∀ name text,
      (StyleReader.textsOf request.queryPairs name).getLast? = some text →
        (standard.Keeps table parameter (.ofRequest request captures) name text ↔
          table.Sees id name) :=
    fun name text htext => keeps_iff_sees hform hexplode hschema htext
  constructor
  · intro hall name hname hdeclared
    have hpresent : StyleReader.textsOf request.queryPairs name ≠ [] := by
      obtain ⟨text, hmem⟩ := Entries.mem_keys_iff.1 hname
      have htext : text ∈ StyleReader.textsOf request.queryPairs name :=
        List.mem_map.2 ⟨(name, text), List.mem_filter.2 ⟨hmem, by simp⟩, rfl⟩
      exact List.ne_nil_of_mem htext
    have hlast := List.getLast?_eq_some_getLast hpresent
    exact (hkeeps name _ hlast).1 (hall name _ hdeclared hlast)
  · intro hall name text hdeclared htext
    have hname : name ∈ Entries.keys request.queryPairs := by
      have hmem := List.mem_of_getLast? htext
      obtain ⟨pair, hpair, rfl⟩ := List.mem_map.1 hmem
      obtain ⟨hpair, hkey⟩ := List.mem_filter.1 hpair
      have hname : pair.1 = name := by simpa using hkey
      exact hname ▸ List.mem_map_of_mem hpair
    exact (hkeeps name text htext).2 (hall name hname hdeclared)

theorem StyleRegistry.directly_included_name_is_kept :
    let table : SchemaTable := ⟨#[
      { type? := some .object, properties := [("a", 2)], allOf := [1] },
      { properties := [("b", 2)] }, .ofType .string]⟩
    let request := Request.new "GET" "/x?b=1&a=2&b=3"
    standard.Keeps table (.new "p" .query (some 0)) (.ofRequest request []) "b" "3" := by
  intro table request
  have hform : (Parameter.new "p" .query (some 0)).IsForm := ⟨rfl, rfl, rfl⟩
  have hquery : request.query = Form.Escaping.standard.write [("b", "1"), ("a", "2"), ("b", "3")] := by
    decide
  have hpairs := Request.queryPairs_of_write hquery
  have hget : table.get? 0 =
      some { type? := some .object, properties := [("a", 2)], allOf := [1] } := rfl
  have hflat : ∀ part ∈ [1], ∀ member, table.get? part = some member → member.allOf = [] := by
    intro part hpart member hget
    obtain rfl := List.mem_singleton.1 hpart
    obtain rfl := Option.some.inj hget
    rfl
  have hdeclares : table.Declares 0 "b" := ⟨_, ⟨1, .single ⟨_, rfl, by decide⟩, rfl⟩, by decide⟩
  have hkeeps := (keeps_declared_iff hform rfl rfl request []).2 fun name _ hdeclared =>
    SchemaTable.sees_of_declares hget rfl hflat hdeclared
  exact hkeeps "b" "3" hdeclares (by rw [hpairs]; decide)

/-- Without a type of its own, a schema passes over all that it includes behind the first. -/
theorem StyleRegistry.second_included_name_is_dropped :
    let table : SchemaTable := ⟨#[
      { allOf := [1, 2] }, { type? := some .object, properties := [("a", 3)] },
      { type? := some .object, properties := [("b", 3)] }, .ofType .string]⟩
    let parameter := Parameter.new "p" .query (some 0)
    let request := Request.new "GET" "/x?a=1&b=2"
    table.IsAcyclic ∧ table.Declares 0 "b" ∧
      (StyleReader.textsOf request.queryPairs "b").getLast? = some "2" ∧
      standard.extract table parameter (.ofRequest request []) =
        .ok (some (.object [("a", .string "1")])) ∧
      ¬ standard.Keeps table parameter (.ofRequest request []) "b" "2" := by
  intro table parameter request
  have hacyclic : table.IsAcyclic := SchemaTable.isAcyclic_of_components (by decide)
  have hdeclares : table.Declares 0 "b" :=
    ⟨_, ⟨2, .single ⟨_, rfl, by decide⟩, rfl⟩, by decide⟩
  have hquery : request.query = Form.Escaping.standard.write [("a", "1"), ("b", "2")] := by decide
  have hpairs := Request.queryPairs_of_write hquery
  have hform : parameter.IsForm := ⟨rfl, rfl, rfl⟩
  have hread : standard.extract table parameter (.ofRequest request []) =
      .ok (some (.object [("a", .string "1")])) := by
    have hsource : (ParameterSources.ofRequest request []).query = [("a", "1"), ("b", "2")] :=
      hpairs
    rw [extract_form_iff hform rfl, hsource]
    rfl
  refine ⟨hacyclic, hdeclares, by rw [hpairs]; decide, hread, ?_⟩
  rintro ⟨members, hmembers, hmember⟩
  rw [hread] at hmembers
  obtain rfl := Value.object.inj (Option.some.inj (Except.ok.inj hmembers))
  cases hmember

end ApiContract
