import ApiContract.Proofs.NumericBounds

/-!
# Comparing integers

Wherever an integer is compared with a literal, a bound, a step or another item, both are rounded to
binary64 first.  So integers that are rounded alike are taken for the same, and multiples are those
of the rounded integers, up to a tolerance.  Below `2⁵³`, and for steps up to `2²⁹`, nothing of this
makes a difference.
-/

namespace ApiContract

open Binary64 Constraints

namespace Schema

/-- An integer meets the keywords of a schema when it is compared with their numbers through a
`view`, and with steps as `divides` says. -/
structure Meets (view : ℤ → ℤ) (divides : ℤ → ℤ → Prop) (members : Entries Json) (n : ℤ) :
    Prop where
  listed : ∀ literals, Entries.get? members "enum" = some (.array literals) →
    ∃ literal ∈ literals, ∃ k, literal.Denotes k ∧ view k = view n
  minimum : ∀ k, Declares members "minimum" k → view k ≤ view n
  maximum : ∀ k, Declares members "maximum" k → view n ≤ view k
  step : ∀ k, Declares members "multipleOf" k → divides k n

/-- The keywords are meant for the integers themselves. -/
def MeetsExactly (members : Entries Json) (n : ℤ) : Prop := Meets id (· ∣ ·) members n

/-- The keywords are met by the integers as binary64 numbers. -/
def MeetsRounded (members : Entries Json) (n : ℤ) : Prop :=
  Meets nearest IsNearMultiple members n

/-- A schema for integers has literals, bounds and a positive step at most, all of them integers
below a limit. -/
structure IsNumeric (limit : ℕ) (members : Entries Json) : Prop where
  type : Entries.get? members "type" = some (.string "integer")
  only : UsesOnly members ["type", "enum", "minimum", "maximum", "multipleOf"]
  literals : ∀ json, Entries.get? members "enum" = some json →
    ∃ literals, json = .array literals ∧ ∀ literal ∈ literals, literal.IsWithin limit
  numbers : ∀ keyword ∈ ["minimum", "maximum", "multipleOf"], ∀ json,
    Entries.get? members keyword = some json → json.IsWithin limit
  positive : ∀ k, Declares members "multipleOf" k → 0 < k

/-- A schema for arrays whose items all have to be different. -/
structure IsUnique (members : Entries Json) : Prop where
  type : Entries.get? members "type" = some (.string "array")
  only : UsesOnly members ["type", "items", "uniqueItems"]
  unique : Flags members "uniqueItems"

end Schema

/-! ## Literals and items -/

theorem value?_ofInt_toInt (n : Int64) : (ofInt n.toInt).value? = some (nearest n.toInt : ℚ) := by
  have hleast := n.le_toInt
  have hmost := n.toInt_lt
  exact value?_ofInt (by omega)

theorem same_ofInt_iff {n : Int64} {x : Binary64} {k : ℤ} (hx : x.value? = some (nearest k : ℚ)) :
    (ofInt n.toInt).same x ↔ nearest k = nearest n.toInt := by
  rw [same_iff (value?_ofInt_toInt n) hx, Int.cast_inj, eq_comm]

theorem Value.matchesLiteral_integer_iff {n : Int64} {literal : Json}
    (hliteral : literal.IsWithin (2 ^ 64)) : (Value.integer n).matchesLiteral literal ↔
      ∃ k, literal.Denotes k ∧ nearest k = nearest n.toInt := by
  obtain ⟨k, hdenotes, hlt⟩ := hliteral
  obtain ⟨x, hx, hvalue⟩ := hdenotes.exists_asBinary64? hlt
  have hsame : (Value.integer n).matchesLiteral literal = (ofInt n.toInt).same x := by
    cases hdenotes with
    | integer =>
        obtain rfl := Option.some.inj hx
        rfl
    | decimal =>
        obtain rfl := Option.some.inj hx
        rfl
  rw [hsame, same_ofInt_iff hvalue]
  constructor
  · intro hnearest
    exact ⟨k, hdenotes, hnearest⟩
  · rintro ⟨other, hother, hnearest⟩
    rwa [hdenotes.unique hother]

theorem Constraints.repeats_integers_eq_false_iff {ns : List Int64} :
    Constraints.repeats (ns.map Value.integer) = false ↔
      (ns.map fun n => nearest n.toInt).Nodup := by
  induction ns with
  | nil => simp [Constraints.repeats]
  | cons n rest ih =>
      have hsame : ∀ other : Int64, (Value.integer n).matchesLiteral (Value.integer other).toJson ↔
          nearest other.toInt = nearest n.toInt :=
        fun other => same_ofInt_iff (value?_ofInt_toInt other)
      rw [List.map_cons, List.map_cons, List.nodup_cons, ← ih, Constraints.repeats,
        Bool.or_eq_false_iff, List.any_eq_false]
      simp [hsame, -Bool.not_eq_true]

theorem nodup_nearest_iff {ns : List Int64} (hsmall : ∀ n ∈ ns, n.toInt.natAbs < 2 ^ 53) :
    (ns.map fun n => nearest n.toInt).Nodup ↔ ns.Nodup := by
  refine ⟨List.Nodup.of_map _, List.Nodup.map_on fun n hn m hm heq => ?_⟩
  rw [nearest_of_natAbs_le (hsmall n hn).le, nearest_of_natAbs_le (hsmall m hm).le] at heq
  exact Int64.toInt_inj.1 heq

/-! ## Keywords -/

namespace Schema

variable {members : Entries Json} {limit : ℕ} {n : Int64}

theorem readLiterals_of_isNumeric (hnumeric : IsNumeric limit members) {literals : List Json} :
    readLiterals members = some literals ↔
      Entries.get? members "enum" = some (.array literals) := by
  unfold readLiterals
  rw [hnumeric.only.get?_eq_none (by decide : "const" ∉ _)]
  cases henum : Entries.get? members "enum" with
  | none => simp
  | some json =>
      obtain ⟨others, rfl, -⟩ := hnumeric.literals json henum
      simp [Json.asArray?]

theorem forall_plain_bound_iff {plainKeyword exclusiveKeyword : String}
    {fits : Binary64 → Bool → Prop} {Q : ℤ → Prop}
    (hfits : ∀ x (k : ℤ), x.value? = some (nearest k : ℚ) → (fits x false ↔ Q k))
    (hplain : ∀ json, Entries.get? members plainKeyword = some json → json.IsWithin (2 ^ 64))
    (hnone : Entries.get? members exclusiveKeyword = none) :
    (∀ x, (bound members plainKeyword exclusiveKeyword).1 = some x →
        fits x (bound members plainKeyword exclusiveKeyword).2) ↔
      ∀ k, Declares members plainKeyword k → Q k := by
  have hbound : bound members plainKeyword exclusiveKeyword =
      ((Entries.get? members plainKeyword).bind Json.asBinary64?, false) := by
    unfold bound
    rw [hnone]
  rw [hbound]
  exact forall_number_iff le_rfl hplain fun x k _ _ hvalue _ => hfits x k hvalue

/-- The keywords of a schema ask for what they say about rounded integers. -/
theorem meetsRounded_iff (hnumeric : IsNumeric (2 ^ 64) members) :
    ((numericConstraints members).numberExcesses (ofInt n.toInt) = [] ∧
        ∀ literals, readLiterals members = some literals →
          ∃ literal ∈ literals, (Value.integer n).matchesLiteral literal) ↔
      MeetsRounded members n.toInt := by
  have hvalue := value?_ofInt_toInt n
  have hminimum := forall_plain_bound_iff (fun _ _ hx => (respectsMinimum_iff hvalue hx).2)
    (hnumeric.numbers "minimum" (by decide))
    (hnumeric.only.get?_eq_none (by decide : "exclusiveMinimum" ∉ _))
  have hmaximum := forall_plain_bound_iff (fun _ _ hx => (respectsMaximum_iff hvalue hx).2)
    (hnumeric.numbers "maximum" (by decide))
    (hnumeric.only.get?_eq_none (by decide : "exclusiveMaximum" ∉ _))
  have hstep : (∀ x, (Entries.get? members "multipleOf").bind Json.asBinary64? = some x →
      isMultiple (ofInt n.toInt) x) ↔
        ∀ k, Declares members "multipleOf" k → IsNearMultiple k n.toInt := by
    refine forall_number_iff le_rfl (hnumeric.numbers "multipleOf" (by decide))
      fun x k hdeclares hlt _ hmade => ?_
    -- The two zeros have one value, so only a step other than zero is determined by its value.
    have hpositive := hnumeric.positive k hdeclares
    have hleast := n.le_toInt
    have hmost := n.toInt_lt
    rw [hmade hpositive.ne', isMultiple_ofInt_iff (by omega) hlt hpositive]
  have hlisted : ∀ literals, Entries.get? members "enum" = some (.array literals) →
      ((∃ literal ∈ literals, (Value.integer n).matchesLiteral literal) ↔
        ∃ literal ∈ literals, ∃ k, literal.Denotes k ∧ nearest k = nearest n.toInt) := by
    intro literals henum
    obtain ⟨others, heq, hwithin⟩ := hnumeric.literals _ henum
    obtain rfl := Json.array.inj heq
    refine exists_congr fun literal => and_congr_right fun hmem => ?_
    exact Value.matchesLiteral_integer_iff (hwithin literal hmem)
  simp only [readLiterals_of_isNumeric hnumeric]
  rw [Constraints.numberExcesses_eq_nil_iff]
  constructor
  · rintro ⟨⟨hbelow, habove, hmultiple⟩, hmatched⟩
    exact ⟨fun literals henum => (hlisted literals henum).1 (hmatched literals henum),
      hminimum.1 hbelow, hmaximum.1 habove, hstep.1 hmultiple⟩
  · intro hmeets
    exact ⟨⟨hminimum.2 hmeets.minimum, hmaximum.2 hmeets.maximum, hstep.2 hmeets.step⟩,
      fun literals henum => (hlisted literals henum).2 (hmeets.listed literals henum)⟩

theorem IsNumeric.natAbs_lt (hnumeric : IsNumeric limit members) {keyword : String}
    (hkeyword : keyword ∈ ["minimum", "maximum", "multipleOf"]) {k : ℤ}
    (hdeclares : Declares members keyword k) : k.natAbs < limit :=
  hdeclares.natAbs_lt fun json hget => .inr (hnumeric.numbers keyword hkeyword json hget)

theorem IsNumeric.natAbs_lt_of_mem (hnumeric : IsNumeric limit members) {literals : List Json}
    (henum : Entries.get? members "enum" = some (.array literals)) {literal : Json}
    (hmem : literal ∈ literals) {k : ℤ} (hdenotes : literal.Denotes k) : k.natAbs < limit := by
  obtain ⟨others, heq, hwithin⟩ := hnumeric.literals _ henum
  obtain rfl := Json.array.inj heq
  obtain ⟨other, hother, hlt⟩ := hwithin literal hmem
  rwa [hdenotes.unique hother]

theorem meetsRounded_iff_meetsExactly (hnumeric : IsNumeric (2 ^ 53) members)
    (hsteps : ∀ k, Declares members "multipleOf" k → k ≤ 2 ^ 29) {n : ℤ}
    (hsmall : n.natAbs < 2 ^ 53) :
    MeetsRounded members n ↔ MeetsExactly members n := by
  have hexact : ∀ k : ℤ, k.natAbs < 2 ^ 53 → nearest k = k :=
    fun k hlt => nearest_of_natAbs_le hlt.le
  have hlisted : ∀ literals, Entries.get? members "enum" = some (.array literals) →
      ((∃ literal ∈ literals, ∃ k, literal.Denotes k ∧ nearest k = nearest n) ↔
        ∃ literal ∈ literals, ∃ k, literal.Denotes k ∧ k = n) := by
    intro literals henum
    refine exists_congr fun literal => and_congr_right fun hmem => exists_congr fun k =>
      and_congr_right fun hdenotes => ?_
    rw [hexact k (hnumeric.natAbs_lt_of_mem henum hmem hdenotes), hexact n hsmall]
  have hbound : ∀ keyword ∈ ["minimum", "maximum", "multipleOf"], ∀ k,
      Declares members keyword k → nearest k = k :=
    fun keyword hkeyword k hdeclares => hexact k (hnumeric.natAbs_lt hkeyword hdeclares)
  have hstep : ∀ k, Declares members "multipleOf" k → (IsNearMultiple k n ↔ k ∣ n) :=
    fun k hdeclares =>
      isNearMultiple_iff_dvd hsmall (hnumeric.positive k hdeclares) (hsteps k hdeclares)
  constructor
  · intro hmeets
    refine ⟨fun literals henum => (hlisted literals henum).1 (hmeets.listed literals henum),
      fun k hk => ?_, fun k hk => ?_, fun k hk => (hstep k hk).1 (hmeets.step k hk)⟩
    · have hle := hmeets.minimum k hk
      rwa [hbound "minimum" (by decide) k hk, hexact n hsmall] at hle
    · have hle := hmeets.maximum k hk
      rwa [hbound "maximum" (by decide) k hk, hexact n hsmall] at hle
  · intro hmeets
    refine ⟨fun literals henum => (hlisted literals henum).2 (hmeets.listed literals henum),
      fun k hk => ?_, fun k hk => ?_, fun k hk => (hstep k hk).2 (hmeets.step k hk)⟩
    · rw [hbound "minimum" (by decide) k hk, hexact n hsmall]
      exact hmeets.minimum k hk
    · rw [hbound "maximum" (by decide) k hk, hexact n hsmall]
      exact hmeets.maximum k hk

end Schema

namespace SchemaRules

variable {rules : SchemaRules} {scope : Scope} {id listId : SchemaId}
  {members listMembers : Entries Json}

/-- A list of integers is accepted by a schema that asks for different items if its items are
accepted and no two of them are rounded alike. -/
theorem isAccepted_integers_iff {schema : Schema}
    (hfilled : scope.IsFilledIn rules.schemas id (.object members))
    (hunique : Schema.IsUnique members) (hget : rules.schemas.get? id = some schema)
    (ns : List Int64) :
    (rules.apply id (.array (ns.map Value.integer))).isAccepted ↔
      (∀ part, schema.items? = some part → ∀ n ∈ ns, (rules.apply part (.integer n)).isAccepted) ∧
        (ns.map fun n => nearest n.toInt).Nodup := by
  obtain ⟨items?, -, hfound⟩ := hfilled.exists_get?_of_unique hunique.type hunique.only
  obtain rfl := Option.some.inj (hget.symm.trans hfound)
  have hset : Schema.isSet members "uniqueItems" = true := by
    unfold Schema.isSet
    rw [hunique.unique]
    rfl
  have hbounds : boundFaults { type? := some .array, items?, constraints := {
      uniqueItems := Schema.isSet members "uniqueItems" } } (.array (ns.map Value.integer)) = [] ↔
        (ns.map fun n => nearest n.toInt).Nodup := by
    rw [boundFaults_eq_nil_iff, ← repeats_integers_eq_false_iff, hset]
    simp [excesses, itemExcesses, short?, over?]
  rw [isAccepted_apply_iff_of_alone hget (by simp) rfl rfl, hbounds, judgeType_array rfl]
  refine and_congr_left fun _ => isAccepted_judgeItems_iff.trans ?_
  simp only [List.forall_mem_map]
  rfl

/-- Integers are compared with literals, bounds and steps, and with each other, after they were
rounded to binary64.  Small ones are compared exactly. -/
theorem integers_are_compared_rounded
    (hfilled : scope.IsFilledIn rules.schemas id (.object members))
    (hnumeric : Schema.IsNumeric (2 ^ 64) members)
    (hlist : scope.IsFilledIn rules.schemas listId (.object listMembers))
    (hunique : Schema.IsUnique listMembers) :
    (∀ n : Int64, (rules.apply id (.integer n)).isAccepted ↔
      Schema.MeetsRounded members n.toInt) ∧
    (Schema.IsNumeric (2 ^ 53) members →
      (∀ k, Schema.Declares members "multipleOf" k → k ≤ 2 ^ 29) →
      ∀ n : Int64, n.toInt.natAbs < 2 ^ 53 → ((rules.apply id (.integer n)).isAccepted ↔
        Schema.MeetsExactly members n.toInt)) ∧
    ∀ schema, rules.schemas.get? listId = some schema → ∀ ns : List Int64,
      ((rules.apply listId (.array (ns.map Value.integer))).isAccepted ↔
        (∀ part, schema.items? = some part →
          ∀ n ∈ ns, (rules.apply part (.integer n)).isAccepted) ∧
        (ns.map fun n => nearest n.toInt).Nodup) ∧
      ((∀ n ∈ ns, n.toInt.natAbs < 2 ^ 53) →
        ((ns.map fun n => nearest n.toInt).Nodup ↔ ns.Nodup)) := by
  have haccepted : ∀ n : Int64, (rules.apply id (.integer n)).isAccepted ↔
      Schema.MeetsRounded members n.toInt := by
    intro n
    rw [isAccepted_integer_iff hfilled hnumeric.type (hnumeric.only.mono (by decide)),
      Schema.meetsRounded_iff hnumeric]
  refine ⟨haccepted, fun hsmall hsteps n hn => ?_, fun schema hget ns => ⟨?_, ?_⟩⟩
  · rw [haccepted, Schema.meetsRounded_iff_meetsExactly hsmall hsteps hn]
  · exact isAccepted_integers_iff hlist hunique hget ns
  · exact nodup_nearest_iff

end SchemaRules

/-! ## Serial numbers -/

/-- The keywords name the neighbours of `2⁵⁴ + 4`, which are rounded to it, and a step that does not
divide it. -/
def serialMembers : Entries Json :=
  [("type", .string "integer"), ("enum", .array [.integer 18014398509481989]),
    ("minimum", .integer 18014398509481989), ("maximum", .integer 18014398509481987),
    ("multipleOf", .integer 3)]

/-- Items that are all different. -/
def serialsMembers : Entries Json := [("type", .string "array"), ("uniqueItems", .bool true)]

def serialDocument : Json := .object [("openapi", .string "3.1.0"), ("components", .object [
  ("schemas", .object [("Serial", .object serialMembers), ("Serials", .object serialsMembers)])])]

def serialTable : SchemaTable :=
  ⟨#[{ type? := some .integer, literals? := some [.integer 18014398509481989],
        constraints := Schema.numericConstraints serialMembers },
    { type? := some .array, constraints := { uniqueItems := true } }]⟩

/-- The document as a record. -/
def numbering : Document where
  openapi? := some "3.1.0"
  swagger? := none
  self? := none
  servers := []
  paths := []
  components := {
    schemas := [("Serial", .object serialMembers), ("Serials", .object serialsMembers)] }
  security? := none

theorem run_readComponents_numbering :
    StateT.run numbering.scope.readComponents {} = .ok ((), serialTable) := by
  have hschemas : numbering.scope.components.schemas =
    [("Serial", .object serialMembers), ("Serials", .object serialsMembers)] := rfl
  have hserial : numbering.scope.readComponent (.object serialMembers) = pure {
      type? := some .integer, literals? := some [.integer 18014398509481989],
      constraints := Schema.numericConstraints serialMembers } := by
    unfold Scope.readComponent
    rfl
  have hserials : numbering.scope.readComponent (.object serialsMembers) = pure {
      type? := some .array, constraints := { uniqueItems := true } } := by
    unfold Scope.readComponent
    rfl
  simp only [Scope.readComponents, hschemas, List.zipIdx_cons, List.zipIdx_nil,
    List.forM_eq_forM, List.forM_cons, List.forM_nil, hserial, hserials]
  rfl

theorem ofJson_serialDocument : Contract.ofJson serialDocument = .ok { schemas := serialTable } :=
  Contract.ofJson_schemas run_readComponents_numbering

theorem isFilledIn_serial : numbering.scope.IsFilledIn serialTable 0 (.object serialMembers) :=
  numbering.isFilledIn_of_readComponents (by decide) run_readComponents_numbering rfl

theorem isFilledIn_serials : numbering.scope.IsFilledIn serialTable 1 (.object serialsMembers) :=
  numbering.isFilledIn_of_readComponents (by decide) run_readComponents_numbering rfl

theorem declares_minimum_serial : Schema.Declares serialMembers "minimum" 18014398509481989 :=
  ⟨_, rfl, .integer _⟩

theorem declares_maximum_serial : Schema.Declares serialMembers "maximum" 18014398509481987 :=
  ⟨_, rfl, .integer _⟩

theorem declares_multipleOf_serial : Schema.Declares serialMembers "multipleOf" 3 :=
  ⟨_, rfl, .integer _⟩

theorem isNumeric_serial : Schema.IsNumeric (2 ^ 64) serialMembers where
  type := rfl
  only := by decide
  literals := (Entries.forall_get?_iff rfl).2 ⟨_, rfl,
    List.forall_mem_singleton.2 (Json.isWithin_integer (i := 18014398509481989) (by decide))⟩
  numbers := by
    rw [List.forall_mem_cons, List.forall_mem_cons, List.forall_mem_singleton]
    refine ⟨?_, ?_, ?_⟩
    · exact (Entries.forall_get?_iff rfl).2
        (Json.isWithin_integer (i := 18014398509481989) (by decide))
    · exact (Entries.forall_get?_iff rfl).2
        (Json.isWithin_integer (i := 18014398509481987) (by decide))
    · exact (Entries.forall_get?_iff rfl).2 (Json.isWithin_integer (i := 3) (by decide))
  positive := by
    intro k hk
    rw [hk.unique declares_multipleOf_serial]
    decide

theorem isUnique_serials : Schema.IsUnique serialsMembers where
  type := rfl
  only := by decide
  unique := rfl

/-- All keywords are met by the number to which their numbers are rounded. -/
theorem meetsRounded_serial : Schema.MeetsRounded serialMembers 18014398509481988 where
  listed := by
    rintro _ ⟨rfl⟩
    exact ⟨_, List.mem_singleton_self _, _, .integer _, by decide +kernel⟩
  minimum := by
    intro k hk
    rw [hk.unique declares_minimum_serial]
    decide +kernel
  maximum := by
    intro k hk
    rw [hk.unique declares_maximum_serial]
    decide +kernel
  step := by
    intro k hk
    rw [hk.unique declares_multipleOf_serial,
      isNearMultiple_iff (by decide) (by decide) (by decide)]
    decide +kernel

namespace SchemaRules

/-- The next number that is rounded differently is above the maximum, and a list may have both. -/
theorem next_serial_is_refused :
    let rules : SchemaRules := { schemas := serialTable, formats := Format.standard }
    let serial : Int64 := 18014398509481988
    numbering.scope.IsFilledIn rules.schemas 0 (.object serialMembers) ∧
      Schema.IsNumeric (2 ^ 64) serialMembers ∧
      numbering.scope.IsFilledIn rules.schemas 1 (.object serialsMembers) ∧
      Schema.IsUnique serialsMembers ∧
      ¬ (rules.apply 0 (.integer (serial + 4))).isAccepted ∧
      (rules.apply 1 (.array [.integer serial, .integer (serial + 4)])).isAccepted := by
  intro rules serial
  obtain ⟨hserial, -, hserials⟩ := @integers_are_compared_rounded rules numbering.scope 0 1
    serialMembers serialsMembers isFilledIn_serial isNumeric_serial isFilledIn_serials
    isUnique_serials
  refine ⟨isFilledIn_serial, isNumeric_serial, isFilledIn_serials, isUnique_serials, ?_, ?_⟩
  · rw [hserial]
    intro hmeets
    exact absurd (hmeets.maximum _ declares_maximum_serial) (by decide +kernel)
  · refine ((hserials _ rfl [serial, serial + 4]).1).2 ⟨?_, ?_⟩
    · rintro part ⟨⟩
    · decide +kernel

/-- A number is accepted that is not listed, not in range and not a multiple of the step, and two
numbers are taken for the same. -/
theorem unlisted_serial_is_accepted :
    let rules : SchemaRules := { schemas := serialTable, formats := Format.standard }
    let serial : Int64 := 18014398509481988
    Contract.ofJson serialDocument = .ok { schemas := serialTable } ∧
      (rules.apply 0 (.integer serial)).isAccepted ∧
      Entries.get? serialMembers "enum" = some (.array [.integer (serial.toInt + 1)]) ∧
      Schema.Declares serialMembers "minimum" (serial.toInt + 1) ∧
      Schema.Declares serialMembers "maximum" (serial.toInt - 1) ∧
      Schema.Declares serialMembers "multipleOf" 3 ∧ ¬ 3 ∣ serial.toInt ∧
      Schema.Flags serialsMembers "uniqueItems" ∧
      ¬ (rules.apply 1 (.array [.integer serial, .integer (serial + 1)])).isAccepted := by
  intro rules serial
  refine ⟨ofJson_serialDocument, ?_, rfl, declares_minimum_serial, declares_maximum_serial,
    declares_multipleOf_serial, by decide, rfl, ?_⟩
  · rw [isAccepted_integer_iff isFilledIn_serial rfl (by decide),
      Schema.meetsRounded_iff isNumeric_serial]
    exact meetsRounded_serial
  · intro haccepted
    have hdifferent := ((isAccepted_integers_iff isFilledIn_serials isUnique_serials rfl
      [serial, serial + 1]).1 haccepted).2
    exact absurd hdifferent (by decide +kernel)

end SchemaRules
end ApiContract
