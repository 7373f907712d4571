import ApiContract.Proofs.Agreement
import ApiContract.Proofs.KeywordReading

/-!
# Numeric bounds

A schema has at most one bound on each side of a number, which is strict or not.  An exclusive bound
that is a number of its own takes the place of the plain bound on its side.  So an integer is
accepted if it keeps the bounds that are left in force, and all that a replaced bound says is lost.
-/

namespace ApiContract

open Binary64 Constraints

namespace Constraints

/-- A number is not below a bound, nor the same as a strict one. -/
def RespectsMinimum (value bound : Binary64) (isStrict : Bool) : Prop :=
  value.less bound = false ∧ (isStrict → value.same bound = false)

/-- A number is not above a bound, nor the same as a strict one. -/
def RespectsMaximum (value bound : Binary64) (isStrict : Bool) : Prop :=
  bound.less value = false ∧ (isStrict → value.same bound = false)

variable {constraints : Constraints} {value bound : Binary64} {n k : ℤ}

theorem numberExcesses_eq_nil_iff : constraints.numberExcesses value = [] ↔
    (∀ bound, constraints.minimum? = some bound →
      RespectsMinimum value bound constraints.exclusiveMinimum) ∧
    (∀ bound, constraints.maximum? = some bound →
      RespectsMaximum value bound constraints.exclusiveMaximum) ∧
    ∀ step, constraints.multipleOf? = some step → isMultiple value step := by
  unfold numberExcesses RespectsMinimum RespectsMaximum
  cases constraints.minimum? <;> cases constraints.maximum? <;> cases constraints.multipleOf? <;>
    simp

theorem respectsMinimum_iff (hvalue : value.value? = some (n : ℚ))
    (hbound : bound.value? = some (k : ℚ)) :
    (RespectsMinimum value bound true ↔ k < n) ∧ (RespectsMinimum value bound false ↔ k ≤ n) := by
  unfold RespectsMinimum
  rw [less_eq_false_iff hvalue hbound, same_eq_false_iff hvalue hbound, Int.cast_le, ne_eq,
    Int.cast_inj]
  constructor
  · simp only [forall_const]
    omega
  · simp

theorem respectsMaximum_iff (hvalue : value.value? = some (n : ℚ))
    (hbound : bound.value? = some (k : ℚ)) :
    (RespectsMaximum value bound true ↔ k > n) ∧ (RespectsMaximum value bound false ↔ k ≥ n) := by
  unfold RespectsMaximum
  rw [less_eq_false_iff hbound hvalue, same_eq_false_iff hvalue hbound, Int.cast_le, ne_eq,
    Int.cast_inj]
  constructor
  · simp only [forall_const]
    omega
  · simp

end Constraints

namespace Schema

/-! ## Bounds of a document -/

/-- An integer keeps the bounds on one side, where `within` says that it is on the right side of a
bound: the plain bound, strictly if the exclusive keyword is a flag that is set, and the bound of
its own that the exclusive keyword may have. -/
structure KeepsSide (members : Entries Json) (plainKeyword exclusiveKeyword : String)
    (within strictly : ℤ → ℤ → Prop) (n : ℤ) : Prop where
  plain : ∀ k, Declares members plainKeyword k → within k n
  flagged : Flags members exclusiveKeyword → ∀ k, Declares members plainKeyword k → strictly k n
  exclusive : ∀ k, Declares members exclusiveKeyword k → strictly k n

/-- An integer keeps all bounds. -/
structure KeepsBounds (members : Entries Json) (n : ℤ) : Prop where
  lower : KeepsSide members "minimum" "exclusiveMinimum" (· ≤ ·) (· < ·) n
  upper : KeepsSide members "maximum" "exclusiveMaximum" (· ≥ ·) (· > ·) n

/-- An integer keeps the bounds on one side, the plain one only if the exclusive keyword has no
bound of its own. -/
structure KeepsSideInForce (members : Entries Json) (plainKeyword exclusiveKeyword : String)
    (within strictly : ℤ → ℤ → Prop) (n : ℤ) : Prop where
  plain : (∀ other, ¬ Declares members exclusiveKeyword other) →
    ∀ k, Declares members plainKeyword k → within k n
  flagged : Flags members exclusiveKeyword → ∀ k, Declares members plainKeyword k → strictly k n
  exclusive : ∀ k, Declares members exclusiveKeyword k → strictly k n

/-- An integer keeps all bounds that are in force. -/
structure KeepsBoundsInForce (members : Entries Json) (n : ℤ) : Prop where
  lower : KeepsSideInForce members "minimum" "exclusiveMinimum" (· ≤ ·) (· < ·) n
  upper : KeepsSideInForce members "maximum" "exclusiveMaximum" (· ≥ ·) (· > ·) n

/-- An integer keeps the plain bounds whose place another bound takes. -/
structure KeepsReplacedBounds (members : Entries Json) (n : ℤ) : Prop where
  minimum : ∀ other, Declares members "exclusiveMinimum" other →
    ∀ k, Declares members "minimum" k → k ≤ n
  maximum : ∀ other, Declares members "exclusiveMaximum" other →
    ∀ k, Declares members "maximum" k → n ≤ k

/-- A schema for integers has only bounds besides its type.  Plain bounds are integers of at most 53
binary digits, exclusive ones are such integers or flags. -/
structure IsBounded (members : Entries Json) : Prop where
  type : Entries.get? members "type" = some (.string "integer")
  only : UsesOnly members
    ["type", "minimum", "maximum", "exclusiveMinimum", "exclusiveMaximum"]
  plain : ∀ keyword ∈ ["minimum", "maximum"], ∀ json, Entries.get? members keyword = some json →
    json.IsWithin (2 ^ 53)
  exclusive : ∀ keyword ∈ ["exclusiveMinimum", "exclusiveMaximum"], ∀ json,
    Entries.get? members keyword = some json → (∃ flag, json = .bool flag) ∨ json.IsWithin (2 ^ 53)

variable {members : Entries Json} {plainKeyword exclusiveKeyword : String} {k : ℤ}

theorem exists_bound_of_declares (plainKeyword : String)
    (hdeclares : Declares members exclusiveKeyword k) (hlt : k.natAbs < 2 ^ 64) :
    ∃ x, bound members plainKeyword exclusiveKeyword = (some x, true) ∧
      x.value? = some (nearest k : ℚ) := by
  obtain ⟨json, hget, hdenotes⟩ := hdeclares
  obtain ⟨x, hx, hvalue⟩ := hdenotes.exists_asBinary64? hlt
  refine ⟨x, ?_, hvalue⟩
  unfold bound
  rw [hget]
  cases hdenotes <;> simp [hx]

theorem bound_of_not_declares (plainKeyword : String)
    (hexclusive : ∀ json, Entries.get? members exclusiveKeyword = some json →
      ∃ flag, json = .bool flag) :
    (bound members plainKeyword exclusiveKeyword).1 =
        (Entries.get? members plainKeyword).bind Json.asBinary64? ∧
      ((bound members plainKeyword exclusiveKeyword).2 ↔ Flags members exclusiveKeyword) := by
  unfold bound Flags
  cases hget : Entries.get? members exclusiveKeyword with
  | none => simp
  | some json =>
      obtain ⟨flag, rfl⟩ := hexclusive json hget
      simp

section Side

variable {within strictly : ℤ → ℤ → Prop} {fits : Binary64 → Bool → Prop} {n : ℤ}
  (hfits : ∀ x (k : ℤ), x.value? = some (k : ℚ) →
    (fits x true ↔ strictly k n) ∧ (fits x false ↔ within k n))

include hfits

theorem forall_bound_iff_of_declares (hdeclares : Declares members exclusiveKeyword k)
    (hlt : k.natAbs < 2 ^ 53) :
    (∀ x, (bound members plainKeyword exclusiveKeyword).1 = some x →
        fits x (bound members plainKeyword exclusiveKeyword).2) ↔
      KeepsSideInForce members plainKeyword exclusiveKeyword within strictly n := by
  obtain ⟨x, hbound, hvalue⟩ := exists_bound_of_declares plainKeyword hdeclares (by omega)
  rw [nearest_of_natAbs_le (by omega)] at hvalue
  rw [hbound]
  constructor
  · intro hfit
    have hkeeps := (hfits x k hvalue).1.1 (hfit x rfl)
    refine ⟨fun hnone => absurd hdeclares (hnone k), fun hflags => ?_, fun other hother => ?_⟩
    · exact absurd hflags hdeclares.not_flags
    · rwa [← hdeclares.unique hother]
  · rintro hkeeps _ ⟨rfl⟩
    exact (hfits x k hvalue).1.2 (hkeeps.exclusive k hdeclares)

theorem forall_bound_iff_of_not_declares (hstrict : ∀ k, strictly k n → within k n)
    (hplain : ∀ json, Entries.get? members plainKeyword = some json → json.IsWithin (2 ^ 53))
    (hexclusive : ∀ json, Entries.get? members exclusiveKeyword = some json →
      ∃ flag, json = .bool flag) :
    (∀ x, (bound members plainKeyword exclusiveKeyword).1 = some x →
        fits x (bound members plainKeyword exclusiveKeyword).2) ↔
      KeepsSideInForce members plainKeyword exclusiveKeyword within strictly n := by
  have hnone : ∀ k, ¬ Declares members exclusiveKeyword k := by
    rintro k ⟨json, hget, hdenotes⟩
    obtain ⟨flag, hflag⟩ := hexclusive json hget
    exact hdenotes.ne_bool flag hflag
  obtain ⟨hbound, hstrictness⟩ := bound_of_not_declares plainKeyword hexclusive
  rw [hbound]
  -- Whether the bound is strict does not depend on the number, so both cases are read alike.
  generalize (bound members plainKeyword exclusiveKeyword).2 = isStrict at hstrictness ⊢
  rw [forall_number_iff (Q := fun k => if isStrict then strictly k n else within k n) (by decide)
    hplain fun x k _ hlt hvalue _ => ?_]
  · cases isStrict with
    | true =>
        have hflags := hstrictness.1 rfl
        constructor
        · intro hkeeps
          exact ⟨fun _ k hk => hstrict k (hkeeps k hk), fun _ => hkeeps,
            fun k hk => absurd hk (hnone k)⟩
        · intro hkeeps k hk
          exact hkeeps.flagged hflags k hk
    | false =>
        constructor
        · intro hkeeps
          exact ⟨fun _ => hkeeps, fun hflags => absurd (hstrictness.2 hflags) (by decide),
            fun k hk => absurd hk (hnone k)⟩
        · intro hkeeps k hk
          exact hkeeps.plain hnone k hk
  · rw [nearest_of_natAbs_le (by omega)] at hvalue
    cases isStrict with
    | true => exact (hfits x k hvalue).1
    | false => exact (hfits x k hvalue).2

/-- The one bound that is read for a side asks for the bounds in force to be kept. -/
theorem forall_bound_iff (hstrict : ∀ k, strictly k n → within k n)
    (hplain : ∀ json, Entries.get? members plainKeyword = some json → json.IsWithin (2 ^ 53))
    (hexclusive : ∀ json, Entries.get? members exclusiveKeyword = some json →
      (∃ flag, json = .bool flag) ∨ json.IsWithin (2 ^ 53)) :
    (∀ x, (bound members plainKeyword exclusiveKeyword).1 = some x →
        fits x (bound members plainKeyword exclusiveKeyword).2) ↔
      KeepsSideInForce members plainKeyword exclusiveKeyword within strictly n := by
  by_cases hown : ∃ k, Declares members exclusiveKeyword k
  · obtain ⟨k, hdeclares⟩ := hown
    exact forall_bound_iff_of_declares hfits hdeclares (hdeclares.natAbs_lt hexclusive)
  · refine forall_bound_iff_of_not_declares hfits hstrict hplain fun json hget => ?_
    refine (hexclusive json hget).resolve_right ?_
    rintro ⟨k, hdenotes, -⟩
    exact hown ⟨k, json, hget, hdenotes⟩

end Side

/-- All that the bounds of a side say is what is in force together with what is replaced. -/
theorem keepsSide_iff {within strictly : ℤ → ℤ → Prop} {n : ℤ} :
    KeepsSide members plainKeyword exclusiveKeyword within strictly n ↔
      KeepsSideInForce members plainKeyword exclusiveKeyword within strictly n ∧
        ∀ other, Declares members exclusiveKeyword other →
          ∀ k, Declares members plainKeyword k → within k n := by
  constructor
  · intro hkeeps
    exact ⟨⟨fun _ => hkeeps.plain, hkeeps.flagged, hkeeps.exclusive⟩, fun _ _ => hkeeps.plain⟩
  · rintro ⟨hkeeps, hreplaced⟩
    refine ⟨fun k hk => ?_, hkeeps.flagged, hkeeps.exclusive⟩
    by_cases hown : ∃ other, Declares members exclusiveKeyword other
    · obtain ⟨other, hother⟩ := hown
      exact hreplaced other hother k hk
    · exact hkeeps.plain (not_exists.1 hown) k hk

theorem keepsBounds_iff {n : ℤ} : KeepsBounds members n ↔
    KeepsBoundsInForce members n ∧ KeepsReplacedBounds members n := by
  constructor
  · rintro ⟨hlower, hupper⟩
    obtain ⟨hlower, hminimum⟩ := keepsSide_iff.1 hlower
    obtain ⟨hupper, hmaximum⟩ := keepsSide_iff.1 hupper
    exact ⟨⟨hlower, hupper⟩, ⟨hminimum, hmaximum⟩⟩
  · rintro ⟨hinForce, hreplaced⟩
    exact ⟨keepsSide_iff.2 ⟨hinForce.lower, hreplaced.minimum⟩,
      keepsSide_iff.2 ⟨hinForce.upper, hreplaced.maximum⟩⟩

theorem numberExcesses_ofInt_eq_nil_iff (hbounded : IsBounded members) {n : ℤ}
    (hsmall : n.natAbs < 2 ^ 53) : (numericConstraints members).numberExcesses (ofInt n) = [] ↔
      KeepsBoundsInForce members n := by
  have hvalue := value?_ofInt (i := n) (by omega)
  rw [nearest_of_natAbs_le (by omega)] at hvalue
  have hstep : Entries.get? members "multipleOf" = none :=
    hbounded.only.get?_eq_none (by decide)
  have hminimum := forall_bound_iff (fun _ _ => respectsMinimum_iff hvalue) (fun _ => le_of_lt)
    (hbounded.plain "minimum" (by decide)) (hbounded.exclusive "exclusiveMinimum" (by decide))
  have hmaximum := forall_bound_iff (fun _ _ => respectsMaximum_iff hvalue) (fun _ => le_of_lt)
    (hbounded.plain "maximum" (by decide)) (hbounded.exclusive "exclusiveMaximum" (by decide))
  rw [Constraints.numberExcesses_eq_nil_iff]
  constructor
  · rintro ⟨hbelow, habove, -⟩
    exact ⟨hminimum.1 hbelow, hmaximum.1 habove⟩
  · intro hkeeps
    refine ⟨hminimum.2 hkeeps.lower, hmaximum.2 hkeeps.upper, fun step hread => ?_⟩
    rw [numericConstraints, hstep] at hread
    cases hread

end Schema

/-! ## Judging an integer -/

namespace SchemaRules

variable {rules : SchemaRules} {scope : Scope} {id : SchemaId} {members : Entries Json}
  {schema : Schema} {value : Value}

/-- A schema without others and without a format judges by the type and the bounds. -/
theorem isAccepted_apply_iff_of_alone (hget : rules.schemas.get? id = some schema)
    (hnull : value ≠ .null) (halone : schema.isComposed = false) (hformat : schema.format? = none) :
    (rules.apply id value).isAccepted ↔
      (rules.judgeType schema value (rules.neighbours [] [id] value)).isAccepted ∧
        boundFaults schema value = [] := by
  have haccepted : ∀ typed, (rules.judgeFormat schema typed).isAccepted := by
    intro typed
    rw [judgeFormat, hformat]
    rfl
  rw [apply, applyAt_eq_judge hget List.not_mem_nil, judge_of_ne_null hnull,
    judgeParts_of_isComposed_eq_false halone, isAccepted_judgeOwn]
  simp only [haccepted, and_true, Judgement.isAccepted_iff]

theorem isAccepted_integer_iff (hfilled : scope.IsFilledIn rules.schemas id (.object members))
    (hinteger : Entries.get? members "type" = some (.string "integer"))
    (honly : Schema.UsesOnly members Schema.numericKeywords) (n : Int64) :
    (rules.apply id (.integer n)).isAccepted ↔
      (Schema.numericConstraints members).numberExcesses (ofInt n.toInt) = [] ∧
        ∀ literals, Schema.readLiterals members = some literals →
          ∃ literal ∈ literals, (Value.integer n).matchesLiteral literal := by
  have hget := hfilled.get?_of_numeric hinteger honly
  rw [isAccepted_apply_iff_of_alone hget (by simp) rfl rfl, boundFaults_eq_nil_iff]
  exact and_iff_right rfl

/-- An integer is accepted just when it keeps the bounds that are in force.  What is lost are the
plain bounds that an exclusive bound replaces. -/
theorem exclusive_bound_replaces_plain_bound
    (hfilled : scope.IsFilledIn rules.schemas id (.object members))
    (hbounded : Schema.IsBounded members) (n : Int64) (hsmall : n.toInt.natAbs < 2 ^ 53) :
    ((rules.apply id (.integer n)).isAccepted ↔ Schema.KeepsBoundsInForce members n.toInt) ∧
      (Schema.KeepsBounds members n.toInt ↔
        (rules.apply id (.integer n)).isAccepted ∧
          Schema.KeepsReplacedBounds members n.toInt) := by
  have hunlisted : Schema.readLiterals members = none := by
    unfold Schema.readLiterals
    rw [hbounded.only.get?_eq_none (by decide), hbounded.only.get?_eq_none (by decide)]
    rfl
  have haccepted : (rules.apply id (.integer n)).isAccepted ↔
      Schema.KeepsBoundsInForce members n.toInt := by
    rw [isAccepted_integer_iff hfilled hbounded.type (hbounded.only.mono (by decide)) n,
      Schema.numberExcesses_ofInt_eq_nil_iff hbounded hsmall, hunlisted]
    simp
  rw [haccepted]
  exact ⟨Iff.rfl, Schema.keepsBounds_iff⟩

end SchemaRules

/-! ## A range -/

/-- The plain minimum is 10 and the exclusive one 3.  The maximum 20 is exclusive by a flag. -/
def rangeMembers : Entries Json :=
  [("type", .string "integer"), ("minimum", .integer 10), ("exclusiveMinimum", .integer 3),
    ("maximum", .integer 20), ("exclusiveMaximum", .bool true)]

def rangeDocument : Json := .object [("openapi", .string "3.1.0"), ("components", .object [
  ("schemas", .object [("Range", .object rangeMembers)])])]

def rangeTable : SchemaTable :=
  ⟨#[{ type? := some .integer, constraints := Schema.numericConstraints rangeMembers }]⟩

/-- The document as a record. -/
def ranging : Document where
  openapi? := some "3.1.0"
  swagger? := none
  self? := none
  servers := []
  paths := []
  components := { schemas := [("Range", .object rangeMembers)] }
  security? := none

theorem run_readComponents_range :
    StateT.run ranging.scope.readComponents {} = .ok ((), rangeTable) := by
  have hschemas : ranging.scope.components.schemas = [("Range", .object rangeMembers)] := rfl
  have hread : ranging.scope.readComponent (.object rangeMembers) = pure {
      type? := some .integer, constraints := Schema.numericConstraints rangeMembers } := by
    unfold Scope.readComponent
    rfl
  simp only [Scope.readComponents, hschemas, List.zipIdx_cons, List.zipIdx_nil,
    List.forM_eq_forM, List.forM_cons, List.forM_nil, hread]
  rfl

theorem ofJson_rangeDocument : Contract.ofJson rangeDocument = .ok { schemas := rangeTable } :=
  Contract.ofJson_schemas run_readComponents_range

theorem isFilledIn_range : ranging.scope.IsFilledIn rangeTable 0 (.object rangeMembers) :=
  ranging.isFilledIn_of_readComponents (by decide) run_readComponents_range rfl

theorem isBounded_range : Schema.IsBounded rangeMembers where
  type := rfl
  only := by decide
  plain := by
    rw [List.forall_mem_cons, List.forall_mem_singleton]
    constructor
    · exact (Entries.forall_get?_iff rfl).2 (Json.isWithin_integer (i := 10) (by decide))
    · exact (Entries.forall_get?_iff rfl).2 (Json.isWithin_integer (i := 20) (by decide))
  exclusive := by
    rw [List.forall_mem_cons, List.forall_mem_singleton]
    constructor
    · exact (Entries.forall_get?_iff rfl).2 (.inr (Json.isWithin_integer (i := 3) (by decide)))
    · exact (Entries.forall_get?_iff rfl).2 (.inl ⟨true, rfl⟩)

theorem declares_minimum_range : Schema.Declares rangeMembers "minimum" 10 :=
  ⟨_, rfl, .integer 10⟩

theorem declares_exclusiveMinimum_range : Schema.Declares rangeMembers "exclusiveMinimum" 3 :=
  ⟨_, rfl, .integer 3⟩

theorem declares_maximum_range : Schema.Declares rangeMembers "maximum" 20 :=
  ⟨_, rfl, .integer 20⟩

/-- The bounds in force are 3 and 20, both of them strict. -/
theorem keepsBoundsInForce_range {n : ℤ} :
    Schema.KeepsBoundsInForce rangeMembers n ↔ 3 < n ∧ n < 20 := by
  constructor
  · intro hkeeps
    exact ⟨hkeeps.lower.exclusive 3 declares_exclusiveMinimum_range,
      hkeeps.upper.flagged rfl 20 declares_maximum_range⟩
  · rintro ⟨hlower, hupper⟩
    have hexclusive : ∀ k, ¬ Schema.Declares rangeMembers "exclusiveMaximum" k := by
      rintro k ⟨_, ⟨rfl⟩, hdenotes⟩
      exact hdenotes.ne_bool true rfl
    refine ⟨⟨fun hnone => ?_, fun hflags => ?_, fun k hk => ?_⟩,
      ⟨fun _ k hk => ?_, fun _ k hk => ?_, fun k hk => ?_⟩⟩
    · exact absurd declares_exclusiveMinimum_range (hnone 3)
    · exact absurd hflags declares_exclusiveMinimum_range.not_flags
    · rwa [hk.unique declares_exclusiveMinimum_range]
    · rw [hk.unique declares_maximum_range]
      exact hupper.le
    · rwa [hk.unique declares_maximum_range]
    · exact absurd hk (hexclusive k)

namespace SchemaRules

/-- The flag makes the upper bound strict. -/
theorem upper_end_of_range_is_refused :
    let rules : SchemaRules := { schemas := rangeTable, formats := Format.standard }
    ranging.scope.IsFilledIn rules.schemas 0 (.object rangeMembers) ∧
      Schema.IsBounded rangeMembers ∧ (20 : Int64).toInt.natAbs < 2 ^ 53 ∧
      ¬ (rules.apply 0 (.integer 20)).isAccepted := by
  intro rules
  have hsmall : (20 : Int64).toInt.natAbs < 2 ^ 53 := by decide
  refine ⟨isFilledIn_range, isBounded_range, hsmall, ?_⟩
  rw [(exclusive_bound_replaces_plain_bound isFilledIn_range isBounded_range 20 hsmall).1,
    keepsBoundsInForce_range]
  decide

/-- The lower end of a range is given up for an exclusive bound that is farther away. -/
theorem number_below_minimum_is_accepted :
    let rules : SchemaRules := { schemas := rangeTable, formats := Format.standard }
    Contract.ofJson rangeDocument = .ok { schemas := rangeTable } ∧
      Schema.IsBounded rangeMembers ∧ (rules.apply 0 (.integer 5)).isAccepted ∧
      ¬ Schema.KeepsBounds rangeMembers (5 : Int64).toInt := by
  intro rules
  refine ⟨ofJson_rangeDocument, isBounded_range, ?_, fun hkeeps => ?_⟩
  · have hinForce := keepsBoundsInForce_range.2
      (show 3 < (5 : Int64).toInt ∧ (5 : Int64).toInt < 20 by decide)
    rw [isAccepted_integer_iff isFilledIn_range rfl (by decide),
      Schema.numberExcesses_ofInt_eq_nil_iff isBounded_range (by decide)]
    exact ⟨hinForce, by rintro literals ⟨⟩⟩
  · exact absurd (hkeeps.lower.plain 10 declares_minimum_range) (by decide)

end SchemaRules
end ApiContract
