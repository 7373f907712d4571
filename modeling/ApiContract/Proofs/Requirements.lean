import ApiContract.Proofs.Decisive
import Mathlib.Tactic

/-!
# Security requirements

An operation names groups of schemes, and a request has to satisfy one of the groups as a whole.  The
first such group counts, and what is returned are its schemes.  When there is none, each scheme that
is not satisfied is blamed once, in the order in which the groups first name it, and no scheme that is
satisfied is.  More groups leave an accepted request accepted, unless there were none at all, which is
how an operation says that it needs no credentials.
-/

namespace ApiContract

namespace SecurityRules

/-- A request satisfies a scheme. -/
def Satisfies (rules : SecurityRules) (sources : ParameterSources) (name : String) : Prop :=
  rules.check sources name = .ok ()

/-- A request satisfies every scheme of a group. -/
def SatisfiesGroup (rules : SecurityRules) (sources : ParameterSources)
    (group : SecurityGroup) : Prop :=
  ∀ name ∈ Entries.keys group, rules.Satisfies sources name

/-- The schemes that groups name and a request does not satisfy, each once, in the order in which the
groups first name them. -/
structure Blames (rules : SecurityRules) (sources : ParameterSources) (groups : List SecurityGroup)
    (names : List String) : Prop where
  distinct : names.Nodup
  mem_iff : ∀ name, name ∈ names ↔
    (∃ group ∈ groups, name ∈ Entries.keys group) ∧ ¬ rules.Satisfies sources name
  ordered : names.Pairwise fun first second =>
    (groups.flatMap Entries.keys).idxOf first < (groups.flatMap Entries.keys).idxOf second

/-- The violation that names a scheme and says why a request does not satisfy it. -/
def Accuses (rules : SecurityRules) (sources : ParameterSources) (name : String)
    (violation : Violation) : Prop :=
  ∃ fault, rules.check sources name = .error fault ∧
    violation = ⟨.security name, [], .securityValidation, fault.message⟩

variable {rules : SecurityRules} {sources : ParameterSources} {groups : List SecurityGroup}

/-! ## One scheme and one group -/

theorem fault?_eq_none_iff {name : String} :
    rules.fault? sources name = none ↔ rules.Satisfies sources name := by
  unfold Satisfies
  cases hcheck : rules.check sources name with
  | ok _ => simp [fault?_of_check_ok hcheck]
  | error fault => simp [fault?_of_check_error hcheck]

theorem fault?_eq_some_iff {name : String} {violation : Violation} :
    rules.fault? sources name = some violation ↔ rules.Accuses sources name violation := by
  unfold Accuses
  cases hcheck : rules.check sources name with
  | ok _ => simp [fault?_of_check_ok hcheck]
  | error fault =>
      simp [fault?_of_check_error hcheck, accusation, Violation.new, Violation.attach, eq_comm]

theorem isSatisfied_iff {group : SecurityGroup} :
    rules.isSatisfied sources group ↔ rules.SatisfiesGroup sources group := by
  simp [isSatisfied, SatisfiesGroup, List.all_eq_true, fault?_eq_none_iff]

/-! ## The order of first appearance -/

theorem pairwise_idxOf_eraseDups (names : List String) :
    names.eraseDups.Pairwise fun first second => names.idxOf first < names.idxOf second := by
  induction names using List.reverseRecOn with
  | nil => simp
  | append_singleton names name ih =>
      have hbefore : ∀ first ∈ names, (names ++ [name]).idxOf first = names.idxOf first :=
        fun first hmem => List.idxOf_append_of_mem hmem
      have hkept : names.eraseDups.Pairwise fun first second =>
          (names ++ [name]).idxOf first < (names ++ [name]).idxOf second := by
        refine ih.imp_of_mem fun hfirst hsecond hlt => ?_
        rwa [hbefore _ (List.mem_eraseDups.1 hfirst), hbefore _ (List.mem_eraseDups.1 hsecond)]
      rw [eraseDups_concat]
      split
      · simpa using hkept
      · next hnew =>
          refine List.pairwise_append.2 ⟨hkept, List.pairwise_singleton _ _, ?_⟩
          intro first hfirst second hsecond
          obtain rfl := List.mem_singleton.1 hsecond
          have hmem := List.mem_eraseDups.1 hfirst
          have hlast : (names ++ [second]).idxOf second = names.length := by
            rw [List.idxOf_append_of_notMem hnew]
            simp
          rw [hbefore first hmem, hlast]
          exact List.idxOf_lt_length_of_mem hmem

theorem blames_filter (rules : SecurityRules) (sources : ParameterSources)
    (groups : List SecurityGroup) :
    rules.Blames sources groups ((groups.flatMap Entries.keys).eraseDups.filter
      fun name => (rules.fault? sources name).isSome) := by
  refine ⟨(nodup_eraseDups _).filter _, fun name => ?_, (pairwise_idxOf_eraseDups _).filter _⟩
  rw [List.mem_filter, List.mem_eraseDups, List.mem_flatMap, ← fault?_eq_none_iff,
    Option.isSome_iff_ne_none]

theorem forall₂_accuses (rules : SecurityRules) (sources : ParameterSources)
    (names : List String) :
    List.Forall₂ (rules.Accuses sources)
      (names.filter fun name => (rules.fault? sources name).isSome)
      (names.filterMap (rules.fault? sources)) := by
  induction names with
  | nil => exact .nil
  | cons name rest ih =>
      cases hfault : rules.fault? sources name with
      | none => simpa [hfault] using ih
      | some violation =>
          rw [List.filter_cons_of_pos (by simp [hfault]), List.filterMap_cons_some hfault]
          exact .cons (fault?_eq_some_iff.1 hfault) ih

/-! ## All groups -/

theorem validate_nil (rules : SecurityRules) (sources : ParameterSources) :
    rules.validate [] sources = .ok [] := rfl

/-- The first group that is satisfied counts. -/
theorem validate_of_first {before after : List SecurityGroup} {group : SecurityGroup}
    (hbefore : ∀ other ∈ before, ¬ rules.SatisfiesGroup sources other)
    (hgroup : rules.SatisfiesGroup sources group) :
    rules.validate (before ++ group :: after) sources = .ok (Entries.keys group) := by
  have hfind : (before ++ group :: after).find? (rules.isSatisfied sources) = some group := by
    rw [List.find?_eq_some_iff_append]
    refine ⟨isSatisfied_iff.2 hgroup, before, after, rfl, fun other hother => ?_⟩
    rw [Bool.not_eq_true', Bool.eq_false_iff]
    exact fun hall => hbefore other hother (isSatisfied_iff.1 hall)
  rw [validate_eq, hfind]
  simp

theorem validate_of_none (hgroups : groups ≠ [])
    (hnone : ∀ group ∈ groups, ¬ rules.SatisfiesGroup sources group) :
    rules.validate groups sources =
      .error ((groups.flatMap Entries.keys).eraseDups.filterMap (rules.fault? sources)) := by
  have hfind : groups.find? (rules.isSatisfied sources) = none :=
    List.find?_eq_none.2 fun group hmem hall => hnone group hmem (isSatisfied_iff.1 hall)
  rw [validate_eq, hfind]
  simp [hgroups]

theorem exists_first (hsome : ∃ group ∈ groups, rules.SatisfiesGroup sources group) :
    ∃ before group after, groups = before ++ group :: after ∧
      (∀ other ∈ before, ¬ rules.SatisfiesGroup sources other) ∧
      rules.SatisfiesGroup sources group := by
  classical
  obtain ⟨found, hfound⟩ : ∃ found,
      groups.find? (fun group => decide (rules.SatisfiesGroup sources group)) = some found := by
    rw [← Option.isSome_iff_exists, List.find?_isSome]
    simpa using hsome
  obtain ⟨hgroup, before, after, rfl, hbefore⟩ := List.find?_eq_some_iff_append.1 hfound
  exact ⟨before, found, after, rfl, by simpa using hbefore, by simpa using hgroup⟩

/-- Groups accept when there are none or one of them is satisfied. -/
theorem exists_validate_eq_ok_iff :
    (∃ names, rules.validate groups sources = .ok names) ↔
      groups = [] ∨ ∃ group ∈ groups, rules.SatisfiesGroup sources group := by
  constructor
  · rintro ⟨names, hvalid⟩
    by_contra hnot
    rw [not_or, not_exists] at hnot
    have hnone : ∀ group ∈ groups, ¬ rules.SatisfiesGroup sources group :=
      fun group hmem hgroup => hnot.2 group ⟨hmem, hgroup⟩
    rw [validate_of_none hnot.1 hnone] at hvalid
    simp at hvalid
  · rintro (rfl | hsome)
    · exact ⟨[], validate_nil rules sources⟩
    · obtain ⟨before, group, after, rfl, hbefore, hgroup⟩ := exists_first hsome
      exact ⟨_, validate_of_first hbefore hgroup⟩

/-- Groups are alternatives of schemes that are needed together.  The schemes of the first satisfied
group are returned; without one, each unsatisfied scheme is accused once, in order, with its own
reason.  Further groups do not turn away a request that some group accepts. -/
theorem validate_is_first_satisfied_group (rules : SecurityRules) (sources : ParameterSources)
    (groups : List SecurityGroup) :
    ((∃ names, rules.validate groups sources = .ok names) ↔
      groups = [] ∨ ∃ group ∈ groups, rules.SatisfiesGroup sources group) ∧
    (∀ names, rules.validate groups sources = .ok names →
      groups = [] ∧ names = [] ∨
        ∃ before group after, groups = before ++ group :: after ∧
          (∀ other ∈ before, ¬ rules.SatisfiesGroup sources other) ∧
          rules.SatisfiesGroup sources group ∧ names = Entries.keys group) ∧
    (∀ violations, rules.validate groups sources = .error violations →
      violations ≠ [] ∧ ∃ names, rules.Blames sources groups names ∧
        List.Forall₂ (rules.Accuses sources) names violations) ∧
    (groups ≠ [] → (∃ names, rules.validate groups sources = .ok names) →
      ∀ before after, ∃ names, rules.validate (before ++ groups ++ after) sources = .ok names) := by
  refine ⟨exists_validate_eq_ok_iff, fun names hvalid => ?_, fun violations hinvalid => ?_,
    fun hgroups hvalid before after => ?_⟩
  · rcases exists_validate_eq_ok_iff.1 ⟨names, hvalid⟩ with rfl | hsome
    · exact .inl ⟨rfl, (Except.ok.inj hvalid).symm⟩
    · obtain ⟨before, group, after, rfl, hbefore, hgroup⟩ := exists_first hsome
      rw [validate_of_first hbefore hgroup] at hvalid
      exact .inr ⟨before, group, after, rfl, hbefore, hgroup, (Except.ok.inj hvalid).symm⟩
  · have hnot : ¬ ∃ names, rules.validate groups sources = .ok names := by
      simp [hinvalid]
    rw [exists_validate_eq_ok_iff, not_or, not_exists] at hnot
    have hnone : ∀ group ∈ groups, ¬ rules.SatisfiesGroup sources group :=
      fun group hmem hgroup => hnot.2 group ⟨hmem, hgroup⟩
    have hsome : violations ≠ [] := by
      rintro rfl
      exact validate_ne_error_nil rules groups sources hinvalid
    rw [validate_of_none hnot.1 hnone] at hinvalid
    obtain rfl := Except.error.inj hinvalid
    exact ⟨hsome, _, blames_filter rules sources groups, forall₂_accuses rules sources _⟩
  · obtain ⟨group, hmem, hgroup⟩ := (exists_validate_eq_ok_iff.1 hvalid).resolve_left hgroups
    exact exists_validate_eq_ok_iff.2 (.inr ⟨group, by simp [hmem], hgroup⟩)

/-- Two groups share a scheme that a request does not satisfy.  The first group names another such
scheme, too, and one that is satisfied. -/
theorem shared_scheme_is_accused_once :
    let rules : SecurityRules := {
      schemes := [("key", .apiKey "X-Key" .header), ("user", .apiKey "X-User" .header),
        ("login", .http "bearer" none)]
      styles := .standard
      schemas := {} }
    let sources : ParameterSources := { headers := ⟨[("X-User", "ada")]⟩ }
    let groups : List SecurityGroup := [[("key", []), ("user", []), ("login", [])], [("key", [])]]
    let violations : List Violation := [
      ⟨.security "key", [], .securityValidation, "API key 'X-Key' is missing from the header"⟩,
      ⟨.security "login", [], .securityValidation, "Authorization header is missing"⟩]
    rules.validate groups sources = .error violations ∧ rules.Satisfies sources "user" ∧
      rules.Blames sources groups ["key", "login"] := by
  intro rules sources groups violations
  have hkey : rules.check sources "key" = .error (.noKey "X-Key" .header) := rfl
  have huser : rules.check sources "user" = .ok () := by decide +kernel
  have hlogin : rules.check sources "login" = .error .noAuthorization := rfl
  have hvalidate : rules.validate groups sources = .error violations := by
    simp only [validate, groups, List.isEmpty_cons, Bool.false_eq_true, ↓reduceIte, tryGroups,
      checkGroup, Entries.keys, List.map_cons, List.map_nil, List.foldl_cons, List.foldl_nil,
      checkNext, hkey, huser, hlogin]
    rfl
  refine ⟨hvalidate, huser, ?_⟩
  obtain ⟨-, -, hblames, -⟩ := validate_is_first_satisfied_group rules sources groups
  obtain ⟨-, names, hnames, haccuses⟩ := hblames violations hvalidate
  have hpart : ∀ {name violation}, rules.Accuses sources name violation →
      violation.part = .security name := by
    rintro name violation ⟨fault, -, rfl⟩
    rfl
  obtain ⟨first, _, hfirst, hbehind, rfl⟩ := List.forall₂_cons_right_iff.1 haccuses
  obtain ⟨second, _, hsecond, hrest, rfl⟩ := List.forall₂_cons_right_iff.1 hbehind
  obtain rfl := List.forall₂_nil_right_iff.1 hrest
  obtain rfl := Part.security.inj (hpart hfirst)
  obtain rfl := Part.security.inj (hpart hsecond)
  exact hnames

/-- A request without credentials is accepted where no group is asked for, and no longer so when a
group is added. -/
theorem added_group_turns_away :
    let rules : SecurityRules := {
      schemes := [("key", .apiKey "X-Key" .header)]
      styles := .standard
      schemas := {} }
    let sources : ParameterSources := {}
    rules.validate [] sources = .ok [] ∧
      rules.validate ([] ++ [[("key", [])]]) sources =
        .error [⟨.security "key", [], .securityValidation,
          "API key 'X-Key' is missing from the header"⟩] := by
  intro rules sources
  have hcheck : rules.check sources "key" = .error (.noKey "X-Key" .header) := rfl
  have hfault : rules.fault? sources "key" = some ⟨.security "key", [], .securityValidation,
      "API key 'X-Key' is missing from the header"⟩ :=
    fault?_eq_some_iff.2 ⟨_, hcheck, rfl⟩
  have hunsatisfied : ∀ group ∈ ([[("key", [])]] : List SecurityGroup),
      ¬ rules.SatisfiesGroup sources group := by
    intro group hmem hgroup
    obtain rfl := List.mem_singleton.1 hmem
    have hnone := fault?_eq_none_iff.2 (hgroup "key" List.mem_cons_self)
    simp [hfault] at hnone
  refine ⟨validate_nil rules sources, ?_⟩
  rw [List.nil_append, validate_of_none (List.cons_ne_nil _ _) hunsatisfied]
  simp only [List.flatMap_cons, List.flatMap_nil, Entries.keys, List.map_cons, List.map_nil,
    List.append_nil, List.eraseDups_cons, List.filter_nil, List.eraseDups_nil,
    List.filterMap_cons, hfault, List.filterMap_nil]

end SecurityRules

end ApiContract
