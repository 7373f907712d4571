import ApiContract.Proofs.Grouping
import ApiContract.Security

/-!
# Trying groups of schemes

Groups of schemes are tried one after the other, and the loop remembers of each scheme that is not
satisfied why it failed first.  What it remembers depends on nothing but the schemes that it has come
past, in order, so the loop ends at the first group that is satisfied, or with all unsatisfied schemes
in the order in which the groups name them.
-/

namespace ApiContract

namespace SecurityRules

/-- Why a request does not satisfy a scheme, with the name of the scheme. -/
def reason? (rules : SecurityRules) (sources : ParameterSources) (name : String) :
    Option (String × CredentialFault) :=
  match rules.check sources name with
  | .ok () => none
  | .error fault => some (name, fault)

/-- The violation of a scheme, if a request does not satisfy it. -/
def fault? (rules : SecurityRules) (sources : ParameterSources) (name : String) :
    Option Violation :=
  (rules.reason? sources name).map fun (name, fault) => accusation name fault

/-- A request satisfies all schemes of a group. -/
def isSatisfied (rules : SecurityRules) (sources : ParameterSources) (group : SecurityGroup) : Bool :=
  (Entries.keys group).all fun name => (rules.fault? sources name).isNone

/-- What is remembered of the schemes that the loop has come past. -/
def remembered (rules : SecurityRules) (sources : ParameterSources) (names : List String) :
    Entries CredentialFault :=
  names.eraseDups.filterMap (rules.reason? sources)

variable {rules : SecurityRules} {sources : ParameterSources} {groups : List SecurityGroup}
  {name : String} {fault : CredentialFault}

theorem reason?_of_check_ok (hcheck : rules.check sources name = .ok ()) :
    rules.reason? sources name = none := by
  simp only [reason?, hcheck]

theorem reason?_of_check_error (hcheck : rules.check sources name = .error fault) :
    rules.reason? sources name = some (name, fault) := by
  simp only [reason?, hcheck]

theorem fault?_of_check_ok (hcheck : rules.check sources name = .ok ()) :
    rules.fault? sources name = none := by
  rw [fault?, reason?_of_check_ok hcheck, Option.map_none]

theorem fault?_of_check_error (hcheck : rules.check sources name = .error fault) :
    rules.fault? sources name = some (accusation name fault) := by
  rw [fault?, reason?_of_check_error hcheck, Option.map_some]

theorem part_of_fault? {violation : Violation}
    (hfault : rules.fault? sources name = some violation) : violation.part = .security name := by
  cases hcheck : rules.check sources name with
  | ok _ =>
      rw [fault?_of_check_ok hcheck] at hfault
      cases hfault
  | error fault =>
      rw [fault?_of_check_error hcheck] at hfault
      obtain rfl := Option.some.inj hfault
      rfl

/-! ## One scheme -/

theorem mem_keys_remembered {names : List String}
    (hmem : name ∈ Entries.keys (rules.remembered sources names)) : name ∈ names := by
  obtain ⟨⟨_, fault⟩, hentry, rfl⟩ := List.mem_map.1 hmem
  obtain ⟨other, hother, hreason⟩ := List.mem_filterMap.1 hentry
  obtain rfl : other = _ := by
    unfold reason? at hreason
    split at hreason
    · cases hreason
    · exact congrArg Prod.fst (Option.some.inj hreason)
  exact List.mem_eraseDups.1 hother

theorem remembered_concat_of_ok (hcheck : rules.check sources name = .ok ()) (names : List String) :
    rules.remembered sources (names ++ [name]) = rules.remembered sources names := by
  unfold remembered
  rw [eraseDups_concat]
  split
  · rw [List.append_nil]
  · rw [List.filterMap_append, List.filterMap_cons_none (reason?_of_check_ok hcheck),
      List.filterMap_nil, List.append_nil]

/-- Only the first failure of a scheme is remembered. -/
theorem remembered_concat_of_error (hcheck : rules.check sources name = .error fault)
    (names : List String) :
    rules.remembered sources (names ++ [name]) =
      Entries.insertNew (rules.remembered sources names) name fault := by
  have hreason := reason?_of_check_error hcheck
  unfold Entries.insertNew
  by_cases hseen : name ∈ names
  · have hknown : Entries.contains (rules.remembered sources names) name := by
      rw [Entries.contains_iff]
      refine List.mem_map.2 ⟨(name, fault), ?_, rfl⟩
      exact List.mem_filterMap.2 ⟨name, List.mem_eraseDups.2 hseen, hreason⟩
    rw [if_pos hknown]
    unfold remembered
    rw [eraseDups_concat, if_pos hseen, List.append_nil]
  · have hkey : name ∉ Entries.keys (rules.remembered sources names) := fun hmem =>
      hseen (mem_keys_remembered hmem)
    rw [if_neg (fun hknown => hkey (Entries.contains_iff.1 hknown)), Entries.insert_of_notMem hkey]
    unfold remembered
    rw [eraseDups_concat, if_neg hseen, List.filterMap_append, List.filterMap_cons_some hreason,
      List.filterMap_nil]

theorem checkNext_remembered (all : Bool) (names : List String) (name : String) :
    rules.checkNext sources (all, rules.remembered sources names) name =
      (all && (rules.fault? sources name).isNone, rules.remembered sources (names ++ [name])) := by
  unfold checkNext
  cases hcheck : rules.check sources name with
  | ok _ => rw [fault?_of_check_ok hcheck, remembered_concat_of_ok hcheck]; simp
  | error fault => rw [fault?_of_check_error hcheck, remembered_concat_of_error hcheck]; simp

/-! ## One group -/

theorem foldl_checkNext_remembered (all : Bool) (names more : List String) :
    more.foldl (rules.checkNext sources) (all, rules.remembered sources names) =
      (all && more.all fun name => (rules.fault? sources name).isNone,
        rules.remembered sources (names ++ more)) := by
  induction more generalizing all names with
  | nil => simp
  | cons name rest ih =>
      rw [List.foldl_cons, checkNext_remembered, ih, List.all_cons, Bool.and_assoc,
        List.append_assoc, List.singleton_append]

theorem checkGroup_remembered (group : SecurityGroup) (names : List String) :
    rules.checkGroup sources group (rules.remembered sources names) =
      (rules.isSatisfied sources group,
        rules.remembered sources (names ++ Entries.keys group)) := by
  rw [checkGroup, foldl_checkNext_remembered, Bool.true_and]
  rfl

/-! ## All groups -/

theorem tryGroups_remembered (groups : List SecurityGroup) (names : List String) :
    rules.tryGroups sources groups (rules.remembered sources names) =
      match groups.find? (rules.isSatisfied sources) with
      | some group => .ok (Entries.keys group)
      | none => .error (rules.remembered sources (names ++ groups.flatMap Entries.keys)) := by
  induction groups generalizing names with
  | nil => simp [tryGroups]
  | cons group rest ih =>
      rw [tryGroups, checkGroup_remembered, List.find?_cons]
      cases hgroup : rules.isSatisfied sources group with
      | true => rfl
      | false =>
          dsimp only
          rw [ih, List.flatMap_cons, List.append_assoc]

/-- The loop comes to the first satisfied group, or to the violations of all unsatisfied schemes. -/
theorem validate_eq (rules : SecurityRules) (groups : List SecurityGroup)
    (sources : ParameterSources) :
    rules.validate groups sources =
      if groups.isEmpty then .ok []
      else
        match groups.find? (rules.isSatisfied sources) with
        | some group => .ok (Entries.keys group)
        | none =>
          .error ((groups.flatMap Entries.keys).eraseDups.filterMap (rules.fault? sources)) := by
  have hrun := @tryGroups_remembered rules sources groups []
  have hstart : rules.remembered sources [] = [] := rfl
  rw [hstart, List.nil_append] at hrun
  unfold validate
  rw [hrun]
  split
  · rfl
  · cases groups.find? (rules.isSatisfied sources) with
    | some group => rfl
    | none => exact congrArg Except.error List.map_filterMap

/-- Nothing counts but the checks of the schemes that the groups name. -/
theorem validate_congr {other : SecurityRules} {sources' : ParameterSources}
    (hcheck : ∀ scheme ∈ groups.flatMap Entries.keys,
      rules.check sources scheme = other.check sources' scheme) :
    rules.validate groups sources = other.validate groups sources' := by
  have hfault : ∀ scheme ∈ groups.flatMap Entries.keys,
      rules.fault? sources scheme = other.fault? sources' scheme := by
    intro scheme hmem
    unfold fault? reason?
    rw [hcheck scheme hmem]
  have hsatisfied : ∀ group ∈ groups,
      rules.isSatisfied sources group = other.isSatisfied sources' group := by
    intro group hgroup
    unfold isSatisfied
    rw [Bool.eq_iff_iff, List.all_eq_true, List.all_eq_true]
    refine forall₂_congr fun name hname => ?_
    rw [hfault name (List.mem_flatMap_of_mem hgroup hname)]
  have hreported : (groups.flatMap Entries.keys).eraseDups.filterMap (rules.fault? sources) =
      (groups.flatMap Entries.keys).eraseDups.filterMap (other.fault? sources') := by
    apply List.filterMap_congr
    intro name hname
    exact hfault name (List.mem_eraseDups.1 hname)
  rw [validate_eq, validate_eq, List.find?_congr hsatisfied, hreported]

end SecurityRules

end ApiContract
