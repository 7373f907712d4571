import ApiContract.Proofs.NestedTexts
import ApiContract.Proofs.Reading
import ApiContract.Proofs.Splitting

/-!
# Reading nested query keys exactly

The pairs of a query that belong to a parameter are those whose keys are its name followed by
brackets.  If every such key spells a path, these paths and the texts of the pairs are a placement,
and reading the parameter means to put the texts into an object.  So a parameter is absent if no pair
belongs to it, it is at fault if a key spells no path or the placement clashes, and otherwise its value
holds what was placed, and nothing else.
-/

namespace ApiContract.StyleReader

/-- Names, each in brackets. -/
def bracketed (names : List String) : List Char :=
  names.flatMap fun name => '[' :: name.toList ++ [']']

/-- A key is a name followed by what begins with a bracket. -/
def Belongs (name key : String) : Prop :=
  ∃ rest, key.toList = name.toList ++ '[' :: rest

/-- A key is a name followed by a row of brackets around the names of a path, where an empty last one
does not count. -/
def Leads (name key : String) (path : List String) : Prop :=
  ∃ names, names ≠ [] ∧ (∀ segment ∈ names, ']' ∉ segment.toList) ∧
    key.toList = name.toList ++ bracketed names ∧
    (names = path ++ [""] ∨ names = path ∧ path.getLast? ≠ some "")

/-- The pairs that belong to a parameter, with their paths in place of their keys. -/
inductive Targets (name : String) : List (String × String) → Placement → Prop
  | nil : Targets name [] []
  | other {key text : String} {pairs : List (String × String)} {targets : Placement}
      (hkey : ¬Belongs name key) (hpairs : Targets name pairs targets) :
      Targets name ((key, text) :: pairs) targets
  | target {key text : String} {path : List String} {pairs : List (String × String)}
      {targets : Placement} (hkey : Leads name key path) (hpairs : Targets name pairs targets) :
      Targets name ((key, text) :: pairs) ((path, text) :: targets)

/-- A key that belongs to a parameter spells no path or an empty one, or the paths of two keys clash. -/
def IsFaulty (name : String) (pairs : List (String × String)) : Prop :=
  (∃ pair ∈ pairs, Belongs name pair.1 ∧ ∀ path, ¬Leads name pair.1 path) ∨
  (∃ pair ∈ pairs, Leads name pair.1 []) ∨
  ∃ pair ∈ pairs, ∃ other ∈ pairs, ∃ front path, Leads name pair.1 front ∧
    Leads name other.1 path ∧ front <+: path ∧ front ≠ path

/-! ## Keys -/

theorem brackets?_eq_some_iff {name key : String} {brackets : List Char} :
    brackets? name key = some brackets ↔
      key.toList = name.toList ++ brackets ∧ brackets.head? = some '[' := by
  unfold brackets?
  rw [Option.filter_eq_some_iff, Text.stripStart?_eq_some_iff, beq_iff_eq]

theorem bracketed_cons (name : String) (rest : List String) :
    bracketed (name :: rest) = '[' :: (name.toList ++ ']' :: bracketed rest) := by
  simp [bracketed]

theorem bracketPath_bracketed {names : List String}
    (hnames : ∀ segment ∈ names, ']' ∉ segment.toList) :
    bracketPath (bracketed names) = .ok names := by
  induction names with
  | nil => rw [bracketed, List.flatMap_nil, bracketPath]
  | cons name rest ih =>
      rw [List.forall_mem_cons] at hnames
      have hsplit : Text.splitFirst? ']' (name.toList ++ ']' :: bracketed rest) =
          some (name.toList, bracketed rest) := Text.splitFirst?_append hnames.1
      rw [bracketed_cons, bracketPath]
      split
      · next before behind heq =>
          rw [hsplit] at heq
          obtain ⟨rfl, rfl⟩ := Prod.mk.inj (Option.some.inj heq)
          rw [ih hnames.2, String.ofList_toList]
          rfl
      · next heq =>
          rw [hsplit] at heq
          cases heq

theorem eq_bracketed_of_bracketPath {text : List Char} {names : List String}
    (hpath : bracketPath text = .ok names) :
    text = bracketed names ∧ ∀ segment ∈ names, ']' ∉ segment.toList := by
  induction text using bracketPath.induct generalizing names with
  | case1 =>
      rw [bracketPath] at hpath
      obtain rfl := Except.ok.inj hpath
      simp [bracketed]
  | case2 rest name behind hsplit ih =>
      rw [bracketPath] at hpath
      split at hpath
      · next other more heq =>
          rw [hsplit] at heq
          obtain ⟨rfl, rfl⟩ := Prod.mk.inj (Option.some.inj heq)
          obtain ⟨path, hrest, hcons⟩ := ok_of_bind_eq_ok hpath
          obtain rfl := Except.ok.inj hcons
          obtain ⟨hbehind, hnames⟩ := ih hrest
          obtain ⟨hrestEq, hname⟩ := Text.splitFirst?_eq_some_iff.1 hsplit
          rw [bracketed_cons, List.forall_mem_cons, String.toList_ofList, ← hbehind, ← hrestEq]
          exact ⟨rfl, hname, hnames⟩
      · cases hpath
  | case3 rest hsplit =>
      rw [bracketPath] at hpath
      split at hpath
      · next other more heq =>
          rw [hsplit] at heq
          cases heq
      · cases hpath
  | case4 text hnil hbracket =>
      rw [bracketPath] at hpath
      · cases hpath
      · exact hnil
      · exact hbracket

theorem bracketPath_eq_ok_iff {text : List Char} {names : List String} :
    bracketPath text = .ok names ↔
      text = bracketed names ∧ ∀ segment ∈ names, ']' ∉ segment.toList := by
  constructor
  · exact eq_bracketed_of_bracketPath
  · rintro ⟨rfl, hnames⟩
    exact bracketPath_bracketed hnames

theorem head?_bracketed {names : List String} :
    (bracketed names).head? = some '[' ↔ names ≠ [] := by
  cases names with
  | nil => simp [bracketed]
  | cons name rest => simp [bracketed_cons]

theorem withoutLastEmpty_eq_iff {names path : List String} :
    withoutLastEmpty names = path ↔
      names = path ++ [""] ∨ names = path ∧ path.getLast? ≠ some "" := by
  unfold withoutLastEmpty
  by_cases hlast : names.getLast? = some ""
  · rw [if_pos hlast]
    have hnames : names = names.dropLast ++ [""] := (List.dropLast_append_getLast? "" hlast).symm
    constructor
    · rintro rfl
      exact .inl hnames
    · rintro (rfl | ⟨rfl, hother⟩)
      · rw [List.dropLast_concat]
      · exact absurd hlast hother
  · rw [if_neg hlast]
    constructor
    · rintro rfl
      exact .inr ⟨rfl, hlast⟩
    · rintro (rfl | ⟨rfl, -⟩)
      · exact absurd List.getLast?_concat hlast
      · rfl

theorem belongs_iff {name key : String} :
    Belongs name key ↔ ∃ brackets, brackets? name key = some brackets := by
  simp only [brackets?_eq_some_iff]
  constructor
  · rintro ⟨rest, hkey⟩
    exact ⟨_, hkey, rfl⟩
  · rintro ⟨brackets, hkey, hhead⟩
    obtain ⟨rest, rfl⟩ := List.head?_eq_some_iff.1 hhead
    exact ⟨rest, hkey⟩

theorem leads_iff {name key : String} {path : List String} :
    Leads name key path ↔ ∃ brackets names, brackets? name key = some brackets ∧
      bracketPath brackets = .ok names ∧ withoutLastEmpty names = path := by
  simp only [brackets?_eq_some_iff, bracketPath_eq_ok_iff, withoutLastEmpty_eq_iff]
  constructor
  · rintro ⟨names, hne, hnames, hkey, hpath⟩
    exact ⟨_, names, ⟨hkey, head?_bracketed.2 hne⟩, ⟨rfl, hnames⟩, hpath⟩
  · rintro ⟨brackets, names, ⟨hkey, hhead⟩, ⟨rfl, hnames⟩, hpath⟩
    exact ⟨names, head?_bracketed.1 hhead, hnames, hkey, hpath⟩

theorem Leads.belongs {name key : String} {path : List String} (hkey : Leads name key path) :
    Belongs name key := by
  obtain ⟨brackets, _, hbrackets, -⟩ := leads_iff.1 hkey
  exact belongs_iff.2 ⟨brackets, hbrackets⟩

theorem Leads.unique {name key : String} {path other : List String}
    (hkey : Leads name key path) (hother : Leads name key other) : path = other := by
  obtain ⟨brackets, names, hbrackets, hnames, rfl⟩ := leads_iff.1 hkey
  obtain ⟨brackets', names', hbrackets', hnames', rfl⟩ := leads_iff.1 hother
  obtain rfl := Option.some.inj (hbrackets.symm.trans hbrackets')
  obtain rfl := Except.ok.inj (hnames.symm.trans hnames')
  rfl

/-! ## Pairs -/

/-- What the pairs that belong to a parameter have in brackets, and their texts. -/
def belonging (name : String) (pairs : List (String × String)) : List (List Char × String) :=
  pairs.filterMap fun pair => (brackets? name pair.1).map fun brackets => (brackets, pair.2)

/-- Puts the text of a pair to the path that it has in brackets. -/
def place (members : Entries Value) (pair : List Char × String) :
    Except StyleFault (Entries Value) := do
  let path ← bracketPath pair.1
  insertAt (withoutLastEmpty path) pair.2 members

theorem deepObject_eq (parameter : Parameter) (properties : List String)
    (pairs : List (String × String)) :
    deepObject parameter (.object properties) (.pairs pairs) = (do
      let members ← (belonging parameter.name pairs).foldlM place []
      .ok (if (belonging parameter.name pairs).isEmpty then none else some (.object members))) :=
  rfl

theorem belonging_cons_of_none {name key text : String} {pairs : List (String × String)}
    (hkey : brackets? name key = none) :
    belonging name ((key, text) :: pairs) = belonging name pairs := by
  simp [belonging, hkey]

theorem belonging_cons_of_some {name key text : String} {pairs : List (String × String)}
    {brackets : List Char} (hkey : brackets? name key = some brackets) :
    belonging name ((key, text) :: pairs) = (brackets, text) :: belonging name pairs := by
  simp [belonging, hkey]

theorem belonging_eq_nil_iff {name : String} {pairs : List (String × String)} :
    belonging name pairs = [] ↔ ∀ pair ∈ pairs, ¬Belongs name pair.1 := by
  simp only [belonging, List.filterMap_eq_nil_iff, Option.map_eq_none_iff, belongs_iff,
    ← Option.ne_none_iff_exists', not_not]

theorem foldlM_place_of_targets {name : String} {pairs : List (String × String)}
    {targets : Placement} (htargets : Targets name pairs targets) (members : Entries Value) :
    (belonging name pairs).foldlM place members = targets.insertAll members := by
  induction htargets generalizing members with
  | nil => rfl
  | other hkey _ ih =>
      have hnone := Option.eq_none_iff_forall_ne_some.2 fun brackets hbrackets =>
        hkey (belongs_iff.2 ⟨brackets, hbrackets⟩)
      rw [belonging_cons_of_none hnone, ih]
  | target hkey _ ih =>
      obtain ⟨brackets, names, hbrackets, hnames, rfl⟩ := leads_iff.1 hkey
      rw [belonging_cons_of_some hbrackets, List.foldlM_cons, Placement.insertAll,
        List.foldlM_cons, place, hnames]
      exact congrArg _ (funext ih)

/-- Either all keys spell paths, or one does not, and then the pairs are not read. -/
theorem exists_targets_or (name : String) (pairs : List (String × String)) :
    (∃ targets, Targets name pairs targets) ∨
      ∃ pair ∈ pairs, Belongs name pair.1 ∧ ∀ path, ¬Leads name pair.1 path := by
  induction pairs with
  | nil => exact .inl ⟨[], .nil⟩
  | cons pair rest ih =>
      obtain ⟨key, text⟩ := pair
      rcases ih with ⟨targets, htargets⟩ | ⟨other, hother, hmalformed⟩
      · by_cases hbelongs : Belongs name key
        · by_cases hleads : ∃ path, Leads name key path
          · obtain ⟨path, hpath⟩ := hleads
            exact .inl ⟨_, .target hpath htargets⟩
          · push Not at hleads
            exact .inr ⟨_, List.mem_cons_self, hbelongs, hleads⟩
        · exact .inl ⟨_, .other hbelongs htargets⟩
      · exact .inr ⟨other, List.mem_cons_of_mem _ hother, hmalformed⟩

theorem not_ok_of_malformed {name : String} {pairs : List (String × String)}
    {pair : String × String} (hpair : pair ∈ pairs) (hbelongs : Belongs name pair.1)
    (hmalformed : ∀ path, ¬Leads name pair.1 path) (members : Entries Value) :
    ∃ fault, (belonging name pairs).foldlM place members = .error fault := by
  induction pairs generalizing members with
  | nil => exact absurd hpair List.not_mem_nil
  | cons first rest ih =>
      obtain ⟨key, text⟩ := first
      cases hbrackets : brackets? name key with
      | none =>
          rw [belonging_cons_of_none hbrackets]
          rcases List.mem_cons.1 hpair with rfl | hrest
          · obtain ⟨brackets, hsome⟩ := belongs_iff.1 hbelongs
            rw [hbrackets] at hsome
            cases hsome
          · exact ih hrest members
      | some brackets =>
          rw [belonging_cons_of_some hbrackets, List.foldlM_cons]
          cases hplace : place members (brackets, text) with
          | error fault => exact ⟨fault, rfl⟩
          | ok added =>
              rcases List.mem_cons.1 hpair with rfl | hrest
              · obtain ⟨names, hnames, -⟩ := ok_of_bind_eq_ok hplace
                exact absurd (leads_iff.2 ⟨_, _, hbrackets, hnames, rfl⟩) (hmalformed _)
              · exact ih hrest added

theorem Targets.mem_of_leads {name : String} {pairs : List (String × String)} {targets : Placement}
    (htargets : Targets name pairs targets) {pair : String × String} (hpair : pair ∈ pairs)
    {path : List String} (hpath : Leads name pair.1 path) : (path, pair.2) ∈ targets := by
  induction htargets with
  | nil => exact absurd hpair List.not_mem_nil
  | other hkey _ ih =>
      rcases List.mem_cons.1 hpair with rfl | hrest
      · exact absurd hpath.belongs hkey
      · exact ih hrest
  | target hkey _ ih =>
      rcases List.mem_cons.1 hpair with rfl | hrest
      · rw [hpath.unique hkey]
        exact List.mem_cons_self
      · exact List.mem_cons_of_mem _ (ih hrest)

theorem Targets.exists_leads {name : String} {pairs : List (String × String)} {targets : Placement}
    (htargets : Targets name pairs targets) {target : List String × String}
    (htarget : target ∈ targets) : ∃ pair ∈ pairs, Leads name pair.1 target.1 := by
  induction htargets with
  | nil => exact absurd htarget List.not_mem_nil
  | other _ _ ih =>
      obtain ⟨pair, hpair, hleads⟩ := ih htarget
      exact ⟨pair, List.mem_cons_of_mem _ hpair, hleads⟩
  | target hkey _ ih =>
      rcases List.mem_cons.1 htarget with rfl | hrest
      · exact ⟨_, List.mem_cons_self, hkey⟩
      · obtain ⟨pair, hpair, hleads⟩ := ih hrest
        exact ⟨pair, List.mem_cons_of_mem _ hpair, hleads⟩

/-- A pair that belongs has a path if all of them have. -/
theorem Targets.not_malformed {name : String} {pairs : List (String × String)} {targets : Placement}
    (htargets : Targets name pairs targets) {pair : String × String} (hpair : pair ∈ pairs)
    (hbelongs : Belongs name pair.1) : ∃ path, Leads name pair.1 path := by
  induction htargets with
  | nil => exact absurd hpair List.not_mem_nil
  | other hkey _ ih =>
      rcases List.mem_cons.1 hpair with rfl | hrest
      · exact absurd hbelongs hkey
      · exact ih hrest
  | target hkey _ ih =>
      rcases List.mem_cons.1 hpair with rfl | hrest
      · exact ⟨_, hkey⟩
      · exact ih hrest

/-- The pairs are at fault exactly if their targets clash. -/
theorem Targets.isFaulty_iff {name : String} {pairs : List (String × String)} {targets : Placement}
    (htargets : Targets name pairs targets) : IsFaulty name pairs ↔ targets.Clashes := by
  constructor
  · rintro (⟨pair, hpair, hbelongs, hmalformed⟩ | ⟨pair, hpair, hleads⟩ |
      ⟨pair, hpair, other, hother, front, path, hfront, hpath, hclash⟩)
    · obtain ⟨path, hpath⟩ := htargets.not_malformed hpair hbelongs
      exact absurd hpath (hmalformed path)
    · exact .inl ⟨_, htargets.mem_of_leads hpair hleads, rfl⟩
    · exact .inr ⟨_, htargets.mem_of_leads hpair hfront, _, htargets.mem_of_leads hother hpath, hclash⟩
  · rintro (⟨target, htarget, hpath⟩ | ⟨front, hfront, target, htarget, hclash⟩)
    · obtain ⟨pair, hpair, hleads⟩ := htargets.exists_leads htarget
      exact .inr (.inl ⟨pair, hpair, hpath ▸ hleads⟩)
    · obtain ⟨pair, hpair, hleads⟩ := htargets.exists_leads hfront
      obtain ⟨other, hother, hbehind⟩ := htargets.exists_leads htarget
      exact .inr (.inr ⟨pair, hpair, other, hother, _, _, hleads, hbehind, hclash⟩)

/-! ## Exactness -/

/-- What is read of a query: nothing if no pair belongs to the parameter, a fault if its pairs are at
fault, and otherwise the object that holds their texts at their paths. -/
structure ReadsExactly (name : String) (pairs : List (String × String))
    (result : Except StyleFault (Option Value)) : Prop where
  absent : result = .ok none ↔ ∀ pair ∈ pairs, ¬Belongs name pair.1
  faulty : (∃ fault, result = .error fault) ↔ IsFaulty name pairs
  present : (∃ pair ∈ pairs, Belongs name pair.1) → ¬IsFaulty name pairs →
    ∃ targets members, Targets name pairs targets ∧ targets.IsHeldBy (.object members) ∧
      result = .ok (some (.object members))

theorem IsFaulty.exists_belongs {name : String} {pairs : List (String × String)}
    (hfaulty : IsFaulty name pairs) : ∃ pair ∈ pairs, Belongs name pair.1 := by
  rcases hfaulty with ⟨pair, hpair, hbelongs, -⟩ | ⟨pair, hpair, hleads⟩ |
    ⟨pair, hpair, _, _, _, _, hleads, -⟩
  · exact ⟨pair, hpair, hbelongs⟩
  · exact ⟨pair, hpair, hleads.belongs⟩
  · exact ⟨pair, hpair, hleads.belongs⟩

variable {parameter : Parameter} {properties : List String} {pairs : List (String × String)}

theorem readsExactly_of_error {fault : StyleFault}
    (hfault : (belonging parameter.name pairs).foldlM place [] = .error fault)
    (hfaulty : IsFaulty parameter.name pairs) :
    ReadsExactly parameter.name pairs
      (deepObject parameter (.object properties) (.pairs pairs)) := by
  have hresult : deepObject parameter (.object properties) (.pairs pairs) = .error fault := by
    rw [deepObject_eq, hfault]
    rfl
  rw [hresult]
  constructor
  · obtain ⟨pair, hpair, hbelongs⟩ := hfaulty.exists_belongs
    constructor
    · rintro ⟨⟩
    · exact fun hnone => absurd hbelongs (hnone pair hpair)
  · exact ⟨fun _ => hfaulty, fun _ => ⟨fault, rfl⟩⟩
  · exact fun _ hsound => absurd hfaulty hsound

theorem readsExactly_of_ok {members : Entries Value} {targets : Placement}
    (hmembers : (belonging parameter.name pairs).foldlM place [] = .ok members)
    (htargets : Targets parameter.name pairs targets) (hfills : targets.Fills members) :
    ReadsExactly parameter.name pairs
      (deepObject parameter (.object properties) (.pairs pairs)) := by
  have hsound : ¬IsFaulty parameter.name pairs := fun hfaulty =>
    hfills.not_clashes (htargets.isFaulty_iff.1 hfaulty)
  by_cases hnone : belonging parameter.name pairs = []
  · have hresult : deepObject parameter (.object properties) (.pairs pairs) = .ok none := by
      rw [deepObject_eq, hmembers, hnone]
      rfl
    have hbelongs := belonging_eq_nil_iff.1 hnone
    rw [hresult]
    constructor
    · exact ⟨fun _ => hbelongs, fun _ => rfl⟩
    · exact ⟨by rintro ⟨fault, ⟨⟩⟩, fun hfaulty => absurd hfaulty hsound⟩
    · rintro ⟨pair, hpair, hpairBelongs⟩
      exact absurd hpairBelongs (hbelongs pair hpair)
  · have hresult : deepObject parameter (.object properties) (.pairs pairs) =
        .ok (some (.object members)) := by
      rw [deepObject_eq, hmembers]
      change Except.ok (if (belonging parameter.name pairs).isEmpty then none else _) = _
      rw [if_neg (by simpa using hnone)]
    have hbelongs := belonging_eq_nil_iff.not.1 hnone
    rw [hresult]
    constructor
    · exact ⟨by rintro ⟨⟩, fun hall => absurd hall hbelongs⟩
    · exact ⟨by rintro ⟨fault, ⟨⟩⟩, fun hfaulty => absurd hfaulty hsound⟩
    · rintro ⟨pair, hpair, hpairBelongs⟩ -
      obtain ⟨path, hpath⟩ := htargets.not_malformed hpair hpairBelongs
      have hsome := List.ne_nil_of_mem (htargets.mem_of_leads hpair hpath)
      exact ⟨targets, members, htargets, (hfills.holds hsome).isHeldBy, rfl⟩

/-- Reading nested keys is exact for every parameter of object shape and every query. -/
theorem readsExactly_deepObject (parameter : Parameter) (properties : List String)
    (pairs : List (String × String)) :
    ReadsExactly parameter.name pairs
      (deepObject parameter (.object properties) (.pairs pairs)) := by
  rcases exists_targets_or parameter.name pairs with
    ⟨targets, htargets⟩ | ⟨pair, hpair, hbelongs, hmalformed⟩
  · have hfold := foldlM_place_of_targets htargets []
    rcases Placement.fills_nil.insertAll targets with
      ⟨members, hmembers, hfills⟩ | ⟨⟨fault, hfault⟩, hclashes⟩
    · exact readsExactly_of_ok (hfold.trans hmembers) htargets hfills
    · exact readsExactly_of_error (hfold.trans hfault) (htargets.isFaulty_iff.2 hclashes)
  · obtain ⟨fault, hfault⟩ := not_ok_of_malformed hpair hbelongs hmalformed []
    exact readsExactly_of_error hfault (.inl ⟨pair, hpair, hbelongs, hmalformed⟩)

end ApiContract.StyleReader
