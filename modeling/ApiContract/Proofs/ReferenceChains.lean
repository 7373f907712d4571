import ApiContract.Contract.Loading
import ApiContract.Proofs.Splitting

/-!
# Chains of references

A chain of references goes from an object to the entry of a section that it names, and on from there
as long as the entry is a reference itself.  The loop that follows a chain remembers the names that it
visited.  This file says what one round of the loop does and adds up the rounds: the loop is over when
it has seen every entry of the section once.  It ends at an object without a reference exactly if the
chain does, and it refuses exactly if the chain leaves the section or comes back to a name.  Names are
compared as they are meant, so it does not matter how they are spelled.
-/

namespace ApiContract

namespace Reference

/-! ## How references are written -/

/-- A reference designates an entry of a section: it is the address of the description itself, or no
address, with a pointer below the components behind it. -/
inductive Designates (self? : Option String) : String → ComponentName → Prop
  | pointer {reference : String} {address part name : List Char}
      (hwritten : reference.toList =
        address ++ '#' :: '/' :: Text.joinWith '/' ["components".toList, part, name])
      (haddress : '#' ∉ address)
      (hself : address ≠ [] → ∃ self ∈ self?, isSameDocument (String.ofList address) self)
      (hpart : '/' ∉ part) (hname : '/' ∉ name) (hnamed : decodeSegment name ≠ "") :
      Designates self? reference ⟨decodeSegment part, decodeSegment name⟩

variable {self? : Option String} {part reference name : String} {target : ComponentName}

theorem designates_of_component? (hcomponent : component? self? reference = some target) :
    Designates self? reference target := by
  unfold component? at hcomponent
  split at hcomponent
  · simp at hcomponent
  · next address fragment hsplit =>
      obtain ⟨hwritten, haddress⟩ := Text.splitFirst?_eq_some_iff.1 hsplit
      split at hcomponent
      · simp at hcomponent
      · next hself =>
          split at hcomponent
          · next pointer =>
              split at hcomponent
              · next start part name hfields =>
                  dsimp only at hcomponent
                  split at hcomponent
                  · next hnamed =>
                      obtain rfl := Option.some.inj hcomponent
                      obtain ⟨hstart, hnamed⟩ : start = "components".toList ∧
                          decodeSegment name ≠ "" := by
                        rw [Bool.and_eq_true, decide_eq_true_eq] at hnamed
                        exact ⟨by rw [← hnamed.1, String.toList_ofList], by simpa using hnamed.2⟩
                      have hnot : ∀ field ∈ [start, part, name], '/' ∉ field := by
                        rw [← hfields]
                        exact fun field hmem => Text.notMem_of_mem_splitAll hmem
                      rw [← Text.joinWith_splitAll '/' pointer, hfields, hstart] at hwritten
                      refine .pointer hwritten haddress (fun hne => ?_) (hnot _ (by simp))
                        (hnot _ (by simp)) hnamed
                      simpa [hne, Option.any_eq_true] using hself
                  · simp at hcomponent
              · simp at hcomponent
          · simp at hcomponent

theorem component?_of_designates (hdesignates : Designates self? reference target) :
    component? self? reference = some target := by
  cases hdesignates with
  | @pointer address part name hwritten haddress hself hpart hname hnamed =>
      have hown : (!address.isEmpty && !self?.any (isSameDocument (String.ofList address))) =
          false := by
        by_cases hempty : address = []
        · simp [hempty]
        · simpa [hempty, Option.any_eq_true] using hself hempty
      have hfields : Text.splitAll '/' (Text.joinWith '/' ["components".toList, part, name]) =
          ["components".toList, part, name] :=
        Text.splitAll_joinWith (List.cons_ne_nil _ _) (by simp [hpart, hname])
      unfold component?
      rw [hwritten, Text.splitFirst?_append haddress]
      simp only [hown, Bool.false_eq_true, ↓reduceIte, hfields]
      simp [hnamed]

theorem component?_eq_some_iff :
    component? self? reference = some target ↔ Designates self? reference target :=
  ⟨designates_of_component?, component?_of_designates⟩

theorem Designates.unique {other : ComponentName} (hdesignates : Designates self? reference target)
    (hother : Designates self? reference other) : target = other :=
  Option.some.inj ((component?_of_designates hdesignates).symm.trans (component?_of_designates hother))

theorem nameIn?_eq_some_iff :
    nameIn? self? part reference = some name ↔ Designates self? reference ⟨part, name⟩ := by
  rw [← component?_eq_some_iff]
  unfold nameIn?
  cases component? self? reference with
  | none => simp
  | some found =>
      obtain ⟨foundPart, foundName⟩ := found
      by_cases hpart : foundPart = part <;> simp [hpart]

/-! ## One round of the loop -/

/-- How far the loop has come: the names that it visited and the object where it is. -/
structure Search where
  visited : List String
  current : Json

/-- An object names an entry of a section. -/
def Names (self? : Option String) (part : String) (json : Json) (name : String) : Prop :=
  ∃ reference, of? json = some reference ∧ Designates self? reference ⟨part, name⟩

/-- Why a chain is refused at an object to which it came past some names: the reference there leads
out of the description or out of the section, to no entry, or back. -/
inductive RefusedAt (self? : Option String) (part : String) (entries : Entries Json)
    (passed : List String) (json : Json) : ReferenceFault → Prop
  | external {reference : String} (hreference : of? json = some reference)
      (hnone : ∀ target, ¬ Designates self? reference target) :
      RefusedAt self? part entries passed json (.unresolved reference)
  | foreign {reference : String} {target : ComponentName} (hreference : of? json = some reference)
      (htarget : Designates self? reference target) (hpart : target.part ≠ part) :
      RefusedAt self? part entries passed json (.unresolved reference)
  | missing {reference name : String} (hreference : of? json = some reference)
      (htarget : Designates self? reference ⟨part, name⟩) (hget : Entries.get? entries name = none) :
      RefusedAt self? part entries passed json (.unresolved reference)
  | circular {reference name : String} (hreference : of? json = some reference)
      (htarget : Designates self? reference ⟨part, name⟩) (hpassed : name ∈ passed) :
      RefusedAt self? part entries passed json (.circular reference)

namespace Search

/-- One round of the loop: it is over, with a result, or goes on at the entry that is named. -/
def round (self? : Option String) (part : String) (entries : Entries Json) (search : Search) :
    Except ReferenceFault Json ⊕ Search :=
  match of? search.current with
  | none => .inl (.ok search.current)
  | some reference =>
    match nameIn? self? part reference with
    | none => .inl (.error (.unresolved reference))
    | some name =>
      if name ∈ search.visited then .inl (.error (.circular reference))
      else
        match Entries.get? entries name with
        | none => .inl (.error (.unresolved reference))
        | some target => .inr ⟨name :: search.visited, target⟩

/-- The loop, for some rounds at most. -/
def run (self? : Option String) (part : String) (entries : Entries Json) :
    (rounds : ℕ) → Search → Except ReferenceFault Json ⊕ Search
  | 0, search => .inr search
  | rounds + 1, search =>
    match search.round self? part entries with
    | .inl result => .inl result
    | .inr next => run self? part entries rounds next

variable {entries : Entries Json} {search next : Search} {found : Json} {fault : ReferenceFault}
  {result : Except ReferenceFault Json} {rounds : ℕ}

theorem resolveFrom_eq_round (search : Search) :
    resolveFrom self? part entries search.visited search.current =
      match search.round self? part entries with
      | .inl result => result
      | .inr next => resolveFrom self? part entries next.visited next.current := by
  rw [resolveFrom, round]
  cases of? search.current with
  | none => rfl
  | some reference =>
      dsimp only
      cases nameIn? self? part reference with
      | none => rfl
      | some name =>
          dsimp only
          by_cases hvisited : name ∈ search.visited
          · simp [hvisited]
          · simp only [hvisited, ↓reduceDIte, ↓reduceIte]
            split <;> simp_all

/-- The loop has come to the end of the chain, or the chain goes on, or it is refused. -/
theorem round_cases (self? : Option String) (part : String) (entries : Entries Json)
    (search : Search) :
    (of? search.current = none ∧
        search.round self? part entries = .inl (.ok search.current)) ∨
      (∃ name target, Names self? part search.current name ∧ name ∉ search.visited ∧
        Entries.get? entries name = some target ∧
        search.round self? part entries = .inr ⟨name :: search.visited, target⟩) ∨
      ∃ fault, RefusedAt self? part entries search.visited search.current fault ∧
        search.round self? part entries = .inl (.error fault) := by
  unfold round
  cases hreference : of? search.current with
  | none => exact .inl ⟨rfl, rfl⟩
  | some reference =>
      right
      dsimp only
      cases hname : nameIn? self? part reference with
      | none =>
          refine .inr ⟨.unresolved reference, ?_, rfl⟩
          by_cases htarget : ∃ target, Designates self? reference target
          · obtain ⟨⟨otherPart, name⟩, htarget⟩ := htarget
            refine .foreign hreference htarget ?_
            rintro rfl
            simp [nameIn?_eq_some_iff.2 htarget] at hname
          · exact .external hreference (not_exists.1 htarget)
      | some name =>
          have htarget := nameIn?_eq_some_iff.1 hname
          dsimp only
          by_cases hvisited : name ∈ search.visited
          · rw [if_pos hvisited]
            exact .inr ⟨_, .circular hreference htarget hvisited, rfl⟩
          · rw [if_neg hvisited]
            cases hget : Entries.get? entries name with
            | none => exact .inr ⟨_, .missing hreference htarget hget, rfl⟩
            | some target =>
                exact .inl ⟨name, target, ⟨reference, hreference, htarget⟩, hvisited, hget, rfl⟩

theorem round_of_names {target : Json} (hnames : Names self? part search.current name)
    (hnew : name ∉ search.visited) (hget : Entries.get? entries name = some target) :
    search.round self? part entries = .inr ⟨name :: search.visited, target⟩ := by
  obtain ⟨reference, hreference, htarget⟩ := hnames
  simp [round, hreference, nameIn?_eq_some_iff.2 htarget, hnew, hget]

/-- A name that was visited is that of an entry, so it is not missing. -/
theorem round_of_refusedAt
    (hentries : ∀ name ∈ search.visited, ∃ target, Entries.get? entries name = some target)
    (hrefused : RefusedAt self? part entries search.visited search.current fault) :
    search.round self? part entries = .inl (.error fault) := by
  have hnone : ∀ reference, (∀ name, ¬ Designates self? reference ⟨part, name⟩) →
      nameIn? self? part reference = none := fun reference hnot =>
    Option.eq_none_iff_forall_ne_some.2 fun name hname => hnot name (nameIn?_eq_some_iff.1 hname)
  cases hrefused with
  | @external reference hreference hnot =>
      simp [round, hreference, hnone reference fun name => hnot ⟨part, name⟩]
  | @foreign reference target hreference htarget hpart =>
      have hother : ∀ name, ¬ Designates self? reference ⟨part, name⟩ := by
        intro name hname
        have heq := htarget.unique hname
        exact hpart (congrArg ComponentName.part heq)
      simp [round, hreference, hnone reference hother]
  | @missing reference name hreference htarget hget =>
      have hnew : name ∉ search.visited := by
        intro hvisited
        obtain ⟨target, hsome⟩ := hentries name hvisited
        simp [hget] at hsome
      simp [round, hreference, nameIn?_eq_some_iff.2 htarget, hget, hnew]
  | circular hreference htarget hpassed =>
      simp [round, hreference, nameIn?_eq_some_iff.2 htarget, hpassed]

theorem round_eq_ok_iff :
    search.round self? part entries = .inl (.ok found) ↔
      search.current = found ∧ of? search.current = none := by
  constructor
  · intro hround
    rcases round_cases self? part entries search with
      ⟨hend, heq⟩ | ⟨_, _, _, _, _, heq⟩ | ⟨_, _, heq⟩
    · exact ⟨Except.ok.inj (Sum.inl.inj (heq.symm.trans hround)), hend⟩
    · cases heq.symm.trans hround
    · cases heq.symm.trans hround
  · rintro ⟨rfl, hend⟩
    simp [round, hend]

theorem refusedAt_of_round (hround : search.round self? part entries = .inl (.error fault)) :
    RefusedAt self? part entries search.visited search.current fault := by
  rcases round_cases self? part entries search with
    ⟨_, heq⟩ | ⟨_, _, _, _, _, heq⟩ | ⟨cause, hrefused, heq⟩
  · cases heq.symm.trans hround
  · cases heq.symm.trans hround
  · obtain rfl := Except.error.inj (Sum.inl.inj (heq.symm.trans hround))
    exact hrefused

theorem names_of_round (hround : search.round self? part entries = .inr next) :
    ∃ name, Names self? part search.current name ∧ name ∉ search.visited ∧
      Entries.get? entries name = some next.current ∧ next.visited = name :: search.visited := by
  rcases round_cases self? part entries search with
    ⟨_, heq⟩ | ⟨name, target, hnames, hnew, hget, heq⟩ | ⟨_, _, heq⟩
  · cases heq.symm.trans hround
  · obtain rfl := Sum.inr.inj (heq.symm.trans hround)
    exact ⟨name, hnames, hnew, hget, rfl⟩
  · cases heq.symm.trans hround

/-! ## All rounds -/

/-- Each round that goes on visits an entry for the first time. -/
theorem run_eq_resolveFrom (hrounds : unseen (Entries.keys entries) search.visited < rounds) :
    search.run self? part entries rounds =
      .inl (resolveFrom self? part entries search.visited search.current) := by
  induction rounds generalizing search with
  | zero => exact absurd hrounds (Nat.not_lt_zero _)
  | succ rounds ih =>
      rw [run, resolveFrom_eq_round]
      cases hround : search.round self? part entries with
      | inl result => rfl
      | inr next =>
          obtain ⟨name, -, hnew, hget, hvisited⟩ := names_of_round hround
          have hkey : name ∈ Entries.keys entries :=
            List.mem_map.2 ⟨_, Entries.mem_of_get? hget, rfl⟩
          have hlt := unseen_cons_lt hkey hnew
          exact ih (by rw [hvisited]; omega)

end Search

/-! ## Chains -/

/-- A chain of references through the entries of a section, with the names that it passes. -/
inductive Chain (self? : Option String) (part : String) (entries : Entries Json) :
    Json → List String → Json → Prop
  | stay (json : Json) : Chain self? part entries json [] json
  | step {json target last : Json} {name : String} {names : List String}
      (hnames : Names self? part json name) (hget : Entries.get? entries name = some target)
      (hrest : Chain self? part entries target names last) :
      Chain self? part entries json (name :: names) last

variable {entries : Entries Json} {json last found : Json} {names names' : List String}

theorem Names.unique {other : String} (hnames : Names self? part json name)
    (hother : Names self? part json other) : name = other := by
  obtain ⟨reference, hreference, htarget⟩ := hnames
  obtain ⟨reference', hreference', htarget'⟩ := hother
  obtain rfl := Option.some.inj (hreference.symm.trans hreference')
  exact congrArg ComponentName.name (htarget.unique htarget')

theorem Names.of?_ne_none (hnames : Names self? part json name) : of? json ≠ none := by
  obtain ⟨reference, hreference, -⟩ := hnames
  simp [hreference]

theorem Chain.exists_get? (hchain : Chain self? part entries json names last) :
    ∀ name ∈ names, ∃ target, Entries.get? entries name = some target := by
  induction hchain with
  | stay => simp
  | step _ hget _ ih => exact List.forall_mem_cons.2 ⟨⟨_, hget⟩, ih⟩

/-- A chain goes on from each name that it passes. -/
theorem Chain.exists_behind (hchain : Chain self? part entries json names last) :
    ∀ name ∈ names, ∃ target behind, Entries.get? entries name = some target ∧
      Chain self? part entries target behind last ∧ behind.length < names.length := by
  induction hchain with
  | stay => simp
  | @step _ target _ name names _ hget hrest ih =>
      refine List.forall_mem_cons.2 ⟨⟨target, names, hget, hrest, by simp⟩, fun other hmem => ?_⟩
      obtain ⟨next, behind, hnext, hbehind, hlt⟩ := ih other hmem
      exact ⟨next, behind, hnext, hbehind, by rw [List.length_cons]; omega⟩

/-- There is one chain to an object without a reference. -/
theorem Chain.eq_of_isEnd (hchain : Chain self? part entries json names last)
    (hend : of? last = none) (hother : Chain self? part entries json names' found)
    (hend' : of? found = none) : names = names' := by
  induction hchain generalizing names' with
  | stay =>
      cases hother with
      | stay => rfl
      | step hnames => exact absurd hend hnames.of?_ne_none
  | step hnames hget _ ih =>
      cases hother with
      | stay => exact absurd hend' hnames.of?_ne_none
      | step hnames' hget' hrest' =>
          obtain rfl := hnames.unique hnames'
          obtain rfl := Option.some.inj (hget.symm.trans hget')
          rw [ih hend hrest']

/-- A chain that ends passes no name twice: it would go round forever. -/
theorem Chain.nodup_of_isEnd (hchain : Chain self? part entries json names last)
    (hend : of? last = none) : names.Nodup := by
  induction hchain with
  | stay => exact List.nodup_nil
  | @step _ target _ name names _ hget hrest ih =>
      refine List.nodup_cons.2 ⟨fun hmem => ?_, ih hend⟩
      obtain ⟨target', behind, hget', hbehind, hlt⟩ := hrest.exists_behind name hmem
      obtain rfl := Option.some.inj (hget.symm.trans hget')
      rw [hrest.eq_of_isEnd hend hbehind hend] at hlt
      exact Nat.lt_irrefl _ hlt

theorem Chain.length_le (hchain : Chain self? part entries json names last) (hnodup : names.Nodup) :
    names.length ≤ entries.length := by
  have hsubset : names ⊆ Entries.keys entries := by
    intro name hmem
    obtain ⟨target, hget⟩ := hchain.exists_get? name hmem
    exact List.mem_map.2 ⟨_, Entries.mem_of_get? hget, rfl⟩
  have hle := (hnodup.subperm hsubset).length_le
  rwa [Entries.keys, List.length_map] at hle

/-- The loop goes along the chain until it comes to an end, or to an object where it is refused. -/
theorem Search.run_eq_inl_iff {search : Search} {result : Except ReferenceFault Json} {rounds : ℕ} :
    search.run self? part entries rounds = .inl result ↔
      ∃ names last, names.length < rounds ∧ Chain self? part entries search.current names last ∧
        names.Nodup ∧ (∀ name ∈ names, name ∉ search.visited) ∧
        Search.round self? part entries ⟨names.reverse ++ search.visited, last⟩ = .inl result := by
  induction rounds generalizing search with
  | zero => simp [run]
  | succ rounds ih =>
      constructor
      · intro hrun
        rw [run] at hrun
        cases hround : search.round self? part entries with
        | inl early =>
            rw [hround] at hrun
            obtain rfl := Sum.inl.inj hrun
            exact ⟨[], search.current, Nat.succ_pos _, .stay _, List.nodup_nil, by simp, hround⟩
        | inr next =>
            rw [hround] at hrun
            obtain ⟨name, hnames, hnew, hget, hvisited⟩ := names_of_round hround
            obtain ⟨names, last, hlength, hchain, hnodup, hfresh, hlast⟩ := ih.1 hrun
            rw [hvisited] at hfresh hlast
            refine ⟨name :: names, last, by simpa using hlength, .step hnames hget hchain,
              List.nodup_cons.2 ⟨fun hmem => ?_, hnodup⟩, ?_, by simpa using hlast⟩
            · exact hfresh name hmem List.mem_cons_self
            · refine List.forall_mem_cons.2 ⟨hnew, fun other hmem hvisited => ?_⟩
              exact hfresh other hmem (List.mem_cons_of_mem _ hvisited)
      · rintro ⟨names, last, hlength, hchain, hnodup, hfresh, hlast⟩
        rw [run]
        cases hchain with
        | stay =>
            have hround : search.round self? part entries = .inl result := hlast
            rw [hround]
        | @step _ target _ name names hnames hget hrest =>
            rw [List.forall_mem_cons] at hfresh
            rw [List.nodup_cons] at hnodup
            rw [round_of_names hnames hfresh.1 hget]
            refine ih.2 ⟨names, last, by simpa using hlength, hrest, hnodup.2, ?_, by simpa using hlast⟩
            intro other hmem hvisited
            rcases List.mem_cons.1 hvisited with rfl | hvisited
            · exact hnodup.1 hmem
            · exact hfresh.2 other hmem hvisited

/-! ## What a chain comes to -/

theorem run_eq_resolve (self? : Option String) (part : String) (entries : Entries Json)
    (json : Json) :
    Search.run self? part entries (entries.length + 1) ⟨[], json⟩ =
      .inl (resolve self? part entries json) := by
  refine Search.run_eq_resolveFrom ?_
  have hle : unseen (Entries.keys entries) [] ≤ (Entries.keys entries).length :=
    List.length_filter_le _ _
  rw [Entries.keys, List.length_map] at hle
  exact Nat.lt_succ_of_le hle

theorem resolve_eq_iff {result : Except ReferenceFault Json} :
    resolve self? part entries json = result ↔
      ∃ names last, Chain self? part entries json names last ∧ names.Nodup ∧
        Search.round self? part entries ⟨names.reverse, last⟩ = .inl result := by
  have hrun : Search.run self? part entries (entries.length + 1) ⟨[], json⟩ = .inl result ↔
      resolve self? part entries json = result := by
    rw [run_eq_resolve, Sum.inl.injEq]
  rw [← hrun, Search.run_eq_inl_iff]
  simp only [List.append_nil]
  constructor
  · rintro ⟨names, last, -, hchain, hnodup, -, hlast⟩
    exact ⟨names, last, hchain, hnodup, hlast⟩
  · rintro ⟨names, last, hchain, hnodup, hlast⟩
    exact ⟨names, last, Nat.lt_succ_of_le (hchain.length_le hnodup), hchain, hnodup,
      fun _ _ => List.not_mem_nil, hlast⟩

theorem resolve_eq_ok_iff :
    resolve self? part entries json = .ok found ↔
      (∃ names, Chain self? part entries json names found) ∧ of? found = none := by
  rw [resolve_eq_iff]
  simp only [Search.round_eq_ok_iff]
  constructor
  · rintro ⟨names, last, hchain, -, rfl, hend⟩
    exact ⟨⟨names, hchain⟩, hend⟩
  · rintro ⟨⟨names, hchain⟩, hend⟩
    exact ⟨names, found, hchain, hchain.nodup_of_isEnd hend, rfl, hend⟩

theorem RefusedAt.mono {passed passed' : List String} {fault : ReferenceFault}
    (hpassed : ∀ name, name ∈ passed → name ∈ passed')
    (hrefused : RefusedAt self? part entries passed json fault) :
    RefusedAt self? part entries passed' json fault := by
  cases hrefused with
  | external hreference hnone => exact .external hreference hnone
  | foreign hreference htarget hpart => exact .foreign hreference htarget hpart
  | missing hreference htarget hget => exact .missing hreference htarget hget
  | circular hreference htarget hmem => exact .circular hreference htarget (hpassed _ hmem)

theorem resolve_eq_error_iff {fault : ReferenceFault} :
    resolve self? part entries json = .error fault ↔
      ∃ names last, Chain self? part entries json names last ∧ names.Nodup ∧
        RefusedAt self? part entries names last fault := by
  rw [resolve_eq_iff]
  constructor
  · rintro ⟨names, last, hchain, hnodup, hround⟩
    refine ⟨names, last, hchain, hnodup, (Search.refusedAt_of_round hround).mono ?_⟩
    exact fun name hmem => List.mem_reverse.1 hmem
  · rintro ⟨names, last, hchain, hnodup, hrefused⟩
    refine ⟨names, last, hchain, hnodup, Search.round_of_refusedAt ?_ (hrefused.mono ?_)⟩
    · exact fun name hmem => hchain.exists_get? name (List.mem_reverse.1 hmem)
    · exact fun name hmem => List.mem_reverse.2 hmem

end Reference

variable {scope : Scope} {part : String} {entries : Entries Json} {json : Json}

theorem Scope.resolve_eq_ok_iff {found : Json} :
    scope.resolve part entries json = .ok found ↔
      (∃ names, Reference.Chain scope.self? part entries json names found) ∧
        Reference.of? found = none := by
  rw [← Reference.resolve_eq_ok_iff, Scope.resolve]
  cases Reference.resolve scope.self? part entries json <;> simp [Except.mapError]

theorem Scope.resolve_eq_error_iff {fault : ReferenceFault} :
    scope.resolve part entries json = .error (.reference fault) ↔
      ∃ names last, Reference.Chain scope.self? part entries json names last ∧ names.Nodup ∧
        Reference.RefusedAt scope.self? part entries names last fault := by
  rw [← Reference.resolve_eq_error_iff, Scope.resolve]
  cases Reference.resolve scope.self? part entries json <;> simp [Except.mapError]

/-- Chains of references are followed to their end or refused, whatever they look like.  The loop is
over after one round more than the section has entries at most.  It comes to an object exactly if the
chain does and this object is no reference, all references in between naming entries of the section.
It refuses exactly if the chain, up to where it would come back to a name, comes to a reference that
leads out of the description, into another section, to no entry, or back to a name that was passed. -/
theorem Scope.resolve_follows_chain (scope : Scope) (part : String) (entries : Entries Json)
    (json : Json) :
    Reference.Search.run scope.self? part entries (entries.length + 1) ⟨[], json⟩ =
        .inl (Reference.resolve scope.self? part entries json) ∧
      (∀ found, scope.resolve part entries json = .ok found ↔
        (∃ names, Reference.Chain scope.self? part entries json names found) ∧
          Reference.of? found = none) ∧
      ∀ fault, scope.resolve part entries json = .error (.reference fault) ↔
        ∃ names last, Reference.Chain scope.self? part entries json names last ∧ names.Nodup ∧
          Reference.RefusedAt scope.self? part entries names last fault :=
  ⟨Reference.run_eq_resolve _ _ _ _, fun _ => Scope.resolve_eq_ok_iff,
    fun _ => Scope.resolve_eq_error_iff⟩

end ApiContract
