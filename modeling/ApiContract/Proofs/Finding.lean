import ApiContract.Proofs.Compiled
import ApiContract.Proofs.Splitting
import ApiContract.Proofs.Transcoding

/-!
# Finding operations exactly

The table of routes holds every template of a contract once, with all of its operations, more
specific templates first and, among those of equal rank, in the order of their declaration.  A path
has several readings: what is left of it below each server, longest server first, and the path
itself.  The search goes through the table for one reading after the other, so what it finds belongs
to the first reading that some template with the wanted method matches, and to the first of these
templates.
-/

namespace ApiContract

/-! ## The order of templates -/

namespace TemplateSegment

/-- A literal is preferred to what holds a placeholder, and a mix to a placeholder alone. -/
inductive Outranks : TemplateSegment → TemplateSegment → Prop
  | literal_mixed (text start : List Char) (gaps : List (String × List Char)) :
      Outranks (.literal text) (.mixed start gaps)
  | literal_placeholder (text : List Char) (name : String) :
      Outranks (.literal text) (.placeholder name)
  | mixed_placeholder (start : List Char) (gaps : List (String × List Char)) (name : String) :
      Outranks (.mixed start gaps) (.placeholder name)

/-- Neither of two segments of one kind is preferred. -/
inductive IsLike : TemplateSegment → TemplateSegment → Prop
  | literals (text other : List Char) : IsLike (.literal text) (.literal other)
  | mixes (start other : List Char) (gaps others : List (String × List Char)) :
      IsLike (.mixed start gaps) (.mixed other others)
  | placeholders (name other : String) : IsLike (.placeholder name) (.placeholder other)

variable {a b : TemplateSegment}

theorem outranks_iff : a.Outranks b ↔ a.rank < b.rank := by
  constructor
  · intro houtranks
    cases houtranks <;> simp [rank]
  · intro hlt
    cases a <;> cases b <;> first | constructor | simp [rank] at hlt

theorem isLike_iff : a.IsLike b ↔ a.rank = b.rank := by
  constructor
  · intro hlike
    cases hlike <;> rfl
  · intro heq
    cases a <;> cases b <;> first | constructor | simp [rank] at heq

end TemplateSegment

namespace PathTemplate

/-- The first segments that differ in kind decide, and a beginning comes before the whole. -/
inductive SegmentsOutrank : List TemplateSegment → List TemplateSegment → Prop
  | nil {segment : TemplateSegment} {rest : List TemplateSegment} :
      SegmentsOutrank [] (segment :: rest)
  | head {a b : TemplateSegment} {as bs : List TemplateSegment} (hfirst : a.Outranks b) :
      SegmentsOutrank (a :: as) (b :: bs)
  | tail {a b : TemplateSegment} {as bs : List TemplateSegment} (hlike : a.IsLike b)
      (hrest : SegmentsOutrank as bs) : SegmentsOutrank (a :: as) (b :: bs)

/-- One template is preferred to the other, segment by segment from the left. -/
def IsMoreSpecific (a b : PathTemplate) : Prop := SegmentsOutrank a.segments b.segments

/-- The segments of both templates are of the same kinds. -/
def IsAsSpecific (a b : PathTemplate) : Prop :=
  List.Forall₂ TemplateSegment.IsLike a.segments b.segments

theorem segmentsOutrank_iff {as bs : List TemplateSegment} :
    SegmentsOutrank as bs ↔
      List.Lex (· < ·) (as.map TemplateSegment.rank) (bs.map TemplateSegment.rank) := by
  constructor
  · intro houtrank
    induction houtrank with
    | nil => exact .nil
    | head hfirst => exact .rel (TemplateSegment.outranks_iff.1 hfirst)
    | @tail a b as bs hlike _ ih =>
        rw [List.map_cons, List.map_cons, TemplateSegment.isLike_iff.1 hlike]
        exact .cons ih
  · intro hlex
    induction as generalizing bs with
    | nil =>
        cases bs with
        | nil => cases hlex
        | cons b bs => exact .nil
    | cons a as ih =>
        cases bs with
        | nil => cases hlex
        | cons b bs =>
            rw [List.map_cons, List.map_cons, List.cons_lex_cons_iff] at hlex
            rcases hlex with hlt | ⟨heq, hrest⟩
            · exact .head (TemplateSegment.outranks_iff.2 hlt)
            · exact .tail (TemplateSegment.isLike_iff.2 heq) (ih hrest)

/-- The numbers by which templates are sorted give their order. -/
theorem isMoreSpecific_iff {a b : PathTemplate} :
    a.IsMoreSpecific b ↔ List.Lex (· < ·) a.ranks b.ranks :=
  segmentsOutrank_iff

theorem isAsSpecific_iff {a b : PathTemplate} : a.IsAsSpecific b ↔ a.ranks = b.ranks := by
  unfold IsAsSpecific ranks
  rw [← List.forall₂_eq_eq_eq, List.forall₂_map_left_iff, List.forall₂_map_right_iff]
  exact ⟨fun has => has.imp fun _ _ => TemplateSegment.isLike_iff.1,
    fun heq => heq.imp fun _ _ => TemplateSegment.isLike_iff.2⟩

theorem isUpTo_iff {a b : List Nat} : isUpTo a b = true ↔ ¬List.Lex (· < ·) b a := by
  induction a generalizing b with
  | nil => simp [isUpTo]
  | cons x as ih =>
      cases b with
      | nil => simp [isUpTo]
      | cons y bs =>
          simp only [isUpTo, Bool.or_eq_true, decide_eq_true_eq, Bool.and_eq_true, beq_iff_eq, ih,
            List.cons_lex_cons_iff, not_or, not_and, not_lt]
          rcases lt_trichotomy x y with hlt | rfl | hlt
          · simp [hlt, hlt.le, hlt.ne']
          · simp
          · simp [hlt.not_gt, hlt.not_ge, hlt.ne']

theorem isAtLeastAsSpecific_iff {a b : PathTemplate} :
    a.isAtLeastAsSpecific b = true ↔ ¬b.IsMoreSpecific a := by
  rw [isMoreSpecific_iff]
  exact isUpTo_iff

theorem isUpTo_trans {a b c : List Nat} (hab : isUpTo a b) (hbc : isUpTo b c) : isUpTo a c := by
  induction a generalizing b c with
  | nil => rfl
  | cons x as ih =>
      cases b with
      | nil => simp [isUpTo] at hab
      | cons y bs =>
          cases c with
          | nil => simp [isUpTo] at hbc
          | cons z cs =>
              simp only [isUpTo, Bool.or_eq_true, decide_eq_true_eq, Bool.and_eq_true,
                beq_iff_eq] at hab hbc ⊢
              rcases hab with hxy | ⟨rfl, has⟩ <;> rcases hbc with hyz | ⟨rfl, hbs⟩
              · exact .inl (hxy.trans hyz)
              · exact .inl hxy
              · exact .inl hyz
              · exact .inr ⟨rfl, ih has hbs⟩

theorem isUpTo_total (a b : List Nat) : (isUpTo a b || isUpTo b a) = true := by
  induction a generalizing b with
  | nil => rfl
  | cons x as ih =>
      cases b with
      | nil => rfl
      | cons y bs =>
          have hrest := ih bs
          simp only [isUpTo, Bool.or_eq_true, decide_eq_true_eq, Bool.and_eq_true,
            beq_iff_eq] at hrest ⊢
          rcases lt_trichotomy x y with hlt | rfl | hlt
          · exact .inl (.inl hlt)
          · exact hrest.imp (fun has => .inr ⟨rfl, has⟩) fun hbs => .inr ⟨rfl, hbs⟩
          · exact .inr (.inl hlt)

theorem IsAsSpecific.not_isMoreSpecific {a b : PathTemplate} (has : a.IsAsSpecific b) :
    ¬a.IsMoreSpecific b := by
  rw [isMoreSpecific_iff, isAsSpecific_iff.1 has]
  exact irrefl_of (List.Lex (· < ·)) b.ranks

theorem isAsSpecific_self (template : PathTemplate) : template.IsAsSpecific template :=
  isAsSpecific_iff.2 rfl

theorem IsAsSpecific.symm {a b : PathTemplate} (has : a.IsAsSpecific b) : b.IsAsSpecific a :=
  isAsSpecific_iff.2 (isAsSpecific_iff.1 has).symm

theorem text_of_ofText {text : String} {template : PathTemplate}
    (hparse : ofText text = .ok template) : template.text = text := by
  unfold ofText at hparse
  dsimp only at hparse
  split at hparse
  · simp at hparse
  · obtain rfl := Except.ok.inj hparse
    rfl

end PathTemplate

/-- What is in some order before sorting stays in that order where the sorting does not tell it
apart. -/
theorem pairwise_mergeSort_of_pairwise {α : Type} {le : α → α → Bool} {before : α → α → Prop}
    (htrans : ∀ a b c, le a b → le b c → le a c) (htotal : ∀ a b, le a b || le b a) {list : List α}
    (hlist : list.Pairwise before) :
    (list.mergeSort le).Pairwise fun a b => le a b ∧ (le b a → before a b) := by
  refine (List.pairwise_mergeSort htrans htotal list).and ?_
  induction list with
  | nil => simp
  | cons first rest ih =>
      obtain ⟨hfirst, hrest⟩ := List.pairwise_cons.1 hlist
      obtain ⟨smaller, larger, hsorted, hboth, hsmaller⟩ :=
        List.mergeSort_cons htrans htotal first rest
      have hmem : ∀ b ∈ larger, b ∈ rest := fun b hb =>
        List.mem_mergeSort.1 (hboth ▸ List.mem_append_right smaller hb)
      obtain ⟨hleft, hright, hacross⟩ := List.pairwise_append.1 (hboth ▸ ih hrest)
      rw [hsorted]
      refine List.pairwise_append.2 ⟨hleft, List.pairwise_cons.2 ⟨?_, hright⟩, ?_⟩
      · exact fun b hb _ => hfirst b (hmem b hb)
      · intro a ha b hb hle
        rcases List.mem_cons.1 hb with rfl | hb
        · exact absurd hle (by simpa using hsmaller a ha)
        · exact hacross a ha b hb hle

/-! ## The table of routes -/

namespace Router

/-- How many operations are declared in front of the first one at a path. -/
def position (operations : List Operation) (path : String) : Nat :=
  (operations.map Operation.path).idxOf path

/-- The routes hold the operations together that are declared for one template. -/
structure Groups (operations : List Operation) (routes : List Route) : Prop where
  parsed : ∀ route ∈ routes, PathTemplate.ofText route.template.text = .ok route.template
  declared : ∀ route ∈ routes, route.template.text ∈ operations.map Operation.path
  collected : ∀ route ∈ routes,
    route.operations = operations.filter (·.path == route.template.text)
  covers : ∀ operation ∈ operations, ∃ route ∈ routes, route.template.text = operation.path

/-- The routes stand in the order in which their templates are declared first. -/
structure GroupsInOrder (operations : List Operation) (routes : List Route) : Prop
    extends Groups operations routes where
  ordered : routes.Pairwise fun a b =>
    position operations a.template.text < position operations b.template.text

section

variable {operations : List Operation} {routes : List Route} {operation : Operation}
  {template : PathTemplate}

theorem position_append {path : String} (hpath : path ∈ operations.map Operation.path)
    (more : List Operation) : position (operations ++ more) path = position operations path := by
  unfold position
  rw [List.map_append, List.idxOf_append_of_mem hpath]

theorem position_lt_of_notMem {path : String} (hpath : path ∈ operations.map Operation.path)
    (hnew : operation.path ∉ operations.map Operation.path) :
    position (operations ++ [operation]) path <
      position (operations ++ [operation]) operation.path := by
  have hold : position operations path < (operations.map Operation.path).length :=
    List.idxOf_lt_length_iff.2 hpath
  have hlast : position (operations ++ [operation]) operation.path =
      (operations.map Operation.path).length := by
    unfold position
    rw [List.map_append, List.idxOf_append_of_notMem hnew]
    simp
  rwa [position_append hpath, hlast]

theorem GroupsInOrder.ordered_append (hgroups : GroupsInOrder operations routes)
    (more : List Operation) :
    routes.Pairwise fun a b =>
      position (operations ++ more) a.template.text <
        position (operations ++ more) b.template.text := by
  refine hgroups.ordered.imp_of_mem fun {a b} ha hb hlt => ?_
  rwa [position_append (hgroups.declared a ha), position_append (hgroups.declared b hb)]

theorem groupsInOrder_nil : GroupsInOrder [] [] := by
  refine ⟨⟨?_, ?_, ?_, ?_⟩, ?_⟩ <;> simp

def collect (operation : Operation) (route : Route) : Route :=
  if route.template.text == operation.path then
    { route with operations := route.operations ++ [operation] }
  else route

@[simp] theorem template_collect (operation : Operation) (route : Route) :
    (collect operation route).template = route.template := by
  unfold collect
  split <;> rfl

theorem GroupsInOrder.addKnown (hgroups : GroupsInOrder operations routes)
    (hknown : ∃ route ∈ routes, route.template.text = operation.path) :
    GroupsInOrder (operations ++ [operation]) (routes.map (collect operation)) where
  parsed := by simpa using hgroups.parsed
  declared := by
    simp only [List.forall_mem_map, template_collect, List.map_append]
    exact fun route hroute => List.mem_append_left _ (hgroups.declared route hroute)
  collected := by
    simp only [List.forall_mem_map, template_collect, List.filter_append]
    intro route hroute
    rw [← hgroups.collected route hroute]
    unfold collect
    by_cases htext : operation.path = route.template.text
    · simp [htext]
    · simp [htext, Ne.symm htext]
  covers := by
    have hcollected : ∀ path, (∃ route ∈ routes, route.template.text = path) →
        ∃ route ∈ routes.map (collect operation), route.template.text = path := by
      rintro path ⟨route, hroute, htext⟩
      exact ⟨collect operation route, List.mem_map_of_mem hroute, by rw [template_collect, htext]⟩
    rw [List.forall_mem_append, List.forall_mem_singleton]
    exact ⟨fun other hother => hcollected _ (hgroups.covers other hother), hcollected _ hknown⟩
  ordered := by
    rw [List.pairwise_map]
    simp only [template_collect]
    exact hgroups.ordered_append [operation]

theorem Groups.notMem_of_new (hgroups : Groups operations routes)
    (hnew : ¬∃ route ∈ routes, route.template.text = operation.path) :
    operation.path ∉ operations.map Operation.path := by
  intro hmem
  obtain ⟨other, hother, hpath⟩ := List.mem_map.1 hmem
  obtain ⟨route, hroute, htext⟩ := hgroups.covers other hother
  exact hnew ⟨route, hroute, htext.trans hpath⟩

theorem GroupsInOrder.addNew (hgroups : GroupsInOrder operations routes)
    (hnew : ¬∃ route ∈ routes, route.template.text = operation.path)
    (hparse : PathTemplate.ofText operation.path = .ok template) :
    GroupsInOrder (operations ++ [operation]) (routes ++ [⟨template, [operation]⟩]) where
  parsed := by
    rw [List.forall_mem_append, List.forall_mem_singleton, PathTemplate.text_of_ofText hparse]
    exact ⟨hgroups.parsed, hparse⟩
  declared := by
    rw [List.forall_mem_append, List.forall_mem_singleton, PathTemplate.text_of_ofText hparse,
      List.map_append]
    exact ⟨fun route hroute => List.mem_append_left _ (hgroups.declared route hroute), by simp⟩
  collected := by
    have hothers : operations.filter (·.path == operation.path) = [] := by
      rw [List.filter_eq_nil_iff]
      intro other hother
      have hfresh := hgroups.notMem_of_new hnew
      simpa using fun hpath => hfresh (List.mem_map.2 ⟨other, hother, hpath⟩)
    rw [List.forall_mem_append, List.forall_mem_singleton, PathTemplate.text_of_ofText hparse]
    constructor
    · intro route hroute
      have hother : operation.path ≠ route.template.text := fun hsame =>
        hnew ⟨route, hroute, hsame.symm⟩
      simp [hgroups.collected route hroute, hother]
    · simp [List.filter_append, hothers]
  covers := by
    rw [List.forall_mem_append, List.forall_mem_singleton]
    constructor
    · intro other hother
      obtain ⟨route, hroute, htext⟩ := hgroups.covers other hother
      exact ⟨route, List.mem_append_left _ hroute, htext⟩
    · exact ⟨_, List.mem_append_right _ (List.mem_singleton_self _),
        PathTemplate.text_of_ofText hparse⟩
  ordered := by
    rw [List.pairwise_append]
    refine ⟨hgroups.ordered_append [operation], List.pairwise_singleton _ _, ?_⟩
    intro route hroute
    rw [List.forall_mem_singleton, PathTemplate.text_of_ofText hparse]
    exact position_lt_of_notMem (hgroups.declared route hroute) (hgroups.notMem_of_new hnew)

theorem GroupsInOrder.addOperation (hgroups : GroupsInOrder operations routes)
    (hparse : PathTemplate.ofText operation.path = .ok template) :
    ∃ added, Router.addOperation routes operation = .ok added ∧
      GroupsInOrder (operations ++ [operation]) added := by
  unfold Router.addOperation
  split
  · next hknown =>
      have hroute : ∃ route ∈ routes, route.template.text = operation.path := by
        simpa using hknown
      exact ⟨_, rfl, hgroups.addKnown hroute⟩
  · next hunknown =>
      have hnew : ¬∃ route ∈ routes, route.template.text = operation.path := by
        simpa using hunknown
      rw [hparse]
      exact ⟨_, rfl, hgroups.addNew hnew hparse⟩

theorem GroupsInOrder.foldlM {rest : List Operation} (hgroups : GroupsInOrder operations routes)
    (hparse : ∀ operation ∈ rest, ∃ template, PathTemplate.ofText operation.path = .ok template) :
    ∃ added, rest.foldlM Router.addOperation routes = .ok added ∧
      GroupsInOrder (operations ++ rest) added := by
  induction rest generalizing operations routes with
  | nil => exact ⟨routes, rfl, by rwa [List.append_nil]⟩
  | cons operation rest ih =>
      rw [List.forall_mem_cons] at hparse
      obtain ⟨⟨template, htemplate⟩, hrest⟩ := hparse
      obtain ⟨middle, hmiddle, hgrouped⟩ := hgroups.addOperation htemplate
      obtain ⟨added, hadded, hall⟩ := ih hgrouped hrest
      rw [List.append_assoc] at hall
      rw [List.foldlM_cons, hmiddle]
      exact ⟨added, hadded, hall⟩

end

/-- One template is tried before the other: no segment says otherwise, and if none decides, it is
declared first. -/
def Precedes (operations : List Operation) (a b : PathTemplate) : Prop :=
  ¬b.IsMoreSpecific a ∧
    (¬a.IsMoreSpecific b → position operations a.text < position operations b.text)

/-- The routes stand in the order in which they are tried. -/
structure Arranges (operations : List Operation) (routes : List Route) : Prop
    extends Groups operations routes where
  ordered : routes.Pairwise fun a b => Precedes operations a.template b.template

theorem GroupsInOrder.mergeSort {operations : List Operation} {routes : List Route}
    (hgroups : GroupsInOrder operations routes) :
    Arranges operations
      (routes.mergeSort fun a b => a.template.isAtLeastAsSpecific b.template) where
  parsed := fun route hroute => hgroups.parsed route (List.mem_mergeSort.1 hroute)
  declared := fun route hroute => hgroups.declared route (List.mem_mergeSort.1 hroute)
  collected := fun route hroute => hgroups.collected route (List.mem_mergeSort.1 hroute)
  covers := by
    intro operation hoperation
    obtain ⟨route, hroute, htext⟩ := hgroups.covers operation hoperation
    exact ⟨route, List.mem_mergeSort.2 hroute, htext⟩
  ordered := by
    have htrans : ∀ a b c : Route, a.template.isAtLeastAsSpecific b.template →
        b.template.isAtLeastAsSpecific c.template → a.template.isAtLeastAsSpecific c.template :=
      fun _ _ _ => PathTemplate.isUpTo_trans
    have htotal : ∀ a b : Route, (a.template.isAtLeastAsSpecific b.template ||
        b.template.isAtLeastAsSpecific a.template) = true :=
      fun a b => PathTemplate.isUpTo_total a.template.ranks b.template.ranks
    have hsorted := pairwise_mergeSort_of_pairwise htrans htotal hgroups.ordered
    refine hsorted.imp fun {a b} hboth => ?_
    simpa only [Precedes, PathTemplate.isAtLeastAsSpecific_iff] using hboth

theorem exists_ofOperations {operations : List Operation} (basePaths : List String)
    (hparse : ∀ operation ∈ operations,
      ∃ template, PathTemplate.ofText operation.path = .ok template) :
    ∃ router, ofOperations operations basePaths = .ok router ∧
      router.basePaths = basePaths ∧ Arranges operations router.routes := by
  obtain ⟨routes, hroutes, hgroups⟩ := groupsInOrder_nil.foldlM hparse
  refine ⟨_, by rw [ofOperations, hroutes]; rfl, rfl, ?_⟩
  exact hgroups.mergeSort

/-! ## The readings of a path -/

/-- What is left of a path below a base, whose outer slashes do not count: nothing, or what begins
with the next segment. -/
structure IsBelow (path base rest : String) : Prop where
  base_ne : Text.trimBy (· == '/') base.toList ≠ []
  path_eq : path.toList = '/' :: Text.trimBy (· == '/') base.toList ++ rest.toList
  whole : rest = "" ∨ rest.toList.head? = some '/'

/-- The readings of a path are what is left of it below each base, the shortest rest, which belongs
to the longest base, in front, and then the path itself. -/
def AreReadings (basePaths : List String) (path : String) (readings : List String) : Prop :=
  ∃ rests, readings = rests ++ [path] ∧
    (∀ rest, rest ∈ rests ↔ ∃ base ∈ basePaths, IsBelow path base rest) ∧
    rests.Pairwise fun a b => a.length ≤ b.length

theorem below?_eq_some_iff {path base rest : List Char} :
    below? path base = some rest ↔
      path = '/' :: base ++ rest ∧ (rest = [] ∨ rest.head? = some '/') := by
  unfold below?
  split
  · simp [Option.filter_eq_some_iff, Text.stripStart?_eq_some_iff]
  · next hpath =>
      simp only [reduceCtorEq, false_iff, not_and]
      intro heq
      exact absurd heq (hpath _)

/-- Of two beginnings of one text, the longer one leaves the shorter rest. -/
theorem length_le_of_byteLength_le {a b rest more : List Char} (hsame : a ++ rest = b ++ more)
    (hlonger : Utf8.byteLength b ≤ Utf8.byteLength a) : rest.length ≤ more.length := by
  rcases List.append_eq_append_iff.1 hsame with ⟨between, rfl, rfl⟩ | ⟨between, rfl, rfl⟩
  · rw [Utf8.byteLength_append] at hlonger
    have hnone : between = [] := by
      by_contra hne
      have hpos := Utf8.byteLength_pos hne
      omega
    simp [hnone]
  · simp

/-- The bases below which a path may lie, without their outer slashes, the longest first. -/
def bases (basePaths : List String) : List (List Char) :=
  ((basePaths.map fun base => Text.trimBy (· == '/') base.toList).filter
    (!·.isEmpty)).mergeSort fun a b => Utf8.byteLength b ≤ Utf8.byteLength a

theorem mem_bases {basePaths : List String} {inner : List Char} :
    inner ∈ bases basePaths ↔
      ∃ base ∈ basePaths, Text.trimBy (· == '/') base.toList = inner ∧ inner ≠ [] := by
  unfold bases
  rw [List.mem_mergeSort, List.mem_filter, List.mem_map]
  simp only [Bool.not_eq_true', List.isEmpty_eq_false_iff]
  constructor
  · rintro ⟨⟨base, hbase, heq⟩, hne⟩
    exact ⟨base, hbase, heq, hne⟩
  · rintro ⟨base, hbase, heq, hne⟩
    exact ⟨⟨base, hbase, heq⟩, hne⟩

theorem pairwise_bases (basePaths : List String) :
    (bases basePaths).Pairwise fun a b => Utf8.byteLength b ≤ Utf8.byteLength a := by
  unfold bases
  have hpairwise : ∀ texts : List (List Char),
      (texts.mergeSort fun a b => Utf8.byteLength b ≤ Utf8.byteLength a).Pairwise
        fun a b => decide (Utf8.byteLength b ≤ Utf8.byteLength a) := by
    refine List.pairwise_mergeSort ?_ ?_
    · simp only [decide_eq_true_eq]
      omega
    · simp only [Bool.or_eq_true, decide_eq_true_eq]
      omega
  simpa only [decide_eq_true_eq] using hpairwise _

theorem candidates_eq (router : Router) (path : String) :
    router.candidates path =
      ((bases router.basePaths).filterMap (below? path.toList)).map String.ofList ++ [path] := rfl

theorem areReadings_candidates (router : Router) (path : String) :
    AreReadings router.basePaths path (router.candidates path) := by
  refine ⟨_, candidates_eq router path, fun rest => ?_, ?_⟩
  · constructor
    · intro hrest
      obtain ⟨below, hbelow, rfl⟩ := List.mem_map.1 hrest
      obtain ⟨inner, hinner, hsome⟩ := List.mem_filterMap.1 hbelow
      obtain ⟨base, hbase, rfl, hne⟩ := mem_bases.1 hinner
      obtain ⟨hpath, hwhole⟩ := below?_eq_some_iff.1 hsome
      exact ⟨base, hbase, hne, by simpa using hpath, by simpa using hwhole⟩
    · rintro ⟨base, hbase, hne, hpath, hwhole⟩
      have hsome : below? path.toList (Text.trimBy (· == '/') base.toList) = some rest.toList :=
        below?_eq_some_iff.2 ⟨hpath, by simpa using hwhole⟩
      refine List.mem_map.2 ⟨rest.toList, List.mem_filterMap.2 ⟨_, ?_, hsome⟩, by simp⟩
      exact mem_bases.2 ⟨base, hbase, rfl, hne⟩
  · rw [List.pairwise_map, List.pairwise_filterMap]
    refine (pairwise_bases router.basePaths).imp fun {a b} hlonger rest hrest more hmore => ?_
    obtain ⟨hpath, -⟩ := below?_eq_some_iff.1 hrest
    obtain ⟨hsame, -⟩ := below?_eq_some_iff.1 hmore
    rw [hpath] at hsame
    simp only [String.length_ofList]
    exact length_le_of_byteLength_le (List.cons.inj hsame).2 hlonger

/-! ## The search -/

/-- What a route offers a request in one reading of its path. -/
def offer? (method reading : String) (route : Route) : Option FoundOperation :=
  (route.template.match? reading).bind fun captures =>
    (route.operations.find? fun operation => operation.method == method).map fun operation =>
      { operation, captures : FoundOperation }

/-- What the routes offer for the first reading for which they offer anything. -/
def search (router : Router) (method path : String) : Option FoundOperation :=
  (router.candidates path).findSome? fun reading => router.routes.findSome? (offer? method reading)

theorem findSome?_flatMap {α β γ : Type} {expand : α → List β} {choose : β → Option γ}
    {list : List α} :
    (list.flatMap expand).findSome? choose =
      list.findSome? fun item => (expand item).findSome? choose := by
  induction list with
  | nil => rfl
  | cons first rest ih =>
      rw [List.flatMap_cons, List.findSome?_append, ih, List.findSome?_cons]
      cases (expand first).findSome? choose <;> rfl

theorem findSome?_filterMap {α β γ : Type} {select : α → Option β} {choose : β → Option γ}
    {list : List α} :
    (list.filterMap select).findSome? choose =
      list.findSome? fun item => (select item).bind choose := by
  induction list with
  | nil => rfl
  | cons first rest ih =>
      rw [List.filterMap_cons, List.findSome?_cons, ← ih]
      cases select first <;> rfl

theorem findSome?_matching (router : Router) (method path : String) :
    ((router.matching path).findSome? fun (route, captures) =>
      (route.operations.find? fun operation => operation.method == method).map fun operation =>
        { operation, captures : FoundOperation }) = router.search method path := by
  unfold matching search
  rw [findSome?_flatMap]
  congr 1
  funext reading
  rw [findSome?_filterMap]
  congr 1
  funext route
  rw [Option.bind_map]
  rfl

theorem find_of_search_eq_some {router : Router} {method path : String} {found : FoundOperation}
    (hsearch : router.search (Text.uppered method) path = some found) :
    router.find method path = .ok found := by
  have hfound := (findSome?_matching router (Text.uppered method) path).trans hsearch
  unfold find
  simp only [hfound]

theorem find_of_matching_eq_nil {router : Router} {path : String} (method : String)
    (hmatching : router.matching path = []) :
    router.find method path = .error (.pathNotFound path) := by
  unfold find
  simp only [hmatching, List.findSome?_nil]

theorem find_of_search_eq_none {router : Router} {method path : String}
    (hsearch : router.search (Text.uppered method) path = none)
    (hmatching : router.matching path ≠ []) :
    router.find method path = .error (.methodNotAllowed (Text.uppered method) path) := by
  have hnone := (findSome?_matching router (Text.uppered method) path).trans hsearch
  obtain ⟨first, rest, hcons⟩ := List.exists_cons_of_ne_nil hmatching
  unfold find
  simp only [hnone]
  simp only [hcons]

/-! ## Exactness -/

def IsTemplate (operations : List Operation) (template : PathTemplate) : Prop :=
  ∃ operation ∈ operations, PathTemplate.ofText operation.path = .ok template

/-- An operation with the method is declared for the template. -/
def DeclaresMethod (operations : List Operation) (method : String) (template : PathTemplate) :
    Prop :=
  ∃ operation ∈ operations,
    operation.method = method ∧ PathTemplate.ofText operation.path = .ok template

/-- What is found for one reading of a path is an operation with the method, whose template matches
the reading with what is captured, and no template with the method that matches, too, is more
specific, or as specific and declared first. -/
structure IsBestFor (operations : List Operation) (method reading : String)
    (template : PathTemplate) (found : FoundOperation) : Prop where
  declared : found.operation ∈ operations
  method_eq : found.operation.method = method
  parsed : PathTemplate.ofText found.operation.path = .ok template
  captured : template.match? reading = some found.captures
  best : ∀ other, DeclaresMethod operations method other → (other.match? reading).isSome →
    ¬other.IsMoreSpecific template ∧
      (other.IsAsSpecific template →
        position operations template.text ≤ position operations other.text)

/-- The outcome of a search for a method: the best operation for the first reading that a template
with the method matches, and otherwise a fault that tells whether any template matches at all. -/
structure IsExact (operations : List Operation) (method path : String) (readings : List String)
    (result : Except RouteFault FoundOperation) : Prop where
  found : (∃ reading ∈ readings, ∃ template,
      DeclaresMethod operations method template ∧ (template.match? reading).isSome) →
    ∃ before reading behind template found,
      readings = before ++ reading :: behind ∧
      (∀ earlier ∈ before, ∀ other, DeclaresMethod operations method other →
        other.match? earlier = none) ∧
      IsBestFor operations method reading template found ∧
      result = .ok found
  notAllowed : (∀ reading ∈ readings, ∀ template,
      DeclaresMethod operations method template → template.match? reading = none) →
    (∃ reading ∈ readings, ∃ template,
      IsTemplate operations template ∧ (template.match? reading).isSome) →
    result = .error (.methodNotAllowed method path)
  notFound : (∀ reading ∈ readings, ∀ template,
      IsTemplate operations template → template.match? reading = none) →
    result = .error (.pathNotFound path)

section

variable {operations : List Operation} {routes : List Route} {method reading : String}

theorem Groups.exists_route_of_isTemplate (hgroups : Groups operations routes)
    {template : PathTemplate} (htemplate : IsTemplate operations template) :
    ∃ route ∈ routes, route.template = template := by
  obtain ⟨operation, hoperation, hparse⟩ := htemplate
  obtain ⟨route, hroute, htext⟩ := hgroups.covers operation hoperation
  have hsame := hgroups.parsed route hroute
  rw [htext, hparse] at hsame
  exact ⟨route, hroute, (Except.ok.inj hsame).symm⟩

theorem Groups.isTemplate (hgroups : Groups operations routes) {route : Route}
    (hroute : route ∈ routes) : IsTemplate operations route.template := by
  obtain ⟨operation, hoperation, hpath⟩ := List.mem_map.1 (hgroups.declared route hroute)
  exact ⟨operation, hoperation, hpath ▸ hgroups.parsed route hroute⟩

theorem DeclaresMethod.isTemplate {template : PathTemplate}
    (hdeclares : DeclaresMethod operations method template) : IsTemplate operations template := by
  obtain ⟨operation, hoperation, -, hparse⟩ := hdeclares
  exact ⟨operation, hoperation, hparse⟩

theorem Groups.mem_operations_iff (hgroups : Groups operations routes) {route : Route}
    (hroute : route ∈ routes) {operation : Operation} :
    operation ∈ route.operations ↔
      operation ∈ operations ∧ PathTemplate.ofText operation.path = .ok route.template := by
  rw [hgroups.collected route hroute, List.mem_filter, beq_iff_eq]
  refine and_congr_right fun _ => ⟨fun hpath => ?_, fun hparse => ?_⟩
  · exact hpath ▸ hgroups.parsed route hroute
  · exact (PathTemplate.text_of_ofText hparse).symm

theorem Groups.offer?_eq_some (hgroups : Groups operations routes) {route : Route}
    (hroute : route ∈ routes) {found : FoundOperation}
    (hoffer : offer? method reading route = some found) :
    route.template.match? reading = some found.captures ∧ found.operation ∈ operations ∧
      found.operation.method = method ∧
      PathTemplate.ofText found.operation.path = .ok route.template := by
  obtain ⟨captures, hmatch, hfound⟩ := Option.bind_eq_some_iff.1 hoffer
  obtain ⟨operation, hfirst, rfl⟩ := Option.map_eq_some_iff.1 hfound
  obtain ⟨hdeclared, hparse⟩ :=
    (hgroups.mem_operations_iff hroute).1 (List.mem_of_find?_eq_some hfirst)
  have hmethod := List.find?_some hfirst
  exact ⟨hmatch, hdeclared, by simpa using hmethod, hparse⟩

theorem Groups.offer?_eq_none_iff (hgroups : Groups operations routes) {route : Route}
    (hroute : route ∈ routes) :
    offer? method reading route = none ↔
      (DeclaresMethod operations method route.template →
        route.template.match? reading = none) := by
  constructor
  · rintro hnone ⟨operation, hoperation, hmethod, hparse⟩
    by_contra hmatch
    obtain ⟨captures, hcaptures⟩ := Option.ne_none_iff_exists'.1 hmatch
    rw [offer?, hcaptures, Option.bind_some, Option.map_eq_none_iff, List.find?_eq_none] at hnone
    exact hnone operation ((hgroups.mem_operations_iff hroute).2 ⟨hoperation, hparse⟩)
      (by simpa using hmethod)
  · intro hnone
    by_contra hoffer
    obtain ⟨found, hfound⟩ := Option.ne_none_iff_exists'.1 hoffer
    obtain ⟨hmatch, hdeclared, hmethod, hparse⟩ := hgroups.offer?_eq_some hroute hfound
    rw [hnone ⟨_, hdeclared, hmethod, hparse⟩] at hmatch
    cases hmatch

theorem Groups.findSome?_eq_none_iff (hgroups : Groups operations routes) :
    routes.findSome? (offer? method reading) = none ↔
      ∀ template, DeclaresMethod operations method template → template.match? reading = none := by
  rw [List.findSome?_eq_none_iff]
  constructor
  · intro hnone template hdeclares
    obtain ⟨route, hroute, rfl⟩ := hgroups.exists_route_of_isTemplate hdeclares.isTemplate
    exact (hgroups.offer?_eq_none_iff hroute).1 (hnone route hroute) hdeclares
  · intro hnone route hroute
    exact (hgroups.offer?_eq_none_iff hroute).2 (hnone route.template)

theorem Arranges.isBestFor (harranges : Arranges operations routes) {found : FoundOperation}
    (hfound : routes.findSome? (offer? method reading) = some found) :
    ∃ template, IsBestFor operations method reading template found := by
  obtain ⟨front, route, rear, hsplit, hoffer, hfront⟩ := List.findSome?_eq_some_iff.1 hfound
  have hroute : route ∈ routes := by simp [hsplit]
  obtain ⟨hmatch, hdeclared, hmethod, hparse⟩ :=
    harranges.toGroups.offer?_eq_some hroute hoffer
  refine ⟨route.template, hdeclared, hmethod, hparse, hmatch, fun other hother hmatches => ?_⟩
  obtain ⟨rival, hrival, rfl⟩ :=
    harranges.toGroups.exists_route_of_isTemplate hother.isTemplate
  have hoffers : offer? method reading rival ≠ none := fun hnone => by
    have hunmatched := (harranges.toGroups.offer?_eq_none_iff hrival).1 hnone hother
    simp [hunmatched] at hmatches
  have hordered := harranges.ordered
  rw [hsplit] at hrival hordered
  -- A rival in front would have been found instead; one behind is preceded by the route.
  rcases List.mem_append.1 hrival with hbefore | hrest
  · exact absurd (hfront rival hbefore) hoffers
  · rcases List.mem_cons.1 hrest with rfl | hbehind
    · exact ⟨(PathTemplate.isAsSpecific_self _).not_isMoreSpecific, fun _ => le_rfl⟩
    · have hprecedes : Precedes operations route.template rival.template :=
        (List.pairwise_cons.1 (List.pairwise_append.1 hordered).2.1).1 rival hbehind
      exact ⟨hprecedes.1, fun has => (hprecedes.2 has.symm.not_isMoreSpecific).le⟩

end

theorem matching_eq_nil_iff {router : Router} {operations : List Operation}
    (hgroups : Groups operations router.routes) (path : String) :
    router.matching path = [] ↔ ∀ reading ∈ router.candidates path, ∀ template,
      IsTemplate operations template → template.match? reading = none := by
  simp only [matching, List.flatMap_eq_nil_iff, List.filterMap_eq_nil_iff, Option.map_eq_none_iff]
  refine forall₂_congr fun reading _ => ⟨fun hnone template htemplate => ?_, ?_⟩
  · obtain ⟨route, hroute, rfl⟩ := hgroups.exists_route_of_isTemplate htemplate
    exact hnone route hroute
  · intro hnone route hroute
    exact hnone route.template (hgroups.isTemplate hroute)

theorem Groups.search_eq_none_iff {router : Router} {operations : List Operation}
    (hgroups : Groups operations router.routes) {method path : String} :
    router.search method path = none ↔ ∀ reading ∈ router.candidates path, ∀ template,
      DeclaresMethod operations method template → template.match? reading = none := by
  rw [search, List.findSome?_eq_none_iff]
  exact forall₂_congr fun _ _ => hgroups.findSome?_eq_none_iff

theorem Arranges.isExact_find {router : Router} {operations : List Operation}
    (harranges : Arranges operations router.routes) (method path : String) :
    IsExact operations (Text.uppered method) path (router.candidates path)
      (router.find method path) := by
  have hgroups : Groups operations router.routes := harranges.toGroups
  constructor
  · rintro ⟨reading, hreading, template, hdeclares, hmatches⟩
    have hsearch : router.search (Text.uppered method) path ≠ none := fun hnone => by
      have hunmatched := hgroups.search_eq_none_iff.1 hnone reading hreading template hdeclares
      simp [hunmatched] at hmatches
    obtain ⟨found, hfound⟩ := Option.ne_none_iff_exists'.1 hsearch
    obtain ⟨before, first, behind, hsplit, hoffer, hbefore⟩ :=
      List.findSome?_eq_some_iff.1 hfound
    obtain ⟨best, hbest⟩ := harranges.isBestFor hoffer
    refine ⟨before, first, behind, best, found, hsplit, fun earlier hearlier => ?_, hbest,
      find_of_search_eq_some hfound⟩
    exact hgroups.findSome?_eq_none_iff.1 (hbefore earlier hearlier)
  · rintro hunmatched ⟨reading, hreading, template, htemplate, hmatches⟩
    refine find_of_search_eq_none (hgroups.search_eq_none_iff.2 hunmatched) fun hnil => ?_
    have hnone := (matching_eq_nil_iff hgroups path).1 hnil reading hreading template htemplate
    simp [hnone] at hmatches
  · intro hunmatched
    exact find_of_matching_eq_nil method ((matching_eq_nil_iff hgroups path).2 hunmatched)

/-- If the paths of a contract are templates, it has a router, and what this finds for a method and a
path is exact with regard to the readings of the path below the servers of the contract. -/
theorem exists_router_isExact {contract : Contract}
    (hparse : ∀ operation ∈ contract.operations,
      ∃ template, PathTemplate.ofText operation.path = .ok template) :
    ∃ router, ofContract contract = .ok router ∧ ∀ method path, ∃ readings,
      AreReadings contract.basePaths path readings ∧
      IsExact contract.operations (Text.uppered method) path readings
        (router.find method path) := by
  obtain ⟨router, hrouter, hbases, harranges⟩ := exists_ofOperations contract.basePaths hparse
  refine ⟨router, hrouter, fun method path => ⟨router.candidates path, ?_, ?_⟩⟩
  · exact hbases ▸ areReadings_candidates router path
  · exact harranges.isExact_find method path

/-- A placeholder, a mix and a literal at one place, the more specific ones declared last. -/
def petContract : Contract where
  operations := [{ method := "GET", path := "/pets/\x7bid\x7d" },
    { method := "GET", path := "/pets/m\x7brest\x7d" }, { method := "GET", path := "/pets/mine" }]
  basePaths := ["/api/v1"]

/-- The literal is found for its text, although all three match it, and the mix for a text that the
placeholder matches, too. -/
theorem lower_case_get_below_base_is_found :
    ∃ router first second, ofContract petContract = .ok router ∧
      router.find "get" "/api/v1/pets/mine" = .ok first ∧
      first.operation.path = "/pets/mine" ∧ first.captures = [] ∧
      router.find "get" "/api/v1/pets/max" = .ok second ∧
      second.operation.path = "/pets/m\x7brest\x7d" ∧ second.captures = [("rest", "ax")] := by
  let single : PathTemplate := ⟨"/pets/\x7bid\x7d", [.literal "pets".toList, .placeholder "id"]⟩
  let mix : PathTemplate :=
    ⟨"/pets/m\x7brest\x7d", [.literal "pets".toList, .mixed ['m'] [("rest", [])]]⟩
  let mine : PathTemplate := ⟨"/pets/mine", [.literal "pets".toList, .literal "mine".toList]⟩
  have hsingle : PathTemplate.ofText "/pets/\x7bid\x7d" = .ok single := by
    simp [single, PathTemplate.ofText, PathTemplate.splitPath, Text.trimBy, Text.dropTrailing,
      Text.splitAll, TemplateSegment.ofText, TemplateSegment.cut, TemplateSegment.names,
      PathTemplate.firstRepeated?]
  have hmix : PathTemplate.ofText "/pets/m\x7brest\x7d" = .ok mix := by
    simp [mix, PathTemplate.ofText, PathTemplate.splitPath, Text.trimBy, Text.dropTrailing,
      Text.splitAll, TemplateSegment.ofText, TemplateSegment.cut, TemplateSegment.names,
      PathTemplate.firstRepeated?]
  have hmine : PathTemplate.ofText "/pets/mine" = .ok mine := by
    simp [mine, PathTemplate.ofText, PathTemplate.splitPath, Text.trimBy, Text.dropTrailing,
      Text.splitAll, TemplateSegment.ofText, TemplateSegment.cut, TemplateSegment.names,
      PathTemplate.firstRepeated?]
  have hparse : ∀ operation ∈ petContract.operations,
      ∃ template, PathTemplate.ofText operation.path = .ok template := by
    simp [petContract, hsingle, hmix, hmine]
  have hdeclaresMix : DeclaresMethod petContract.operations "GET" mix :=
    ⟨{ method := "GET", path := "/pets/m\x7brest\x7d" }, by simp [petContract], rfl, hmix⟩
  have hdeclaresMine : DeclaresMethod petContract.operations "GET" mine :=
    ⟨{ method := "GET", path := "/pets/mine" }, by simp [petContract], rfl, hmine⟩
  obtain ⟨router, hrouter, hexact⟩ := exists_router_isExact hparse
  -- No template has as many segments as the whole path, so it is the rest that is matched.
  have hbest : ∀ path rest, IsBelow path "/api/v1" rest →
      (∀ template ∈ [single, mix, mine], template.match? path = none) → (mix.match? rest).isSome →
      ∃ template found, IsBestFor petContract.operations "GET" rest template found ∧
        template ∈ [single, mix, mine] ∧ found.operation.path = template.text ∧
        router.find "get" path = .ok found := by
    intro path rest hbelow hwhole hmatches
    obtain ⟨readings, ⟨rests, rfl, hrests, -⟩, hfind⟩ := hexact "get" path
    have hrest : rest ∈ rests ++ [path] :=
      List.mem_append_left _ ((hrests rest).2 ⟨"/api/v1", by simp [petContract], hbelow⟩)
    obtain ⟨before, reading, behind, template, found, hsplit, -, hbest, hfound⟩ :=
      hfind.found ⟨rest, hrest, mix, hdeclaresMix, hmatches⟩
    have htemplate : template ∈ [single, mix, mine] ∧ found.operation.path = template.text := by
      have hdeclared := hbest.declared
      have hparsed := hbest.parsed
      refine ⟨?_, (PathTemplate.text_of_ofText hparsed).symm⟩
      simp only [petContract, List.mem_cons, List.not_mem_nil, or_false] at hdeclared
      rcases hdeclared with heq | heq | heq <;> rw [heq] at hparsed
      · simp [Except.ok.inj (hparsed.symm.trans hsingle)]
      · simp [Except.ok.inj (hparsed.symm.trans hmix)]
      · simp [Except.ok.inj (hparsed.symm.trans hmine)]
    have hreading : reading ∈ rests ++ [path] := by simp [hsplit]
    rcases List.mem_append.1 hreading with hmem | hmem
    · obtain ⟨base, hbase, hother⟩ := (hrests reading).1 hmem
      obtain rfl := List.mem_singleton.1 hbase
      have hsame := List.append_cancel_left (hbelow.path_eq.symm.trans hother.path_eq)
      obtain rfl : rest = reading := String.toList_inj.1 hsame
      exact ⟨template, found, hbest, htemplate.1, htemplate.2, hfound⟩
    · obtain rfl := List.mem_singleton.1 hmem
      have hcaptured := hbest.captured
      rw [hwhole template htemplate.1] at hcaptured
      cases hcaptured
  obtain ⟨template, first, hfirst, hmem, hpath, hfindFirst⟩ :=
    hbest "/api/v1/pets/mine" "/pets/mine" ⟨by decide, by decide, by decide⟩ (by decide) (by decide)
  obtain ⟨template', second, hsecond, hmem', hpath', hfindSecond⟩ :=
    hbest "/api/v1/pets/max" "/pets/max" ⟨by decide, by decide, by decide⟩ (by decide) (by decide)
  obtain rfl : template = mine := by
    have hnot := (hfirst.best mine hdeclaresMine (by decide)).1
    simp only [List.mem_cons, List.not_mem_nil, or_false] at hmem
    rcases hmem with rfl | rfl | rfl
    · exact absurd (.tail (.literals _ _) (.head (.literal_placeholder _ _))) hnot
    · exact absurd (.tail (.literals _ _) (.head (.literal_mixed _ _ _))) hnot
    · rfl
  obtain rfl : template' = mix := by
    have hnot := (hsecond.best mix hdeclaresMix (by decide)).1
    have hcaptured := hsecond.captured
    simp only [List.mem_cons, List.not_mem_nil, or_false] at hmem'
    rcases hmem' with rfl | rfl | rfl
    · exact absurd (.tail (.literals _ _) (.head (.mixed_placeholder _ _ _))) hnot
    · rfl
    · cases hcaptured
  refine ⟨router, first, second, hrouter, hfindFirst, hpath, ?_, hfindSecond, hpath', ?_⟩
  · exact Option.some.inj (hfirst.captured.symm.trans (by decide))
  · exact Option.some.inj (hsecond.captured.symm.trans (by decide))

end Router

end ApiContract
