import ApiContract.Proofs.Finding
import ApiContract.Proofs.OperationMirroring
import ApiContract.Proofs.PairedTexts

/-!
# Routing to operations that are alike

Routes are made from the paths and methods of operations alone.  So contracts that are alike have
routers that try the same templates in the same order, and a request finds operations that are alike
with the same captures, or fails in the same way.
-/

namespace ApiContract

theorem forall₂_mergeSort {α β : Type} {related : α → β → Prop} {le : α → α → Bool}
    {le' : β → β → Bool} {items : List α} {others : List β}
    (hall : List.Forall₂ related items others)
    (hle : ∀ a b a' b', related a a' → related b b' → le a b = le' a' b') :
    List.Forall₂ related (items.mergeSort le) (others.mergeSort le') := by
  obtain ⟨hlength, hzip⟩ := List.forall₂_iff_zip.1 hall
  let pairLe (first second : α × β) : Bool := le first.1 second.1
  have hpairs : ∀ pair ∈ items.zip others, related pair.1 pair.2 := fun _ hpair => hzip hpair
  have hfirst : ((items.zip others).mergeSort pairLe).map Prod.fst = items.mergeSort le := by
    rw [List.map_mergeSort (s := le) fun _ _ _ _ => rfl, List.map_fst_zip hlength.le]
  have hsecond : ((items.zip others).mergeSort pairLe).map Prod.snd = others.mergeSort le' := by
    rw [List.map_mergeSort (s := le') fun a ha b hb => hle _ _ _ _ (hpairs a ha) (hpairs b hb),
      List.map_snd_zip hlength.ge]
  rw [← hfirst, ← hsecond, List.forall₂_map_left_iff, List.forall₂_map_right_iff,
    List.forall₂_same]
  exact fun pair hpair => hpairs pair (List.mem_mergeSort.1 hpair)

/-- Two routes hold the same template with operations that are alike. -/
structure Route.Alike (P : Pairing) (route other : Route) : Prop where
  template : other.template = route.template
  operations : List.Forall₂ (Operation.Alike P) route.operations other.operations

structure Router.Alike (P : Pairing) (router other : Router) : Prop where
  routes : List.Forall₂ (Route.Alike P) router.routes other.routes
  basePaths : other.basePaths = router.basePaths

structure FoundOperation.Alike (P : Pairing) (found other : FoundOperation) : Prop where
  operation : found.operation.Alike P other.operation
  captures : other.captures = found.captures

namespace Router

variable {P : Pairing} {routes routes' : List Route} {operation operation' : Operation}
  {operations operations' : List Operation} {router other : Router}

/-! ## Making the routes -/

/-- Both outcomes are faults, or both are results and these are related. -/
inductive BothOrNeither {α β : Type} (related : α → β → Prop) :
    Except ContractFault α → Except ContractFault β → Prop
  | both {value : α} {other : β} (hrelated : related value other) :
      BothOrNeither related (.ok value) (.ok other)
  | neither (fault : ContractFault) : BothOrNeither related (.error fault) (.error fault)

theorem bothOrNeither_addOperation (hroutes : List.Forall₂ (Route.Alike P) routes routes')
    (hoperation : operation.Alike P operation') :
    BothOrNeither (List.Forall₂ (Route.Alike P)) (addOperation routes operation)
      (addOperation routes' operation') := by
  have hany : routes'.any (fun route => route.template.text == operation'.path) =
      routes.any fun route => route.template.text == operation.path :=
    any_eq_any_of_forall₂ hroutes fun _ _ hroute => by rw [hroute.template, hoperation.path]
  unfold addOperation
  rw [hany]
  split
  · refine .both ?_
    rw [List.forall₂_map_left_iff, List.forall₂_map_right_iff]
    refine hroutes.imp fun route route' hroute => ?_
    rw [hroute.template, hoperation.path]
    split
    · exact ⟨rfl, List.rel_append hroute.operations (.cons hoperation .nil)⟩
    · exact hroute
  · rw [hoperation.path]
    cases PathTemplate.ofText operation.path with
    | error fault => exact .neither fault
    | ok template =>
        exact .both (List.rel_append hroutes (.cons ⟨rfl, .cons hoperation .nil⟩ .nil))

theorem bothOrNeither_foldlM
    (hoperations : List.Forall₂ (Operation.Alike P) operations operations') :
    ∀ routes routes', List.Forall₂ (Route.Alike P) routes routes' →
      BothOrNeither (List.Forall₂ (Route.Alike P)) (operations.foldlM addOperation routes)
        (operations'.foldlM addOperation routes') := by
  induction hoperations with
  | nil => exact fun _ _ hroutes => .both hroutes
  | cons hfirst _ ih =>
      intro routes routes' hroutes
      rw [List.foldlM_cons, List.foldlM_cons]
      have hadded := bothOrNeither_addOperation hroutes hfirst
      revert hadded
      generalize addOperation routes _ = added
      generalize addOperation routes' _ = added'
      rintro (hadded | fault)
      · exact ih _ _ hadded
      · exact .neither fault

/-- Contracts that are alike both have routers, which are alike, or neither has one. -/
theorem bothOrNeither_ofContract {contract contract' : Contract}
    (halike : contract.Alike P contract') :
    BothOrNeither (Router.Alike P) (ofContract contract) (ofContract contract') := by
  have hroutes := bothOrNeither_foldlM halike.operations [] [] .nil
  unfold ofContract ofOperations
  revert hroutes
  generalize contract.operations.foldlM addOperation [] = routes?
  generalize contract'.operations.foldlM addOperation [] = routes?'
  rintro (hroutes | fault)
  · refine .both ⟨forall₂_mergeSort hroutes ?_, halike.basePaths⟩
    intro a b a' b' ha hb
    rw [ha.template, hb.template]
  · exact .neither fault

/-! ## Finding an operation -/

theorem candidates_congr (halike : router.Alike P other) (path : String) :
    other.candidates path = router.candidates path := by
  unfold candidates
  rw [halike.basePaths]

theorem forall₂_matching (halike : router.Alike P other) (path : String) :
    List.Forall₂ (fun found found' : Route × Entries String =>
        found.1.Alike P found'.1 ∧ found'.2 = found.2)
      (router.matching path) (other.matching path) := by
  unfold matching
  rw [candidates_congr halike]
  refine List.rel_flatMap (List.forall₂_same.2 fun candidate _ => Eq.refl candidate) ?_
  rintro candidate _ rfl
  refine List.rel_filterMap (fun route route' hroute => ?_) halike.routes
  rw [hroute.template]
  cases route.template.match? candidate with
  | none => exact .none
  | some captures => exact .some ⟨hroute, rfl⟩

theorem rel_find? (hoperations : List.Forall₂ (Operation.Alike P) operations operations')
    (method : String) :
    Option.Rel (Operation.Alike P) (operations.find? fun operation => operation.method == method)
      (operations'.find? fun operation => operation.method == method) := by
  induction hoperations with
  | nil => exact .none
  | cons hfirst _ ih =>
      rw [List.find?_cons, List.find?_cons, hfirst.method]
      split
      · exact .some hfirst
      · exact ih

theorem rel_search (halike : router.Alike P other) (method path : String) :
    Option.Rel (FoundOperation.Alike P) (router.search method path) (other.search method path) := by
  unfold search
  rw [candidates_congr halike]
  refine rel_findSome?_of_forall₂ (List.forall₂_same.2 fun reading _ => Eq.refl reading) ?_
  rintro reading _ rfl
  refine rel_findSome?_of_forall₂ halike.routes fun route route' hroute => ?_
  unfold offer?
  rw [hroute.template]
  cases route.template.match? reading with
  | none => exact .none
  | some captures =>
      have hrel := rel_find? hroute.operations method
      rw [Option.bind_some, Option.bind_some]
      revert hrel
      generalize route.operations.find? _ = operation?
      generalize route'.operations.find? _ = operation?'
      rintro (hoperation | _)
      · exact .some ⟨hoperation, rfl⟩
      · exact .none

/-- A request finds operations that are alike, or fails in the same way. -/
theorem find_cases (halike : router.Alike P other) (method path : String) :
    (∃ found found', router.find method path = .ok found ∧ other.find method path = .ok found' ∧
      found.Alike P found') ∨
    ∃ fault, router.find method path = .error fault ∧ other.find method path = .error fault := by
  have hsearch := rel_search halike (Text.uppered method) path
  have hmatching := forall₂_matching halike path
  cases hfound : router.search (Text.uppered method) path <;>
    cases hfound' : other.search (Text.uppered method) path <;>
    rw [hfound, hfound'] at hsearch
  · cases hlist : router.matching path <;> cases hlist' : other.matching path <;>
      rw [hlist, hlist'] at hmatching
    · exact .inr ⟨_, find_of_matching_eq_nil method hlist, find_of_matching_eq_nil method hlist'⟩
    · cases hmatching
    · cases hmatching
    · exact .inr ⟨_, find_of_search_eq_none hfound (by simp [hlist]),
        find_of_search_eq_none hfound' (by simp [hlist'])⟩
  · cases hsearch
  · cases hsearch
  · exact .inl ⟨_, _, find_of_search_eq_some hfound, find_of_search_eq_some hfound',
      Option.rel_some_some.1 hsearch⟩

end Router

end ApiContract
