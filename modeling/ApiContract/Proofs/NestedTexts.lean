import ApiContract.Parameter.Nested
import ApiContract.Proofs.Insertion
import ApiContract.Proofs.Refinement

/-!
# Texts at paths of an object

Texts that arrive one after the other, each with a path, are put into a nested object.  This works as
long as no path is empty and none leads through another one, and then the object holds at each path
the texts that arrived for it, and nothing else.  The invariant is a relation between the texts so
far and the object, which follows the members of the object: what belongs below a name is what arrived
with a path that begins with this name.
-/

namespace ApiContract

/-- Texts with the paths to which they belong, in the order of their arrival. -/
abbrev Placement := List (List String × String)

/-- What is reached along the names of members. -/
def Value.at? : Value → List String → Option Value
  | value, [] => some value
  | value, name :: rest => (value.get? name).bind fun child => child.at? rest

namespace Placement

def texts (placement : Placement) (path : List String) : List String :=
  (placement.filter fun target => target.1 = path).map Prod.snd

/-- The target behind a name with which its path begins. -/
def behind? (name : String) : List String × String → Option (List String × String)
  | ([], _) => none
  | (first :: rest, text) => if first = name then some (rest, text) else none

/-- What is placed below a name. -/
def below (placement : Placement) (name : String) : Placement :=
  placement.filterMap (behind? name)

theorem behind?_eq_some_iff {name : String} {target : List String × String} {rest : List String}
    {text : String} : behind? name target = some (rest, text) ↔ target = (name :: rest, text) := by
  obtain ⟨path, other⟩ := target
  cases path with
  | nil => simp [behind?]
  | cons first more =>
      by_cases hname : first = name
      · simp [behind?, hname]
      · simp [behind?, hname]

theorem mem_below {placement : Placement} {name : String} {rest : List String} {text : String} :
    (rest, text) ∈ placement.below name ↔ (name :: rest, text) ∈ placement := by
  unfold below
  rw [List.mem_filterMap]
  constructor
  · rintro ⟨target, htarget, hbehind⟩
    rwa [behind?_eq_some_iff.1 hbehind] at htarget
  · intro htarget
    exact ⟨_, htarget, behind?_eq_some_iff.2 rfl⟩

theorem below_concat_self (placement : Placement) (name : String) (rest : List String)
    (text : String) :
    below (placement ++ [(name :: rest, text)]) name = placement.below name ++ [(rest, text)] := by
  simp [below, behind?]

theorem below_concat_of_ne {name other : String} (hne : other ≠ name) (placement : Placement)
    (rest : List String) (text : String) :
    below (placement ++ [(name :: rest, text)]) other = placement.below other := by
  simp [below, behind?, Ne.symm hne]

theorem texts_below (placement : Placement) (name : String) (rest : List String) :
    (placement.below name).texts rest = placement.texts (name :: rest) := by
  induction placement with
  | nil => rfl
  | cons target others ih =>
      obtain ⟨path, text⟩ := target
      unfold texts below at ih ⊢
      rw [List.filterMap_cons]
      cases path with
      | nil => simpa [behind?] using ih
      | cons first more =>
          by_cases hname : first = name
          · by_cases hrest : more = rest
            · simpa [behind?, hname, hrest] using ih
            · simpa [behind?, hname, hrest] using ih
          · simpa [behind?, hname] using ih

theorem texts_ne_nil_iff {placement : Placement} {path : List String} :
    placement.texts path ≠ [] ↔ ∃ text, (path, text) ∈ placement := by
  unfold texts
  rw [Ne, List.map_eq_nil_iff, List.filter_eq_nil_iff]
  push Not
  constructor
  · rintro ⟨⟨other, text⟩, htarget, hpath⟩
    obtain rfl : other = path := by simpa using hpath
    exact ⟨text, htarget⟩
  · rintro ⟨text, htarget⟩
    exact ⟨_, htarget, by simp⟩

/-- The value consists of the texts at their paths. -/
inductive Holds : Placement → Value → Prop
  | text (text : String) : Holds [([], text)] (.string text)
  | list {items : List String} (hseveral : 2 ≤ items.length) :
      Holds (items.map fun text => ([], text)) (.array (items.map .string))
  | object {placement : Placement} {members : Entries Value} (hsome : placement ≠ [])
      (hpaths : ∀ target ∈ placement, target.1 ≠ []) (hdistinct : Entries.Distinct members)
      (habsent : ∀ name, Entries.get? members name = none ↔ placement.below name = [])
      (hpresent : ∀ name child, Entries.get? members name = some child →
        Holds (placement.below name) child) :
      Holds placement (.object members)

/-- The members of an object consist of the texts at their paths; there may be none yet. -/
structure Fills (placement : Placement) (members : Entries Value) : Prop where
  paths : ∀ target ∈ placement, target.1 ≠ []
  distinct : Entries.Distinct members
  absent : ∀ name, Entries.get? members name = none ↔ placement.below name = []
  present : ∀ name child, Entries.get? members name = some child →
    Holds (placement.below name) child

theorem fills_nil : Fills [] [] where
  paths := by simp
  distinct := List.nodup_nil
  absent := by simp [below]
  present := by simp

theorem Fills.holds {placement : Placement} {members : Entries Value}
    (hfills : Fills placement members) (hsome : placement ≠ []) :
    Holds placement (.object members) :=
  .object hsome hfills.paths hfills.distinct hfills.absent hfills.present

/-- What a value can be that consists of placed texts. -/
theorem Holds.cases {placement : Placement} {value : Value} (hholds : Holds placement value) :
    (∃ text, placement = [([], text)] ∧ value = .string text) ∨
    (∃ items : List String, 2 ≤ items.length ∧
      placement = items.map (fun text => ([], text)) ∧ value = .array (items.map .string)) ∨
    ∃ members, placement ≠ [] ∧ Fills placement members ∧ value = .object members := by
  cases hholds with
  | text text => exact .inl ⟨text, rfl, rfl⟩
  | list hseveral => exact .inr (.inl ⟨_, hseveral, rfl, rfl⟩)
  | object hsome hpaths hdistinct habsent hpresent =>
      exact .inr (.inr ⟨_, hsome, ⟨hpaths, hdistinct, habsent, hpresent⟩, rfl⟩)

/-! ## One more text -/

/-- A text may come to a path: some name leads to it, and it neither lies on the path to another text
nor the other way round. -/
def Fits (placement : Placement) (path : List String) : Prop :=
  path ≠ [] ∧ ∀ target ∈ placement, target.1 ≠ path → ¬target.1 <+: path ∧ ¬path <+: target.1

theorem Fills.insert {placement : Placement} {members : Entries Value}
    (hfills : Fills placement members) {name : String} {rest : List String} {text : String}
    {value : Value} (hvalue : Holds (placement.below name ++ [(rest, text)]) value) :
    Fills (placement ++ [(name :: rest, text)]) (Entries.insert members name value) where
  paths := by
    rw [List.forall_mem_append]
    exact ⟨hfills.paths, by simp⟩
  distinct := hfills.distinct.insert name value
  absent := by
    intro other
    by_cases hname : other = name
    · rw [hname, Entries.get?_insert_self, below_concat_self]
      simp
    · rw [Entries.get?_insert_of_ne hname, below_concat_of_ne hname]
      exact hfills.absent other
  present := by
    intro other child hchild
    by_cases hname : other = name
    · rw [hname, Entries.get?_insert_self] at hchild
      rw [hname, below_concat_self, ← Option.some.inj hchild]
      exact hvalue
    · rw [Entries.get?_insert_of_ne hname] at hchild
      rw [below_concat_of_ne hname]
      exact hfills.present other child hchild

theorem fits_nil {path : List String} (hpath : path ≠ []) : Fits [] path :=
  ⟨hpath, by simp⟩

theorem Fits.below {placement : Placement} {name : String} {rest : List String}
    (hfits : Fits placement (name :: rest)) (hrest : rest ≠ []) :
    Fits (placement.below name) rest := by
  refine ⟨hrest, ?_⟩
  rintro ⟨path, text⟩ htarget hne
  have hclash := hfits.2 _ (mem_below.1 htarget) (by simpa using hne)
  simpa only [List.cons_prefix_cons, true_and] using hclash

/-- Nothing lies below a text, and no text belongs to a path with something below. -/
theorem Fits.eq_nil_iff {placement : Placement} {name : String} {rest path : List String}
    {text : String} (hfits : Fits placement (name :: rest))
    (htarget : (path, text) ∈ placement.below name) : path = [] ↔ rest = [] := by
  by_cases hsame : path = rest
  · rw [hsame]
  · have hclash := hfits.2 _ (mem_below.1 htarget) (by simpa using hsame)
    simp only [List.cons_prefix_cons, true_and] at hclash
    constructor
    · rintro rfl
      exact absurd List.nil_prefix hclash.1
    · rintro rfl
      exact absurd List.nil_prefix hclash.2

/-- A text has been put to a path, or the path does not fit. -/
def Settles (placement : Placement) (path : List String) (text : String)
    (result : Except StyleFault (Entries Value)) : Prop :=
  (∃ added, result = .ok added ∧ Fills (placement ++ [(path, text)]) added) ∨
    (∃ fault, result = .error fault) ∧ ¬Fits placement path

theorem Fills.settles_singleton {placement : Placement} {members : Entries Value}
    (hfills : Fills placement members) (name text : String) :
    Settles placement [name] text (StyleReader.insertAt [name] text members) := by
  -- Nothing, one text or several texts may stand at the name already, but no object.
  cases hget : Entries.get? members name with
  | none =>
      have hbelow : placement.below name = [] := (hfills.absent name).1 hget
      have hvalue : Holds (placement.below name ++ [([], text)]) (.string text) := by
        rw [hbelow]
        exact .text text
      exact .inl ⟨_, by simp only [StyleReader.insertAt, hget], hfills.insert hvalue⟩
  | some child =>
      rcases (hfills.present name child hget).cases with
        ⟨first, hbelow, rfl⟩ | ⟨items, hseveral, hbelow, rfl⟩ | ⟨inner, hsome, hinner, rfl⟩
      · have hvalue : Holds (placement.below name ++ [([], text)])
            (.array [.string first, .string text]) := by
          have hlist : Holds ([first, text].map fun text => ([], text))
              (.array ([first, text].map .string)) := .list le_rfl
          rw [hbelow]
          exact hlist
        exact .inl ⟨_, by simp only [StyleReader.insertAt, hget], hfills.insert hvalue⟩
      · have hvalue : Holds (placement.below name ++ [([], text)])
            (.array (items.map .string ++ [.string text])) := by
          have hlist : Holds ((items ++ [text]).map fun text => ([], text))
              (.array ((items ++ [text]).map .string)) := .list (by simp; omega)
          rwa [List.map_append, List.map_append, ← hbelow] at hlist
        exact .inl ⟨_, by simp only [StyleReader.insertAt, hget], hfills.insert hvalue⟩
      · have hfault : StyleReader.insertAt [name] text members =
            .error (.deepObjectConflict name) := by
          simp only [StyleReader.insertAt, hget]
        obtain ⟨⟨path, other⟩, htarget⟩ := List.exists_mem_of_ne_nil _ hsome
        have hpath : path ≠ [] := hinner.paths _ htarget
        exact .inr ⟨⟨_, hfault⟩, fun hfits => hpath ((hfits.eq_nil_iff htarget).2 rfl)⟩

theorem Fills.settles_cons {placement : Placement} {members : Entries Value}
    (hfills : Fills placement members) (name : String) {rest : List String} (hrest : rest ≠ [])
    (text : String)
    (ih : ∀ {placement : Placement} {members : Entries Value}, Fills placement members →
      Settles placement rest text (StyleReader.insertAt rest text members)) :
    Settles placement (name :: rest) text (StyleReader.insertAt (name :: rest) text members) := by
  obtain ⟨next, more, rfl⟩ := List.exists_cons_of_ne_nil hrest
  -- The path goes on, so nothing or an object may stand at the name, but no text.
  cases hget : Entries.get? members name with
  | none =>
      have hbelow : placement.below name = [] := (hfills.absent name).1 hget
      rcases ih fills_nil with ⟨inner, hinner, hfilled⟩ | ⟨-, hunfit⟩
      · have hvalue : Holds (placement.below name ++ [(next :: more, text)]) (.object inner) := by
          rw [hbelow]
          exact hfilled.holds (by simp)
        have hadded : StyleReader.insertAt (name :: next :: more) text members =
            .ok (Entries.insert members name (.object inner)) := by
          simp only [StyleReader.insertAt, hget, hinner]
          rfl
        exact .inl ⟨_, hadded, hfills.insert hvalue⟩
      · exact absurd (fits_nil hrest) hunfit
  | some child =>
      rcases (hfills.present name child hget).cases with
        ⟨first, hbelow, rfl⟩ | ⟨items, hseveral, hbelow, rfl⟩ | ⟨inner, hsome, hinner, rfl⟩
      · have hfault : StyleReader.insertAt (name :: next :: more) text members =
            .error (.deepObjectConflict name) := by
          simp only [StyleReader.insertAt, hget]
        have htarget : ([], first) ∈ placement.below name := by simp [hbelow]
        exact .inr ⟨⟨_, hfault⟩, fun hfits => hrest ((hfits.eq_nil_iff htarget).1 rfl)⟩
      · have hfault : StyleReader.insertAt (name :: next :: more) text members =
            .error (.deepObjectConflict name) := by
          simp only [StyleReader.insertAt, hget]
        have hitems : items ≠ [] := List.ne_nil_of_length_pos (by omega)
        obtain ⟨first, hfirst⟩ := List.exists_mem_of_ne_nil _ hitems
        have htarget : ([], first) ∈ placement.below name := by simpa [hbelow] using hfirst
        exact .inr ⟨⟨_, hfault⟩, fun hfits => hrest ((hfits.eq_nil_iff htarget).1 rfl)⟩
      · rcases ih hinner with ⟨added, hadded, hfilled⟩ | ⟨⟨fault, hfault⟩, hunfit⟩
        · have hresult : StyleReader.insertAt (name :: next :: more) text members =
              .ok (Entries.insert members name (.object added)) := by
            simp only [StyleReader.insertAt, hget, hadded]
            rfl
          exact .inl ⟨_, hresult, hfills.insert (hfilled.holds (by simp))⟩
        · have hresult : StyleReader.insertAt (name :: next :: more) text members =
              .error fault := by
            simp only [StyleReader.insertAt, hget, hfault]
            rfl
          exact .inr ⟨⟨fault, hresult⟩, fun hfits => hunfit (hfits.below hrest)⟩

/-- The step of the search for a place: a text is put to its path, or the path does not fit. -/
theorem Fills.settles {placement : Placement} {members : Entries Value}
    (hfills : Fills placement members) (path : List String) (text : String) :
    Settles placement path text (StyleReader.insertAt path text members) := by
  induction path generalizing placement members with
  | nil => exact .inr ⟨⟨_, rfl⟩, fun hfits => hfits.1 rfl⟩
  | cons name rest ih =>
      by_cases hrest : rest = []
      · rw [hrest]
        exact hfills.settles_singleton name text
      · exact hfills.settles_cons name hrest text ih

/-! ## All texts -/

/-- Two targets stand in each other's way, or one has nowhere to go. -/
def Clashes (placement : Placement) : Prop :=
  (∃ target ∈ placement, target.1 = []) ∨
    ∃ front ∈ placement, ∃ target ∈ placement, front.1 <+: target.1 ∧ front.1 ≠ target.1

theorem clashes_of_not_fits {placement : Placement} {path : List String} {text : String}
    (hunfit : ¬Fits placement path) : Clashes (placement ++ [(path, text)]) := by
  have hlast : (path, text) ∈ placement ++ [(path, text)] := by simp
  by_cases hpath : path = []
  · exact .inl ⟨_, hlast, hpath⟩
  · unfold Fits at hunfit
    push Not at hunfit
    obtain ⟨target, htarget, hne, hclash⟩ := hunfit hpath
    have hmem := List.mem_append_left [(path, text)] htarget
    by_cases hfront : target.1 <+: path
    · exact .inr ⟨target, hmem, _, hlast, hfront, hne⟩
    · exact .inr ⟨_, hlast, target, hmem, hclash hfront, Ne.symm hne⟩

theorem Clashes.append {placement : Placement} (hclashes : Clashes placement) (more : Placement) :
    Clashes (placement ++ more) := by
  rcases hclashes with ⟨target, htarget, hpath⟩ | ⟨front, hfront, target, htarget, hclash⟩
  · exact .inl ⟨target, List.mem_append_left _ htarget, hpath⟩
  · exact .inr ⟨front, List.mem_append_left _ hfront, target, List.mem_append_left _ htarget, hclash⟩

/-- The members that texts leave which are put to their paths one after the other. -/
def insertAll (placement : Placement) (members : Entries Value) :
    Except StyleFault (Entries Value) :=
  placement.foldlM (fun members target => StyleReader.insertAt target.1 target.2 members) members

theorem Fills.insertAll {placement : Placement} {members : Entries Value}
    (hfills : Fills placement members) (rest : Placement) :
    (∃ added, insertAll rest members = .ok added ∧ Fills (placement ++ rest) added) ∨
      (∃ fault, insertAll rest members = .error fault) ∧ Clashes (placement ++ rest) := by
  induction rest generalizing placement members with
  | nil => exact .inl ⟨members, rfl, by rwa [List.append_nil]⟩
  | cons target rest ih =>
      have hsplit : placement ++ target :: rest = (placement ++ [target]) ++ rest := by simp
      unfold Placement.insertAll at ih ⊢
      rw [List.foldlM_cons, hsplit]
      rcases hfills.settles target.1 target.2 with
        ⟨added, hadded, hfilled⟩ | ⟨⟨fault, hfault⟩, hunfit⟩
      · rw [hadded]
        exact ih hfilled
      · rw [hfault]
        exact .inr ⟨⟨fault, rfl⟩, (clashes_of_not_fits hunfit).append rest⟩

theorem Holds.eq_of_isPrefix {placement : Placement} {value : Value}
    (hholds : Holds placement value) : ∀ front ∈ placement, ∀ target ∈ placement,
      front.1 <+: target.1 → front.1 = target.1 := by
  induction hholds with
  | text text => simp
  | list hseveral => simp
  | object hsome hpaths hdistinct habsent hpresent ih =>
      rename_i placement members
      rintro ⟨front, text⟩ hfront ⟨path, other⟩ htarget hbegins
      cases front with
      | nil => exact absurd rfl (hpaths _ hfront)
      | cons name rest =>
          cases path with
          | nil => exact absurd rfl (hpaths _ htarget)
          | cons first more =>
              obtain ⟨rfl, hrest⟩ := List.cons_prefix_cons.1 hbegins
              cases hget : Entries.get? members name with
              | none =>
                  have hnone := mem_below.2 hfront
                  rw [(habsent name).1 hget] at hnone
                  exact absurd hnone List.not_mem_nil
              | some child =>
                  have hsame := ih name child hget _ (mem_below.2 hfront) _ (mem_below.2 htarget)
                    hrest
                  exact congrArg (name :: ·) hsame

theorem Fills.not_clashes {placement : Placement} {members : Entries Value}
    (hfills : Fills placement members) : ¬Clashes placement := by
  rintro (⟨target, htarget, hpath⟩ | ⟨front, hfront, target, htarget, hbegins, hne⟩)
  · exact hfills.paths target htarget hpath
  · have hholds := hfills.holds (List.ne_nil_of_mem htarget)
    exact hne (hholds.eq_of_isPrefix front hfront target htarget hbegins)

/-! ## What is reached along a path -/

theorem texts_nil_of_paths {placement : Placement}
    (hpaths : ∀ target ∈ placement, target.1 ≠ []) : placement.texts [] = [] := by
  by_contra hsome
  obtain ⟨text, htarget⟩ := texts_ne_nil_iff.1 hsome
  exact hpaths _ htarget rfl

theorem texts_eq_nil_of_below {placement : Placement} {name : String}
    (hbelow : placement.below name = []) (rest : List String) :
    placement.texts (name :: rest) = [] := by
  rw [← texts_below, hbelow]
  rfl

theorem texts_singleton_nil (text : String) (path : List String) :
    texts [([], text)] path = if path = [] then [text] else [] := by
  by_cases hpath : path = []
  · simp [texts, hpath]
  · simp [texts, hpath, Ne.symm hpath]

theorem texts_map_nil (items : List String) (path : List String) :
    texts (items.map fun text => ([], text)) path = if path = [] then items else [] := by
  by_cases hpath : path = []
  · simp [texts, hpath, List.filter_map, Function.comp_def]
  · simp [texts, hpath, Ne.symm hpath, List.filter_map, Function.comp_def]

/-- The value that texts have at a path: the only one as it is, several ones as a list. -/
def valueOf : List String → Value
  | [text] => .string text
  | items => .array (items.map .string)

theorem valueOf_of_two_le {items : List String} (hseveral : 2 ≤ items.length) :
    valueOf items = .array (items.map .string) := by
  rcases items with _ | ⟨first, _ | ⟨second, rest⟩⟩
  · simp at hseveral
  · simp at hseveral
  · rfl

theorem Holds.at?_of_texts {placement : Placement} {value : Value}
    (hholds : Holds placement value) {path : List String} (htexts : placement.texts path ≠ []) :
    value.at? path = some (valueOf (placement.texts path)) := by
  induction hholds generalizing path with
  | text text =>
      rw [texts_singleton_nil] at htexts ⊢
      by_cases hpath : path = []
      · rw [if_pos hpath, hpath]
        rfl
      · exact absurd (if_neg hpath) htexts
  | list hseveral =>
      rw [texts_map_nil] at htexts ⊢
      by_cases hpath : path = []
      · rw [if_pos hpath, hpath, valueOf_of_two_le hseveral]
        rfl
      · exact absurd (if_neg hpath) htexts
  | object hsome hpaths hdistinct habsent hpresent ih =>
      rename_i placement members
      cases path with
      | nil => exact absurd (texts_nil_of_paths hpaths) htexts
      | cons name rest =>
          cases hget : Entries.get? members name with
          | none => exact absurd (texts_eq_nil_of_below ((habsent name).1 hget) rest) htexts
          | some child =>
              rw [← texts_below] at htexts ⊢
              rw [Value.at?, Value.get?, hget]
              exact ih name child hget htexts

theorem Holds.at?_of_isPrefix {placement : Placement} {value : Value}
    (hholds : Holds placement value) {path : List String} {target : List String × String}
    (htarget : target ∈ placement) (hbegins : path <+: target.1) (hne : path ≠ target.1) :
    ∃ members, value.at? path = some (.object members) := by
  induction hholds generalizing path target with
  | text text =>
      obtain rfl := List.mem_singleton.1 htarget
      exact absurd (List.prefix_nil.1 hbegins) hne
  | list hseveral =>
      obtain ⟨text, -, rfl⟩ := List.mem_map.1 htarget
      exact absurd (List.prefix_nil.1 hbegins) hne
  | object hsome hpaths hdistinct habsent hpresent ih =>
      rename_i placement members
      cases path with
      | nil => exact ⟨members, rfl⟩
      | cons name rest =>
          obtain ⟨path, text⟩ := target
          cases path with
          | nil => exact absurd rfl (hpaths _ htarget)
          | cons first more =>
              obtain ⟨rfl, hrest⟩ := List.cons_prefix_cons.1 hbegins
              have hmem := mem_below.2 htarget
              cases hget : Entries.get? members name with
              | none =>
                  rw [(habsent name).1 hget] at hmem
                  exact absurd hmem List.not_mem_nil
              | some child =>
                  rw [Value.at?, Value.get?, hget]
                  exact ih name child hget hmem hrest (fun heq => hne (congrArg (name :: ·) heq))

theorem Holds.at?_eq_none {placement : Placement} {value : Value} (hholds : Holds placement value)
    {path : List String} (hpath : ∀ target ∈ placement, ¬path <+: target.1) :
    value.at? path = none := by
  induction hholds generalizing path with
  | text text =>
      cases path with
      | nil => exact absurd List.nil_prefix (hpath _ (List.mem_singleton_self _))
      | cons name rest => rfl
  | list hseveral =>
      rename_i items
      cases path with
      | nil =>
          have hitems : items ≠ [] := List.ne_nil_of_length_pos (by omega)
          obtain ⟨first, hfirst⟩ := List.exists_mem_of_ne_nil _ hitems
          exact absurd List.nil_prefix (hpath _ (List.mem_map_of_mem hfirst))
      | cons name rest => rfl
  | object hsome hpaths hdistinct habsent hpresent ih =>
      rename_i placement members
      cases path with
      | nil =>
          obtain ⟨target, htarget⟩ := List.exists_mem_of_ne_nil _ hsome
          exact absurd List.nil_prefix (hpath target htarget)
      | cons name rest =>
          cases hget : Entries.get? members name with
          | none =>
              rw [Value.at?, Value.get?, hget]
              rfl
          | some child =>
              rw [Value.at?, Value.get?, hget]
              refine ih name child hget ?_
              rintro ⟨more, text⟩ htarget hbegins
              exact hpath _ (mem_below.1 htarget) (List.cons_prefix_cons.2 ⟨rfl, hbegins⟩)

theorem Holds.keyed {placement : Placement} {value : Value} (hholds : Holds placement value) :
    value.Keyed := by
  induction hholds with
  | text text => exact .intro (by simp) (by simp [Value.children])
  | list hseveral =>
      refine .intro (by simp) ?_
      intro child hchild
      obtain ⟨text, -, rfl⟩ := List.mem_map.1 hchild
      exact .intro (by simp) (by simp [Value.children])
  | object hsome hpaths hdistinct habsent hpresent ih =>
      refine .intro ?_ ?_
      · rintro _ ⟨⟩
        exact hdistinct
      · intro child hchild
        obtain ⟨⟨name, child⟩, hmem, rfl⟩ := List.mem_map.1 hchild
        exact ih name child (hdistinct.get?_eq_some_iff.2 hmem)

/-- The value has the texts of the placement at their paths, objects on the way to them, and nothing
else. -/
structure IsHeldBy (placement : Placement) (value : Value) : Prop where
  keyed : value.Keyed
  texts : ∀ path, placement.texts path ≠ [] →
    value.at? path = some (valueOf (placement.texts path))
  inner : ∀ path, ∀ target ∈ placement, path <+: target.1 → path ≠ target.1 →
    ∃ members, value.at? path = some (.object members)
  nothing : ∀ path, (∀ target ∈ placement, ¬path <+: target.1) → value.at? path = none

theorem Holds.isHeldBy {placement : Placement} {value : Value} (hholds : Holds placement value) :
    IsHeldBy placement value where
  keyed := hholds.keyed
  texts := fun _ htexts => hholds.at?_of_texts htexts
  inner := fun _ _ htarget hbegins hne => hholds.at?_of_isPrefix htarget hbegins hne
  nothing := fun _ hpath => hholds.at?_eq_none hpath

end Placement

end ApiContract
