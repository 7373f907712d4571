import ApiContract.Media.Registry
import ApiContract.Proofs.Insertion

/-!
# Fields by name

The fields of a form are a list in which names may be repeated.  Grouped by name, they are an object
whose members stand in the order in which their names came first; a name that came once holds its
value, and a name that was repeated holds the array of its values in order.
-/

namespace ApiContract

theorem eraseDups_concat (names : List String) (name : String) :
    (names ++ [name]).eraseDups = names.eraseDups ++ if name ∈ names then [] else [name] := by
  rw [List.eraseDups_append]
  by_cases hmem : name ∈ names
  · simp [List.removeAll, hmem]
  · simp [List.removeAll, hmem, List.eraseDups_cons]

theorem nodup_eraseDups (names : List String) : names.eraseDups.Nodup := by
  induction names using List.reverseRecOn with
  | nil => simp
  | append_singleton names name ih =>
      rw [eraseDups_concat]
      split
      · simpa using ih
      · next hnew =>
          refine List.Nodup.append ih (List.nodup_singleton name) ?_
          rwa [List.disjoint_singleton, List.mem_eraseDups]

namespace Entries

variable {α : Type}

theorem get?_map_of_mem {names : List String} {name : String} (values : String → α)
    (hmem : name ∈ names) : get? (names.map fun name => (name, values name)) name =
      some (values name) := by
  induction names with
  | nil => simp at hmem
  | cons first rest ih =>
      by_cases hname : first = name
      · simp [get?, hname]
      · simpa [get?, hname] using ih (by simpa [Ne.symm hname] using hmem)

theorem keys_map (names : List String) (values : String → α) :
    keys (names.map fun name => (name, values name)) = names := by
  simp [keys, Function.comp_def]

theorem insert_map_of_mem {names : List String} {name : String} (values : String → α) (value : α)
    (hdistinct : names.Nodup) (hmem : name ∈ names) :
    insert (names.map fun name => (name, values name)) name value =
      names.map fun other => (other, if other = name then value else values other) := by
  have hkeys := keys_map names values
  refine eq_of_keys_eq (Distinct.insert (by rwa [Distinct, hkeys]) name value) ?_ ?_
  · rw [keys_insert_of_mem (by rwa [hkeys]), hkeys, keys_map]
  · intro key found other hfound hother
    have hkey : key ∈ names := by
      rw [← keys_map names fun other => if other = name then value else values other,
        ← contains_iff, contains, hother, Option.isSome_some]
    rw [get?_map_of_mem _ hkey, Option.some.injEq] at hother
    by_cases hname : key = name
    · subst hname
      rw [get?_insert_self, Option.some.injEq] at hfound
      rw [← hother, ← hfound, if_pos rfl]
    · rw [get?_insert_of_ne hname, get?_map_of_mem values hkey,
        Option.some.injEq] at hfound
      rw [← hother, ← hfound, if_neg hname]

end Entries

namespace BodyReader

/-- The values of a name, in order. -/
def occurrences (fields : List (String × Value)) (name : String) : List Value :=
  (fields.filter (·.1 == name)).map Prod.snd

/-- The names in the order in which they came first. -/
def namesOf (fields : List (String × Value)) : List String := (fields.map Prod.fst).eraseDups

/-- One value stands for itself, and several are an array. -/
def gathered : List Value → Value
  | [only] => only
  | values => .array values

/-- The members by name, in the order in which the names came first. -/
def grouped (fields : List (String × Value)) : Entries Value :=
  (namesOf fields).map fun name => (name, gathered (occurrences fields name))

variable {fields : List (String × Value)} {name : String}

theorem mem_namesOf : name ∈ namesOf fields ↔ ∃ value, (name, value) ∈ fields := by
  rw [namesOf, List.mem_eraseDups]
  simp

theorem occurrences_concat (fields : List (String × Value)) (field : String × Value)
    (name : String) : occurrences (fields ++ [field]) name =
      if name = field.1 then occurrences fields field.1 ++ [field.2]
      else occurrences fields name := by
  by_cases hname : name = field.1
  · subst hname
    simp [occurrences]
  · simp [occurrences, hname, Ne.symm hname]

theorem occurrences_of_notMem (hname : name ∉ namesOf fields) : occurrences fields name = [] := by
  rw [occurrences, List.map_eq_nil_iff, List.filter_eq_nil_iff]
  intro field hmem heq
  obtain rfl : field.1 = name := by simpa using heq
  exact hname (mem_namesOf.2 ⟨field.2, hmem⟩)

theorem nodup_namesOf (fields : List (String × Value)) : (namesOf fields).Nodup :=
  nodup_eraseDups _

theorem foldl_addField (fields : List (String × Value)) :
    fields.foldl addField [] =
      (namesOf fields).map fun name => (name, occurrences fields name) := by
  induction fields using List.reverseRecOn with
  | nil => rfl
  | append_singleton fields field ih =>
      have hnames : namesOf (fields ++ [field]) =
          namesOf fields ++ if field.1 ∈ namesOf fields then [] else [field.1] := by
        simp only [namesOf, List.map_append, List.map_cons, List.map_nil, eraseDups_concat,
          List.mem_eraseDups]
      rw [List.foldl_append, List.foldl_cons, List.foldl_nil, ih, addField, hnames]
      by_cases hmem : field.1 ∈ namesOf fields
      · rw [Entries.get?_map_of_mem _ hmem, Option.getD_some,
          Entries.insert_map_of_mem _ _ (nodup_namesOf fields) hmem,
          if_pos hmem, List.append_nil]
        simp only [occurrences_concat]
      · have hkey : field.1 ∉ Entries.keys
            ((namesOf fields).map fun name => (name, occurrences fields name)) := by
          rwa [Entries.keys_map]
        have hold : ∀ name ∈ namesOf fields,
            (name, occurrences fields name) = (name, occurrences (fields ++ [field]) name) := by
          intro name hname
          have hne : name ≠ field.1 := fun heq => hmem (heq ▸ hname)
          rw [occurrences_concat, if_neg hne]
        rw [Entries.get?_eq_none_iff.2 hkey, Option.getD_none, Entries.insert_of_notMem hkey,
          if_neg hmem, List.map_append, List.map_congr_left hold, List.map_singleton,
          occurrences_concat, if_pos rfl, occurrences_of_notMem hmem]

/-- Grouping leaves the members by name. -/
theorem groupFields_eq (fields : List (String × Value)) :
    groupFields fields = .object (grouped fields) := by
  rw [groupFields, foldl_addField, Entries.mapValues, List.map_map]
  rfl

theorem keys_grouped (fields : List (String × Value)) :
    Entries.keys (grouped fields) = namesOf fields :=
  Entries.keys_map _ _

theorem distinct_grouped (fields : List (String × Value)) : Entries.Distinct (grouped fields) := by
  rw [Entries.Distinct, keys_grouped]
  exact nodup_namesOf fields

theorem get?_grouped (hname : name ∈ namesOf fields) :
    Entries.get? (grouped fields) name = some (gathered (occurrences fields name)) :=
  Entries.get?_map_of_mem _ hname

end BodyReader

theorem MediaRegistry.read_eq_ok {registry : MediaRegistry} {contentType : String}
    {mediaType : MediaType} {reader : BodyReader} {bytes : List UInt8} {body : Body}
    (htype : MediaType.ofString? contentType = some mediaType)
    (hreader : Entries.get? registry.readers mediaType.essence = some reader)
    (hbody : reader mediaType bytes = .ok body) : registry.read contentType bytes = .ok body := by
  have hfind : registry.find? mediaType = some reader := by
    rw [MediaRegistry.find?, MediaType.candidates, List.cons_append, List.findSome?_cons, hreader]
  simp only [MediaRegistry.read, htype, hfind, hbody]

end ApiContract
