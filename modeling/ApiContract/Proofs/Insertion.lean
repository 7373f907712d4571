import ApiContract.Entries
import Mathlib.Tactic

/-!
# Writing to a map that remembers insertion order

A name is written once: in its place if it is there, else behind the others.  So the names of a map
that is written from scratch are distinct, and a map whose names are new one after the other is the
list of what was written.
-/

namespace ApiContract

theorem forall_mem_of_forall₂ {α β : Type} {related : α → β → Prop} {holds : β → Prop}
    {candidates : List α} {results : List β} (hall : List.Forall₂ related candidates results)
    (hrelated : ∀ candidate ∈ candidates, ∀ result, related candidate result → holds result) :
    ∀ result ∈ results, holds result := by
  induction hall with
  | nil => simp
  | cons hfirst _ ih =>
      intro result hmem
      rcases List.mem_cons.1 hmem with rfl | hmem
      · exact hrelated _ List.mem_cons_self _ hfirst
      · exact ih (fun candidate hcandidate => hrelated candidate
          (List.mem_cons_of_mem _ hcandidate)) result hmem

theorem forall₂_imp_of_mem {α β : Type} {related implied : α → β → Prop} {candidates : List α}
    {results : List β} (hall : List.Forall₂ related candidates results)
    (himp : ∀ candidate ∈ candidates, ∀ result ∈ results, related candidate result →
      implied candidate result) : List.Forall₂ implied candidates results := by
  induction hall with
  | nil => exact .nil
  | cons hfirst _ ih =>
      refine .cons (himp _ List.mem_cons_self _ List.mem_cons_self hfirst) (ih ?_)
      intro candidate hcandidate result hresult
      exact himp candidate (List.mem_cons_of_mem _ hcandidate) result
        (List.mem_cons_of_mem _ hresult)

namespace Entries

variable {α : Type} {entries : Entries α} {key : String} {value : α}

instance (entries : Entries α) : Decidable (Distinct entries) :=
  inferInstanceAs (Decidable (keys entries).Nodup)

theorem mem_keys_iff : key ∈ keys entries ↔ ∃ value, (key, value) ∈ entries := by
  simp [keys]

theorem contains_iff : contains entries key ↔ key ∈ keys entries := by
  induction entries with
  | nil => simp [contains, keys]
  | cons entry rest ih =>
      obtain ⟨name, first⟩ := entry
      by_cases hname : name = key
      · simp [contains, get?, keys, hname]
      · simpa [contains, get?, keys, hname, Ne.symm hname] using ih

theorem get?_eq_none_iff : get? entries key = none ↔ key ∉ keys entries := by
  rw [← contains_iff, contains, Option.isSome_iff_ne_none]
  simp

theorem Distinct.get?_eq_some_iff (hdistinct : Distinct entries) :
    get? entries key = some value ↔ (key, value) ∈ entries := by
  constructor
  · exact mem_of_get?
  · intro hmem
    induction entries with
    | nil => simp at hmem
    | cons entry rest ih =>
        obtain ⟨name, first⟩ := entry
        obtain ⟨hname, hrest⟩ := List.nodup_cons.1 hdistinct
        rcases List.mem_cons.1 hmem with heq | hmem
        · obtain ⟨rfl, rfl⟩ := Prod.mk.inj heq
          simp [get?]
        · have hne : name ≠ key := by
            rintro rfl
            exact hname (mem_keys_iff.2 ⟨value, hmem⟩)
          simpa [get?, hne] using ih hrest hmem

theorem get?_of_mem_keys (hkey : key ∈ keys entries) : ∃ value, get? entries key = some value := by
  rw [← contains_iff, contains, Option.isSome_iff_exists] at hkey
  exact hkey

/-- Maps with the same distinct names in the same order are equal if their values are. -/
theorem eq_of_keys_eq {others : Entries α} (hdistinct : Distinct entries)
    (hkeys : keys entries = keys others)
    (hvalues : ∀ key value other, get? entries key = some value → get? others key = some other →
      value = other) : entries = others := by
  induction entries generalizing others with
  | nil => exact (List.map_eq_nil_iff.1 hkeys.symm).symm
  | cons first rest ih =>
      obtain ⟨name, value⟩ := first
      cases others with
      | nil => simp [keys] at hkeys
      | cons head tail =>
          obtain ⟨other, old⟩ := head
          obtain ⟨rfl, hrest⟩ := List.cons.inj hkeys
          obtain ⟨hname, hnodup⟩ := List.nodup_cons.1 hdistinct
          obtain rfl := hvalues name value old (by simp [get?]) (by simp [get?])
          refine congrArg _ (ih hnodup hrest fun key found other hfound hother => ?_)
          have hne : name ≠ key := by
            rintro rfl
            exact hname (mem_keys_iff.2 ⟨found, mem_of_get? hfound⟩)
          exact hvalues key found other (by simpa [get?, hne] using hfound)
            (by simpa [get?, hne] using hother)

theorem insert_of_notMem (hkey : key ∉ keys entries) :
    insert entries key value = entries ++ [(key, value)] := by
  induction entries with
  | nil => rfl
  | cons entry rest ih =>
      obtain ⟨name, first⟩ := entry
      simp only [keys, List.map_cons, List.mem_cons, not_or] at hkey
      simp [insert, Ne.symm hkey.1, ih hkey.2]

theorem keys_insert_of_mem (hkey : key ∈ keys entries) :
    keys (insert entries key value) = keys entries := by
  induction entries with
  | nil => simp [keys] at hkey
  | cons entry rest ih =>
      obtain ⟨name, first⟩ := entry
      by_cases hname : name = key
      · simp [insert, keys, hname]
      · have hrest : key ∈ keys rest := by
          simpa [keys, Ne.symm hname] using hkey
        simpa [insert, keys, hname] using ih hrest

/-- Writing the value that is there changes nothing. -/
theorem insert_of_get? (hget : get? entries key = some value) :
    Entries.insert entries key value = entries := by
  induction entries with
  | nil => simp at hget
  | cons entry rest ih =>
      obtain ⟨name, first⟩ := entry
      unfold get? at hget
      unfold Entries.insert
      split at hget
      · next hname =>
          obtain rfl := Option.some.inj hget
          rw [if_pos hname]
      · next hname => rw [if_neg hname, ih hget]

theorem Distinct.insert (hdistinct : Distinct entries) (key : String) (value : α) :
    Distinct (insert entries key value) := by
  by_cases hkey : key ∈ keys entries
  · rwa [Distinct, keys_insert_of_mem hkey]
  · rw [Distinct, insert_of_notMem hkey, keys, List.map_append]
    exact List.Nodup.append hdistinct (List.nodup_singleton _)
      (List.disjoint_singleton.2 hkey)

theorem mem_of_mem_insert {entry : String × α} (hmem : entry ∈ insert entries key value) :
    entry ∈ entries ∨ entry.2 = value := by
  induction entries with
  | nil => exact .inr (by simp_all [insert])
  | cons first rest ih =>
      obtain ⟨name, old⟩ := first
      unfold insert at hmem
      split at hmem
      · rcases List.mem_cons.1 hmem with rfl | hrest
        · exact .inr rfl
        · exact .inl (List.mem_cons_of_mem _ hrest)
      · rcases List.mem_cons.1 hmem with rfl | hrest
        · exact .inl List.mem_cons_self
        · exact (ih hrest).imp_left (List.mem_cons_of_mem _)

/-- What holds of no pairs and is kept by writing one holds of what all pairs leave. -/
theorem ofPairs_induction {motive : Entries α → Prop} (pairs : List (String × α))
    (hnil : motive []) (hinsert : ∀ entries pair, pair ∈ pairs → motive entries →
      motive (insert entries pair.1 pair.2)) : motive (ofPairs pairs) := by
  have hfold : ∀ (rest : List (String × α)) (entries : Entries α), (∀ pair ∈ rest, pair ∈ pairs) →
      motive entries →
      motive (rest.foldl (fun entries pair => insert entries pair.1 pair.2) entries) := by
    intro rest
    induction rest with
    | nil => exact fun entries _ hentries => hentries
    | cons pair rest ih =>
        intro entries hsub hentries
        exact ih _ (fun other hmem => hsub other (List.mem_cons_of_mem _ hmem))
          (hinsert entries pair (hsub pair List.mem_cons_self) hentries)
  exact hfold pairs [] (fun pair hmem => hmem) hnil

theorem distinct_ofPairs (pairs : List (String × α)) : Distinct (ofPairs pairs) :=
  ofPairs_induction pairs List.nodup_nil fun _ pair _ hdistinct => hdistinct.insert pair.1 pair.2

theorem foldl_insert_of_distinct {entries more : Entries α} (hdistinct : Distinct (entries ++ more)) :
    more.foldl (fun entries pair => insert entries pair.1 pair.2) entries = entries ++ more := by
  induction more generalizing entries with
  | nil => rw [List.foldl_nil, List.append_nil]
  | cons pair rest ih =>
      have hsplit : entries ++ pair :: rest = (entries ++ [pair]) ++ rest := by simp
      have hnew : pair.1 ∉ keys entries := by
        unfold Distinct keys at hdistinct
        rw [List.map_append, List.map_cons] at hdistinct
        exact fun hmem => List.disjoint_of_nodup_append hdistinct hmem List.mem_cons_self
      rw [List.foldl_cons, insert_of_notMem hnew, ih (hsplit ▸ hdistinct), ← hsplit]

/-- Pairs of distinct names are the map that they leave. -/
theorem ofPairs_of_distinct {pairs : List (String × α)} (hdistinct : Distinct pairs) :
    ofPairs pairs = pairs := by
  have hnil : Distinct ([] ++ pairs) := hdistinct
  exact foldl_insert_of_distinct hnil

theorem forall_mem_ofPairs {related : α → Prop} {pairs : List (String × α)}
    (hpairs : ∀ pair ∈ pairs, related pair.2) : ∀ entry ∈ ofPairs pairs, related entry.2 := by
  have hinsert : ∀ entries pair, pair ∈ pairs → (∀ entry ∈ entries, related entry.2) →
      ∀ entry ∈ insert entries pair.1 pair.2, related entry.2 := by
    intro entries pair hpair hentries entry hmem
    rcases mem_of_mem_insert hmem with hold | hnew
    · exact hentries entry hold
    · rw [hnew]
      exact hpairs pair hpair
  exact ofPairs_induction pairs (fun _ hmem => absurd hmem List.not_mem_nil) hinsert

/-! ## Entries one by one -/

theorem get?_append (entries others : Entries α) (key : String) :
    get? (entries ++ others) key = (get? entries key).or (get? others key) := by
  induction entries with
  | nil => rfl
  | cons entry rest ih =>
      obtain ⟨name, first⟩ := entry
      by_cases hname : name = key
      · simp [get?, hname]
      · simpa [get?, hname] using ih

theorem keys_append (entries others : Entries α) :
    keys (entries ++ others) = keys entries ++ keys others :=
  List.map_append

theorem keys_eq_of_forall₂ {β : Type} {results : Entries β}
    (hall : List.Forall₂ (fun entry result => entry.1 = result.1) entries results) :
    keys results = keys entries := by
  induction hall with
  | nil => rfl
  | cons hfirst _ ih =>
      simp only [keys, List.map_cons, List.cons.injEq]
      exact ⟨hfirst.symm, ih⟩

theorem keys_prefix_append_of_forall₂ {β : Type} {results more : Entries β}
    (hall : List.Forall₂ (fun entry result => entry.1 = result.1) entries results) :
    keys entries <+: keys (results ++ more) := by
  rw [keys_append, keys_eq_of_forall₂ hall]
  exact List.prefix_append _ _

theorem distinct_of_keys_eq {β : Type} {results : Entries β} (hkeys : keys results = keys entries)
    (hdistinct : Distinct entries) : Distinct results := by
  rwa [Distinct, hkeys]

theorem get?_append_of_mem_keys {others : Entries α} (hkey : key ∈ keys entries) :
    get? (entries ++ others) key = get? entries key := by
  obtain ⟨value, hvalue⟩ := get?_of_mem_keys hkey
  rw [get?_append, hvalue, Option.some_or]

theorem get?_append_of_notMem_keys {others : Entries α} (hkey : key ∉ keys entries) :
    get? (entries ++ others) key = get? others key := by
  rw [get?_append, get?_eq_none_iff.2 hkey, Option.none_or]

theorem Distinct.append {more : Entries α} (hdistinct : Distinct entries) (hmore : Distinct more)
    (hnew : ∀ entry ∈ more, entry.1 ∉ keys entries) : Distinct (entries ++ more) := by
  rw [Distinct, keys_append]
  refine List.Nodup.append hdistinct hmore fun name hname hmem => ?_
  obtain ⟨value, hvalue⟩ := mem_keys_iff.1 hmem
  exact hnew _ hvalue hname

theorem related_of_forall₂ {β : Type} {results : Entries β} (related : String × α → β → Prop)
    (hall : List.Forall₂ (fun entry result => entry.1 = result.1 ∧ related entry result.2)
      entries results) {result : β} (hvalue : get? entries key = some value)
    (hresult : get? results key = some result) : related (key, value) result := by
  induction hall with
  | nil => simp at hvalue
  | @cons entry other rest others hfirst _ ih =>
      obtain ⟨name, first⟩ := entry
      obtain ⟨name', second⟩ := other
      obtain ⟨rfl, hrelated⟩ := hfirst
      by_cases hname : name = key
      · simp only [get?, if_pos hname, Option.some.injEq] at hvalue hresult
        exact hname ▸ hvalue ▸ hresult ▸ hrelated
      · simp only [get?, if_neg hname] at hvalue hresult
        exact ih hvalue hresult

/-- Entries behind those that answer one by one do not take their place. -/
theorem related_of_forall₂_append {β : Type} {results more : Entries β}
    (related : String × α → β → Prop)
    (hall : List.Forall₂ (fun entry result => entry.1 = result.1 ∧ related entry result.2)
      entries results) {result : β} (hvalue : get? entries key = some value)
    (hresult : get? (results ++ more) key = some result) : related (key, value) result := by
  have hkeys : keys results = keys entries :=
    keys_eq_of_forall₂ (hall.imp fun _ _ hpair => hpair.1)
  have hkey : key ∈ keys results := hkeys ▸ mem_keys_iff.2 ⟨value, mem_of_get? hvalue⟩
  rw [get?_append_of_mem_keys hkey] at hresult
  exact related_of_forall₂ related hall hvalue hresult

end Entries
end ApiContract
