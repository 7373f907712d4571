import ApiContract.Text.Blank
import Mathlib.Data.List.DropRight
import Mathlib.Data.List.TakeWhile

/-!
# Trimming

A trimmed text is what is left of a text between two stretches of characters that are dropped, and
it neither begins nor ends with such a character.  There is only one such text, so this says which
one it is.
-/

namespace ApiContract.Text

variable {drop : Char → Bool} {text : List Char}

theorem dropWhile_of_head? (hfirst : ∀ c ∈ text.head?, drop c = false) :
    text.dropWhile drop = text := by
  cases text with
  | nil => rfl
  | cons c rest =>
      have hc : drop c = false := hfirst c rfl
      rw [List.dropWhile_cons, hc]
      rfl

theorem trimBy_append {front back : List Char} (hfront : ∀ c ∈ front, drop c)
    (hback : ∀ c ∈ back, drop c) (hfirst : ∀ c ∈ text.head?, drop c = false)
    (hlast : ∀ c ∈ text.getLast?, drop c = false) : trimBy drop (front ++ text ++ back) = text := by
  rw [trimBy, List.append_assoc, List.dropWhile_append_of_pos hfront]
  by_cases hne : text = []
  · subst hne
    rw [List.nil_append, List.dropWhile_eq_nil_iff.2 hback]
    rfl
  · have hkept : ∀ c ∈ (text ++ back).head?, drop c = false := by
      rwa [List.head?_append_of_ne_nil _ hne]
    have hreverse : ∀ c ∈ back.reverse, drop c := fun c hc => hback c (List.mem_reverse.1 hc)
    rw [dropWhile_of_head? hkept, dropTrailing, List.reverse_append,
      List.dropWhile_append_of_pos hreverse, dropWhile_of_head? (by simpa using hlast),
      List.reverse_reverse]

theorem exists_dropTrailing (drop : Char → Bool) (text : List Char) :
    ∃ back, text = dropTrailing drop text ++ back ∧ (∀ c ∈ back, drop c) ∧
      ∀ c ∈ (dropTrailing drop text).getLast?, drop c = false := by
  refine ⟨text.rtakeWhile drop, List.rdropWhile_append_rtakeWhile.symm,
    fun c hc => List.mem_rtakeWhile_imp hc, fun c hc => ?_⟩
  rw [dropTrailing, List.getLast?_reverse] at hc
  have hhead := List.head?_dropWhile_not drop text.reverse
  rw [Option.mem_def.1 hc] at hhead
  simpa using hhead

/-- Every text is a trimmed one between two stretches of what is dropped. -/
theorem exists_trimBy (drop : Char → Bool) (text : List Char) :
    ∃ front back, text = front ++ trimBy drop text ++ back ∧ (∀ c ∈ front, drop c) ∧
      (∀ c ∈ back, drop c) ∧ (∀ c ∈ (trimBy drop text).head?, drop c = false) ∧
      ∀ c ∈ (trimBy drop text).getLast?, drop c = false := by
  obtain ⟨back, htext, hback, hlast⟩ := exists_dropTrailing drop (text.dropWhile drop)
  have hsplit := List.takeWhile_append_dropWhile (p := drop) (l := text)
  refine ⟨text.takeWhile drop, back, ?_, fun c hc => List.mem_takeWhile_imp hc, hback,
    fun c hc => ?_, hlast⟩
  · rw [trimBy, List.append_assoc, ← htext, hsplit]
  · have hkept : c ∈ (text.dropWhile drop).head? := by
      rw [htext]
      exact List.mem_head?_append_of_mem_head? hc
    have hhead := List.head?_dropWhile_not drop text
    rw [Option.mem_def.1 hkept] at hhead
    simpa using hhead

theorem trimBy_sublist (drop : Char → Bool) (text : List Char) : (trimBy drop text).Sublist text :=
  (List.rdropWhile_prefix drop _).sublist.trans (List.dropWhile_suffix drop).sublist

/-! ## White space -/

theorem trim_append {front back : List Char} (hfront : ∀ c ∈ front, isBlank c)
    (hback : ∀ c ∈ back, isBlank c) (htext : ∀ c ∈ text, isBlank c = false) :
    trim (front ++ text ++ back) = text :=
  trimBy_append hfront hback (fun c hc => htext c (List.mem_of_mem_head? hc))
    (fun c hc => htext c (List.mem_of_getLast? hc))

theorem trim_of_forall_not_isBlank (htext : ∀ c ∈ text, isBlank c = false) : trim text = text := by
  have htrim : trim ([] ++ text ++ []) = text := trim_append (by simp) (by simp) htext
  rwa [List.nil_append, List.append_nil] at htrim

theorem notMem_of_isBlank {c : Char} (htext : ∀ d ∈ text, isBlank d) (hc : isBlank c = false) :
    c ∉ text := by
  intro hmem
  rw [htext c hmem] at hc
  cases hc

/-- A text begins and ends with characters that are no white space. -/
def IsTrimmed (text : List Char) : Prop :=
  (∀ c ∈ text.head?, isBlank c = false) ∧ ∀ c ∈ text.getLast?, isBlank c = false

-- Named instances: a search may try every character instead of the one that is there.
instance (text : List Char) : Decidable (IsTrimmed text) :=
  @instDecidableAnd _ _ (Option.decidableForallMem _) (Option.decidableForallMem _)

theorem IsTrimmed.trim_append {front back : List Char} (htext : IsTrimmed text)
    (hfront : ∀ c ∈ front, isBlank c) (hback : ∀ c ∈ back, isBlank c) :
    trim (front ++ text ++ back) = text :=
  trimBy_append hfront hback htext.1 htext.2

theorem isTrimmed_trim (text : List Char) : IsTrimmed (trim text) := by
  obtain ⟨_, _, -, -, -, hfirst, hlast⟩ := exists_trimBy isBlank text
  exact ⟨hfirst, hlast⟩

theorem trim_cons_space (htext : ∀ c ∈ text, isBlank c = false) : trim (' ' :: text) = text := by
  have htrim : trim ([' '] ++ text ++ []) = text := trim_append (by simp [isBlank]) (by simp) htext
  rwa [List.append_nil] at htrim

end ApiContract.Text
