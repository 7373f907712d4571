import ApiContract.Text.Split
import Mathlib.Tactic

/-!
# Splitting what was joined

Fields that do not contain the separator come back when the text that joins them is split.  The other
ways to take a text apart are characterised by the equation that puts it together again.
-/

namespace ApiContract.Text

variable {separator : Char}

theorem splitAll_of_notMem {field : List Char} (hfield : separator ∉ field) :
    splitAll separator field = [field] := by
  induction field with
  | nil => rfl
  | cons c rest ih =>
      obtain ⟨hc, hrest⟩ := List.ne_and_not_mem_of_not_mem_cons hfield
      rw [splitAll, if_neg (Ne.symm hc), ih hrest]

/-- A separator between two texts keeps their fields apart. -/
theorem splitAll_append_cons (front rest : List Char) :
    splitAll separator (front ++ separator :: rest) =
      splitAll separator front ++ splitAll separator rest := by
  induction front with
  | nil => simp [splitAll]
  | cons c more ih =>
      by_cases hc : c = separator
      · rw [List.cons_append, splitAll, if_pos hc, ih, splitAll, if_pos hc, List.cons_append]
      · rw [List.cons_append, splitAll, if_neg hc, ih, splitAll, if_neg hc]
        cases hfields : splitAll separator more with
        | nil => exact absurd hfields (splitAll_ne_nil separator more)
        | cons field fields => rfl

theorem notMem_of_mem_splitAll {field text : List Char} (hfield : field ∈ splitAll separator text) :
    separator ∉ field := by
  induction text generalizing field with
  | nil =>
      obtain rfl : field = [] := by simpa [splitAll] using hfield
      exact List.not_mem_nil
  | cons c rest ih =>
      unfold splitAll at hfield
      split at hfield
      · rcases List.mem_cons.1 hfield with rfl | hrest
        · exact List.not_mem_nil
        · exact ih hrest
      · next hc =>
          cases hfields : splitAll separator rest with
          | nil => exact absurd hfields (splitAll_ne_nil separator rest)
          | cons first others =>
              rw [hfields] at hfield ih
              rcases List.mem_cons.1 hfield with rfl | hmem
              · exact List.not_mem_cons_of_ne_of_not_mem (Ne.symm hc) (ih List.mem_cons_self)
              · exact ih (List.mem_cons_of_mem _ hmem)

theorem joinWith_cons (field next : List Char) (rest : List (List Char)) :
    joinWith separator (field :: next :: rest) =
      field ++ separator :: joinWith separator (next :: rest) := rfl

/-- Joined fields are split wherever a separator stands, between them or within one. -/
theorem splitAll_joinWith_eq_flatMap {fields : List (List Char)} (hne : fields ≠ []) :
    splitAll separator (joinWith separator fields) = fields.flatMap (splitAll separator) := by
  induction fields with
  | nil => exact absurd rfl hne
  | cons field rest ih =>
      cases rest with
      | nil => simp [joinWith]
      | cons next more =>
          rw [joinWith_cons, splitAll_append_cons, ih (List.cons_ne_nil _ _)]
          exact List.flatMap_cons.symm

theorem splitAll_joinWith {fields : List (List Char)} (hne : fields ≠ [])
    (hfields : ∀ field ∈ fields, separator ∉ field) :
    splitAll separator (joinWith separator fields) = fields := by
  rw [splitAll_joinWith_eq_flatMap hne]
  induction fields with
  | nil => rfl
  | cons field rest ih =>
      rw [List.forall_mem_cons] at hfields
      rw [List.flatMap_cons, splitAll_of_notMem hfields.1, List.singleton_append]
      cases rest with
      | nil => rfl
      | cons next more => rw [ih (List.cons_ne_nil _ _) hfields.2]

theorem mem_joinWith {fields : List (List Char)} {c : Char} (hc : c ∈ joinWith separator fields) :
    c = separator ∨ ∃ field ∈ fields, c ∈ field := by
  induction fields with
  | nil => simp [joinWith] at hc
  | cons field rest ih =>
      cases rest with
      | nil => exact .inr ⟨field, List.mem_cons_self, hc⟩
      | cons next more =>
          rw [joinWith_cons, List.mem_append, List.mem_cons] at hc
          rcases hc with hfield | rfl | hrest
          · exact .inr ⟨field, List.mem_cons_self, hfield⟩
          · exact .inl rfl
          · rcases ih hrest with heq | ⟨other, hother, hmem⟩
            · exact .inl heq
            · exact .inr ⟨other, List.mem_cons_of_mem _ hother, hmem⟩

theorem joinWith_eq_nil_iff {fields : List (List Char)} :
    joinWith separator fields = [] ↔ fields = [] ∨ fields = [[]] := by
  rcases fields with _ | ⟨field, _ | ⟨next, rest⟩⟩
  · simp [joinWith]
  · simp [joinWith]
  · simp [joinWith]

/-- Fields with a separator in front of each. -/
theorem flatMap_cons_eq {field : List Char} {fields : List (List Char)} :
    (field :: fields).flatMap (separator :: ·) = separator :: joinWith separator (field :: fields) := by
  induction fields generalizing field with
  | nil => simp [joinWith]
  | cons next rest ih => rw [List.flatMap_cons, ih, joinWith_cons, List.cons_append]

theorem splitFirst?_append {before behind : List Char} (hbefore : separator ∉ before) :
    splitFirst? separator (before ++ separator :: behind) = some (before, behind) := by
  induction before with
  | nil => simp [splitFirst?]
  | cons c rest ih =>
      obtain ⟨hc, hrest⟩ := List.ne_and_not_mem_of_not_mem_cons hbefore
      rw [List.cons_append, splitFirst?, if_neg (Ne.symm hc), ih hrest]
      rfl

theorem splitFirst?_eq_none_iff {text : List Char} :
    splitFirst? separator text = none ↔ separator ∉ text := by
  induction text with
  | nil => simp [splitFirst?]
  | cons c rest ih =>
      by_cases hc : c = separator
      · simp [splitFirst?, hc]
      · simp [splitFirst?, hc, ih, Ne.symm hc]

theorem splitFirst?_eq_some_iff {text before behind : List Char} :
    splitFirst? separator text = some (before, behind) ↔
      text = before ++ separator :: behind ∧ separator ∉ before := by
  constructor
  · intro hsplit
    induction text generalizing before with
    | nil => simp [splitFirst?] at hsplit
    | cons c rest ih =>
        by_cases hc : c = separator
        · simp only [splitFirst?, if_pos hc, Option.some.injEq, Prod.mk.injEq] at hsplit
          obtain ⟨rfl, rfl⟩ := hsplit
          simp [hc]
        · simp only [splitFirst?, if_neg hc, Option.map_eq_some_iff, Prod.mk.injEq] at hsplit
          obtain ⟨⟨front, tail⟩, hfront, rfl, rfl⟩ := hsplit
          obtain ⟨rfl, hnot⟩ := ih hfront
          exact ⟨rfl, List.not_mem_cons_of_ne_of_not_mem (Ne.symm hc) hnot⟩
  · rintro ⟨rfl, hbefore⟩
    exact splitFirst?_append hbefore

theorem stripStart?_eq_some_iff {start text rest : List Char} :
    stripStart? start text = some rest ↔ text = start ++ rest := by
  induction start generalizing text with
  | nil => simp [stripStart?]
  | cons a start ih =>
      cases text with
      | nil => simp [stripStart?]
      | cons c text =>
          by_cases hc : a = c
          · simp [stripStart?, hc, ih]
          · simp [stripStart?, hc, Ne.symm hc]

end ApiContract.Text
