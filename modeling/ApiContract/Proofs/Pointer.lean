import ApiContract.Proofs.Splitting
import ApiContract.Value.Basic
import ApiContract.Violation.Basic

/-!
# Paths and pointers into values

A path leads into a value step by step, and its JSON pointer (RFC 6901) spells the same steps as
reference tokens in which tildes and slashes are escaped.  Reading the tokens back gives the texts of
the steps, and looking them up in the value leads to where the path leads.
-/

namespace ApiContract

/-- What stands in front of the first mark of a pattern is not replaced. -/
theorem Text.replaceAll_append {mark : Char} {more replacement front : List Char}
    (hfront : mark ∉ front) (rest : List Char) :
    replaceAll (mark :: more) replacement (front ++ rest) =
      front ++ replaceAll (mark :: more) replacement rest := by
  unfold replaceAll
  induction front with
  | nil => rfl
  | cons c front ih =>
      obtain ⟨hc, hmore⟩ := List.ne_and_not_mem_of_not_mem_cons hfront
      have hstrip : stripStart? (mark :: more) (c :: (front ++ rest)) = none := by
        simp [stripStart?, hc]
      simp only [List.cons_append, replaceAll.go, hstrip, ih hmore]

/-- The text of a step as a pointer means it, before anything is escaped. -/
def Segment.text : Segment → String
  | .key name => name
  | .index position => String.ofList (Nat.toDigits 10 position)

namespace Pointer

/-- A reference token as it is meant: first `~1` becomes a slash, then `~0` becomes a tilde. -/
def unescape (token : List Char) : List Char :=
  Text.replaceAll ['~', '0'] ['~'] (Text.replaceAll ['~', '1'] ['/'] token)

/-- The reference tokens of a pointer, each with a slash in front. -/
def tokens? (pointer : String) : Option (List String) :=
  match pointer.toList with
  | [] => some []
  | '/' :: tokens =>
    some ((Text.splitAll '/' tokens).map fun token => String.ofList (unescape token))
  | _ => none

/-- The number that a token is the decimal form of; such a form has no leading zeros. -/
def index? (token : String) : Option Nat :=
  let position := Nat.ofDigitChars 10 token.toList 0
  if Nat.toDigits 10 position = token.toList then some position else none

theorem index?_text (position : Nat) : index? (Segment.index position).text = some position := by
  simp [index?, Segment.text, Nat.ofDigitChars_ten_toDigits]

/-! ## Escaping -/

theorem escapePointerChar_of_ne {c : Char} (htilde : c ≠ '~') (hslash : c ≠ '/') :
    escapePointerChar c = [c] := by
  unfold escapePointerChar
  split <;> simp_all

theorem slash_notMem_escape (name : List Char) : '/' ∉ name.flatMap escapePointerChar := by
  intro hmem
  obtain ⟨c, -, hc⟩ := List.mem_flatMap.1 hmem
  by_cases htilde : c = '~'
  · simp [htilde, escapePointerChar] at hc
  · by_cases hslash : c = '/'
    · simp [hslash, escapePointerChar] at hc
    · rw [escapePointerChar_of_ne htilde hslash, List.mem_singleton] at hc
      exact hslash hc.symm

theorem unescape_tilde (rest : List Char) : unescape ('~' :: '0' :: rest) = '~' :: unescape rest := by
  simp [unescape, Text.replaceAll, Text.replaceAll.go, Text.stripStart?]

theorem unescape_slash (rest : List Char) : unescape ('~' :: '1' :: rest) = '/' :: unescape rest := by
  simp [unescape, Text.replaceAll, Text.replaceAll.go, Text.stripStart?]

/-- What has no tilde is left alone. -/
theorem unescape_append {front : List Char} (hfront : '~' ∉ front) (rest : List Char) :
    unescape (front ++ rest) = front ++ unescape rest := by
  rw [unescape, Text.replaceAll_append hfront, Text.replaceAll_append hfront, unescape]

theorem unescape_escape (name : List Char) : unescape (name.flatMap escapePointerChar) = name := by
  induction name with
  | nil => rfl
  | cons c rest ih =>
      rw [List.flatMap_cons]
      by_cases htilde : c = '~'
      · subst htilde
        exact (unescape_tilde _).trans (congrArg _ ih)
      · by_cases hslash : c = '/'
        · subst hslash
          exact (unescape_slash _).trans (congrArg _ ih)
        · have hfree : '~' ∉ [c] := fun hmem => htilde (List.mem_singleton.1 hmem).symm
          rw [escapePointerChar_of_ne htilde hslash, unescape_append hfree, ih, List.singleton_append]

/-- Decimal digits need no escapes. -/
theorem escape_toDigits (position : Nat) :
    (Nat.toDigits 10 position).flatMap escapePointerChar = Nat.toDigits 10 position := by
  have hdigit : ∀ c ∈ Nat.toDigits 10 position, escapePointerChar c = [c] := by
    intro c hmem
    have hc : c.isDigit := Nat.isDigit_of_mem_toDigits (by omega) (by omega) hmem
    apply escapePointerChar_of_ne
    · rintro rfl
      simp at hc
    · rintro rfl
      simp at hc
  rw [List.flatMap_congr hdigit, List.flatMap_singleton']

theorem token_eq_escape (segment : Segment) :
    segment.token = segment.text.toList.flatMap escapePointerChar := by
  cases segment with
  | key name => rfl
  | index position => rw [Segment.text, String.toList_ofList, escape_toDigits, Segment.token]

/-- The tokens of a path's pointer are the texts of its steps. -/
theorem tokens?_pointer (path : InstancePath) :
    tokens? path.pointer = some (path.map Segment.text) := by
  cases path with
  | nil => rfl
  | cons first rest =>
      have hslash : ∀ token ∈ (first :: rest).map Segment.token, '/' ∉ token := by
        intro token htoken
        obtain ⟨segment, -, rfl⟩ := List.mem_map.1 htoken
        rw [token_eq_escape]
        exact slash_notMem_escape _
      have hpointer : InstancePath.pointer (first :: rest) =
          String.ofList ('/' :: Text.joinWith '/' ((first :: rest).map Segment.token)) := by
        rw [List.map_cons, ← Text.flatMap_cons_eq, ← List.map_cons, List.flatMap_map]
        rfl
      have hunescape : ∀ segment : Segment,
          String.ofList (unescape segment.token) = segment.text := by
        intro segment
        rw [token_eq_escape, unescape_escape, String.ofList_toList]
      simp only [tokens?, hpointer, String.toList_ofList]
      rw [Text.splitAll_joinWith (by simp) hslash, List.map_map]
      exact congrArg some (List.map_congr_left fun segment _ => hunescape segment)

end Pointer

/-! ## Walking into a value -/

namespace Value

/-- The value one step inside. -/
def step? : Value → Segment → Option Value
  | .object members, .key name => Entries.get? members name
  | .array items, .index position => items[position]?
  | _, _ => none

/-- The value that a reference token names: a member of an object, or the item of an array at the
position that the token spells. -/
def named? : Value → String → Option Value
  | .object members, token => Entries.get? members token
  | .array items, token => (Pointer.index? token).bind fun position => items[position]?
  | _, _ => none

variable {σ : Type}

/-- Steps are taken as long as there is a value behind them: the value that is reached, and the steps
that are left. -/
def walk (next? : Value → σ → Option Value) : Value → List σ → Value × List σ
  | value, [] => (value, [])
  | value, step :: rest =>
    match next? value step with
    | some child => walk next? child rest
    | none => (value, step :: rest)

variable {next? : Value → σ → Option Value} {value child : Value} {step : σ} {rest : List σ}

@[simp] theorem walk_nil : value.walk next? [] = (value, []) := rfl

theorem walk_cons_of_some (hstep : next? value step = some child) :
    value.walk next? (step :: rest) = child.walk next? rest := by
  rw [walk, hstep]

theorem walk_cons_of_none (hstep : next? value step = none) :
    value.walk next? (step :: rest) = (value, step :: rest) := by
  rw [walk, hstep]

/-- A walk has come to its end, or to an object that lacks the name of the next step. -/
def StopsWell (stop : Value × InstancePath) : Prop :=
  stop.2 = [] ∨ ∃ members name rest, stop = (.object members, .key name :: rest)

/-- A walk along the tokens of a pointer stops where the walk along the path does. -/
theorem walk_named? {path : InstancePath} (hstop : StopsWell (value.walk step? path)) :
    value.walk named? (path.map Segment.text) =
      ((value.walk step? path).1, (value.walk step? path).2.map Segment.text) := by
  induction path generalizing value with
  | nil => rfl
  | cons segment rest ih =>
      rw [List.map_cons]
      cases hstep : value.step? segment with
      | some child =>
          rw [walk_cons_of_some hstep] at hstop ⊢
          have hnamed : value.named? segment.text = some child := by
            cases value <;> cases segment <;> simp [step?] at hstep
            · rw [named?, Pointer.index?_text]
              exact hstep
            · exact hstep
          rw [walk_cons_of_some hnamed, ih hstop]
      | none =>
          rw [walk_cons_of_none hstep] at hstop ⊢
          have hnamed : value.named? segment.text = none := by
            rcases hstop with hnil | ⟨members, name, more, heq⟩
            · simp at hnil
            · obtain ⟨rfl, hcons⟩ := Prod.mk.inj heq
              obtain ⟨rfl, -⟩ := List.cons.inj hcons
              exact hstep
          rw [walk_cons_of_none hnamed]
          rfl

end Value

end ApiContract
