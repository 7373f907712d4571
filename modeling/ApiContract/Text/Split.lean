/-!
# Splitting text

A separator character cuts a text into fields; `splitAll` keeps every field, empty ones included, so
that a text is its fields joined by the separator.
-/

namespace ApiContract.Text

/-- The fields between the occurrences of `separator`; there is always at least one. -/
def splitAll (separator : Char) : List Char → List (List Char)
  | [] => [[]]
  | c :: rest =>
    if c = separator then
      [] :: splitAll separator rest
    else
      match splitAll separator rest with
      | [] => [[c]]
      | field :: fields => (c :: field) :: fields

/-- What stands before and behind the first `separator`. -/
def splitFirst? (separator : Char) : List Char → Option (List Char × List Char)
  | [] => none
  | c :: rest =>
    if c = separator then some ([], rest)
    else (splitFirst? separator rest).map fun (before, behind) => (c :: before, behind)

/-- What stands before and behind the last `separator`. -/
def splitLast? (separator : Char) (text : List Char) : Option (List Char × List Char) :=
  (splitFirst? separator text.reverse).map fun (behind, before) =>
    (before.reverse, behind.reverse)

/-- Fields written one after the other with `separator` between them. -/
def joinWith (separator : Char) : List (List Char) → List Char
  | [] => []
  | [field] => field
  | field :: fields => field ++ separator :: joinWith separator fields

/-- The rest of a text that starts with `start`. -/
def stripStart? : (start text : List Char) → Option (List Char)
  | [], text => some text
  | _ :: _, [] => none
  | a :: start, c :: text => if a = c then stripStart? start text else none

/-- Replaces every occurrence of a non-empty `pattern` by `replacement`, from left to right. -/
def replaceAll (pattern replacement : List Char) (text : List Char) : List Char :=
  go text 0
where
  /-- Skips `covered` characters that belong to the occurrence found last. -/
  go : List Char → Nat → List Char
    | [], _ => []
    | _ :: rest, covered + 1 => go rest covered
    | c :: rest, 0 =>
      match pattern, stripStart? pattern (c :: rest) with
      | _ :: more, some _ => replacement ++ go rest more.length
      | _, _ => c :: go rest 0

theorem splitAll_ne_nil (separator : Char) (text : List Char) : splitAll separator text ≠ [] := by
  cases text with
  | nil => simp [splitAll]
  | cons c rest =>
    unfold splitAll
    split
    · simp
    · split <;> simp

theorem joinWith_splitAll (separator : Char) (text : List Char) :
    joinWith separator (splitAll separator text) = text := by
  induction text with
  | nil => simp [splitAll, joinWith]
  | cons c rest ih =>
    unfold splitAll
    cases hfields : splitAll separator rest with
    | nil => exact absurd hfields (splitAll_ne_nil separator rest)
    | cons field fields =>
      rw [hfields] at ih
      by_cases hc : c = separator
      · simp [hc, joinWith, ih]
      · cases fields <;> simp_all [joinWith]

end ApiContract.Text
