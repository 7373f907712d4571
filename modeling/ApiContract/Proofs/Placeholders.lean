import ApiContract.Parameter.Nested
import ApiContract.Proofs.Splitting
import ApiContract.Route.Template

/-!
# Placeholders in the text of a template

A template is read segment by segment, but what its placeholders are can be told from its text as a
whole: an opening brace starts a placeholder if a closing brace follows before the next slash, with
at least one character in between.  The text is the row of its placeholders and of its other
characters.  Since a slash always stands for itself, the rows of the segments, put together with the
slashes between them, are the row of the whole text.
-/

namespace ApiContract

/-- A placeholder of a template, or a character that stands for itself. -/
inductive TemplatePiece where
  | placeholder (name : String)
  | character (c : Char)
  deriving DecidableEq

namespace TemplatePiece

/-- The name in braces that a character and what follows it start with, and the text behind. -/
def opened? (c : Char) (rest : List Char) : Option (List Char × List Char) :=
  if c = Char.ofNat 0x7B then
    (Text.splitFirst? (Char.ofNat 0x7D) rest).filter fun (name, _) =>
      !name.isEmpty && !name.contains '/'
  else none

theorem opened?_eq_some_iff {c : Char} {rest name behind : List Char} :
    opened? c rest = some (name, behind) ↔
      c = Char.ofNat 0x7B ∧ rest = name ++ Char.ofNat 0x7D :: behind ∧
        Char.ofNat 0x7D ∉ name ∧ name ≠ [] ∧ '/' ∉ name := by
  unfold opened?
  split
  · next hc =>
      rw [Option.filter_eq_some_iff, Text.splitFirst?_eq_some_iff]
      simp [hc, and_assoc]
  · next hc => simp [hc]

/-- The pieces of a text, from left to right. -/
def ofText : List Char → List TemplatePiece
  | [] => []
  | c :: rest =>
    match _ : opened? c rest with
    | some (name, behind) => .placeholder (String.ofList name) :: ofText behind
    | none => .character c :: ofText rest
termination_by text => text.length
decreasing_by
  · have hrest := (opened?_eq_some_iff.1 ‹_›).2.1
    simp only [hrest, List.length_append, List.length_cons]
    omega
  · simp

theorem ofText_nil : ofText [] = [] := by
  rw [ofText]

theorem ofText_of_opened {c : Char} {rest name behind : List Char}
    (hopened : opened? c rest = some (name, behind)) :
    ofText (c :: rest) = .placeholder (String.ofList name) :: ofText behind := by
  rw [ofText]
  split <;> simp_all

theorem ofText_of_not_opened {c : Char} {rest : List Char} (hopened : opened? c rest = none) :
    ofText (c :: rest) = .character c :: ofText rest := by
  rw [ofText]
  split <;> simp_all

theorem opened?_append_slash {c : Char} {rest name behind : List Char} (more : List Char)
    (hopened : opened? c rest = some (name, behind)) :
    opened? c (rest ++ '/' :: more) = some (name, behind ++ '/' :: more) := by
  obtain ⟨hc, rfl, hname⟩ := opened?_eq_some_iff.1 hopened
  rw [opened?_eq_some_iff]
  exact ⟨hc, by simp, hname⟩

/-- No placeholder reaches over a slash. -/
theorem opened?_append_slash_eq_none {c : Char} {rest : List Char} (more : List Char)
    (hopened : opened? c rest = none) : opened? c (rest ++ '/' :: more) = none := by
  rw [Option.eq_none_iff_forall_ne_some]
  intro found hfound
  obtain ⟨name, behind⟩ := found
  obtain ⟨hc, htext, hclosing, hne, hslash⟩ := opened?_eq_some_iff.1 hfound
  rcases List.append_eq_append_iff.1 htext with ⟨tail, hname, -⟩ | ⟨tail, hrest, htail⟩
  · cases tail with
    | nil => simp_all
    | cons d tail => simp_all
  · cases tail with
    | nil => simp_all
    | cons d tail =>
        obtain ⟨rfl, -⟩ := List.cons.inj htail
        have hsome : opened? c rest = some (name, tail) :=
          opened?_eq_some_iff.2 ⟨hc, hrest, hclosing, hne, hslash⟩
        simp [hopened] at hsome

theorem ofText_append_slash (front rest : List Char) :
    ofText (front ++ '/' :: rest) = ofText front ++ .character '/' :: ofText rest := by
  induction front using ofText.induct with
  | case1 =>
      have hslash : opened? '/' rest = none := by
        rw [opened?, if_neg (by decide)]
      rw [List.nil_append, ofText_of_not_opened hslash, ofText_nil, List.nil_append]
  | case2 c more name behind hopened ih =>
      rw [List.cons_append, ofText_of_opened (opened?_append_slash rest hopened), ih,
        ofText_of_opened hopened, List.cons_append]
  | case3 c more hopened ih =>
      rw [List.cons_append, ofText_of_not_opened (opened?_append_slash_eq_none rest hopened), ih,
        ofText_of_not_opened hopened, List.cons_append]

/-- The names of placeholders, in order. -/
def names (pieces : List TemplatePiece) : List String :=
  pieces.filterMap fun piece =>
    match piece with
    | .placeholder name => some name
    | .character _ => none

/-- The text in which placeholders are replaced by what they stand for. -/
def substitute (value : String → List Char) (pieces : List TemplatePiece) : List Char :=
  pieces.flatMap fun piece =>
    match piece with
    | .placeholder name => value name
    | .character c => [c]

theorem names_append (front rest : List TemplatePiece) :
    names (front ++ rest) = names front ++ names rest :=
  List.filterMap_append

theorem substitute_append (value : String → List Char) (front rest : List TemplatePiece) :
    substitute value (front ++ rest) = substitute value front ++ substitute value rest :=
  List.flatMap_append

@[simp] theorem names_map_character (text : List Char) : names (text.map .character) = [] := by
  simp [names]

@[simp] theorem substitute_map_character (value : String → List Char) (text : List Char) :
    substitute value (text.map .character) = text := by
  simp [substitute, List.flatMap_map]

/-- A text before the first placeholder, and each placeholder with the text behind it. -/
def ofGaps (start : List Char) (gaps : List (String × List Char)) : List TemplatePiece :=
  start.map .character ++ gaps.flatMap fun gap => .placeholder gap.1 :: gap.2.map .character

theorem names_ofGaps (start : List Char) (gaps : List (String × List Char)) :
    names (ofGaps start gaps) = gaps.map Prod.fst := by
  rw [ofGaps, names_append, names_map_character, List.nil_append]
  induction gaps with
  | nil => rfl
  | cons gap rest ih =>
      have hgap : names (.placeholder gap.1 :: gap.2.map .character) = [gap.1] :=
        congrArg (gap.1 :: ·) (names_map_character gap.2)
      rw [List.flatMap_cons, names_append, ih, hgap, List.map_cons, List.singleton_append]

theorem substitute_ofGaps (value : String → List Char) (start : List Char)
    (gaps : List (String × List Char)) :
    substitute value (ofGaps start gaps) =
      start ++ gaps.flatMap fun gap => value gap.1 ++ gap.2 := by
  rw [ofGaps, substitute_append, substitute_map_character]
  congr 1
  induction gaps with
  | nil => rfl
  | cons gap rest ih =>
      have hgap : substitute value (.placeholder gap.1 :: gap.2.map .character) =
          value gap.1 ++ gap.2 :=
        congrArg (value gap.1 ++ ·) (substitute_map_character value gap.2)
      rw [List.flatMap_cons, substitute_append, ih, hgap, List.flatMap_cons]

end TemplatePiece

/-! ## Segments -/

namespace TemplateSegment

open TemplatePiece

/-- In a segment, which has no slash, the search for the closing brace alone finds a placeholder. -/
theorem cut_of_opened {c : Char} {rest name behind : List Char}
    (hopened : opened? c rest = some (name, behind)) :
    cut (c :: rest) = ([], (String.ofList name, (cut behind).1) :: (cut behind).2) := by
  obtain ⟨rfl, rfl, hclosing, hne, -⟩ := opened?_eq_some_iff.1 hopened
  have hname : (name ++ Char.ofNat 0x7D :: behind).takeWhile (· != Char.ofNat 0x7D) = name := by
    rw [List.takeWhile_append_of_pos]
    · simp
    · intro d hd
      simpa using fun heq : d = Char.ofNat 0x7D => hclosing (heq ▸ hd)
  rw [cut]
  simp only [hname]
  rw [if_pos (by simp [hne])]
  simp

theorem cut_of_not_opened {c : Char} {rest : List Char} (hslash : '/' ∉ rest)
    (hopened : opened? c rest = none) :
    cut (c :: rest) = (c :: (cut rest).1, (cut rest).2) := by
  rw [cut]
  simp only
  rw [if_neg]
  intro hcut
  simp only [Bool.and_eq_true, beq_iff_eq, Bool.not_eq_true', decide_eq_true_eq] at hcut
  obtain ⟨⟨hc, hne⟩, hlength⟩ := hcut
  have hsplit := List.takeWhile_append_dropWhile (p := (· != Char.ofNat 0x7D)) (l := rest)
  set name := rest.takeWhile (· != Char.ofNat 0x7D) with hname
  cases hbehind : rest.dropWhile (· != Char.ofNat 0x7D) with
  | nil =>
      rw [hbehind, List.append_nil] at hsplit
      rw [hsplit] at hlength
      exact Nat.lt_irrefl _ hlength
  | cons d behind =>
      have hd : d = Char.ofNat 0x7D := by
        have hhead := List.head?_dropWhile_not (· != Char.ofNat 0x7D) rest
        rw [hbehind] at hhead
        simpa using hhead
      have hclosing : Char.ofNat 0x7D ∉ name := by
        intro hmem
        have hkept := List.all_eq_true.1 List.all_takeWhile _ hmem
        simp at hkept
      have hsome : opened? c rest = some (name, behind) := by
        rw [opened?_eq_some_iff]
        refine ⟨hc, ?_, hclosing, by simpa using hne, ?_⟩
        · rw [← hsplit, hbehind, hd]
        · exact fun hmem => hslash (List.takeWhile_subset _ hmem)
      simp [hopened] at hsome

theorem ofText_eq_ofGaps {text : List Char} (hslash : '/' ∉ text) :
    TemplatePiece.ofText text = ofGaps (cut text).1 (cut text).2 := by
  induction text using TemplatePiece.ofText.induct with
  | case1 =>
      rw [TemplatePiece.ofText_nil, cut]
      rfl
  | case2 c rest name behind hopened ih =>
      have hbehind : '/' ∉ behind := by
        obtain ⟨-, rfl, -⟩ := opened?_eq_some_iff.1 hopened
        simp_all
      rw [ofText_of_opened hopened, cut_of_opened hopened, ih hbehind]
      simp [ofGaps]
  | case3 c rest hopened ih =>
      have hrest := (List.ne_and_not_mem_of_not_mem_cons hslash).2
      rw [ofText_of_not_opened hopened, cut_of_not_opened hrest hopened, ih hrest]
      simp [ofGaps]

theorem cut_eq_self {text : List Char} (hnone : (cut text).2 = []) : (cut text).1 = text := by
  induction text using cut.induct with
  | case1 => rw [cut]
  | case2 c rest name hopened start gaps hcut ih =>
      rw [cut] at hnone
      simp only at hnone
      rw [if_pos hopened] at hnone
      simp at hnone
  | case3 c rest name hopened start gaps hcut ih =>
      have hstep : cut (c :: rest) = (c :: (cut rest).1, (cut rest).2) := by
        rw [cut]
        exact if_neg hopened
      rw [hstep] at hnone ⊢
      rw [ih hnone]

/-- The text before the first placeholder of a segment, and the placeholders with the texts behind
them. -/
def gapped : TemplateSegment → List Char × List (String × List Char)
  | .literal text => (text, [])
  | .placeholder name => ([], [(name, [])])
  | .mixed start gaps => (start, gaps)

theorem gapped_ofText (text : List Char) : (TemplateSegment.ofText text).gapped = cut text := by
  unfold TemplateSegment.ofText
  split
  · next start hcut =>
      have hstart : start = text := by
        have hnone : (cut text).2 = [] := by rw [hcut]
        have hself := cut_eq_self hnone
        rwa [hcut] at hself
      rw [hcut, hstart]
      rfl
  · next name hcut =>
      rw [hcut]
      rfl
  · next hcut =>
      rw [hcut]
      rfl

theorem names_eq_gapped (segment : TemplateSegment) :
    segment.names = segment.gapped.2.map Prod.fst := by
  cases segment <;> rfl

end TemplateSegment
end ApiContract
