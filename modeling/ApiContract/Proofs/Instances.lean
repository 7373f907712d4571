import ApiContract.Proofs.Insertion
import ApiContract.Proofs.Placeholders
import ApiContract.Proofs.Splitting

/-!
# Instances of path templates

A path is an instance of a template when it has as many segments and each of them is what the
template's segment becomes once its placeholders are replaced.  A placeholder that makes up its whole
segment stands for any text, one beside other characters for a text without a line break; none stands
for the empty text.  Matching finds a replacement whenever there is one.  Of several replacements for
a segment it takes the one whose lengths, read from left to right, come first in the order of words.
-/

namespace ApiContract

namespace TemplateSegment

/-! ## The shortest start -/

section Shortest

variable {α : Type} {follows : List Char → Option α} {taken text : List Char}

theorem shortest_cons (c : Char) (rest : List Char) (hline : c ≠ '\n') :
    shortest follows taken (c :: rest) =
      match follows rest with
      | some result => some (String.ofList (c :: taken).reverse, result)
      | none => shortest follows (c :: taken) rest := by
  have hother : (c == '\n') = false := beq_eq_false_iff_ne.2 hline
  cases hfollows : follows rest with
  | none => simp only [shortest, hother, hfollows, Bool.false_eq_true, if_false]
  | some result => simp only [shortest, hother, hfollows, Bool.false_eq_true, if_false]

theorem follows_eq_none_of_shortest (hnone : shortest follows taken text = none)
    {chosen rest : List Char} (htext : text = chosen ++ rest) (hne : chosen ≠ [])
    (hline : '\n' ∉ chosen) : follows rest = none := by
  induction text generalizing taken chosen with
  | nil => simp_all
  | cons c more ih =>
      cases chosen with
      | nil => exact absurd rfl hne
      | cons d chosen =>
          obtain ⟨rfl, hmore⟩ := List.cons.inj htext
          obtain ⟨hc, hchosen⟩ := List.ne_and_not_mem_of_not_mem_cons hline
          rw [shortest_cons c more (Ne.symm hc)] at hnone
          cases hfollows : follows more with
          | some result => simp [hfollows] at hnone
          | none =>
              rw [hfollows] at hnone
              cases chosen with
              | nil =>
                  obtain rfl : more = rest := hmore
                  exact hfollows
              | cons e chosen => exact ih hnone hmore (List.cons_ne_nil _ _) hchosen

/-- What is found is a start that may be taken, and no shorter one is followed well. -/
theorem exists_of_shortest {captured : String} {result : α}
    (hsome : shortest follows taken text = some (captured, result)) :
    ∃ chosen rest, text = chosen ++ rest ∧ chosen ≠ [] ∧ '\n' ∉ chosen ∧
      follows rest = some result ∧ captured = String.ofList (taken.reverse ++ chosen) ∧
      ∀ shorter behind, text = shorter ++ behind → shorter ≠ [] →
        shorter.length < chosen.length → follows behind = none := by
  induction text generalizing taken with
  | nil => simp [shortest] at hsome
  | cons c more ih =>
      have hline : c ≠ '\n' := by
        rintro rfl
        simp [shortest] at hsome
      rw [shortest_cons c more hline] at hsome
      cases hfollows : follows more with
      | some found =>
          simp only [hfollows, Option.some.injEq, Prod.mk.injEq] at hsome
          obtain ⟨rfl, rfl⟩ := hsome
          refine ⟨[c], more, rfl, List.cons_ne_nil _ _, by simpa using Ne.symm hline, hfollows,
            by simp, ?_⟩
          intro shorter behind _ hne hlength
          have hpos := List.length_pos_iff.2 hne
          simp only [List.length_singleton] at hlength
          omega
      | none =>
          rw [hfollows] at hsome
          obtain ⟨chosen, rest, rfl, hne, hchosen, hrest, rfl, hshortest⟩ := ih hsome
          refine ⟨c :: chosen, rest, rfl, List.cons_ne_nil _ _, ?_, hrest, by simp, ?_⟩
          · simp [hchosen, Ne.symm hline]
          · intro shorter behind htext hshorter hlength
            cases shorter with
            | nil => exact absurd rfl hshorter
            | cons d shorter =>
                obtain ⟨-, hmore⟩ := List.cons.inj htext
                cases shorter with
                | nil =>
                    have hbehind : chosen ++ rest = behind := hmore
                    rwa [← hbehind]
                | cons e shorter =>
                    refine hshortest (e :: shorter) behind hmore (List.cons_ne_nil _ _) ?_
                    simpa using hlength

end Shortest

/-! ## Replacing the placeholders of a segment -/

/-- Gaps in which each placeholder is replaced by a text of its own. -/
def filled : List (String × List Char) → List (List Char) → List Char
  | (_, behind) :: gaps, chosen :: choice => chosen ++ (behind ++ filled gaps choice)
  | _, _ => []

/-- The segment becomes the text when its placeholders are replaced, in order, by the texts of the
choice. -/
structure Becomes (segment : TemplateSegment) (text : List Char) (choice : List (List Char)) :
    Prop where
  one_each : choice.length = segment.names.length
  nonempty : ∀ chosen ∈ choice, chosen ≠ []
  unbroken : (∀ name, segment ≠ .placeholder name) → ∀ chosen ∈ choice, '\n' ∉ chosen
  spells : segment.gapped.1 ++ filled segment.gapped.2 choice = text

/-- No other choice comes before it in the order of the words of lengths. -/
structure IsFirstChoice (segment : TemplateSegment) (text : List Char)
    (choice : List (List Char)) : Prop extends Becomes segment text choice where
  first : ∀ other, segment.Becomes text other →
    ¬ List.Lex (· < ·) (other.map List.length) (choice.map List.length)

theorem becomes_literal_iff {expected text : List Char} {choice : List (List Char)} :
    (literal expected).Becomes text choice ↔ choice = [] ∧ expected = text := by
  constructor
  · intro hbecomes
    exact ⟨List.length_eq_zero_iff.1 hbecomes.one_each, by
      simpa [gapped, filled] using hbecomes.spells⟩
  · rintro ⟨rfl, rfl⟩
    exact ⟨rfl, by simp, by simp, by simp [gapped, filled]⟩

theorem becomes_placeholder_iff {name : String} {text : List Char} {choice : List (List Char)} :
    (placeholder name).Becomes text choice ↔ choice = [text] ∧ text ≠ [] := by
  constructor
  · intro hbecomes
    obtain ⟨chosen, rfl⟩ := List.length_eq_one_iff.1 hbecomes.one_each
    have htext : chosen = text := by simpa [gapped, filled] using hbecomes.spells
    exact ⟨by rw [htext], htext ▸ hbecomes.nonempty chosen (List.mem_singleton_self _)⟩
  · rintro ⟨rfl, hne⟩
    exact ⟨rfl, by simpa using hne, by simp, by simp [gapped, filled]⟩

/-! ## Mixed segments -/

section Gaps

variable {gaps : List (String × List Char)} {text : List Char}

/-- Gaps become the text when their placeholders are replaced. -/
structure FillsTo (gaps : List (String × List Char)) (text : List Char)
    (choice : List (List Char)) : Prop where
  one_each : choice.length = gaps.length
  nonempty : ∀ chosen ∈ choice, chosen ≠ []
  unbroken : ∀ chosen ∈ choice, '\n' ∉ chosen
  spells : filled gaps choice = text

theorem fillsTo_nil_iff {choice : List (List Char)} :
    FillsTo [] text choice ↔ choice = [] ∧ text = [] := by
  constructor
  · intro hfills
    exact ⟨List.length_eq_zero_iff.1 hfills.one_each, by simpa [filled] using hfills.spells.symm⟩
  · rintro ⟨rfl, rfl⟩
    exact ⟨rfl, by simp, by simp, rfl⟩

theorem fillsTo_cons_iff {name : String} {behind : List Char} {choice : List (List Char)} :
    FillsTo ((name, behind) :: gaps) text choice ↔ ∃ chosen rest others, choice = chosen :: others ∧
      text = chosen ++ (behind ++ rest) ∧ chosen ≠ [] ∧ '\n' ∉ chosen ∧
      FillsTo gaps rest others := by
  constructor
  · intro hfills
    cases choice with
    | nil => simpa using hfills.one_each
    | cons chosen others =>
        refine ⟨chosen, filled gaps others, others, rfl, hfills.spells.symm,
          hfills.nonempty chosen List.mem_cons_self, hfills.unbroken chosen List.mem_cons_self, ?_⟩
        exact ⟨by simpa using hfills.one_each,
          fun other hmem => hfills.nonempty other (List.mem_cons_of_mem _ hmem),
          fun other hmem => hfills.unbroken other (List.mem_cons_of_mem _ hmem), rfl⟩
  · rintro ⟨chosen, rest, others, rfl, rfl, hne, hline, hfills⟩
    refine ⟨by simp [hfills.one_each], ?_, ?_, ?_⟩
    · exact List.forall_mem_cons.2 ⟨hne, hfills.nonempty⟩
    · exact List.forall_mem_cons.2 ⟨hline, hfills.unbroken⟩
    · rw [filled, hfills.spells]

theorem not_fillsTo_of_fill_eq_none (hnone : fill gaps text = none) (choice : List (List Char)) :
    ¬ FillsTo gaps text choice := by
  induction gaps generalizing text choice with
  | nil =>
      intro hfills
      obtain ⟨-, rfl⟩ := fillsTo_nil_iff.1 hfills
      simp [fill] at hnone
  | cons gap gaps ih =>
      obtain ⟨name, behind⟩ := gap
      intro hfills
      obtain ⟨chosen, rest, others, rfl, htext, hne, hline, hothers⟩ := fillsTo_cons_iff.1 hfills
      rw [fill, Option.map_eq_none_iff] at hnone
      have hrest := follows_eq_none_of_shortest hnone htext hne hline
      rw [Text.stripStart?_eq_some_iff.2 rfl, Option.bind_some] at hrest
      exact ih hrest others hothers

/-- The captures of placeholders that stand for the texts of a choice. -/
def captured (names : List String) (choice : List (List Char)) : Entries String :=
  names.zip (choice.map String.ofList)

theorem exists_of_fill_eq_some {captures : Entries String} (hsome : fill gaps text = some captures) :
    ∃ choice, FillsTo gaps text choice ∧ captures = captured (gaps.map Prod.fst) choice ∧
      ∀ other, FillsTo gaps text other →
        ¬ List.Lex (· < ·) (other.map List.length) (choice.map List.length) := by
  induction gaps generalizing text captures with
  | nil =>
      rw [fill] at hsome
      split at hsome
      · next hempty =>
          obtain rfl := Option.some.inj hsome
          exact ⟨[], fillsTo_nil_iff.2 ⟨rfl, List.isEmpty_iff.1 hempty⟩, rfl, by simp⟩
      · simp at hsome
  | cons gap gaps ih =>
      obtain ⟨name, behind⟩ := gap
      rw [fill, Option.map_eq_some_iff] at hsome
      obtain ⟨⟨taken, more⟩, hshortest, rfl⟩ := hsome
      obtain ⟨chosen, rest, htext, hne, hline, hfollows, htaken, hbest⟩ :=
        exists_of_shortest hshortest
      obtain ⟨tail, htail, hmore⟩ := Option.bind_eq_some_iff.1 hfollows
      rw [Text.stripStart?_eq_some_iff] at htail
      obtain ⟨others, hothers, rfl, hfirst⟩ := ih hmore
      refine ⟨chosen :: others, ?_, ?_, ?_⟩
      · exact fillsTo_cons_iff.2 ⟨chosen, tail, others, rfl, htail ▸ htext, hne, hline, hothers⟩
      · simp [captured, htaken]
      · intro other hother
        obtain ⟨start, left, more, rfl, hstart, hstartne, -, hleft⟩ := fillsTo_cons_iff.1 hother
        rw [List.map_cons, List.map_cons, List.cons_lex_cons_iff]
        -- A shorter start would have been taken instead, a start of the same length is the same.
        rintro (hlt | ⟨heq, hlex⟩)
        · have hnone := hbest start (behind ++ left) hstart hstartne hlt
          rw [Text.stripStart?_eq_some_iff.2 rfl, Option.bind_some] at hnone
          exact not_fillsTo_of_fill_eq_none hnone more hleft
        · rw [htext] at hstart
          obtain ⟨-, hrest⟩ := List.append_inj hstart heq.symm
          have htail' : tail = left := List.append_cancel_left (htail.symm.trans hrest)
          exact hfirst more (htail' ▸ hleft) hlex

end Gaps

theorem becomes_mixed_iff {start text : List Char} {gaps : List (String × List Char)}
    {choice : List (List Char)} :
    (mixed start gaps).Becomes text choice ↔
      ∃ rest, text = start ++ rest ∧ FillsTo gaps rest choice := by
  constructor
  · intro hbecomes
    exact ⟨filled gaps choice, hbecomes.spells.symm, by simpa [names] using hbecomes.one_each,
      hbecomes.nonempty, hbecomes.unbroken (by simp), rfl⟩
  · rintro ⟨rest, rfl, hfills⟩
    exact ⟨by simpa [names] using hfills.one_each, hfills.nonempty, fun _ => hfills.unbroken,
      congrArg (start ++ ·) hfills.spells⟩

/-! ## One segment -/

variable {segment : TemplateSegment} {text : List Char} {choice : List (List Char)}
  {captures : Entries String}

theorem not_becomes_of_match?_eq_none (hnone : segment.match? text = none)
    (choice : List (List Char)) : ¬ segment.Becomes text choice := by
  intro hbecomes
  cases segment with
  | literal expected =>
      have htext := (becomes_literal_iff.1 hbecomes).2
      simp [match?, htext] at hnone
  | placeholder name =>
      have htext := (becomes_placeholder_iff.1 hbecomes).2
      simp [match?, htext] at hnone
  | mixed start gaps =>
      obtain ⟨rest, rfl, hfills⟩ := becomes_mixed_iff.1 hbecomes
      rw [match?, Text.stripStart?_eq_some_iff.2 rfl, Option.bind_some] at hnone
      exact not_fillsTo_of_fill_eq_none hnone choice hfills

theorem exists_of_match?_eq_some (hsome : segment.match? text = some captures) :
    ∃ choice, segment.IsFirstChoice text choice ∧ captures = captured segment.names choice := by
  cases segment with
  | literal expected =>
      rw [match?] at hsome
      split at hsome
      · next htext =>
          obtain rfl := Option.some.inj hsome
          refine ⟨[], ⟨becomes_literal_iff.2 ⟨rfl, htext⟩, ?_⟩, rfl⟩
          simp
      · simp at hsome
  | placeholder name =>
      rw [match?] at hsome
      split at hsome
      · simp at hsome
      · next htext =>
          obtain rfl := Option.some.inj hsome
          have hne : text ≠ [] := by simpa using htext
          refine ⟨[text], ⟨becomes_placeholder_iff.2 ⟨rfl, hne⟩, ?_⟩, rfl⟩
          intro other hother
          rw [(becomes_placeholder_iff.1 hother).1]
          exact irrefl_of (List.Lex (· < ·)) _
  | mixed start gaps =>
      obtain ⟨rest, hrest, hfill⟩ := Option.bind_eq_some_iff.1 hsome
      rw [Text.stripStart?_eq_some_iff] at hrest
      obtain ⟨choice, hfills, hcaptures, hfirst⟩ := exists_of_fill_eq_some hfill
      refine ⟨choice, ⟨becomes_mixed_iff.2 ⟨rest, hrest, hfills⟩, ?_⟩, hcaptures⟩
      intro other hother
      obtain ⟨rest', hrest', hfills'⟩ := becomes_mixed_iff.1 hother
      have hsame : rest = rest' := List.append_cancel_left (hrest.symm.trans hrest')
      exact hfirst other (hsame ▸ hfills')

theorem captured_names (hone : choice.length = segment.names.length) :
    Entries.keys (captured segment.names choice) = segment.names := by
  unfold Entries.keys captured
  rw [List.map_fst_zip]
  simp [hone]

theorem mem_of_mem_filled {gaps : List (String × List Char)} {choice : List (List Char)}
    (hone : choice.length = gaps.length) {chosen : List Char} (hmem : chosen ∈ choice) {c : Char}
    (hc : c ∈ chosen) : c ∈ filled gaps choice := by
  induction gaps generalizing choice with
  | nil =>
      rw [List.length_nil, List.length_eq_zero_iff] at hone
      simp [hone] at hmem
  | cons gap gaps ih =>
      obtain ⟨name, behind⟩ := gap
      cases choice with
      | nil => simp at hmem
      | cons first others =>
          rw [filled, List.mem_append, List.mem_append]
          rcases List.mem_cons.1 hmem with rfl | hmem
          · exact .inl hc
          · exact .inr (.inr (ih (by simpa using hone) hmem))

/-- What a placeholder stands for is part of the text. -/
theorem Becomes.mem {choice : List (List Char)} (hbecomes : segment.Becomes text choice)
    {chosen : List Char} (hmem : chosen ∈ choice) {c : Char} (hc : c ∈ chosen) : c ∈ text := by
  have hone : choice.length = segment.gapped.2.length := by
    rw [hbecomes.one_each, names_eq_gapped, List.length_map]
  rw [← hbecomes.spells]
  exact List.mem_append_right _ (mem_of_mem_filled hone hmem hc)

end TemplateSegment

/-! ## Segments as texts -/

namespace TemplatePiece

open TemplateSegment

/-- A segment of a template spells a segment of a path when its placeholders are replaced by what
they stand for.  This is never the empty text, and beside other characters it has no line break. -/
structure Spells (raw part : List Char) (value : String → List Char) : Prop where
  nonempty : ∀ name ∈ names (ofText raw), value name ≠ []
  unbroken : (∀ name, ofText raw ≠ [.placeholder name]) →
    ∀ name ∈ names (ofText raw), '\n' ∉ value name
  spells : substitute value (ofText raw) = part

/-- The lengths of what the placeholders of a segment stand for, from left to right. -/
def lengths (raw : List Char) (value : String → List Char) : List Nat :=
  (names (ofText raw)).map fun name => (value name).length

/-- Nothing else that the placeholders may stand for has lengths that come before these in the order
of words. -/
structure SpellsFirst (raw part : List Char) (value : String → List Char) : Prop
    extends Spells raw part value where
  first : ∀ other, Spells raw part other → ¬ List.Lex (· < ·) (lengths raw other) (lengths raw value)

variable {raw part : List Char} {value : String → List Char} {choice : List (List Char)}

theorem names_ofText (hslash : '/' ∉ raw) :
    names (ofText raw) = (TemplateSegment.ofText raw).names := by
  rw [ofText_eq_ofGaps hslash, names_ofGaps, names_eq_gapped, gapped_ofText]

theorem ofGaps_eq_singleton_iff {start : List Char} {gaps : List (String × List Char)}
    {name : String} :
    ofGaps start gaps = [.placeholder name] ↔ start = [] ∧ gaps = [(name, [])] := by
  constructor
  · intro hgaps
    cases start with
    | cons c start => simp [ofGaps] at hgaps
    | nil =>
        rcases gaps with _ | ⟨⟨first, behind⟩, _ | ⟨second, rest⟩⟩
        · simp [ofGaps] at hgaps
        · simpa [ofGaps] using hgaps
        · simp [ofGaps] at hgaps
  · rintro ⟨rfl, rfl⟩
    rfl

theorem ofText_eq_singleton_iff (hslash : '/' ∉ raw) {name : String} :
    ofText raw = [.placeholder name] ↔ TemplateSegment.ofText raw = .placeholder name := by
  rw [ofText_eq_ofGaps hslash, ofGaps_eq_singleton_iff]
  constructor
  · rintro ⟨hstart, hgaps⟩
    have hcut : cut raw = ([], [(name, [])]) := Prod.ext hstart hgaps
    rw [TemplateSegment.ofText, hcut]
  · intro hsegment
    rw [← gapped_ofText, hsegment]
    exact ⟨rfl, rfl⟩

theorem flatMap_eq_filled (value : String → List Char) (gaps : List (String × List Char)) :
    (gaps.flatMap fun gap => value gap.1 ++ gap.2) =
      filled gaps (gaps.map fun gap => value gap.1) := by
  induction gaps with
  | nil => rfl
  | cons gap gaps ih =>
      rw [List.flatMap_cons, ih, List.map_cons, filled, List.append_assoc]

theorem spells_iff_becomes (hslash : '/' ∉ raw) :
    Spells raw part value ↔
      (TemplateSegment.ofText raw).Becomes part ((names (ofText raw)).map value) := by
  have hnames := names_ofText hslash
  have hbare : (∀ name, TemplateSegment.ofText raw ≠ .placeholder name) ↔
      ∀ name, ofText raw ≠ [.placeholder name] :=
    forall_congr' fun name => not_congr (ofText_eq_singleton_iff hslash).symm
  have hspells : substitute value (ofText raw) =
      (TemplateSegment.ofText raw).gapped.1 ++
        filled (TemplateSegment.ofText raw).gapped.2 ((names (ofText raw)).map value) := by
    rw [ofText_eq_ofGaps hslash, substitute_ofGaps, names_ofGaps, gapped_ofText, List.map_map,
      flatMap_eq_filled]
    rfl
  constructor
  · intro h
    refine ⟨by rw [List.length_map, hnames], List.forall_mem_map.2 h.nonempty, ?_,
      hspells.symm.trans h.spells⟩
    exact fun hmixed => List.forall_mem_map.2 (h.unbroken (hbare.1 hmixed))
  · intro h
    refine ⟨fun name hname => h.nonempty _ (List.mem_map_of_mem hname), ?_, hspells.trans h.spells⟩
    intro hmixed name hname
    exact h.unbroken (hbare.2 hmixed) _ (List.mem_map_of_mem hname)

/-- A choice is what its captures say. -/
theorem map_eq_of_captured {names : List String} (hone : choice.length = names.length)
    (hvalue : ∀ entry ∈ captured names choice, value entry.1 = entry.2.toList) :
    names.map value = choice := by
  induction names generalizing choice with
  | nil => exact (List.length_eq_zero_iff.1 hone).symm
  | cons name names ih =>
      cases choice with
      | nil => simp at hone
      | cons chosen others =>
          have hfirst := hvalue (name, String.ofList chosen) (by simp [captured])
          have hrest : ∀ entry ∈ captured names others, value entry.1 = entry.2.toList := by
            intro entry hmem
            exact hvalue entry (List.mem_cons_of_mem _ hmem)
          rw [List.map_cons, ih (by simpa using hone) hrest]
          simpa using hfirst

theorem spellsFirst_of_isFirstChoice (hslash : '/' ∉ raw)
    (hfirst : (TemplateSegment.ofText raw).IsFirstChoice part choice)
    (hvalue : ∀ entry ∈ captured (TemplateSegment.ofText raw).names choice,
      value entry.1 = entry.2.toList) : SpellsFirst raw part value := by
  have hchoice : (names (ofText raw)).map value = choice := by
    rw [names_ofText hslash]
    exact map_eq_of_captured hfirst.one_each hvalue
  refine ⟨(spells_iff_becomes hslash).2 (hchoice ▸ hfirst.toBecomes), fun other hother => ?_⟩
  have hlex := hfirst.first _ ((spells_iff_becomes hslash).1 hother)
  rw [← hchoice, List.map_map, List.map_map] at hlex
  exact hlex

theorem eq_of_filled_eq {gaps : List (String × List Char)} {choice other : List (List Char)}
    (hone : choice.length = gaps.length) (hlengths : choice.map List.length = other.map List.length)
    (hfilled : filled gaps choice = filled gaps other) : choice = other := by
  induction gaps generalizing choice other with
  | nil =>
      obtain rfl := List.length_eq_zero_iff.1 hone
      exact (List.map_eq_nil_iff.1 hlengths.symm).symm
  | cons gap gaps ih =>
      obtain ⟨name, behind⟩ := gap
      cases choice with
      | nil => simp at hone
      | cons chosen others =>
          cases other with
          | nil => simp at hlengths
          | cons chosen' others' =>
              obtain ⟨hlength, hrest⟩ := List.cons.inj hlengths
              obtain ⟨rfl, hbehind⟩ := List.append_inj hfilled hlength
              rw [ih (by simpa using hone) hrest (List.append_cancel_left hbehind)]

/-- There is only one first choice for a segment. -/
theorem SpellsFirst.agree (hslash : '/' ∉ raw) {other : String → List Char}
    (hvalue : SpellsFirst raw part value) (hother : SpellsFirst raw part other) :
    ∀ name ∈ names (ofText raw), value name = other name := by
  have hlengths : lengths raw value = lengths raw other := by
    rcases trichotomous_of (List.Lex (· < ·)) (lengths raw value) (lengths raw other) with
      hlt | heq | hlt
    · exact absurd hlt (hother.first value hvalue.toSpells)
    · exact heq
    · exact absurd hlt (hvalue.first other hother.toSpells)
  have hbecomes := (spells_iff_becomes hslash).1 hvalue.toSpells
  have hbecomes' := (spells_iff_becomes hslash).1 hother.toSpells
  have hfilled := List.append_cancel_left (hbecomes.spells.trans hbecomes'.spells.symm)
  have hone := hbecomes.one_each
  rw [names_eq_gapped, List.length_map (f := Prod.fst)] at hone
  refine List.map_inj_left.1 (eq_of_filled_eq hone ?_ hfilled)
  rw [List.map_map, List.map_map]
  exact hlengths

/-! ## Texts of several segments -/

theorem names_joinWith (raws : List (List Char)) :
    names (ofText (Text.joinWith '/' raws)) = raws.flatMap fun raw => names (ofText raw) := by
  induction raws with
  | nil => rw [Text.joinWith, ofText_nil, List.flatMap_nil, names, List.filterMap_nil]
  | cons raw rest ih =>
      cases rest with
      | nil => simp [Text.joinWith]
      | cons next more =>
          rw [Text.joinWith_cons, ofText_append_slash, names_append, List.flatMap_cons, ← ih]
          rfl

theorem substitute_joinWith (value : String → List Char) (raws : List (List Char)) :
    substitute value (ofText (Text.joinWith '/' raws)) =
      Text.joinWith '/' (raws.map fun raw => substitute value (ofText raw)) := by
  induction raws with
  | nil => rw [Text.joinWith, ofText_nil, List.map_nil, substitute, List.flatMap_nil, Text.joinWith]
  | cons raw rest ih =>
      cases rest with
      | nil => rfl
      | cons next more =>
          rw [List.map_cons] at ih
          rw [Text.joinWith_cons, ofText_append_slash, substitute_append, List.map_cons,
            List.map_cons, Text.joinWith_cons, ← ih]
          rfl

end TemplatePiece

/-! ## Whole paths -/

namespace PathTemplate

open TemplateSegment

/-- A text without the slashes at its ends. -/
def inner (text : String) : List Char := Text.trimBy (· == '/') text.toList

/-- The names of the placeholders in the text of a template. -/
def placeholders (text : String) : List String :=
  TemplatePiece.names (TemplatePiece.ofText (inner text))

/-- The text of a template with values put in for its placeholders. -/
def instantiate (text : String) (value : String → List Char) : List Char :=
  TemplatePiece.substitute value (TemplatePiece.ofText (inner text))

/-- What a captured name stands for. -/
def capture (captures : Entries String) (name : String) : List Char :=
  ((Entries.get? captures name).getD "").toList

/-- What is captured when a template matches a path: a text that is not empty and has no slash for
each placeholder, in order.  With these put in, the template is the path, and in each segment they are
the first choice. -/
structure IsMatch (text path : String) (captures : Entries String) : Prop where
  names : Entries.keys captures = placeholders text
  distinct : Entries.Distinct captures
  values : ∀ entry ∈ captures, entry.2 ≠ "" ∧ '/' ∉ entry.2.toList
  instantiates : instantiate text (capture captures) = inner path
  first : List.Forall₂ (fun raw part => TemplatePiece.SpellsFirst raw part (capture captures))
    (splitPath text) (splitPath path)

theorem joinWith_splitPath (path : String) : Text.joinWith '/' (splitPath path) = inner path := by
  unfold splitPath inner
  dsimp only
  split
  · next hempty => simpa [Text.joinWith] using hempty.symm
  · exact Text.joinWith_splitAll '/' _

theorem slash_notMem_of_mem_splitPath {path : String} {part : List Char}
    (hpart : part ∈ splitPath path) : '/' ∉ part := by
  unfold splitPath at hpart
  dsimp only at hpart
  split at hpart
  · simp at hpart
  · exact Text.notMem_of_mem_splitAll hpart

theorem nodup_of_firstRepeated?_eq_none {seen names : List String}
    (hnone : firstRepeated? seen names = none) : names.Nodup ∧ ∀ name ∈ names, name ∉ seen := by
  induction names generalizing seen with
  | nil => simp
  | cons first rest ih =>
      rw [firstRepeated?] at hnone
      split at hnone
      · simp at hnone
      · next hnew =>
          obtain ⟨hnodup, hseen⟩ := ih hnone
          have hfirst : first ∉ rest := fun hmem => hseen first hmem List.mem_cons_self
          refine ⟨List.nodup_cons.2 ⟨hfirst, hnodup⟩, ?_⟩
          rw [List.forall_mem_cons]
          refine ⟨by simpa using hnew, fun name hmem hold => ?_⟩
          exact hseen name hmem (List.mem_cons_of_mem _ hold)

theorem segments_of_ofText {text : String} {template : PathTemplate}
    (hparse : ofText text = .ok template) :
    template.segments = (splitPath text).map TemplateSegment.ofText ∧
      (template.segments.flatMap TemplateSegment.names).Nodup := by
  unfold ofText at hparse
  dsimp only at hparse
  split at hparse
  · simp at hparse
  · next hnone =>
      obtain rfl := Except.ok.inj hparse
      exact ⟨rfl, (nodup_of_firstRepeated?_eq_none hnone).1⟩

/-! ### Matching the segments in order -/

/-- The captures of segments at the segments of a path, each of them the first choice. -/
inductive Captures : List TemplateSegment → List (List Char) → Entries String → Prop
  | nil : Captures [] [] []
  | cons {segment : TemplateSegment} {segments : List TemplateSegment} {part : List Char}
      {parts choice : List (List Char)} {captures : Entries String}
      (first : segment.IsFirstChoice part choice) (rest : Captures segments parts captures) :
      Captures (segment :: segments) (part :: parts) (captured segment.names choice ++ captures)

theorem captures_of_matchSegments {segments : List TemplateSegment} {parts : List (List Char)}
    {captures : Entries String} (hsome : matchSegments segments parts = some captures) :
    Captures segments parts captures := by
  induction segments generalizing parts captures with
  | nil =>
      cases parts with
      | nil =>
          obtain rfl := Option.some.inj hsome
          exact .nil
      | cons part parts => simp [matchSegments] at hsome
  | cons segment segments ih =>
      cases parts with
      | nil => simp [matchSegments] at hsome
      | cons part parts =>
          rw [matchSegments] at hsome
          obtain ⟨front, hfront, hsome⟩ := Option.bind_eq_some_iff.1 hsome
          obtain ⟨rest, hrest, hsome⟩ := Option.bind_eq_some_iff.1 hsome
          obtain rfl := Option.some.inj hsome
          obtain ⟨choice, hfirst, rfl⟩ := exists_of_match?_eq_some hfront
          exact .cons hfirst (ih hrest)

/-- Segments that can all be replaced are matched. -/
theorem isSome_matchSegments {segments : List TemplateSegment} {parts : List (List Char)}
    (hall : List.Forall₂ (fun segment part => ∃ choice, segment.Becomes part choice)
      segments parts) : (matchSegments segments parts).isSome := by
  induction hall with
  | nil => rfl
  | @cons segment part segments parts hfirst hrest ih =>
      obtain ⟨choice, hbecomes⟩ := hfirst
      obtain ⟨rest, hrest⟩ := Option.isSome_iff_exists.1 ih
      cases hmatch : segment.match? part with
      | none => exact absurd hbecomes (not_becomes_of_match?_eq_none hmatch choice)
      | some front => simp [matchSegments, hmatch, hrest]

theorem Captures.keys {segments : List TemplateSegment} {parts : List (List Char)}
    {captures : Entries String} (hcaptures : Captures segments parts captures) :
    Entries.keys captures = segments.flatMap TemplateSegment.names := by
  induction hcaptures with
  | nil => rfl
  | cons first rest ih =>
      rw [Entries.keys_append, captured_names first.one_each, ih, List.flatMap_cons]

/-- Each value was found in a segment of the path. -/
theorem Captures.values {segments : List TemplateSegment} {parts : List (List Char)}
    {captures : Entries String} (hcaptures : Captures segments parts captures) :
    ∀ entry ∈ captures, entry.2 ≠ "" ∧ ∃ part ∈ parts, ∀ c ∈ entry.2.toList, c ∈ part := by
  induction hcaptures with
  | nil => simp
  | @cons segment _ part parts choice captures first rest ih =>
      intro entry hentry
      rcases List.mem_append.1 hentry with hfront | hrest
      · have hvalue := (List.of_mem_zip hfront).2
        obtain ⟨chosen, hchosen, hentry⟩ := List.mem_map.1 hvalue
        rw [← hentry]
        refine ⟨?_, part, List.mem_cons_self, ?_⟩
        · simpa using first.nonempty chosen hchosen
        · simpa using fun c hc => first.mem hchosen hc
      · obtain ⟨hne, found, hfound, hsub⟩ := ih entry hrest
        exact ⟨hne, found, List.mem_cons_of_mem _ hfound, hsub⟩

theorem Captures.spellsFirst {raws parts : List (List Char)} {captures : Entries String}
    (hcaptures : Captures (raws.map TemplateSegment.ofText) parts captures)
    (hslash : ∀ raw ∈ raws, '/' ∉ raw) {value : String → List Char}
    (hvalue : ∀ entry ∈ captures, value entry.1 = entry.2.toList) :
    List.Forall₂ (fun raw part => TemplatePiece.SpellsFirst raw part value) raws parts := by
  induction raws generalizing parts captures with
  | nil =>
      cases hcaptures
      exact .nil
  | cons raw raws ih =>
      rw [List.map_cons] at hcaptures
      obtain ⟨hraw, hraws⟩ := List.forall_mem_cons.1 hslash
      cases hcaptures with
      | @cons _ _ part parts choice captures first rest =>
          have hfront := TemplatePiece.spellsFirst_of_isFirstChoice hraw first fun entry hentry =>
            hvalue entry (List.mem_append_left _ hentry)
          have hrest := ih rest hraws fun entry hentry =>
            hvalue entry (List.mem_append_right _ hentry)
          exact .cons hfront hrest

theorem placeholders_eq (text : String) :
    placeholders text = ((splitPath text).map TemplateSegment.ofText).flatMap
      TemplateSegment.names := by
  unfold placeholders
  rw [← joinWith_splitPath, TemplatePiece.names_joinWith, List.flatMap_map]
  apply List.flatMap_congr
  intro raw hraw
  exact TemplatePiece.names_ofText (slash_notMem_of_mem_splitPath hraw)

theorem instantiate_eq {text path : String} {value : String → List Char}
    (hspells : List.Forall₂ (fun raw part => TemplatePiece.Spells raw part value)
      (splitPath text) (splitPath path)) : instantiate text value = inner path := by
  have hparts : (splitPath text).map
      (fun raw => TemplatePiece.substitute value (TemplatePiece.ofText raw)) = splitPath path := by
    rw [← List.forall₂_eq_eq_eq, List.forall₂_map_left_iff]
    exact hspells.imp fun _ _ h => h.spells
  unfold instantiate
  rw [← joinWith_splitPath, TemplatePiece.substitute_joinWith, hparts, joinWith_splitPath]

theorem isMatch_of_captures {text path : String} {captures : Entries String}
    (hdistinct : (((splitPath text).map TemplateSegment.ofText).flatMap
      TemplateSegment.names).Nodup)
    (hcaptures : Captures ((splitPath text).map TemplateSegment.ofText) (splitPath path) captures) :
    IsMatch text path captures := by
  have hkeys : Entries.Distinct captures := by
    unfold Entries.Distinct
    rwa [hcaptures.keys]
  have hvalue : ∀ entry ∈ captures, capture captures entry.1 = entry.2.toList := by
    intro entry hentry
    unfold capture
    rw [hkeys.get?_eq_some_iff.2 hentry, Option.getD_some]
  have hfirst := hcaptures.spellsFirst (fun raw hraw => slash_notMem_of_mem_splitPath hraw) hvalue
  refine ⟨?_, hkeys, ?_, instantiate_eq (hfirst.imp fun _ _ h => h.toSpells), hfirst⟩
  · rw [hcaptures.keys, placeholders_eq]
  · intro entry hentry
    obtain ⟨hne, part, hpart, hsub⟩ := hcaptures.values entry hentry
    exact ⟨hne, fun hslash => slash_notMem_of_mem_splitPath hpart (hsub _ hslash)⟩

theorem forall₂_agree {raws parts : List (List Char)} {value other : String → List Char}
    (hvalue : List.Forall₂ (fun raw part => TemplatePiece.SpellsFirst raw part value) raws parts)
    (hother : List.Forall₂ (fun raw part => TemplatePiece.SpellsFirst raw part other) raws parts) :
    ∀ raw ∈ raws, '/' ∉ raw → ∀ name ∈ TemplatePiece.names (TemplatePiece.ofText raw),
      value name = other name := by
  induction hvalue with
  | nil => simp
  | @cons raw part raws parts hfirst hrest ih =>
      cases hother with
      | cons hfirst' hrest' =>
          rw [List.forall_mem_cons]
          exact ⟨fun hslash => hfirst.agree hslash hfirst', ih hrest'⟩

theorem IsMatch.unique {text path : String} {captures others : Entries String}
    (hcaptures : IsMatch text path captures) (hothers : IsMatch text path others) :
    captures = others := by
  refine Entries.eq_of_keys_eq hcaptures.distinct (hcaptures.names.trans hothers.names.symm) ?_
  intro name value other hvalue hother
  have hname : name ∈ placeholders text := by
    rw [← hcaptures.names]
    exact Entries.mem_keys_iff.2 ⟨value, Entries.mem_of_get? hvalue⟩
  unfold placeholders at hname
  rw [← joinWith_splitPath, TemplatePiece.names_joinWith, List.mem_flatMap] at hname
  obtain ⟨raw, hraw, hname⟩ := hname
  have hagree := forall₂_agree hcaptures.first hothers.first raw hraw
    (slash_notMem_of_mem_splitPath hraw) name hname
  unfold capture at hagree
  rw [hvalue, hother, Option.getD_some, Option.getD_some] at hagree
  exact String.toList_injective hagree

/-- A template matches exactly its instances: the paths with as many segments as the template, each of
which the segment of the template spells for some values of its placeholders.  What is then captured
gives the path when it is put in for the placeholders, and is the first choice in each segment. -/
theorem matches_exactly_instances {text : String} {template : PathTemplate}
    (hparse : ofText text = .ok template) (path : String) :
    ((template.match? path).isSome ↔
      List.Forall₂ (fun raw part => ∃ value, TemplatePiece.Spells raw part value)
        (splitPath text) (splitPath path)) ∧
    ∀ captures, template.match? path = some captures ↔ IsMatch text path captures := by
  obtain ⟨hsegments, hdistinct⟩ := segments_of_ofText hparse
  rw [hsegments] at hdistinct
  have hmatch : ∀ captures, template.match? path = some captures → IsMatch text path captures := by
    intro captures hsome
    unfold match? at hsome
    rw [hsegments] at hsome
    exact isMatch_of_captures hdistinct (captures_of_matchSegments hsome)
  have hinstance : List.Forall₂ (fun raw part => ∃ value, TemplatePiece.Spells raw part value)
      (splitPath text) (splitPath path) → (template.match? path).isSome := by
    intro hall
    unfold match?
    rw [hsegments]
    apply isSome_matchSegments
    rw [List.forall₂_map_left_iff]
    refine forall₂_imp_of_mem hall fun raw hraw part _ hspells => ?_
    obtain ⟨value, hvalue⟩ := hspells
    have hslash := slash_notMem_of_mem_splitPath hraw
    exact ⟨_, (TemplatePiece.spells_iff_becomes hslash).1 hvalue⟩
  refine ⟨⟨fun hsome => ?_, hinstance⟩, fun captures => ⟨hmatch captures, fun hcaptures => ?_⟩⟩
  · obtain ⟨captures, hcaptures⟩ := Option.isSome_iff_exists.1 hsome
    exact (hmatch captures hcaptures).first.imp fun _ _ h => ⟨_, h.toSpells⟩
  · have hsome := hinstance (hcaptures.first.imp fun _ _ h => ⟨_, h.toSpells⟩)
    obtain ⟨found, hfound⟩ := Option.isSome_iff_exists.1 hsome
    rw [hfound, (hmatch found hfound).unique hcaptures]

/-- Of the two ways to cut `a.b.c` at a dot, the one with the shorter name is taken. -/
theorem short_file_name_is_captured :
    ∃ template, ofText "/files/\x7bname\x7d.\x7bext\x7d/\x7bid\x7d" = .ok template ∧
      template.match? "files/a.b.c/7/" = some [("name", "a"), ("ext", "b.c"), ("id", "7")] ∧
      IsMatch "/files/\x7bname\x7d.\x7bext\x7d/\x7bid\x7d" "files/a.b.c/7/"
        [("name", "a"), ("ext", "b.c"), ("id", "7")] := by
  have hparse : ofText "/files/\x7bname\x7d.\x7bext\x7d/\x7bid\x7d" =
      .ok ⟨"/files/\x7bname\x7d.\x7bext\x7d/\x7bid\x7d", [.literal "files".toList,
        .mixed [] [("name", ['.']), ("ext", [])], .placeholder "id"]⟩ := by
    simp [ofText, splitPath, Text.trimBy, Text.dropTrailing, Text.splitAll,
      TemplateSegment.ofText, cut, TemplateSegment.names, firstRepeated?]
  have hmatch : PathTemplate.match? ⟨"/files/\x7bname\x7d.\x7bext\x7d/\x7bid\x7d",
      [.literal "files".toList, .mixed [] [("name", ['.']), ("ext", [])], .placeholder "id"]⟩
      "files/a.b.c/7/" = some [("name", "a"), ("ext", "b.c"), ("id", "7")] := by
    decide
  exact ⟨_, hparse, hmatch, ((matches_exactly_instances hparse _).2 _).1 hmatch⟩

end PathTemplate
end ApiContract
