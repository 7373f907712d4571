import ApiContract.Proofs.MultipartEncoding

/-!
# Scanning with checked slices

A multipart body can be scanned with a cursor in place of the bytes that are left: delimiters are
looked for from the cursor on, and the parts, their header lines and their contents are slices
between positions.  Here every slice is checked, and a scan with a slice that is out of range has no
outcome.  There is no such scan: whatever the body, the cursor moves on with each part and stays
within the body, and the scan ends with what is read without positions.  Fields are only read if a
run of delimiters ends in front of two hyphens.
-/

namespace ApiContract.Multipart

/-! ## Slices -/

/-- The bytes between two positions, if these are in order and not behind the end. -/
def slice? (bytes : List UInt8) (start stop : Nat) : Option (List UInt8) :=
  if start ≤ stop ∧ stop ≤ bytes.length then some ((bytes.take stop).drop start) else none

/-- All stretches of a width, from left to right. -/
def windows (width : Nat) (bytes : List UInt8) : List (List UInt8) :=
  (List.range (bytes.length + 1 - width)).map fun start => (bytes.drop start).take width

/-- Looks for the first position of `mark` from `start` on; stretches have to have a width. -/
def position? (mark bytes : List UInt8) (start : Nat) : Option (Option Nat) :=
  if bytes.length < start then some none
  else do
    let rest ← slice? bytes start bytes.length
    if mark.length = 0 then none
    else some (((windows mark.length rest).findIdx? (· == mark)).map (· + start))

/-- The length of the line break at the start of bytes. -/
def leadingBreak (bytes : List UInt8) : Nat :=
  if crlf.isPrefixOf bytes then crlf.length
  else if lf.isPrefixOf bytes then lf.length
  else 0

/-- The length of the line break at the end of bytes. -/
def trailingBreak (bytes : List UInt8) : Nat :=
  if crlf.isSuffixOf bytes then crlf.length
  else if lf.isSuffixOf bytes then lf.length
  else 0

/-- Slices off a line break at each end. -/
def trimmed? (part : List UInt8) : Option (List UInt8) := do
  let rest ← slice? part (leadingBreak part) part.length
  if rest.length < trailingBreak rest then none
  else slice? rest 0 (rest.length - trailingBreak rest)

/-- The slices before and behind the first `mark`, if there is one. -/
def cut? (mark part : List UInt8) : Option (Option (List UInt8 × List UInt8)) := do
  match ← position? mark part 0 with
  | none => some none
  | some position =>
    let before ← slice? part 0 position
    let behind ← slice? part (position + mark.length) part.length
    some (some (before, behind))

/-- The slices with the header lines and the content of a part. -/
def headAndContent? (part : List UInt8) : Option (List UInt8 × List UInt8) := do
  match ← cut? (crlf ++ crlf) part with
  | some cut => some cut
  | none =>
    match ← cut? (lf ++ lf) part with
    | some cut => some cut
    | none => some (part, [])

/-- The name and the value of a part that is taken apart already. -/
def readHeadAndContent (headBytes content : List UInt8) : Except BodyFault (String × Value) :=
  let head := (Text.splitAll '\n' (Utf8.decodeLossy headBytes)).foldl PartHead.read {}
  match head.disposition? with
  | none => .error .noDisposition
  | some disposition =>
    match Entries.get? disposition "name" with
    | none => .error .noPartName
    | some name =>
      (partValue name (Entries.contains disposition "filename") head.mediaType? content).map
        fun value => (name, value)

theorem readPart_eq (part : List UInt8) :
    readPart part = readHeadAndContent (headAndContent part).1 (headAndContent part).2 := rfl

/-! ## Scans -/

/-- What one round of a scan comes to. -/
inductive Round where
  | closed
  | failed (fault : BodyFault)
  /-- A part was read, and the next round starts at the cursor. -/
  | part (field : String × Value) (cursor : Nat)

/-- One round with the cursor behind a delimiter. -/
def round? (boundary : String) (body : List UInt8) (cursor : Nat) : Option Round := do
  let rest ← slice? body cursor body.length
  if hyphens.isPrefixOf rest then some .closed
  else
    match ← position? (delimiter boundary) body cursor with
    | none => some (.failed .boundaryNotClosed)
    | some stop =>
      let part ← slice? body cursor stop
      let trimmed ← trimmed? part
      let (head, content) ← headAndContent? trimmed
      match readHeadAndContent head content with
      | .error fault => some (.failed fault)
      | .ok field => some (.part field (stop + (delimiter boundary).length))

/-- The rounds from a cursor on end with an outcome. -/
inductive RunsFrom (boundary : String) (body : List UInt8) :
    Nat → Except BodyFault (List (String × Value)) → Prop
  | closed {cursor : Nat} (hround : round? boundary body cursor = some .closed) :
      RunsFrom boundary body cursor (.ok [])
  | failed {cursor : Nat} {fault : BodyFault}
      (hround : round? boundary body cursor = some (.failed fault)) :
      RunsFrom boundary body cursor (.error fault)
  | part {cursor next : Nat} {field : String × Value}
      {outcome : Except BodyFault (List (String × Value))}
      (hround : round? boundary body cursor = some (.part field next))
      (hrest : RunsFrom boundary body next outcome) :
      RunsFrom boundary body cursor (outcome.map (field :: ·))

/-- The scan of a body ends with an outcome. -/
inductive Scans (boundary : String) (body : List UInt8) :
    Except BodyFault (List (String × Value)) → Prop
  | unopened (hopening : position? (delimiter boundary) body 0 = some none) :
      Scans boundary body (.error .boundaryNotFound)
  | opened {opening : Nat} {outcome : Except BodyFault (List (String × Value))}
      (hopening : position? (delimiter boundary) body 0 = some (some opening))
      (hrounds : RunsFrom boundary body (opening + (delimiter boundary).length) outcome) :
      Scans boundary body outcome

/-- The positions of the cursor during the scan of a body. -/
inductive Visits (boundary : String) (body : List UInt8) : Nat → Prop
  | opening {opening : Nat}
      (hopening : position? (delimiter boundary) body 0 = some (some opening)) :
      Visits boundary body (opening + (delimiter boundary).length)
  | next {cursor next : Nat} {field : String × Value} (hvisits : Visits boundary body cursor)
      (hround : round? boundary body cursor = some (.part field next)) :
      Visits boundary body next

/-! ## Delimiters -/

/-- Bytes hold a mark at a position. -/
def HoldsAt (bytes mark : List UInt8) (position : Nat) : Prop := mark <+: bytes.drop position

/-- The first position of a mark that is not before the cursor. -/
structure IsFirstFrom (mark bytes : List UInt8) (cursor position : Nat) : Prop where
  notBefore : cursor ≤ position
  holds : HoldsAt bytes mark position
  first : ∀ other, cursor ≤ other → other < position → ¬ HoldsAt bytes mark other

/-- From a cursor behind a delimiter, a run of delimiters leads to one in front of two hyphens. -/
inductive ClosesAfter (boundary : String) (body : List UInt8) : Nat → List Nat → Prop
  | here {cursor : Nat} (hclosed : HoldsAt body hyphens cursor) :
      ClosesAfter boundary body cursor []
  | next {cursor position : Nat} {positions : List Nat} (hopen : ¬ HoldsAt body hyphens cursor)
      (hfirst : IsFirstFrom (delimiter boundary) body cursor position)
      (hrest : ClosesAfter boundary body (position + (delimiter boundary).length) positions) :
      ClosesAfter boundary body cursor (position :: positions)

variable {mark bytes part body : List UInt8} {boundary : String} {cursor start stop : Nat}

/-! ## Slices that are in range -/

theorem slice?_of_le (horder : start ≤ stop) (hend : stop ≤ bytes.length) :
    slice? bytes start stop = some ((bytes.take stop).drop start) := if_pos ⟨horder, hend⟩

theorem slice?_rest (hstart : start ≤ bytes.length) :
    slice? bytes start bytes.length = some (bytes.drop start) := by
  rw [slice?_of_le hstart le_rfl, List.take_length]

theorem slice?_front (hstop : stop ≤ bytes.length) :
    slice? bytes 0 stop = some (bytes.take stop) := by
  rw [slice?_of_le (Nat.zero_le stop) hstop, List.drop_zero]

theorem stripStart?_eq (mark bytes : List UInt8) :
    stripStart? mark bytes =
      if mark.isPrefixOf bytes then some (bytes.drop mark.length) else none := by
  by_cases hstart : mark <+: bytes
  · obtain ⟨rest, rfl⟩ := hstart
    rw [stripStart?_append, if_pos (by simp), List.drop_left]
  · rw [stripStart?_eq_none hstart, if_neg (by simpa using hstart)]

theorem cutAt?_of_length_lt (hshort : bytes.length < mark.length) : cutAt? mark bytes = none := by
  cases hcut : cutAt? mark bytes with
  | none => rfl
  | some cut =>
      have hlength := congrArg List.length (append_of_cutAt? (Prod.mk.eta (p := cut) ▸ hcut))
      simp only [List.length_append] at hlength
      omega

theorem windows_cons {width : Nat} {b : UInt8} (hwidth : width ≤ bytes.length + 1) :
    windows width (b :: bytes) = (b :: bytes).take width :: windows width bytes := by
  have hcount : (b :: bytes).length + 1 - width = (bytes.length + 1 - width) + 1 := by
    rw [List.length_cons]
    omega
  rw [windows, hcount, List.range_succ_eq_map, List.map_cons, List.map_map]
  rfl

theorem windows_of_length_lt {width : Nat} (hshort : bytes.length < width) :
    windows width bytes = [] := by
  have hcount : bytes.length + 1 - width = 0 := by omega
  rw [windows, hcount]
  rfl

/-- A mark is found among the stretches of its width where the bytes are cut at it. -/
theorem findIdx?_windows (hmark : mark ≠ []) (bytes : List UInt8) :
    (windows mark.length bytes).findIdx? (· == mark) =
      (cutAt? mark bytes).map fun cut => cut.1.length := by
  induction bytes with
  | nil =>
      have hshort : ([] : List UInt8).length < mark.length := List.length_pos_iff.2 hmark
      rw [windows_of_length_lt hshort, cutAt?_of_length_lt hshort]
      rfl
  | cons b rest ih =>
      by_cases hlong : mark.length ≤ rest.length + 1
      · rw [windows_cons hlong, List.findIdx?_cons, cutAt?, stripStart?_eq, ih]
        by_cases hstart : mark <+: b :: rest
        · have htake := List.prefix_iff_eq_take.1 hstart
          rw [← htake]
          simp [hstart]
        · have htake : (b :: rest).take mark.length ≠ mark := fun heq =>
            hstart (List.prefix_iff_eq_take.2 heq.symm)
          simp [hstart, htake, Option.map_map, Function.comp_def]
      · have hshort : (b :: rest).length < mark.length := by
          rw [List.length_cons]
          omega
        rw [windows_of_length_lt hshort, cutAt?_of_length_lt hshort]
        rfl

theorem position?_eq (hmark : mark ≠ []) (hstart : start ≤ bytes.length) :
    position? mark bytes start =
      some ((cutAt? mark (bytes.drop start)).map fun cut => start + cut.1.length) := by
  have hwidth : mark.length ≠ 0 := fun hzero => hmark (List.length_eq_zero_iff.1 hzero)
  rw [position?, if_neg (Nat.not_lt.2 hstart), slice?_rest hstart]
  simp only [Option.bind_eq_bind, Option.bind_some, hwidth, if_false, findIdx?_windows hmark,
    Option.map_map, Function.comp_def, Nat.add_comm]

theorem leadingBreak_le (bytes : List UInt8) : leadingBreak bytes ≤ bytes.length := by
  unfold leadingBreak
  split
  · next hcrlf => exact (List.isPrefixOf_iff_prefix.1 hcrlf).length_le
  · split
    · next hlf => exact (List.isPrefixOf_iff_prefix.1 hlf).length_le
    · exact Nat.zero_le _

theorem trailingBreak_le (bytes : List UInt8) : trailingBreak bytes ≤ bytes.length := by
  unfold trailingBreak
  split
  · next hcrlf => exact (List.isSuffixOf_iff_suffix.1 hcrlf).length_le
  · split
    · next hlf => exact (List.isSuffixOf_iff_suffix.1 hlf).length_le
    · exact Nat.zero_le _

theorem dropLineBreak_eq (bytes : List UInt8) :
    dropLineBreak bytes = bytes.drop (leadingBreak bytes) := by
  rw [dropLineBreak, stripStart?_eq, stripStart?_eq, leadingBreak]
  split
  · rfl
  · split <;> rfl

theorem stripStart?_reverse (mark bytes : List UInt8) :
    stripStart? mark.reverse bytes.reverse =
      if mark.isSuffixOf bytes then some (bytes.take (bytes.length - mark.length)).reverse
      else none := by
  rw [stripStart?_eq, List.length_reverse, List.drop_reverse]
  rfl

theorem trimLineBreaks_eq (bytes : List UInt8) :
    trimLineBreaks bytes = (dropLineBreak bytes).take
      ((dropLineBreak bytes).length - trailingBreak (dropLineBreak bytes)) := by
  have hlf : lf = lf.reverse := rfl
  rw [trimLineBreaks]
  generalize dropLineBreak bytes = rest
  rw [hlf, stripStart?_reverse, stripStart?_reverse, trailingBreak]
  by_cases hcrlf : crlf.isSuffixOf rest
  · rw [if_pos hcrlf, if_pos hcrlf, Option.some_or, Option.getD_some, List.reverse_reverse]
  · rw [if_neg hcrlf, if_neg hcrlf, Option.none_or]
    by_cases hend : lf.isSuffixOf rest
    · rw [if_pos hend, if_pos hend, Option.getD_some, List.reverse_reverse]
    · rw [if_neg hend, if_neg hend, Option.getD_none, List.reverse_reverse, Nat.sub_zero,
        List.take_length]

/-- A part has room for the line breaks that are taken from it, however short it is. -/
theorem trimmed?_eq (part : List UInt8) : trimmed? part = some (trimLineBreaks part) := by
  have hroom := trailingBreak_le (dropLineBreak part)
  rw [trimmed?, slice?_rest (leadingBreak_le part), ← dropLineBreak_eq]
  simp only [Option.bind_eq_bind, Option.bind_some, if_neg (Nat.not_lt.2 hroom),
    slice?_front (Nat.sub_le _ _), trimLineBreaks_eq]

/-- One line break is not taken from both ends. -/
example : trimmed? crlf = some [] ∧ trimmed? (lf ++ crlf) = some [] ∧
    trimmed? [0x0D] = some [0x0D] := by
  decide

theorem cut?_eq (hmark : mark ≠ []) (part : List UInt8) :
    cut? mark part = some (cutAt? mark part) := by
  rw [cut?, position?_eq hmark (Nat.zero_le _), List.drop_zero]
  cases hcut : cutAt? mark part with
  | none => rfl
  | some cut =>
      obtain ⟨before, behind⟩ := cut
      obtain rfl := append_of_cutAt? hcut
      have hbefore : before.length ≤ (before ++ mark ++ behind).length := by
        simp only [List.length_append]
        omega
      have hbehind : before.length + mark.length ≤ (before ++ mark ++ behind).length := by
        simp only [List.length_append]
        omega
      have htake : (before ++ mark ++ behind).take before.length = before := by
        rw [List.append_assoc, List.take_left]
      have hdrop : (before ++ mark ++ behind).drop (before.length + mark.length) = behind := by
        rw [← List.length_append, List.drop_left]
      simp only [Option.bind_eq_bind, Option.bind_some, Option.map_some, Nat.zero_add,
        slice?_front hbefore, slice?_rest hbehind, htake, hdrop]

theorem headAndContent?_eq (part : List UInt8) :
    headAndContent? part = some (headAndContent part) := by
  rw [headAndContent?, cut?_eq (by decide), cut?_eq (by decide), headAndContent]
  simp only [Option.bind_eq_bind, Option.bind_some]
  cases cutAt? (crlf ++ crlf) part with
  | some cut => rfl
  | none =>
      cases cutAt? (lf ++ lf) part with
      | some cut => rfl
      | none => rfl

/-! ## Rounds -/

/-- What a round reads, by the bytes behind the cursor. -/
inductive Reads (boundary : String) (body : List UInt8) (cursor : Nat) : Round → Prop
  | closed (hclosed : HoldsAt body hyphens cursor) : Reads boundary body cursor .closed
  | unclosed (hopen : ¬ HoldsAt body hyphens cursor)
      (hcut : cutAt? (delimiter boundary) (body.drop cursor) = none) :
      Reads boundary body cursor (.failed .boundaryNotClosed)
  | malformed {part behind : List UInt8} {fault : BodyFault}
      (hopen : ¬ HoldsAt body hyphens cursor)
      (hcut : cutAt? (delimiter boundary) (body.drop cursor) = some (part, behind))
      (hpart : readPart (trimLineBreaks part) = .error fault) :
      Reads boundary body cursor (.failed fault)
  | part {part behind : List UInt8} {field : String × Value}
      (hopen : ¬ HoldsAt body hyphens cursor)
      (hcut : cutAt? (delimiter boundary) (body.drop cursor) = some (part, behind))
      (hpart : readPart (trimLineBreaks part) = .ok field) :
      Reads boundary body cursor
        (.part field (cursor + part.length + (delimiter boundary).length))

/-- Every slice of a round is in range. -/
theorem exists_round (boundary : String) (hcursor : cursor ≤ body.length) :
    ∃ round, round? boundary body cursor = some round ∧ Reads boundary body cursor round := by
  rw [round?, slice?_rest hcursor, position?_eq (delimiter_ne_nil boundary) hcursor]
  simp only [Option.bind_eq_bind, Option.bind_some]
  by_cases hclosed : HoldsAt body hyphens cursor
  · rw [if_pos (List.isPrefixOf_iff_prefix.2 hclosed)]
    exact ⟨_, rfl, .closed hclosed⟩
  · rw [if_neg (fun hstart => hclosed (List.isPrefixOf_iff_prefix.1 hstart))]
    cases hcut : cutAt? (delimiter boundary) (body.drop cursor) with
    | none => exact ⟨_, rfl, .unclosed hclosed hcut⟩
    | some cut =>
        obtain ⟨part, behind⟩ := cut
        have hslice : slice? body cursor (cursor + part.length) = some part := by
          have hrest := append_of_cutAt? hcut
          have hlength := congrArg List.length hrest
          simp only [List.length_append, List.length_drop] at hlength
          rw [slice?_of_le (by omega) (by omega), List.drop_take, hrest, List.append_assoc,
            Nat.add_sub_cancel_left, List.take_left]
        simp only [Option.map_some, hslice, Option.bind_some, trimmed?_eq, headAndContent?_eq]
        rw [← readPart_eq]
        cases hpart : readPart (trimLineBreaks part) with
        | error fault => exact ⟨_, rfl, .malformed hclosed hcut hpart⟩
        | ok field => exact ⟨_, rfl, .part hclosed hcut hpart⟩

theorem reads_of_round? {round : Round} (hcursor : cursor ≤ body.length)
    (hround : round? boundary body cursor = some round) : Reads boundary body cursor round := by
  obtain ⟨other, hother, hreads⟩ := exists_round boundary hcursor
  obtain rfl := Option.some.inj (hround.symm.trans hother)
  exact hreads

theorem not_prefix_of_cutAt? {before behind : List UInt8}
    (hcut : cutAt? mark bytes = some (before, behind)) :
    ∀ position < before.length, ¬ mark <+: bytes.drop position := by
  induction bytes generalizing before with
  | nil =>
      obtain ⟨rest, -, hbefore⟩ := Option.map_eq_some_iff.1 hcut
      obtain ⟨rfl, -⟩ := Prod.mk.inj hbefore
      simp
  | cons b rest ih =>
      unfold cutAt? at hcut
      split at hcut
      · obtain ⟨rfl, -⟩ := Prod.mk.inj (Option.some.inj hcut)
        simp
      · next hstrip =>
          obtain ⟨⟨front, tail⟩, hfront, hbefore⟩ := Option.map_eq_some_iff.1 hcut
          obtain ⟨rfl, rfl⟩ := Prod.mk.inj hbefore
          intro position hposition
          cases position with
          | zero =>
              rintro ⟨more, hmore⟩
              rw [List.drop_zero] at hmore
              rw [← hmore, stripStart?_append] at hstrip
              cases hstrip
          | succ position => exact ih hfront position (Nat.lt_of_succ_lt_succ hposition)

theorem isFirstFrom_of_cutAt? {before behind : List UInt8}
    (hcut : cutAt? mark (bytes.drop cursor) = some (before, behind)) :
    IsFirstFrom mark bytes cursor (cursor + before.length) where
  notBefore := Nat.le_add_right _ _
  holds := by
    rw [HoldsAt, ← List.drop_drop, append_of_cutAt? hcut, List.append_assoc, List.drop_left]
    exact List.prefix_append _ _
  first other hcursor hother := by
    obtain ⟨steps, rfl⟩ := Nat.exists_eq_add_of_le hcursor
    rw [HoldsAt, ← List.drop_drop]
    exact not_prefix_of_cutAt? hcut steps (Nat.lt_of_add_lt_add_left hother)

/-- The cursor behind the next delimiter is in the body, and what is left there is what was not cut
off. -/
theorem behind_of_cutAt? {before behind : List UInt8} (hcursor : cursor ≤ body.length)
    (hcut : cutAt? mark (body.drop cursor) = some (before, behind)) :
    cursor + before.length + mark.length ≤ body.length ∧
      body.drop (cursor + before.length + mark.length) = behind := by
  have hrest := append_of_cutAt? hcut
  have hlength := congrArg List.length hrest
  simp only [List.length_append, List.length_drop] at hlength
  refine ⟨by omega, ?_⟩
  rw [Nat.add_assoc, ← List.drop_drop, hrest, ← List.length_append, List.drop_left]

/-- The cursor moves on, and stays in the body. -/
theorem Reads.advances {field : String × Value} {next : Nat} (hcursor : cursor ≤ body.length)
    (hreads : Reads boundary body cursor (.part field next)) :
    cursor < next ∧ next ≤ body.length := by
  cases hreads with
  | part _ hcut _ =>
      have hpos := List.length_pos_iff.2 (delimiter_ne_nil boundary)
      exact ⟨by omega, (behind_of_cutAt? hcursor hcut).1⟩

/-- What is read when a round is followed by others. -/
def Round.outcome (rest : Nat → Except BodyFault (List (String × Value))) :
    Round → Except BodyFault (List (String × Value))
  | .closed => .ok []
  | .failed fault => .error fault
  | .part field next => (rest next).map (field :: ·)

theorem parts_of_holdsAt (hclosed : HoldsAt body hyphens cursor) :
    parts boundary (body.drop cursor) = .ok [] := by
  rw [parts, stripStart?_eq, if_pos (List.isPrefixOf_iff_prefix.2 hclosed)]
  rfl

theorem parts_of_not_holdsAt (hopen : ¬ HoldsAt body hyphens cursor) :
    parts boundary (body.drop cursor) =
      match cutAt? (delimiter boundary) (body.drop cursor) with
      | none => .error .boundaryNotClosed
      | some (part, behind) =>
        (readPart (trimLineBreaks part)).bind fun field =>
          (parts boundary behind).bind fun fields => .ok (field :: fields) := by
  have hstrip : stripStart? hyphens (body.drop cursor) = none := stripStart?_eq_none hopen
  rw [parts, hstrip, Option.isSome_none, if_neg Bool.false_ne_true]
  split
  · next hcut =>
      rw [hcut]
  · next part behind hcut =>
      rw [hcut]
      rfl

theorem Reads.parts_eq {round : Round} (hcursor : cursor ≤ body.length)
    (hreads : Reads boundary body cursor round) :
    parts boundary (body.drop cursor) =
      round.outcome fun next => parts boundary (body.drop next) := by
  cases hreads with
  | closed hclosed => exact parts_of_holdsAt hclosed
  | unclosed hopen hcut =>
      rw [parts_of_not_holdsAt hopen, hcut]
      rfl
  | malformed hopen hcut hpart =>
      simp only [parts_of_not_holdsAt hopen, hcut, hpart]
      rfl
  | part hopen hcut hpart =>
      simp only [parts_of_not_holdsAt hopen, hcut, hpart, Round.outcome,
        (behind_of_cutAt? hcursor hcut).2]
      rfl

/-! ## Runs -/

/-- The rounds from a cursor on come to an end, with what is read behind the cursor. -/
theorem runsFrom_parts (boundary : String) (body : List UInt8) :
    ∀ cursor ≤ body.length, RunsFrom boundary body cursor (parts boundary (body.drop cursor)) := by
  intro cursor
  -- Each round leaves fewer bytes behind the cursor.
  induction hleft : body.length - cursor using Nat.strong_induction_on generalizing cursor with
  | h left ih =>
      intro hcursor
      obtain ⟨round, hround, hreads⟩ := exists_round boundary hcursor
      rw [hreads.parts_eq hcursor]
      cases round with
      | closed => exact .closed hround
      | failed fault => exact .failed hround
      | part field next =>
          obtain ⟨hadvances, hnext⟩ := hreads.advances hcursor
          exact .part hround (ih (body.length - next) (by omega) next rfl hnext)

theorem RunsFrom.eq_parts {outcome : Except BodyFault (List (String × Value))}
    (hruns : RunsFrom boundary body cursor outcome) (hcursor : cursor ≤ body.length) :
    outcome = parts boundary (body.drop cursor) := by
  induction hruns with
  | closed hround => exact ((reads_of_round? hcursor hround).parts_eq hcursor).symm
  | failed hround => exact ((reads_of_round? hcursor hround).parts_eq hcursor).symm
  | part hround _ ih =>
      have hreads := reads_of_round? hcursor hround
      rw [hreads.parts_eq hcursor, ih (hreads.advances hcursor).2]
      rfl

/-- Fields come with a run of delimiters to the closing one, one for each of them. -/
theorem exists_closesAfter {fields : List (String × Value)} (hcursor : cursor ≤ body.length)
    (hruns : RunsFrom boundary body cursor (.ok fields)) :
    ∃ positions, ClosesAfter boundary body cursor positions ∧
      positions.length = fields.length := by
  generalize houtcome : (Except.ok fields : Except BodyFault (List (String × Value))) = outcome
    at hruns
  induction hruns generalizing fields with
  | closed hround =>
      obtain rfl := Except.ok.inj houtcome
      cases reads_of_round? hcursor hround with
      | closed hclosed => exact ⟨[], .here hclosed, rfl⟩
  | failed => cases houtcome
  | @part cursor next field outcome hround hrest ih =>
      cases outcome with
      | error fault => cases houtcome
      | ok rest =>
          obtain rfl := Except.ok.inj houtcome
          have hreads := reads_of_round? hcursor hround
          obtain ⟨positions, hcloses, hcount⟩ := ih (hreads.advances hcursor).2 rfl
          cases hreads with
          | part hopen hcut _ =>
              refine ⟨_ :: positions, .next hopen (isFirstFrom_of_cutAt? hcut) hcloses, ?_⟩
              rw [List.length_cons, List.length_cons, hcount]

/-! ## Whole scans -/

theorem position?_opening (boundary : String) (body : List UInt8) :
    position? (delimiter boundary) body 0 =
      some ((cutAt? (delimiter boundary) body).map fun cut => cut.1.length) := by
  rw [position?_eq (delimiter_ne_nil boundary) (Nat.zero_le _), List.drop_zero]
  simp only [Nat.zero_add]

/-- An opening delimiter that is found is the first one, and behind it the parts are read. -/
theorem within_of_opening {opening : Nat}
    (hopening : position? (delimiter boundary) body 0 = some (some opening)) :
    opening + (delimiter boundary).length ≤ body.length ∧
      IsFirstFrom (delimiter boundary) body 0 opening ∧
      read boundary body =
        parts boundary (body.drop (opening + (delimiter boundary).length)) := by
  rw [position?_opening, Option.some.injEq] at hopening
  obtain ⟨⟨before, behind⟩, hcut, rfl⟩ := Option.map_eq_some_iff.1 hopening
  have hread : read boundary body = parts boundary behind := by
    rw [read, hcut]
  rw [← List.drop_zero (l := body)] at hcut
  have hbehind := behind_of_cutAt? (Nat.zero_le _) hcut
  have hfirst := isFirstFrom_of_cutAt? hcut
  rw [Nat.zero_add] at hbehind hfirst
  exact ⟨hbehind.1, hfirst, by rw [hread, hbehind.2]⟩

theorem Visits.le_length (hvisits : Visits boundary body cursor) : cursor ≤ body.length := by
  induction hvisits with
  | opening hopening => exact (within_of_opening hopening).1
  | next _ hround ih => exact ((reads_of_round? ih hround).advances ih).2

theorem scans_iff {outcome : Except BodyFault (List (String × Value))} :
    Scans boundary body outcome ↔ outcome = read boundary body := by
  constructor
  · rintro (hopening | ⟨hopening, hrounds⟩)
    · rw [position?_opening, Option.some.injEq, Option.map_eq_none_iff] at hopening
      rw [read, hopening]
    · obtain ⟨hinside, -, hread⟩ := within_of_opening hopening
      rw [hread]
      exact hrounds.eq_parts hinside
  · rintro rfl
    cases hcut : cutAt? (delimiter boundary) body with
    | none =>
        have hopening : position? (delimiter boundary) body 0 = some none := by
          rw [position?_opening, hcut, Option.map_none]
        rw [read, hcut]
        exact .unopened hopening
    | some cut =>
        have hopening : position? (delimiter boundary) body 0 = some (some cut.1.length) := by
          rw [position?_opening, hcut, Option.map_some]
        obtain ⟨hinside, -, hread⟩ := within_of_opening hopening
        rw [hread]
        exact .opened hopening (runsFrom_parts boundary body _ hinside)

/-- Whatever the body, the cursor stays in it and moves on in each round, no slice is out of range,
and the scan ends with what is read without positions.  Fields are read only if a first delimiter is
followed by a run of delimiters that ends in front of two hyphens. -/
theorem scan_stays_in_range (boundary : String) (body : List UInt8) :
    (∀ cursor, Visits boundary body cursor → cursor ≤ body.length ∧
      ∃ round, round? boundary body cursor = some round ∧
        ∀ field next, round = .part field next → cursor < next) ∧
    (∀ outcome, Scans boundary body outcome ↔ outcome = read boundary body) ∧
    ∀ fields, read boundary body = .ok fields →
      ∃ opening positions, IsFirstFrom (delimiter boundary) body 0 opening ∧
        ClosesAfter boundary body (opening + (delimiter boundary).length) positions ∧
        positions.length = fields.length := by
  refine ⟨fun cursor hvisits => ?_, fun outcome => scans_iff, fun fields hread => ?_⟩
  · have hcursor := hvisits.le_length
    obtain ⟨round, hround, hreads⟩ := exists_round boundary hcursor
    refine ⟨hcursor, round, hround, ?_⟩
    rintro field next rfl
    exact (hreads.advances hcursor).1
  · have hscans : Scans boundary body (.ok fields) := scans_iff.2 hread.symm
    cases hscans with
    | opened hopening hrounds =>
        obtain ⟨hinside, hfirst, -⟩ := within_of_opening hopening
        obtain ⟨positions, hcloses, hcount⟩ := exists_closesAfter hinside hrounds
        exact ⟨_, positions, hfirst, hcloses, hcount⟩

end ApiContract.Multipart
