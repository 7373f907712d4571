import ApiContract.Json.Reader
import ApiContract.Media.Fault
import ApiContract.Media.MediaType
import ApiContract.Value.Wire

/-!
# Multipart bodies

A multipart body is a sequence of parts between lines with a boundary; the last boundary is followed
by two hyphens. Each part has header lines of its own, which name it and say what it holds.
-/

namespace ApiContract.Multipart

/-- The rest of bytes that start with `start`. -/
def stripStart? : (start bytes : List UInt8) → Option (List UInt8)
  | [], bytes => some bytes
  | _ :: _, [] => none
  | a :: start, b :: bytes => if a = b then stripStart? start bytes else none

/-- What stands before and behind the first occurrence of `mark`. -/
def cutAt? (mark : List UInt8) : List UInt8 → Option (List UInt8 × List UInt8)
  | [] => (stripStart? mark []).map fun behind => ([], behind)
  | b :: rest =>
    match stripStart? mark (b :: rest) with
    | some behind => some ([], behind)
    | none => (cutAt? mark rest).map fun (before, behind) => (b :: before, behind)

theorem append_of_stripStart? {start bytes rest : List UInt8}
    (h : stripStart? start bytes = some rest) : bytes = start ++ rest := by
  induction start generalizing bytes with
  | nil => simp_all [stripStart?]
  | cons a start ih =>
    cases bytes with
    | nil => simp [stripStart?] at h
    | cons b bytes =>
      unfold stripStart? at h
      split at h
      · simp_all [ih h]
      · simp at h

/-- The bytes around an occurrence, with the mark between them, are the whole. -/
theorem append_of_cutAt? {mark bytes before behind : List UInt8}
    (h : cutAt? mark bytes = some (before, behind)) : bytes = before ++ mark ++ behind := by
  induction bytes generalizing before with
  | nil =>
    obtain ⟨rest, hstrip, heq⟩ := Option.map_eq_some_iff.1 h
    simp only [Prod.mk.injEq] at heq
    have := append_of_stripStart? hstrip
    simp_all
  | cons b rest ih =>
    unfold cutAt? at h
    split at h
    · simp only [Option.some.injEq, Prod.mk.injEq] at h
      have := append_of_stripStart? ‹_›
      simp_all
    · obtain ⟨⟨front, tail⟩, hcut, heq⟩ := Option.map_eq_some_iff.1 h
      simp only [Prod.mk.injEq] at heq
      obtain ⟨rfl, rfl⟩ := heq
      rw [ih hcut]
      simp

theorem length_lt_of_cutAt? {mark bytes before behind : List UInt8} (hmark : mark ≠ [])
    (h : cutAt? mark bytes = some (before, behind)) : behind.length < bytes.length := by
  have heq := append_of_cutAt? h
  have hpos := List.length_pos_iff.2 hmark
  rw [heq]
  simp only [List.length_append]
  omega

def hyphens : List UInt8 := Utf8.encodeString "--"

def crlf : List UInt8 := Utf8.encodeString "\r\n"

def lf : List UInt8 := Utf8.encodeString "\n"

/-- Removes one line break from the start. -/
def dropLineBreak (bytes : List UInt8) : List UInt8 :=
  ((stripStart? crlf bytes).or (stripStart? lf bytes)).getD bytes

/-- Removes one line break from each end. -/
def trimLineBreaks (bytes : List UInt8) : List UInt8 :=
  let rest := (dropLineBreak bytes).reverse
  (((stripStart? crlf.reverse rest).or (stripStart? lf rest)).getD rest).reverse

/-- The header lines and the content of a part; a blank line stands between them. -/
def headAndContent (part : List UInt8) : List UInt8 × List UInt8 :=
  (cutAt? (crlf ++ crlf) part).getD ((cutAt? (lf ++ lf) part).getD (part, []))

/-- What the header lines of a part say. -/
structure PartHead where
  disposition? : Option (Entries String) := none
  mediaType? : Option MediaType := none

/-- Takes note of one header line; the last line of a name counts. -/
def PartHead.read (head : PartHead) (line : List Char) : PartHead :=
  match Text.splitFirst? ':' line with
  | none => head
  | some (name, value) =>
    let name := Text.lowered (String.ofList (Text.trim name))
    if name == "content-disposition" then
      { head with disposition? := some (MediaType.readParameters value) }
    else if name == "content-type" then
      { head with mediaType? := MediaType.ofText? value }
    else head

/-- The value of the content of a part: a file is bytes, JSON is read, and text stays text if it
is UTF-8. -/
def partValue (name : String) (isFile : Bool) (mediaType? : Option MediaType)
    (content : List UInt8) : Except BodyFault Value :=
  if isFile then
    .ok (.bytes content)
  else if mediaType?.any MediaType.isJson then
    match Json.ofBytes? content with
    | some json => .ok (Value.ofJson json)
    | none => .error (.notJsonPart name)
  else if mediaType?.all fun mediaType => mediaType.main == "text" then
    match Utf8.decodeString content with
    | .ok text => .ok (.string text)
    | .error _ => .ok (.bytes content)
  else
    .ok (.bytes content)

/-- The name and the value of a part. -/
def readPart (part : List UInt8) : Except BodyFault (String × Value) :=
  let (headBytes, content) := headAndContent part
  let head := (Text.splitAll '\n' (Utf8.decodeLossy headBytes)).foldl PartHead.read {}
  match head.disposition? with
  | none => .error .noDisposition
  | some disposition =>
    match Entries.get? disposition "name" with
    | none => .error .noPartName
    | some name =>
      (partValue name (Entries.contains disposition "filename") head.mediaType? content).map
        fun value => (name, value)

/-- The mark between parts. -/
def delimiter (boundary : String) : List UInt8 := hyphens ++ Utf8.encodeString boundary

theorem delimiter_ne_nil (boundary : String) : delimiter boundary ≠ [] := by
  simp [delimiter, hyphens, Utf8.encodeString, Utf8.encode, Utf8.encodeChar]

/-- The parts behind a delimiter. -/
def parts (boundary : String) (bytes : List UInt8) : Except BodyFault (List (String × Value)) :=
  if (stripStart? hyphens bytes).isSome then
    .ok []
  else
    match _ : cutAt? (delimiter boundary) bytes with
    | none => .error .boundaryNotClosed
    | some (part, behind) => do
      let first ← readPart (trimLineBreaks part)
      let rest ← parts boundary behind
      .ok (first :: rest)
termination_by bytes.length
decreasing_by exact length_lt_of_cutAt? (delimiter_ne_nil boundary) ‹_›

/-- The named parts of a body, in order. -/
def read (boundary : String) (body : List UInt8) : Except BodyFault (List (String × Value)) :=
  match cutAt? (delimiter boundary) body with
  | none => .error .boundaryNotFound
  | some (_, behind) => parts boundary behind

end ApiContract.Multipart
