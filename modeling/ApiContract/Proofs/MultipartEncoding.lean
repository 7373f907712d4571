import ApiContract.Proofs.Grouping
import ApiContract.Proofs.HeaderParameters
import ApiContract.Proofs.Transcoding
import Mathlib.Data.List.Infix

/-!
# Reading multipart bodies that were written

A form with files is written part by part, with the boundary between the parts and the header lines
of each part in front of its bytes.  As long as the boundary occurs in no part, every part is found
again, and its bytes are those that were written: line breaks at their ends and blank lines between
them are not taken for the ones that the writer puts around them.
-/

namespace ApiContract

/-! ## Marks in bytes -/

theorem prefix_of_prefix_append_cons {α : Type} {mark front rest : List α} {b : α} (hb : b ∉ mark)
    (hstart : mark <+: front ++ b :: rest) : mark <+: front := by
  induction front generalizing mark with
  | nil =>
      rcases List.prefix_cons_iff.1 hstart with rfl | ⟨more, rfl, -⟩
      · exact List.prefix_rfl
      · exact absurd List.mem_cons_self hb
  | cons c front ih =>
      rcases List.prefix_cons_iff.1 hstart with rfl | ⟨more, rfl, hmore⟩
      · exact List.nil_prefix
      · exact List.cons_prefix_cons.2 ⟨rfl, ih (List.not_mem_of_not_mem_cons hb) hmore⟩

theorem infix_of_infix_append_cons {α : Type} {mark front rest : List α} {b : α} (hb : b ∉ mark)
    (hwithin : mark <:+: front ++ b :: rest) : mark <:+: front ∨ mark <:+: rest := by
  induction front with
  | nil =>
      rcases List.infix_cons_iff.1 hwithin with hstart | hrest
      · have hfront : mark <+: [] := prefix_of_prefix_append_cons hb hstart
        exact .inl hfront.isInfix
      · exact .inr hrest
  | cons c front ih =>
      rcases List.infix_cons_iff.1 hwithin with hstart | hmore
      · have hfront : mark <+: c :: front := prefix_of_prefix_append_cons hb hstart
        exact .inl hfront.isInfix
      · exact (ih hmore).imp_left fun hfront => hfront.trans (List.suffix_cons c front).isInfix

namespace Utf8

theorem decodeString_encodeString (text : String) :
    decodeString (encodeString text) = .ok text := by
  rw [decodeString, encodeString, decode, pieces_encode, ofPieces_map_char]
  exact congrArg Except.ok String.ofList_toList

end Utf8

namespace Multipart

variable {mark front rest : List UInt8} {b : UInt8}

theorem stripStart?_append (start rest : List UInt8) :
    stripStart? start (start ++ rest) = some rest := by
  induction start with
  | nil => rfl
  | cons a start ih => rw [List.cons_append, stripStart?, if_pos rfl, ih]

theorem stripStart?_eq_none (hstart : ¬ mark <+: rest) : stripStart? mark rest = none := by
  cases hstrip : stripStart? mark rest with
  | none => rfl
  | some behind => exact absurd ⟨behind, (append_of_stripStart? hstrip).symm⟩ hstart

theorem cutAt?_self_append (hmark : mark ≠ []) (rest : List UInt8) :
    cutAt? mark (mark ++ rest) = some ([], rest) := by
  obtain ⟨a, more, rfl⟩ := List.exists_cons_of_ne_nil hmark
  rw [List.cons_append, cutAt?, ← List.cons_append, stripStart?_append]

/-- A mark is found behind bytes that do not contain it, if the last one cannot belong to it. -/
theorem cutAt?_append_cons (hb : b ∉ mark) (hfront : ¬ mark <:+: front) (rest : List UInt8) :
    cutAt? mark (front ++ b :: (mark ++ rest)) = some (front ++ [b], rest) := by
  induction front with
  | nil =>
      have hstart : ¬ mark <+: b :: (mark ++ rest) := by
        intro hmark
        have hnil : mark <+: [] := prefix_of_prefix_append_cons hb hmark
        exact hfront hnil.isInfix
      have hne : mark ≠ [] := fun hnil => hfront (hnil ▸ List.infix_rfl)
      rw [List.nil_append, cutAt?, stripStart?_eq_none hstart, cutAt?_self_append hne]
      rfl
  | cons c front ih =>
      have hstart : ¬ mark <+: c :: (front ++ b :: (mark ++ rest)) := by
        intro hmark
        have hcons : mark <+: c :: front := prefix_of_prefix_append_cons hb hmark
        exact hfront hcons.isInfix
      have hmore : ¬ mark <:+: front := fun hwithin =>
        hfront (hwithin.trans (List.suffix_cons c front).isInfix)
      rw [List.cons_append, cutAt?, stripStart?_eq_none hstart, ih hmore]
      rfl

theorem cutAt?_append_of_notMem {a : UInt8} (hfront : a ∉ front) (rest : List UInt8) :
    cutAt? (a :: mark) (front ++ rest) =
      (cutAt? (a :: mark) rest).map fun cut => (front ++ cut.1, cut.2) := by
  induction front with
  | nil => simp
  | cons c front ih =>
      obtain ⟨hc, hmore⟩ := List.ne_and_not_mem_of_not_mem_cons hfront
      have hstart : ¬ a :: mark <+: c :: (front ++ rest) := fun hmark =>
        hc (List.cons_prefix_cons.1 hmark).1
      rw [List.cons_append, cutAt?, stripStart?_eq_none hstart, ih hmore, Option.map_map]
      rfl

theorem trimLineBreaks_append (bytes : List UInt8) :
    trimLineBreaks (crlf ++ bytes ++ crlf) = bytes := by
  have hfront : dropLineBreak (crlf ++ bytes ++ crlf) = bytes ++ crlf := by
    rw [dropLineBreak, List.append_assoc, stripStart?_append]
    rfl
  rw [trimLineBreaks, hfront, List.reverse_append, stripStart?_append]
  exact List.reverse_reverse bytes

/-! ## Writing parts -/

/-- The characters that end a line. -/
def IsLineBreak (c : Char) : Prop := c = '\r' ∨ c = '\n'

/-- A text that fits between quotes on one line, and needs none. -/
def IsPlain (text : String) : Prop :=
  '"' ∉ text.toList ∧ ';' ∉ text.toList ∧ '\r' ∉ text.toList ∧ '\n' ∉ text.toList

instance (text : String) : Decidable (IsPlain text) :=
  inferInstanceAs (Decidable (_ ∧ _ ∧ _ ∧ _))

/-- A header line without its end. -/
def headerLine (name : String) (value : List Char) : List Char := name.toList ++ ':' :: value

/-- What a field of a form holds: a text, or a file with its name and, if it is known, its type. -/
inductive FieldContent where
  | text (text : String)
  | file (name : String) (contentType? : Option String) (bytes : List UInt8)

/-- A field of a form. -/
structure FormField where
  name : String
  content : FieldContent

namespace FormField

/-- The bytes of the content. -/
def bytes (field : FormField) : List UInt8 :=
  match field.content with
  | .text text => Utf8.encodeString text
  | .file _ _ bytes => bytes

/-- The value that the field stands for. -/
def value (field : FormField) : Value :=
  match field.content with
  | .text text => .string text
  | .file _ _ bytes => .bytes bytes

/-- The name of the field and, for a file, the name of the file. -/
def parameters (field : FormField) : Entries String :=
  match field.content with
  | .text _ => [("name", field.name)]
  | .file name _ _ => [("name", field.name), ("filename", name)]

/-- The type of a file. -/
def contentType? (field : FormField) : Option String :=
  match field.content with
  | .text _ => none
  | .file _ contentType? _ => contentType?

/-- The header line that names the field. -/
def disposition (field : FormField) : List Char :=
  headerLine "Content-Disposition" (MediaType.written " form-data".toList field.parameters)

/-- The line that says of which type a file is. -/
def typeLine (contentType : String) : List Char :=
  headerLine "Content-Type" (' ' :: contentType.toList)

/-- The header lines with a line break between them. -/
def head (field : FormField) : List Char :=
  match field.contentType? with
  | none => field.disposition
  | some contentType =>
    field.disposition ++ '\r' :: '\n' :: typeLine contentType

/-- The header lines, a blank line and the content. -/
def part (field : FormField) : List UInt8 :=
  Utf8.encode field.head ++ (crlf ++ crlf) ++ field.bytes

/-- A field can be written if its names are plain and the boundary occurs neither in its header
lines nor in its content. -/
structure IsWritable (boundary : String) (field : FormField) : Prop where
  plain : ∀ parameter ∈ field.parameters, IsPlain parameter.2
  oneLine : ∀ contentType ∈ field.contentType?,
    '\r' ∉ contentType.toList ∧ '\n' ∉ contentType.toList
  headFree : ¬ delimiter boundary <:+: Utf8.encode field.head
  contentFree : ¬ delimiter boundary <:+: field.bytes

end FormField

/-- A boundary that needs no quotes in a content type. -/
structure IsBoundary (boundary : String) : Prop where
  nonempty : boundary ≠ ""
  plain : IsPlain boundary
  trimmed : Text.trim boundary.toList = boundary.toList

/-- What stands behind the first boundary: the parts with boundaries between them, and the end. -/
def writeParts (boundary : String) : List FormField → List UInt8
  | [] => hyphens ++ crlf
  | field :: rest => crlf ++ field.part ++ crlf ++ (delimiter boundary ++ writeParts boundary rest)

/-- A multipart body with the fields of a form. -/
def write (boundary : String) (fields : List FormField) : List UInt8 :=
  delimiter boundary ++ writeParts boundary fields

example : write "b" [⟨"n", .text "x"⟩] =
    Utf8.encodeString
      "--b\r\nContent-Disposition: form-data; name=\"n\"\r\n\r\nx\r\n--b--\r\n" := by
  decide

variable {boundary : String} {field : FormField} {fields : List FormField}

/-! ## Header lines -/

theorem IsPlain.notMem {text : String} (hplain : IsPlain text) {c : Char} (hc : IsLineBreak c) :
    c ∉ text.toList := by
  rcases hc with rfl | rfl
  · exact hplain.2.2.1
  · exact hplain.2.2.2

theorem notMem_headerLine {name : String} {value : List Char} {c : Char} (hc : IsLineBreak c)
    (hname : c ∉ name.toList) (hvalue : c ∉ value) : c ∉ headerLine name value := by
  have hcolon : c ≠ ':' := by
    rcases hc with rfl | rfl <;> decide
  simp [headerLine, hname, hcolon, hvalue]

theorem splitFirst?_headerLine {name : String} (hname : ':' ∉ name.toList)
    (value back : List Char) :
    Text.splitFirst? ':' (headerLine name value ++ back) = some (name.toList, value ++ back) := by
  rw [headerLine, List.append_assoc, List.cons_append, Text.splitFirst?_append hname]

namespace FormField

theorem isParameterName_of_mem {parameter : String × String} (hmem : parameter ∈ field.parameters) :
    MediaType.IsParameterName parameter.1 := by
  have hname : MediaType.IsParameterName "name" :=
    ⟨by decide, by decide, Text.forall_mem_of_all (by decide)⟩
  have hfilename : MediaType.IsParameterName "filename" :=
    ⟨by decide, by decide, Text.forall_mem_of_all (by decide)⟩
  unfold parameters at hmem
  split at hmem
  · obtain rfl : parameter = ("name", field.name) := by simpa using hmem
    exact hname
  · rcases List.mem_cons.1 hmem with rfl | hmem
    · exact hname
    · rw [List.mem_singleton.1 hmem]
      exact hfilename

theorem distinct_parameters (field : FormField) : Entries.Distinct field.parameters := by
  unfold parameters
  split <;> simp [Entries.Distinct, Entries.keys]

theorem get?_parameters (field : FormField) :
    Entries.get? field.parameters "name" = some field.name := by
  unfold parameters
  split <;> rfl

theorem notMem_disposition (hwritable : field.IsWritable boundary) {c : Char}
    (hc : IsLineBreak c) : c ∉ field.disposition := by
  have hquoted : ∀ parameter ∈ field.parameters, c ∉ MediaType.quoted parameter := by
    intro parameter hparameter
    have hname : c ∉ parameter.1.toList := by
      intro hmem
      have hplain := ((isParameterName_of_mem hparameter).plain c hmem).1
      rcases hc with rfl | rfl <;> exact absurd hplain (by decide)
    have hvalue : c ∉ parameter.2.toList := (hwritable.plain parameter hparameter).notMem hc
    rcases hc with rfl | rfl <;> simp [MediaType.quoted, hname, hvalue]
  have hwritten : c ∉ MediaType.written " form-data".toList field.parameters := by
    intro hmem
    rcases Text.mem_joinWith hmem with rfl | ⟨line, hline, hmem⟩
    · rcases hc with heq | heq <;> exact absurd heq (by decide)
    · rcases List.mem_cons.1 hline with rfl | hline
      · rcases hc with rfl | rfl <;> exact absurd hmem (by decide)
      · obtain ⟨parameter, hparameter, rfl⟩ := List.mem_map.1 hline
        exact hquoted parameter hparameter hmem
  have hname : c ∉ "Content-Disposition".toList := by
    rcases hc with rfl | rfl <;> decide
  exact notMem_headerLine hc hname hwritten

theorem notMem_typeLine (hwritable : field.IsWritable boundary) {contentType : String}
    (htype : field.contentType? = some contentType) {c : Char} (hc : IsLineBreak c) :
    c ∉ typeLine contentType := by
  have hvalue : c ∉ contentType.toList := by
    have hline := hwritable.oneLine contentType (Option.mem_def.2 htype)
    rcases hc with rfl | rfl
    · exact hline.1
    · exact hline.2
  have hname : c ∉ "Content-Type".toList ∧ c ≠ ' ' := by
    rcases hc with rfl | rfl <;> decide
  exact notMem_headerLine hc hname.1 (List.not_mem_cons_of_ne_of_not_mem hname.2 hvalue)

theorem read_disposition (hwritable : field.IsWritable boundary) {back : List Char}
    (hback : ∀ c ∈ back, Text.isBlank c) :
    PartHead.read {} (field.disposition ++ back) = { disposition? := some field.parameters } := by
  have hsplit : Text.splitFirst? ':' (field.disposition ++ back) =
      some ("Content-Disposition".toList,
        MediaType.written " form-data".toList field.parameters ++ back) :=
    splitFirst?_headerLine (by decide) _ back
  have hname : Text.lowered (String.ofList (Text.trim "Content-Disposition".toList)) =
      "content-disposition" := by decide
  have hparameters : MediaType.readParameters
      (MediaType.written " form-data".toList field.parameters ++ back) = field.parameters :=
    MediaType.readParameters_written (by decide) (distinct_parameters field)
      (fun parameter hmem => isParameterName_of_mem hmem)
      (fun parameter hmem => ⟨(hwritable.plain parameter hmem).1,
        (hwritable.plain parameter hmem).2.1⟩) hback
  simp only [PartHead.read, hsplit, hname, hparameters, beq_self_eq_true, if_true]

theorem read_typeLine (head : PartHead) (contentType : String) :
    PartHead.read head (typeLine contentType) =
      { head with mediaType? := MediaType.ofText? (' ' :: contentType.toList) } := by
  have hsplit : Text.splitFirst? ':' (typeLine contentType) =
      some ("Content-Type".toList, ' ' :: contentType.toList) := by
    rw [← List.append_nil (typeLine contentType), typeLine, splitFirst?_headerLine (by decide),
      List.append_nil]
  have hname : Text.lowered (String.ofList (Text.trim "Content-Type".toList)) = "content-type" := by
    decide
  have hother : ("content-type" == "content-disposition") = false := by decide
  simp only [PartHead.read, hsplit, hname, hother, Bool.false_eq_true, if_false, beq_self_eq_true,
    if_true]

theorem read_head (hwritable : field.IsWritable boundary) :
    (Text.splitAll '\n' field.head).foldl PartHead.read {} =
      { disposition? := some field.parameters
        mediaType? := field.contentType?.bind fun contentType =>
          MediaType.ofText? (' ' :: contentType.toList) } := by
  have hdisposition : '\n' ∉ field.disposition := notMem_disposition hwritable (.inr rfl)
  cases htype : field.contentType? with
  | none =>
      have hread : PartHead.read {} (field.disposition ++ []) = _ :=
        read_disposition hwritable (by simp)
      rw [List.append_nil] at hread
      simp only [head, htype]
      rw [Text.splitAll_of_notMem hdisposition, List.foldl_cons, List.foldl_nil, hread]
      rfl
  | some contentType =>
      have hline : '\n' ∉ field.disposition ++ ['\r'] := by
        simp [hdisposition]
      have hhead : field.head = (field.disposition ++ ['\r']) ++ '\n' :: typeLine contentType := by
        simp [head, htype, typeLine]
      rw [hhead, Text.splitAll_append_cons, Text.splitAll_of_notMem hline,
        Text.splitAll_of_notMem (notMem_typeLine hwritable htype (.inr rfl)), List.singleton_append,
        List.foldl_cons, List.foldl_cons, List.foldl_nil,
        read_disposition hwritable (Text.forall_mem_of_all (by decide)), read_typeLine]
      rfl

/-! ## Parts -/

theorem cutAt?_crlf_append {b : UInt8} (hb : b ≠ 0x0D) (rest : List UInt8) :
    cutAt? (crlf ++ crlf) (crlf ++ b :: rest) =
      (cutAt? (crlf ++ crlf) (b :: rest)).map fun cut => (crlf ++ cut.1, cut.2) := by
  have hfirst : ¬ crlf ++ crlf <+: 0x0D :: 0x0A :: b :: rest := by
    simp [crlf, Utf8.encodeString, Utf8.encode, Utf8.encodeChar, hb.symm]
  have hsecond : ¬ crlf ++ crlf <+: 0x0A :: b :: rest := by
    simp [crlf, Utf8.encodeString, Utf8.encode, Utf8.encodeChar]
  have hcrlf : crlf ++ b :: rest = 0x0D :: 0x0A :: b :: rest := rfl
  rw [hcrlf, cutAt?, stripStart?_eq_none hfirst, cutAt?, stripStart?_eq_none hsecond,
    Option.map_map]
  rfl

theorem cutAt?_part (hwritable : field.IsWritable boundary) :
    cutAt? (crlf ++ crlf) field.part = some (Utf8.encode field.head, field.bytes) := by
  have hblank : crlf ++ crlf = 0x0D :: [0x0A, 0x0D, 0x0A] := rfl
  have hself : ∀ rest, cutAt? (crlf ++ crlf) ((crlf ++ crlf) ++ rest) = some ([], rest) :=
    cutAt?_self_append (by decide)
  -- A line without a carriage return is passed over.
  have hpass : ∀ {line : List Char} (rest : List UInt8), '\r' ∉ line →
      cutAt? (crlf ++ crlf) (Utf8.encode line ++ rest) =
        (cutAt? (crlf ++ crlf) rest).map fun cut => (Utf8.encode line ++ cut.1, cut.2) := by
    intro line rest hline
    rw [hblank]
    exact cutAt?_append_of_notMem (Utf8.notMem_encode (d := '\r') (by decide) hline) rest
  have hdisposition : '\r' ∉ field.disposition := notMem_disposition hwritable (.inl rfl)
  cases htype : field.contentType? with
  | none =>
      simp only [part, head, htype]
      rw [List.append_assoc, hpass _ hdisposition, hself, Option.map_some, List.append_nil]
  | some contentType =>
      have hline : '\r' ∉ typeLine contentType := notMem_typeLine hwritable htype (.inl rfl)
      have hhead : Utf8.encode field.head =
          Utf8.encode field.disposition ++ (crlf ++ Utf8.encode (typeLine contentType)) := by
        simp only [head, htype, Utf8.encode_append]
        rfl
      obtain ⟨more, hmore⟩ : ∃ more, Utf8.encode (typeLine contentType) = 0x43 :: more := ⟨_, rfl⟩
      have hnext := cutAt?_crlf_append (show (0x43 : UInt8) ≠ 0x0D by decide)
        (more ++ ((crlf ++ crlf) ++ field.bytes))
      rw [← List.cons_append, ← hmore, hpass _ hline, hself] at hnext
      rw [part, hhead, List.append_assoc, List.append_assoc, List.append_assoc,
        hpass _ hdisposition, hnext]
      simp

theorem readPart_part (hwritable : field.IsWritable boundary) :
    readPart field.part = .ok (field.name, field.value) := by
  have hcut : headAndContent field.part = (Utf8.encode field.head, field.bytes) := by
    rw [headAndContent, cutAt?_part hwritable, Option.getD_some]
  simp only [readPart, hcut, Utf8.decodeLossy_encode, read_head hwritable, get?_parameters]
  obtain ⟨name, content⟩ := field
  cases content with
  | text text =>
      simp [partValue, parameters, contentType?, bytes, value, Entries.contains, Entries.get?,
        Utf8.decodeString_encodeString, Except.map]
  | file filename contentType? bytes =>
      simp [partValue, parameters, FormField.bytes, value, Entries.contains, Entries.get?,
        Except.map]

end FormField

/-! ## Bodies -/

theorem not_infix_nil (boundary : String) : ¬ delimiter boundary <:+: [] := fun hwithin =>
  delimiter_ne_nil boundary (List.infix_nil.1 hwithin)

theorem notMem_delimiter (hboundary : IsBoundary boundary) {c : Char} (hc : IsLineBreak c) :
    .ofNat c.toNat ∉ delimiter boundary := by
  have htext : delimiter boundary = Utf8.encode ("--".toList ++ boundary.toList) := by
    rw [Utf8.encode_append]
    rfl
  have hascii : c.toNat < 0x80 ∧ c ∉ "--".toList := by
    rcases hc with rfl | rfl <;> decide
  have hplain : c ∉ "--".toList ++ boundary.toList := by
    rw [List.mem_append, not_or]
    exact ⟨hascii.2, hboundary.plain.notMem hc⟩
  rw [htext]
  exact Utf8.notMem_encode hascii.1 hplain

theorem not_infix_append_crlf (hboundary : IsBoundary boundary)
    (hfront : ¬ delimiter boundary <:+: front) (hrest : ¬ delimiter boundary <:+: rest) :
    ¬ delimiter boundary <:+: front ++ (crlf ++ rest) := by
  intro hwithin
  rcases infix_of_infix_append_cons (notMem_delimiter hboundary (.inl rfl)) hwithin with
    hwithin | hwithin
  · exact hfront hwithin
  · have hsplit : delimiter boundary <:+: [] ∨ delimiter boundary <:+: rest :=
      infix_of_infix_append_cons (notMem_delimiter hboundary (.inr rfl)) hwithin
    exact hsplit.elim (not_infix_nil boundary) hrest

theorem cutAt?_append_crlf (hboundary : IsBoundary boundary)
    (hfront : ¬ delimiter boundary <:+: front) (rest : List UInt8) :
    cutAt? (delimiter boundary) (front ++ crlf ++ (delimiter boundary ++ rest)) =
      some (front ++ crlf, rest) := by
  have hline : ¬ delimiter boundary <:+: front ++ [0x0D] := fun hwithin =>
    (infix_of_infix_append_cons (notMem_delimiter hboundary (.inl rfl)) hwithin).elim hfront
      (not_infix_nil boundary)
  have hcrlf : ∀ more, front ++ crlf ++ more = front ++ [0x0D] ++ 0x0A :: more := by
    intro more
    rw [List.append_assoc, List.append_assoc]
    rfl
  have hcut := cutAt?_append_cons (notMem_delimiter hboundary (.inr rfl)) hline rest
  have hbefore := hcrlf []
  rw [List.append_nil] at hbefore
  rw [hcrlf, hbefore]
  exact hcut

theorem FormField.IsWritable.not_infix_part (hboundary : IsBoundary boundary)
    (hwritable : field.IsWritable boundary) : ¬ delimiter boundary <:+: crlf ++ field.part := by
  have hcontent : ¬ delimiter boundary <:+: [] ++ (crlf ++ field.bytes) :=
    not_infix_append_crlf hboundary (not_infix_nil boundary) hwritable.contentFree
  have hpart : ¬ delimiter boundary <:+: field.part := by
    have happend := not_infix_append_crlf hboundary hwritable.headFree hcontent
    rwa [FormField.part, List.append_assoc, List.append_assoc]
  exact not_infix_append_crlf hboundary (not_infix_nil boundary) hpart

theorem parts_writeParts (hboundary : IsBoundary boundary)
    (hwritable : ∀ field ∈ fields, field.IsWritable boundary) :
    parts boundary (writeParts boundary fields) =
      .ok (fields.map fun field => (field.name, field.value)) := by
  induction fields with
  | nil =>
      have hclose : stripStart? hyphens (writeParts boundary []) = some crlf :=
        stripStart?_append hyphens crlf
      rw [parts, hclose]
      rfl
  | cons field rest ih =>
      obtain ⟨hfirst, hrest⟩ := List.forall_mem_cons.1 hwritable
      have hopen : stripStart? hyphens (writeParts boundary (field :: rest)) = none := rfl
      have hcut : cutAt? (delimiter boundary) (writeParts boundary (field :: rest)) =
          some (crlf ++ field.part ++ crlf, writeParts boundary rest) :=
        cutAt?_append_crlf hboundary (hfirst.not_infix_part hboundary) _
      rw [parts, hopen]
      simp only [Option.isSome_none, Bool.false_eq_true, if_false]
      split
      · next hnone => exact absurd (hcut.symm.trans hnone) (by simp)
      · next part behind hsome =>
          obtain ⟨rfl, rfl⟩ := Prod.mk.inj (Option.some.inj (hcut.symm.trans hsome))
          rw [trimLineBreaks_append, FormField.readPart_part hfirst, ih hrest]
          rfl

theorem read_write (hboundary : IsBoundary boundary)
    (hwritable : ∀ field ∈ fields, field.IsWritable boundary) :
    read boundary (write boundary fields) =
      .ok (fields.map fun field => (field.name, field.value)) := by
  rw [read, write, cutAt?_self_append (delimiter_ne_nil boundary)]
  exact parts_writeParts hboundary hwritable

theorem ofString?_boundary (hboundary : IsBoundary boundary) :
    MediaType.ofString? ("multipart/form-data; boundary=" ++ boundary) =
      some ⟨"multipart", "form-data", [("boundary", boundary)]⟩ := by
  have hliteral : "multipart/form-data; boundary=".toList =
      MediaType.typeText "multipart" "form-data" ++ ';' :: (' ' :: "boundary".toList ++ ['=']) := by
    decide
  have happend : ∀ front back behind : List Char,
      (front ++ ';' :: (back ++ ['='])) ++ behind = front ++ ';' :: (back ++ '=' :: behind) := by
    simp
  have htext : ("multipart/form-data; boundary=" ++ boundary).toList =
      MediaType.typeText "multipart" "form-data" ++ ';' ::
        MediaType.unquoted ("boundary", boundary) := by
    rw [String.toList_append, hliteral, happend]
    rfl
  have hmain : MediaType.IsTypeName "multipart" :=
    ⟨by decide, Text.forall_mem_of_all (by decide)⟩
  have hsubtype : MediaType.IsTypeName "form-data" :=
    ⟨by decide, Text.forall_mem_of_all (by decide)⟩
  have hname : MediaType.IsParameterName "boundary" :=
    ⟨by decide, by decide, Text.forall_mem_of_all (by decide)⟩
  have hparameters : MediaType.readParameters (MediaType.unquoted ("boundary", boundary)) =
      [("boundary", boundary)] :=
    MediaType.readParameters_unquoted hname ⟨hboundary.plain.1, hboundary.plain.2.1⟩
      hboundary.trimmed
  rw [MediaType.ofString?, htext, MediaType.ofText?_append_cons hmain hsubtype, hparameters]
  rfl

/-- A form that was written as a multipart body is read as its fields by name, with every byte of
their contents. -/
theorem read_written_form {registry : MediaRegistry}
    (hreader : Entries.get? registry.readers "multipart/form-data" = some BodyReader.multipart)
    (hboundary : IsBoundary boundary) (hwritable : ∀ field ∈ fields, field.IsWritable boundary) :
    registry.read ("multipart/form-data; boundary=" ++ boundary) (write boundary fields) =
      .ok ⟨.object (BodyReader.grouped (fields.map fun field => (field.name, field.value))),
        true⟩ := by
  have hessence : (MediaType.mk "multipart" "form-data" [("boundary", boundary)]).essence =
      "multipart/form-data" := by
    have happend : "multipart" ++ "/" ++ "form-data" = "multipart/form-data" := by decide
    exact happend
  have hnonempty : boundary.isEmpty = false := by
    simpa using hboundary.nonempty
  refine MediaRegistry.read_eq_ok (ofString?_boundary hboundary) (hessence ▸ hreader) ?_
  simp only [BodyReader.multipart, Entries.get?, if_pos, hnonempty, Bool.false_eq_true, if_false,
    read_write hboundary hwritable, Except.map, BodyReader.groupFields_eq]

/-- Texts and files whose contents start and end with line breaks and hold blank lines, with a name
that is repeated and a file without bytes. -/
theorem line_breaks_of_contents_are_kept :
    MediaRegistry.standard.read "multipart/form-data; boundary=a=b c" (write "a=b c" [
        ⟨"title", .text "\r\nfirst\r\n\r\n--a\r\n"⟩,
        ⟨"scan", .file "a: b.bin" (some "text/plain; charset=utf-8") [0x0D, 0x0A, 0xFF, 0x0A]⟩,
        ⟨"title", .text "\n"⟩,
        ⟨"none", .file "" none []⟩]) =
      .ok ⟨.object [
        ("title", .array [.string "\r\nfirst\r\n\r\n--a\r\n", .string "\n"]),
        ("scan", .bytes [0x0D, 0x0A, 0xFF, 0x0A]),
        ("none", .bytes [])], true⟩ := by
  have hboundary : IsBoundary "a=b c" := ⟨by decide, by decide, by decide⟩
  have hwritable : ∀ field ∈ [
      ⟨"title", .text "\r\nfirst\r\n\r\n--a\r\n"⟩,
      ⟨"scan", .file "a: b.bin" (some "text/plain; charset=utf-8") [0x0D, 0x0A, 0xFF, 0x0A]⟩,
      ⟨"title", .text "\n"⟩,
      ⟨"none", .file "" none []⟩], FormField.IsWritable "a=b c" field := by
    simp only [List.forall_mem_cons]
    exact ⟨⟨by decide, by decide, by decide +kernel, by decide +kernel⟩,
      ⟨by decide, by decide, by decide +kernel, by decide +kernel⟩,
      ⟨by decide, by decide, by decide +kernel, by decide +kernel⟩,
      ⟨by decide, by decide, by decide +kernel, by decide +kernel⟩, by simp⟩
  have htype : "multipart/form-data; boundary=a=b c" =
      "multipart/form-data; boundary=" ++ "a=b c" := by decide
  have hreader : Entries.get? MediaRegistry.standard.readers "multipart/form-data" =
      some BodyReader.multipart := rfl
  rw [htype, read_written_form hreader hboundary hwritable]
  rfl

end Multipart
end ApiContract
