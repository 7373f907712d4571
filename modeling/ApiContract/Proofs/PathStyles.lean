import ApiContract.Parameter.Extraction
import ApiContract.Proofs.Insertion
import ApiContract.Proofs.Splitting
import ApiContract.Proofs.Transcoding

/-!
# Reading what the path styles write

The styles `simple`, `label` and `matrix` write a parameter as one text, in which every byte that is
not a letter or a digit is percent-encoded.  Since what separates the pieces is never part of one,
splitting such a text and decoding its pieces gives back what was written, up to the few payloads for
which a style has no text of their own.

| style    | explode | text   | list              | mapping           |
|----------|---------|--------|-------------------|-------------------|
| `simple` | no      | `3`    | `3,4,5`           | `r,3,g,4`         |
| `simple` | yes     | `3`    | `3,4,5`           | `r=3,g=4`         |
| `label`  | no      | `.3`   | `.3,4,5`          | `.r,3,g,4`        |
| `label`  | yes     | `.3`   | `.3.4.5`          | `.r=3.g=4`        |
| `matrix` | no      | `;id=3`| `;id=3,4,5`       | `;id=r,3,g,4`     |
| `matrix` | yes     | `;id=3`| `;id=3;id=4;id=5` | `;r=3;g=4`        |
-/

namespace ApiContract

/-- What a parameter may be: one text, a list of texts, or texts by name. -/
inductive Payload where
  | text (text : String)
  | list (items : List String)
  | mapping (pairs : List (String × String)) (distinct : (pairs.map Prod.fst).Nodup)

namespace Payload

def value : Payload → Value
  | .text single => .string single
  | .list items => .array (items.map .string)
  | .mapping pairs _ => .object (pairs.map fun pair => (pair.1, .string pair.2))

/-- The shape describes payloads of this kind. -/
def HasShape : Payload → Shape → Prop
  | .text _, shape => shape = .primitive
  | .list _, shape => shape = .array
  | .mapping .., shape => ∃ properties, shape = .object properties

end Payload

/-- The styles that write a parameter as one text. -/
inductive PathStyle where
  | simple
  | label
  | matrix
  deriving DecidableEq

namespace PathStyle

def style : PathStyle → Style
  | .simple => .simple
  | .label => .label
  | .matrix => .matrix

def reader : PathStyle → StyleReader
  | .simple => StyleReader.simple
  | .label => StyleReader.label
  | .matrix => StyleReader.matrix

theorem get?_standard (style : PathStyle) :
    StyleRegistry.standard.get? style.style.name = some style.reader := by
  cases style <;> rfl

/-- A text with all of its bytes escaped except for those of ASCII letters and digits. -/
def escape (text : String) : List Char := Percent.encode (fun c => !c.isAlphanum) text.toList

def assignment (pair : String × String) : List Char := escape pair.1 ++ '=' :: escape pair.2

/-- A text under a name; if `bare`, the name stands alone where the text is empty. -/
def named (bare : Bool) (name : String) (text : List Char) : List Char :=
  if bare && text.isEmpty then name.toList else name.toList ++ '=' :: text

/-- A payload as a row of pieces with a delimiter between them. -/
def row (delimiter : Char) (explode : Bool) : Payload → List Char
  | .text text => escape text
  | .list items => Text.joinWith delimiter (items.map escape)
  | .mapping pairs _ =>
    if explode then Text.joinWith delimiter (pairs.map assignment)
    else Text.joinWith delimiter (pairs.flatMap fun pair => [escape pair.1, escape pair.2])

/-- A payload as the matrix style writes it behind the semicolon. -/
def matrixRow (explode bare : Bool) (name : String) (payload : Payload) : List Char :=
  match explode, payload with
  | true, .list items => Text.joinWith ';' (items.map fun item => named bare name (escape item))
  | true, .mapping pairs _ => Text.joinWith ';' (pairs.map assignment)
  | _, payload => named bare name (row ',' false payload)

/-- The text of a parameter in a style. -/
def write (style : PathStyle) (explode bare : Bool) (name : String) (payload : Payload) :
    List Char :=
  match style with
  | .simple => row ',' explode payload
  | .label => '.' :: row (if explode then '.' else ',') explode payload
  | .matrix => ';' :: matrixRow explode bare name payload

/-- A style has no text for the payload that no other one has: one empty item looks like none, and
without items an exploded matrix has no place for the name. -/
def Confuses (style : PathStyle) (explode : Bool) : Payload → Prop
  | .text _ => False
  | .list items => if style = .matrix ∧ explode then items = [] else items = [""]
  | .mapping pairs _ => style = .matrix ∧ explode ∧ pairs = []

example : write .matrix true false "id" (.list ["3", "4", "a b"]) = ";id=3;id=4;id=a%20b".toList := by
  decide

/-! ## Escaped texts -/

open StyleReader

theorem decodePiece_escape (text : String) : decodePiece true (escape text) = text := by
  have hdecode : Percent.decode (escape text) = text.toList := Percent.decode_encode rfl text.toList
  rw [decodePiece, if_pos rfl, hdecode, String.ofList_toList]

theorem isAlphanum_upperHexDigit : ∀ n < 16, (Percent.upperHexDigit n).isAlphanum := by
  decide

theorem notMem_escape {c : Char} (hc : ¬c.isAlphanum) (hpercent : c ≠ '%') (text : String) :
    c ∉ escape text := by
  intro hmem
  rcases Percent.mem_encode hmem with ⟨-, hkept⟩ | rfl | ⟨n, hn, rfl⟩
  · simp [hc] at hkept
  · exact hpercent rfl
  · exact hc (isAlphanum_upperHexDigit n hn)

theorem escape_eq_nil_iff {text : String} : escape text = [] ↔ text = "" := by
  constructor
  · intro hempty
    have hnil : decodePiece true [] = "" := decodePiece_escape ""
    have htext := decodePiece_escape text
    rw [hempty] at htext
    exact htext.symm.trans hnil
  · rintro rfl
    rfl

/-- The characters that stand between pieces. -/
def IsDelimiter (c : Char) : Prop := c = ',' ∨ c = '.' ∨ c = ';'

theorem IsDelimiter.notMem_escape {delimiter : Char} (hdelimiter : IsDelimiter delimiter)
    (text : String) : delimiter ∉ escape text := by
  rcases hdelimiter with rfl | rfl | rfl
  all_goals exact PathStyle.notMem_escape (by decide) (by decide) text

theorem IsDelimiter.notMem_assignment {delimiter : Char} (hdelimiter : IsDelimiter delimiter)
    (pair : String × String) : delimiter ∉ assignment pair := by
  have hequals : delimiter ≠ '=' := by
    rcases hdelimiter with rfl | rfl | rfl
    all_goals decide
  simp [assignment, hdelimiter.notMem_escape, hequals]

/-! ## Pieces -/

theorem pieces_joinWith {delimiter : Char} (hdelimiter : IsDelimiter delimiter) {items : List String}
    (hitems : items ≠ [""]) :
    pieces delimiter true (Text.joinWith delimiter (items.map escape)) = items := by
  unfold pieces
  split
  -- An empty row has no pieces, whether it was written for none or for a single empty one.
  · next hempty =>
      rw [List.isEmpty_iff, Text.joinWith_eq_nil_iff] at hempty
      rcases hempty with hnone | hone
      · exact (List.map_eq_nil_iff.1 hnone).symm
      · obtain ⟨item, rfl, hitem⟩ := List.map_eq_singleton_iff.1 hone
        exact absurd (by rw [escape_eq_nil_iff.1 hitem]) hitems
  · next hnonempty =>
      have hne : items.map escape ≠ [] := by
        rintro hnone
        exact hnonempty (by rw [hnone]; rfl)
      have hnotMem : ∀ field ∈ items.map escape, delimiter ∉ field := by
        rw [List.forall_mem_map]
        exact fun item _ => hdelimiter.notMem_escape item
      have hdecode : decodePiece true ∘ escape = id := funext decodePiece_escape
      rw [Text.splitAll_joinWith hne hnotMem, List.map_map, hdecode, List.map_id]

theorem alternating?_flatMap (pairs : List (String × String)) :
    alternating? (pairs.flatMap fun pair => [pair.1, pair.2]) = some pairs := by
  induction pairs with
  | nil => rfl
  | cons pair rest ih =>
      rw [List.flatMap_cons, List.cons_append, List.singleton_append, alternating?, ih]
      rfl

theorem mapM_map_eq_ok {ε α β : Type} {write : α → β} {read : β → Except ε α}
    (hread : ∀ item, read (write item) = .ok item) (items : List α) :
    (items.map write).mapM read = .ok items := by
  induction items with
  | nil => rfl
  | cons first rest ih =>
      rw [List.map_cons, List.mapM_cons, hread, ih]
      rfl

theorem assignments_map (pairs : List (String × String)) :
    assignments true (pairs.map assignment) = .ok (objectOf pairs) := by
  unfold assignments
  rw [mapM_map_eq_ok (fun pair => ?_) pairs]
  · rfl
  · have hsplit : Text.splitFirst? '=' (assignment pair) = some (escape pair.1, escape pair.2) :=
      Text.splitFirst?_append (notMem_escape (by decide) (by decide) pair.1)
    simp only [hsplit, decodePiece_escape]

theorem objectOf_eq {pairs : List (String × String)} (hdistinct : (pairs.map Prod.fst).Nodup) :
    objectOf pairs = .object (pairs.map fun pair => (pair.1, .string pair.2)) := by
  have hkeys : Entries.Distinct (pairs.map fun pair => (pair.1, Value.string pair.2)) := by
    unfold Entries.Distinct Entries.keys
    rwa [List.map_map]
  have hpairs := Entries.ofPairs_of_distinct hkeys
  rw [objectOf]
  exact congrArg Value.object hpairs

/-! ## Rows -/

/-- The pieces of a row of assignments, of which none is empty. -/
theorem filter_splitAll_assignments {delimiter : Char} (hdelimiter : IsDelimiter delimiter)
    (pairs : List (String × String)) :
    (Text.splitAll delimiter (Text.joinWith delimiter (pairs.map assignment))).filter
      (!·.isEmpty) = pairs.map assignment := by
  cases pairs with
  | nil => rfl
  | cons pair rest =>
      have hne : (pair :: rest).map assignment ≠ [] := List.cons_ne_nil _ _
      have hnotMem : ∀ field ∈ (pair :: rest).map assignment, delimiter ∉ field := by
        rw [List.forall_mem_map]
        exact fun other _ => hdelimiter.notMem_assignment other
      rw [Text.splitAll_joinWith hne hnotMem, List.filter_eq_self, List.forall_mem_map]
      intro other _
      simp [assignment]

theorem split_row {delimiter : Char} (hdelimiter : IsDelimiter delimiter) (explode : Bool)
    {payload : Payload} {shape : Shape} (hshape : payload.HasShape shape)
    (hpayload : payload ≠ .list [""]) :
    split delimiter shape explode true (row delimiter explode payload) = .ok payload.value := by
  cases payload with
  | text single =>
      obtain rfl : shape = .primitive := hshape
      rw [split, row, decodePiece_escape, Payload.value]
  | list items =>
      obtain rfl : shape = .array := hshape
      have hitems : items ≠ [""] := fun heq => hpayload (by rw [heq])
      rw [split, row, pieces_joinWith hdelimiter hitems, Payload.value, arrayOf]
  | mapping pairs hdistinct =>
      obtain ⟨properties, rfl⟩ := hshape
      rw [split, row]
      cases explode with
      | true =>
          rw [if_pos rfl, if_pos rfl, filter_splitAll_assignments hdelimiter, assignments_map,
            objectOf_eq hdistinct, Payload.value]
      | false =>
          have hitems : (pairs.flatMap fun pair => [pair.1, pair.2]) ≠ [""] := by
            cases pairs <;> simp
          have hrow : (pairs.flatMap fun pair => [escape pair.1, escape pair.2]) =
              (pairs.flatMap fun pair => [pair.1, pair.2]).map escape := by
            rw [List.map_flatMap]
            rfl
          simp only [Bool.false_eq_true, if_false]
          rw [hrow, pieces_joinWith hdelimiter hitems, alternating?_flatMap]
          simp only [objectOf_eq hdistinct, Payload.value]

/-! ## Names -/

/-- A name of a parameter can stand in a matrix text as it is, as every alphanumeric name can. -/
def IsPlainName (name : String) : Prop := ';' ∉ name.toList ∧ '=' ∉ name.toList

theorem isPlainName_of_isAlphanum {name : String} (hname : ∀ c ∈ name.toList, c.isAlphanum) :
    IsPlainName name := by
  constructor
  · intro hmem
    exact absurd (hname _ hmem) (by decide)
  · intro hmem
    exact absurd (hname _ hmem) (by decide)

theorem matrixValue_named {name : String} (hname : IsPlainName name) (bare : Bool)
    (text : List Char) : matrixValue name (named bare name text) = .ok text := by
  have hself : String.ofList name.toList = name := String.ofList_toList
  unfold named
  by_cases hbare : (bare && text.isEmpty) = true
  · have htext : text = [] := by
      rw [Bool.and_eq_true, List.isEmpty_iff] at hbare
      exact hbare.2
    rw [if_pos hbare, htext, matrixValue, Text.splitFirst?_eq_none_iff.2 hname.2]
    exact if_pos hself
  · rw [if_neg hbare, matrixValue, Text.splitFirst?_append hname.2]
    exact if_pos hself

theorem semicolon_notMem_named {name : String} (hname : IsPlainName name) (bare : Bool)
    {text : List Char} (htext : ';' ∉ text) : ';' ∉ named bare name text := by
  unfold named
  split
  · exact hname.1
  · simp [hname.1, htext]

/-! ## The styles -/

variable {parameter : Parameter} {shape : Shape} {payload : Payload}

/-- Only an exploded matrix has a text for a single empty item. -/
theorem ne_of_not_confuses {style : PathStyle} {explode : Bool}
    (hstyle : ¬(style = .matrix ∧ explode = true)) (hclear : ¬Confuses style explode payload) :
    payload ≠ .list [""] := by
  rintro rfl
  exact hclear (by rw [Confuses, if_neg hstyle])

theorem read_simple (hshape : payload.HasShape shape)
    (hclear : ¬Confuses .simple parameter.explode payload) (bare : Bool) :
    StyleReader.simple parameter shape
        (.single (String.ofList (write .simple parameter.explode bare parameter.name payload)) true) =
      .ok (some payload.value) := by
  have hpayload := ne_of_not_confuses (by simp) hclear
  have hsplit := split_row (.inl rfl) parameter.explode hshape hpayload
  simp only [StyleReader.simple, write, String.toList_ofList, hsplit]
  rfl

theorem read_label (hshape : payload.HasShape shape)
    (hclear : ¬Confuses .label parameter.explode payload) (bare : Bool) :
    StyleReader.label parameter shape
        (.single (String.ofList (write .label parameter.explode bare parameter.name payload)) true) =
      .ok (some payload.value) := by
  have hpayload := ne_of_not_confuses (by simp) hclear
  have hdelimiter : IsDelimiter (if parameter.explode then '.' else ',') := by
    split
    · exact .inr (.inl rfl)
    · exact .inl rfl
  have hsplit := split_row hdelimiter parameter.explode hshape hpayload
  simp only [StyleReader.label, write, String.toList_ofList, hsplit]
  rfl

/-- What a matrix text holds as one piece, which bears the name of the parameter. -/
theorem joined_matrix (hname : IsPlainName parameter.name) (bare : Bool)
    (hshape : payload.HasShape shape) (hpayload : payload ≠ .list [""]) :
    (do
      let value ← matrixValue parameter.name (named bare parameter.name (row ',' false payload))
      split ',' shape false true value) = .ok payload.value := by
  rw [matrixValue_named hname]
  exact split_row (.inl rfl) false hshape hpayload

theorem items_matrix {name : String} (hname : IsPlainName name) (bare : Bool)
    {items : List String} (hitems : items ≠ []) :
    (Text.splitAll ';' (matrixRow true bare name (.list items))).mapM (matrixValue name) =
      .ok (items.map escape) := by
  have hne : (items.map fun item => named bare name (escape item)) ≠ [] := by
    simpa using hitems
  have hnotMem : ∀ field ∈ items.map fun item => named bare name (escape item), ';' ∉ field := by
    rw [List.forall_mem_map]
    intro item _
    exact semicolon_notMem_named hname bare (notMem_escape (by decide) (by decide) item)
  have hsplit : Text.splitAll ';' (matrixRow true bare name (.list items)) =
      (items.map escape).map (named bare name) := by
    rw [matrixRow, Text.splitAll_joinWith hne hnotMem, List.map_map]
    rfl
  rw [hsplit]
  exact mapM_map_eq_ok (matrixValue_named hname bare) _

theorem assignments_matrix {pairs : List (String × String)} (hpairs : pairs ≠ []) :
    assignments true (Text.splitAll ';' (Text.joinWith ';' (pairs.map assignment))) =
      .ok (objectOf pairs) := by
  have hne : pairs.map assignment ≠ [] := by
    simpa using hpairs
  have hnotMem : ∀ field ∈ pairs.map assignment, ';' ∉ field := by
    rw [List.forall_mem_map]
    exact fun pair _ => IsDelimiter.notMem_assignment (.inr (.inr rfl)) pair
  rw [Text.splitAll_joinWith hne hnotMem, assignments_map]

theorem read_matrix (hname : IsPlainName parameter.name) (hshape : payload.HasShape shape)
    (hclear : ¬Confuses .matrix parameter.explode payload) (bare : Bool) :
    StyleReader.matrix parameter shape
        (.single (String.ofList (write .matrix parameter.explode bare parameter.name payload)) true) =
      .ok (some payload.value) := by
  simp only [StyleReader.matrix, write, String.toList_ofList]
  cases hexplode : parameter.explode with
  | false =>
      have hpayload := ne_of_not_confuses (by simp [hexplode]) hclear
      have hjoined := joined_matrix hname bare hshape hpayload
      have hrow : matrixRow false bare parameter.name payload =
          named bare parameter.name (row ',' false payload) := rfl
      rw [Bool.not_false, if_pos rfl, hrow, hjoined]
      rfl
  | true =>
      rw [if_neg (by decide)]
      cases payload with
      | text single =>
          obtain rfl : shape = .primitive := hshape
          have hshape : (Payload.text single).HasShape .primitive := rfl
          have hjoined := joined_matrix hname bare hshape (by simp)
          have hrow : matrixRow true bare parameter.name (.text single) =
              named bare parameter.name (row ',' false (.text single)) := rfl
          simp only [hrow, hjoined]
          rfl
      | list items =>
          obtain rfl : shape = .array := hshape
          have hitems : items ≠ [] := by
            rintro rfl
            rw [hexplode] at hclear
            exact hclear rfl
          have hdecode : decodePiece true ∘ escape = id := funext decodePiece_escape
          simp only [items_matrix hname bare hitems]
          change Except.ok (some (arrayOf ((items.map escape).map (decodePiece true)))) = _
          rw [List.map_map, hdecode, List.map_id]
          rfl
      | mapping pairs hdistinct =>
          obtain ⟨properties, rfl⟩ := hshape
          have hpairs : pairs ≠ [] := by
            rintro rfl
            rw [hexplode] at hclear
            exact hclear ⟨rfl, rfl, rfl⟩
          simp only [matrixRow, assignments_matrix hpairs, objectOf_eq hdistinct]
          rfl

theorem read_write (style : PathStyle) (hname : IsPlainName parameter.name)
    (hshape : payload.HasShape shape) (hclear : ¬style.Confuses parameter.explode payload)
    (bare : Bool) :
    style.reader parameter shape
        (.single (String.ofList (style.write parameter.explode bare parameter.name payload)) true) =
      .ok (some payload.value) := by
  cases style with
  | simple => exact read_simple hshape hclear bare
  | label => exact read_label hshape hclear bare
  | matrix => exact read_matrix hname hshape hclear bare

/-- A parameter of a path that one of the path styles wrote is read as the payload that was written:
every text, every list and every mapping, except for those that the style confuses with another. -/
theorem extract_write {table : SchemaTable} {sources : ParameterSources} {style : PathStyle}
    {bare : Bool} (hplace : parameter.place = .path) (hstyle : parameter.style = style.style)
    (hcontent : parameter.contentType? = none) (hname : IsPlainName parameter.name)
    (hshape : payload.HasShape (Shape.of table parameter.schema?))
    (hclear : ¬style.Confuses parameter.explode payload)
    (hsource : Entries.get? sources.path parameter.name =
      some (String.ofList (style.write parameter.explode bare parameter.name payload))) :
    StyleRegistry.standard.extract table parameter sources = .ok (some payload.value) := by
  have hraw : sources.rawText? parameter =
      some (.single (String.ofList (style.write parameter.explode bare parameter.name payload))
        true) := by
    simp only [ParameterSources.rawText?, hplace, hsource, Option.map_some]
  have hread : StyleRegistry.standard.read? table parameter sources = .ok (some payload.value) := by
    have hcontentType : ¬parameter.contentType?.isSome := by simp [hcontent]
    simp only [StyleRegistry.read?, hraw, if_neg hcontentType, hstyle, get?_standard,
      read_write style hname hshape hclear bare]
  rw [StyleRegistry.extract, hread]

/-- An item that contains the delimiter and an empty one, in an exploded matrix. -/
theorem exploded_matrix_keeps_empty_item :
    StyleRegistry.standard.extract ⟨#[{ type? := some .array }]⟩
        { name := "id", place := .path, required := true, style := .matrix, explode := true,
          schema? := some 0 }
        { path := [("id", ";id=a%3Bb;id")] } =
      .ok (some (.array [.string "a;b", .string ""])) := by
  have hname : IsPlainName "id" := isPlainName_of_isAlphanum (by simp)
  have hclear : ¬Confuses .matrix true (.list ["a;b", ""]) := by
    simp [Confuses]
  have hstyle : Style.matrix = style .matrix := rfl
  have hshape : (Payload.list ["a;b", ""]).HasShape .array := rfl
  have hsource : Entries.get? [("id", ";id=a%3Bb;id")] "id" =
      some (String.ofList (write .matrix true true "id" (.list ["a;b", ""]))) := by
    decide
  have hvalue : (Payload.list ["a;b", ""]).value = .array [.string "a;b", .string ""] := rfl
  rw [← hvalue]
  exact extract_write rfl hstyle rfl hname hshape hclear hsource

end PathStyle

end ApiContract
