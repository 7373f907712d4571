import ApiContract.Media.MediaType
import ApiContract.Proofs.Decimals
import ApiContract.Proofs.Insertion
import ApiContract.Proofs.Splitting

/-!
# Parameters of header values

A header value such as a media type names something and adds parameters behind semicolons, each with
a value that may stand between quotes.  The quotes are taken off a value, but they do not protect
what is between them: the text is split at all its semicolons first.  So quoted values are read as
they were written if and only if there is no semicolon in any of them.
-/

namespace ApiContract

namespace Text

/-- A text is searched character by character, not through all characters that there are. -/
theorem forall_mem_of_all {holds : Char → Prop} [DecidablePred holds] {text : List Char}
    (hall : text.all (fun c => decide (holds c)) = true) : ∀ c ∈ text, holds c := by
  simpa using hall

theorem trimBy_quotes {front text back : List Char} (htext : '"' ∉ text)
    (hfront : ∀ c ∈ front, c = '"') (hback : ∀ c ∈ back, c = '"') :
    trimBy (· == '"') (front ++ text ++ back) = text := by
  have hplain : ∀ c ∈ text, (c == '"') = false := by
    intro c hc
    rw [beq_eq_false_iff_ne]
    rintro rfl
    exact htext hc
  exact trimBy_append (fun c hc => by simp [hfront c hc]) (fun c hc => by simp [hback c hc])
    (fun c hc => hplain c (List.mem_of_mem_head? hc))
    (fun c hc => hplain c (List.mem_of_getLast? hc))

end Text

namespace MediaType

/-- A name of a parameter in lower case without white space and separators, as all tokens are. -/
structure IsParameterName (name : String) : Prop where
  nonempty : name ≠ ""
  lower : name.toList.map Text.lowerChar = name.toList
  plain : ∀ c ∈ name.toList, Text.isBlank c = false ∧ c ≠ '=' ∧ c ≠ ';'

/-- A type or a subtype without white space and separators, as all tokens are. -/
structure IsTypeName (name : String) : Prop where
  nonempty : name ≠ ""
  plain : ∀ c ∈ name.toList, Text.isBlank c = false ∧ c ≠ '/' ∧ c ≠ '=' ∧ c ≠ ';'

/-- A parameter with its value between quotes. -/
def quoted (parameter : String × String) : List Char :=
  ' ' :: parameter.1.toList ++ '=' :: '"' :: parameter.2.toList ++ ['"']

/-- A header value with its parameters behind semicolons. -/
def written (front : List Char) (parameters : Entries String) : List Char :=
  Text.joinWith ';' (front :: parameters.map quoted)

example : written "text/plain".toList [("charset", "utf-8"), ("title", "a=b c")] =
    "text/plain; charset=\"utf-8\"; title=\"a=b c\"".toList := by
  decide

variable {main subtype : String} {front back : List Char} {parameter : String × String}
  {parameters : Entries String}

/-! ## One parameter -/

theorem parameter?_named {name : String} (hname : IsParameterName name) (value : List Char) :
    parameter? ((' ' :: name.toList) ++ '=' :: value) =
      some (name, String.ofList (Text.trimBy (· == '"') (Text.trim value))) := by
  have hequals : '=' ∉ ' ' :: name.toList := by
    simp only [List.mem_cons, not_or]
    exact ⟨by decide, fun hmem => (hname.plain '=' hmem).2.1 rfl⟩
  have hlower : (Text.trim (' ' :: name.toList)).map Text.lowerChar = name.toList := by
    rw [Text.trim_cons_space fun c hc => (hname.plain c hc).1, hname.lower]
  have hempty : name.toList.isEmpty = false := by
    simpa using hname.nonempty
  simp only [parameter?, Text.splitFirst?_append hequals, hlower, hempty, String.ofList_toList,
    Bool.false_eq_true, if_false]

theorem parameter?_quoted (hname : IsParameterName parameter.1)
    (hvalue : '"' ∉ parameter.2.toList) (hback : ∀ c ∈ back, Text.isBlank c) :
    parameter? (quoted parameter ++ back) = some parameter := by
  have hquote : ∀ c, c = '"' → Text.isBlank c = false := by
    rintro c rfl
    decide
  have hlast : ∀ c ∈ (['"'] ++ parameter.2.toList ++ ['"']).getLast?, Text.isBlank c = false := by
    rw [List.getLast?_concat]
    exact fun c hc => hquote c (Option.mem_some_iff.1 hc).symm
  have htrim : Text.trim ([] ++ (['"'] ++ parameter.2.toList ++ ['"']) ++ back) =
      ['"'] ++ parameter.2.toList ++ ['"'] :=
    Text.trimBy_append (by simp) hback (fun c hc => hquote c (Option.mem_some_iff.1 hc).symm) hlast
  have hquotes : Text.trimBy (· == '"') (['"'] ++ parameter.2.toList ++ ['"']) =
      parameter.2.toList :=
    Text.trimBy_quotes hvalue (by simp) (by simp)
  have htext : quoted parameter ++ back = (' ' :: parameter.1.toList) ++
      '=' :: ([] ++ (['"'] ++ parameter.2.toList ++ ['"']) ++ back) := by
    simp [quoted]
  rw [htext, parameter?_named hname, htrim, hquotes, String.ofList_toList]

/-- A parameter with its value as it is. -/
def unquoted (parameter : String × String) : List Char :=
  (' ' :: parameter.1.toList) ++ '=' :: parameter.2.toList

theorem readParameters_unquoted (hname : IsParameterName parameter.1)
    (hvalue : '"' ∉ parameter.2.toList ∧ ';' ∉ parameter.2.toList)
    (htrim : Text.trim parameter.2.toList = parameter.2.toList) :
    readParameters (unquoted parameter) = [parameter] := by
  have hsemicolon : ';' ∉ unquoted parameter := by
    have hname : ';' ∉ parameter.1.toList := fun hmem => (hname.plain ';' hmem).2.2 rfl
    simp [unquoted, hname, hvalue.2]
  have hquotes : Text.trimBy (· == '"') ([] ++ parameter.2.toList ++ []) = parameter.2.toList :=
    Text.trimBy_quotes hvalue.1 (by simp) (by simp)
  rw [List.nil_append, List.append_nil] at hquotes
  have hread : parameter? (unquoted parameter) = some parameter := by
    rw [unquoted, parameter?_named hname, htrim, hquotes, String.ofList_toList]
  rw [readParameters, Text.splitAll_of_notMem hsemicolon, List.filterMap_cons_some hread]
  rfl

theorem parameter?_of_notMem (hfront : '=' ∉ front) : parameter? front = none := by
  rw [parameter?, Text.splitFirst?_eq_none_iff.2 hfront]

theorem value_of_parameter? {field : List Char} (hread : parameter? field = some parameter) :
    ∃ name value, field = name ++ '=' :: value ∧ parameter.2.toList.Sublist value := by
  unfold parameter? at hread
  split at hread
  · simp at hread
  · next name value hsplit =>
      obtain ⟨hfield, -⟩ := Text.splitFirst?_eq_some_iff.1 hsplit
      simp only [Option.ite_none_left_eq_some, Option.some.injEq] at hread
      obtain ⟨-, rfl⟩ := hread
      refine ⟨name, value, hfield, ?_⟩
      rw [String.toList_ofList]
      exact (Text.trimBy_sublist _ _).trans (Text.trimBy_sublist _ _)

theorem semicolon_notMem_quoted (hname : IsParameterName parameter.1)
    (hvalue : ';' ∉ parameter.2.toList) : ';' ∉ quoted parameter := by
  have hplain : ';' ∉ parameter.1.toList := fun hmem => (hname.plain ';' hmem).2.2 rfl
  simp [quoted, hplain, hvalue]

/-! ## All parameters -/

theorem filterMap_splitAll_written (hfront : ';' ∉ front) {first : Option (String × String)}
    (hfirst : ∀ back, (∀ c ∈ back, Text.isBlank c) → parameter? (front ++ back) = first)
    (hnames : ∀ parameter ∈ parameters, IsParameterName parameter.1)
    (hvalues : ∀ parameter ∈ parameters, '"' ∉ parameter.2.toList ∧ ';' ∉ parameter.2.toList)
    (hback : ∀ c ∈ back, Text.isBlank c) :
    (Text.splitAll ';' (written front parameters ++ back)).filterMap parameter? =
      first.toList ++ parameters := by
  -- Behind the first semicolon a quoted parameter takes the place of the front.
  induction parameters generalizing front first with
  | nil =>
      have hsemicolon : ';' ∉ back := fun hmem => absurd (hback ';' hmem) (by decide)
      have hfield : ';' ∉ front ++ back := by
        rw [List.mem_append, not_or]
        exact ⟨hfront, hsemicolon⟩
      rw [written, List.map_nil, Text.joinWith, Text.splitAll_of_notMem hfield,
        List.filterMap_cons, hfirst back hback, List.append_nil]
      cases first <;> rfl
  | cons parameter rest ih =>
      obtain ⟨hname, hnames⟩ := List.forall_mem_cons.1 hnames
      obtain ⟨hvalue, hvalues⟩ := List.forall_mem_cons.1 hvalues
      have hrest := ih (semicolon_notMem_quoted hname hvalue.2)
        (fun _ hblank => parameter?_quoted hname hvalue.1 hblank) hnames hvalues
      have hhead : parameter? front = first := by
        rw [← hfirst [] (by simp), List.append_nil]
      rw [written, List.map_cons, Text.joinWith_cons, List.append_assoc, List.cons_append,
        Text.splitAll_append_cons, Text.splitAll_of_notMem hfront, List.filterMap_append, ← written,
        hrest, List.filterMap_cons, hhead]
      cases first <;> rfl

/-- Parameters with quoted values are read as long as no semicolon stands between the quotes. -/
theorem readParameters_written (hfront : '=' ∉ front ∧ ';' ∉ front)
    (hdistinct : Entries.Distinct parameters)
    (hnames : ∀ parameter ∈ parameters, IsParameterName parameter.1)
    (hvalues : ∀ parameter ∈ parameters, '"' ∉ parameter.2.toList ∧ ';' ∉ parameter.2.toList)
    (hback : ∀ c ∈ back, Text.isBlank c) :
    readParameters (written front parameters ++ back) = parameters := by
  have hnone : ∀ back, (∀ c ∈ back, Text.isBlank c) → parameter? (front ++ back) = none := by
    intro back hback
    have hequals : '=' ∉ back := fun hmem => absurd (hback '=' hmem) (by decide)
    exact parameter?_of_notMem (by simp [hfront.1, hequals])
  rw [readParameters, filterMap_splitAll_written hfront.2 hnone hnames hvalues hback,
    Option.toList_none, List.nil_append, Entries.ofPairs_of_distinct hdistinct]

/-- No semicolon gets into a value, whatever the text. -/
theorem semicolon_notMem_of_mem_readParameters {text : List Char}
    (hmem : parameter ∈ readParameters text) : ';' ∉ parameter.2.toList := by
  have hfield : ∀ field ∈ Text.splitAll ';' text, ∀ read, parameter? field = some read →
      ';' ∉ read.2.toList := by
    intro field hfield read hread hsemicolon
    refine Text.notMem_of_mem_splitAll hfield ?_
    obtain ⟨name, value, rfl, hvalue⟩ := value_of_parameter? hread
    exact List.mem_append_right _ (List.mem_cons_of_mem _ (hvalue.subset hsemicolon))
  have hpairs : ∀ pair ∈ (Text.splitAll ';' text).filterMap parameter?, ';' ∉ pair.2.toList := by
    intro pair hpair
    obtain ⟨field, hmemField, hread⟩ := List.mem_filterMap.1 hpair
    exact hfield field hmemField pair hread
  exact @Entries.forall_mem_ofPairs String (fun value => ';' ∉ value.toList) _ hpairs parameter hmem

theorem readParameters_written_iff (hfront : '=' ∉ front ∧ ';' ∉ front)
    (hdistinct : Entries.Distinct parameters)
    (hnames : ∀ parameter ∈ parameters, IsParameterName parameter.1)
    (hvalues : ∀ parameter ∈ parameters, '"' ∉ parameter.2.toList) :
    readParameters (written front parameters) = parameters ↔
      ∀ parameter ∈ parameters, ';' ∉ parameter.2.toList := by
  constructor
  · intro hread parameter hmem
    rw [← hread] at hmem
    exact semicolon_notMem_of_mem_readParameters hmem
  · intro hsemicolons
    have hread : readParameters (written front parameters ++ []) = parameters :=
      readParameters_written hfront hdistinct hnames
        (fun parameter hmem => ⟨hvalues parameter hmem, hsemicolons parameter hmem⟩) (by simp)
    rwa [List.append_nil] at hread

/-! ## Media types -/

theorem readParameters_append_cons (hfront : '=' ∉ front ∧ ';' ∉ front) (text : List Char) :
    readParameters (front ++ ';' :: text) = readParameters text := by
  rw [readParameters, Text.splitAll_append_cons, Text.splitAll_of_notMem hfront.2,
    List.singleton_append, List.filterMap_cons_none (parameter?_of_notMem hfront.1), readParameters]

theorem readParameters_of_notMem (hfront : '=' ∉ front ∧ ';' ∉ front) :
    readParameters front = [] := by
  rw [readParameters, Text.splitAll_of_notMem hfront.2,
    List.filterMap_cons_none (parameter?_of_notMem hfront.1)]
  rfl

/-- Type and subtype with the slash between them. -/
def typeText (main subtype : String) : List Char := main.toList ++ '/' :: subtype.toList

theorem notMem_typeText (hmain : IsTypeName main) (hsubtype : IsTypeName subtype) :
    '=' ∉ typeText main subtype ∧ ';' ∉ typeText main subtype := by
  simp only [typeText, List.mem_append, List.mem_cons, not_or]
  exact ⟨⟨fun hmem => (hmain.plain _ hmem).2.2.1 rfl, by decide,
      fun hmem => (hsubtype.plain _ hmem).2.2.1 rfl⟩,
    ⟨fun hmem => (hmain.plain _ hmem).2.2.2 rfl, by decide,
      fun hmem => (hsubtype.plain _ hmem).2.2.2 rfl⟩⟩

theorem ofText?_of_split (hmain : IsTypeName main) (hsubtype : IsTypeName subtype)
    {text rest : List Char}
    (hsplit : (Text.splitFirst? ';' text).getD (text, []) = (typeText main subtype, rest)) :
    ofText? text =
      some ⟨Text.lowered main, Text.lowered subtype, readParameters rest⟩ := by
  have hmainPlain : ∀ c ∈ main.toList, Text.isBlank c = false := fun c hc => (hmain.plain c hc).1
  have hsubtypePlain : ∀ c ∈ subtype.toList, Text.isBlank c = false :=
    fun c hc => (hsubtype.plain c hc).1
  have htext : ∀ c ∈ typeText main subtype, Text.isBlank c = false := by
    rw [typeText, List.forall_mem_append, List.forall_mem_cons]
    exact ⟨hmainPlain, by decide, hsubtypePlain⟩
  have hslash : '/' ∉ main.toList := fun hmem => (hmain.plain _ hmem).2.1 rfl
  have hempty : (main.toList.isEmpty || subtype.toList.isEmpty) = false := by
    simpa using ⟨hmain.nonempty, hsubtype.nonempty⟩
  simp only [ofText?, hsplit, Text.trim_of_forall_not_isBlank htext]
  rw [typeText, Text.splitFirst?_append hslash]
  simp only [Text.trim_of_forall_not_isBlank hmainPlain,
    Text.trim_of_forall_not_isBlank hsubtypePlain, hempty, Bool.false_eq_true, if_false]
  rfl

theorem ofText?_append_cons (hmain : IsTypeName main) (hsubtype : IsTypeName subtype)
    (text : List Char) :
    ofText? (typeText main subtype ++ ';' :: text) =
      some ⟨Text.lowered main, Text.lowered subtype, readParameters text⟩ := by
  refine ofText?_of_split hmain hsubtype ?_
  rw [Text.splitFirst?_append (notMem_typeText hmain hsubtype).2, Option.getD_some]

theorem ofText?_written (hmain : IsTypeName main) (hsubtype : IsTypeName subtype)
    (parameters : Entries String) :
    ofText? (written (typeText main subtype) parameters) =
      some ⟨Text.lowered main, Text.lowered subtype,
        readParameters (written (typeText main subtype) parameters)⟩ := by
  have hfront := notMem_typeText hmain hsubtype
  cases parameters with
  | nil =>
      have hsplit : (Text.splitFirst? ';' (typeText main subtype)).getD
          (typeText main subtype, []) = (typeText main subtype, []) := by
        rw [Text.splitFirst?_eq_none_iff.2 hfront.2, Option.getD_none]
      rw [written, List.map_nil, Text.joinWith, ofText?_of_split hmain hsubtype hsplit,
        readParameters_of_notMem hfront, readParameters_of_notMem (by simp)]
  | cons first others =>
      rw [written, List.map_cons, Text.joinWith_cons, ofText?_append_cons hmain hsubtype,
        readParameters_append_cons hfront]

/-- Quoted values come back as they were written, in order and under their own names, behind a
media type as behind any other front, if and only if no semicolon stands in any of them. -/
theorem quoted_values_come_back_iff (hmain : IsTypeName main) (hsubtype : IsTypeName subtype)
    (hfront : '=' ∉ front ∧ ';' ∉ front) (hdistinct : Entries.Distinct parameters)
    (hnames : ∀ parameter ∈ parameters, IsParameterName parameter.1)
    (hvalues : ∀ parameter ∈ parameters, '"' ∉ parameter.2.toList) :
    (ofText? (written (typeText main subtype) parameters) =
        some ⟨Text.lowered main, Text.lowered subtype, parameters⟩ ↔
      ∀ parameter ∈ parameters, ';' ∉ parameter.2.toList) ∧
    (readParameters (written front parameters) = parameters ↔
      ∀ parameter ∈ parameters, ';' ∉ parameter.2.toList) := by
  refine ⟨?_, readParameters_written_iff hfront hdistinct hnames hvalues⟩
  rw [ofText?_written hmain hsubtype, Option.some.injEq, MediaType.mk.injEq]
  simp only [true_and]
  exact readParameters_written_iff (notMem_typeText hmain hsubtype) hdistinct hnames hvalues

/-- A file name with an equals sign and white space, and an empty value. -/
theorem quoted_file_name_comes_back :
    ofText? (written (typeText "Text" "Plain")
        [("title", " a = b, c "), ("charset", "utf-8"), ("note", "")]) =
      some ⟨"text", "plain", [("title", " a = b, c "), ("charset", "utf-8"), ("note", "")]⟩ ∧
    readParameters (written "form-data".toList
        [("title", " a = b, c "), ("charset", "utf-8"), ("note", "")]) =
      [("title", " a = b, c "), ("charset", "utf-8"), ("note", "")] := by
  have hnames : ∀ parameter ∈ [("title", " a = b, c "), ("charset", "utf-8"), ("note", "")],
      IsParameterName parameter.1 := by
    simp only [List.forall_mem_cons]
    exact ⟨⟨by decide, by decide, Text.forall_mem_of_all (by decide)⟩,
      ⟨by decide, by decide, Text.forall_mem_of_all (by decide)⟩,
      ⟨by decide, by decide, Text.forall_mem_of_all (by decide)⟩, by simp⟩
  have hfront : '=' ∉ "form-data".toList ∧ ';' ∉ "form-data".toList := by decide
  have hmain : IsTypeName "Text" := ⟨by decide, Text.forall_mem_of_all (by decide)⟩
  have hsubtype : IsTypeName "Plain" := ⟨by decide, Text.forall_mem_of_all (by decide)⟩
  have hback := quoted_values_come_back_iff hmain hsubtype hfront (by decide) hnames (by decide)
  exact ⟨hback.1.2 (by decide), hback.2.2 (by decide)⟩

/-- A semicolon between quotes ends the value, and what follows it is read as a parameter. -/
theorem semicolon_between_quotes_ends_value :
    ofString? "text/plain; filename=\"a;name=b\"" =
      some ⟨"text", "plain", [("filename", "a"), ("name", "b")]⟩ := by
  decide

end MediaType
end ApiContract
