import ApiContract.Media.Registry
import ApiContract.Proofs.HeaderSpelling
import ApiContract.Proofs.Insertion
import ApiContract.Proofs.Splitting
import ApiContract.Proofs.Trimming

/-!
# Looking up by media type

What a description declares for a content type and which reader knows it are two searches, each
through keys that become less and less specific.  Both look at the type and the subtype that a text
names and at nothing else of it: not at the case of its letters, not at the white space around them
and not at its parameters.
-/

namespace ApiContract

/-! ## Splitting before trimming -/

namespace Text

variable {drop : Char → Bool} {separator : Char}

theorem dropWhile_append_cons (hseparator : drop separator = false) (front back : List Char) :
    (front ++ separator :: back).dropWhile drop = front.dropWhile drop ++ separator :: back := by
  induction front with
  | nil => rw [List.nil_append, List.dropWhile_cons_of_neg (by simp [hseparator])]; rfl
  | cons c rest ih =>
      cases hc : drop c with
      | true =>
          rw [List.cons_append, List.dropWhile_cons_of_pos hc, List.dropWhile_cons_of_pos hc, ih]
      | false =>
          have hkept : ¬drop c = true := by simp [hc]
          rw [List.cons_append, List.dropWhile_cons_of_neg hkept, List.dropWhile_cons_of_neg hkept,
            List.cons_append]

theorem trimBy_append_cons (hseparator : drop separator = false) (front back : List Char) :
    trimBy drop (front ++ separator :: back) =
      front.dropWhile drop ++ separator :: dropTrailing drop back := by
  rw [trimBy, dropWhile_append_cons hseparator, dropTrailing, List.reverse_append,
    List.reverse_cons, List.append_assoc, List.singleton_append, dropWhile_append_cons hseparator]
  simp [dropTrailing]

theorem trim_padded {front back : List Char} (hfront : ∀ c ∈ front, isBlank c)
    (hback : ∀ c ∈ back, isBlank c) (text : List Char) :
    trim (front ++ text ++ back) = trim text := by
  obtain ⟨before, behind, htext, hbefore, hbehind, -⟩ := exists_trimBy isBlank text
  have hpadded : front ++ text ++ back = (front ++ before) ++ trim text ++ (behind ++ back) := by
    conv_lhs => rw [htext]
    simp only [trim, List.append_assoc]
  rw [hpadded]
  exact (isTrimmed_trim text).trim_append (List.forall_mem_append.2 ⟨hfront, hbefore⟩)
    (List.forall_mem_append.2 ⟨hbehind, hback⟩)

theorem trim_dropWhile (text : List Char) : trim (text.dropWhile isBlank) = trim text := by
  have hpadded := @trim_padded (text.takeWhile isBlank) [] (fun _ => List.mem_takeWhile_imp)
    (by simp) (text.dropWhile isBlank)
  rw [List.append_nil, List.takeWhile_append_dropWhile] at hpadded
  exact hpadded.symm

theorem trim_dropTrailing (text : List Char) : trim (dropTrailing isBlank text) = trim text := by
  obtain ⟨back, htext, hback, -⟩ := exists_dropTrailing isBlank text
  have hpadded := @trim_padded [] back (by simp) hback (dropTrailing isBlank text)
  rw [List.nil_append, ← htext] at hpadded
  exact hpadded.symm

/-- White space that is taken from the ends of a text is taken from the outer ends of its pieces. -/
theorem splitFirst?_trim (hseparator : isBlank separator = false) (text : List Char) :
    splitFirst? separator (trim text) =
      (splitFirst? separator text).map fun (before, behind) =>
        (before.dropWhile isBlank, dropTrailing isBlank behind) := by
  cases hsplit : splitFirst? separator text with
  | none =>
      have hnone := splitFirst?_eq_none_iff.1 hsplit
      rw [Option.map_none, splitFirst?_eq_none_iff]
      exact fun hmem => hnone ((trimBy_sublist isBlank text).subset hmem)
  | some pieces =>
      obtain ⟨before, behind⟩ := pieces
      obtain ⟨rfl, hbefore⟩ := splitFirst?_eq_some_iff.1 hsplit
      rw [trim, trimBy_append_cons hseparator, splitFirst?_append, Option.map_some]
      exact fun hmem => hbefore ((List.dropWhile_suffix isBlank).subset hmem)

theorem splitLast?_eq_some_iff {text before behind : List Char} :
    splitLast? separator text = some (before, behind) ↔
      text = before ++ separator :: behind ∧ separator ∉ behind := by
  rw [splitLast?, Option.map_eq_some_iff]
  constructor
  · rintro ⟨⟨tail, front⟩, hsplit, hpieces⟩
    obtain ⟨rfl, rfl⟩ := Prod.mk.inj hpieces
    obtain ⟨htext, htail⟩ := splitFirst?_eq_some_iff.1 hsplit
    refine ⟨?_, by rwa [List.mem_reverse]⟩
    rw [← List.reverse_reverse text, htext]
    simp
  · rintro ⟨rfl, hbehind⟩
    refine ⟨(behind.reverse, before.reverse), ?_, by simp⟩
    rw [splitFirst?_eq_some_iff, List.mem_reverse]
    exact ⟨by simp, hbehind⟩

theorem splitLast?_eq_none_iff {text : List Char} :
    splitLast? separator text = none ↔ separator ∉ text := by
  rw [splitLast?, Option.map_eq_none_iff, splitFirst?_eq_none_iff, List.mem_reverse]

end Text

namespace MediaType

/-! ## Naming a type and a subtype -/

/-- A text names a type and a subtype in these letters, with nothing but white space around both and
with parameters behind a semicolon, or without any. -/
structure Names (text main subtype : String) : Prop where
  layout : ∃ front before behind back parameters : List Char,
    text.toList = front ++ main.toList ++ before ++ '/' :: (behind ++ subtype.toList ++ back) ++
      parameters ∧
    (∀ c ∈ front ++ before ++ (behind ++ back), Text.isBlank c) ∧ ∀ c ∈ parameters.head?, c = ';'
  trimmed : Text.IsTrimmed main.toList ∧ Text.IsTrimmed subtype.toList
  slash : '/' ∉ main.toList
  semicolon : ';' ∉ main.toList ∧ ';' ∉ subtype.toList

/-- A text names a type and a subtype, given in lower case, in letters of any case. -/
def Means (text main subtype : String) : Prop :=
  ∃ main' subtype', Names text main' subtype' ∧ main' ≠ "" ∧ subtype' ≠ "" ∧
    Text.lowered main' = main ∧ Text.lowered subtype' = subtype

/-- Two texts differ only in the letter case of type and subtype, in the white space around them and
in the parameters. -/
def Respelled (text text' : String) : Prop :=
  ∃ main subtype main' subtype', Names text main subtype ∧ Names text' main' subtype' ∧
    Text.sameLetters main main' ∧ Text.sameLetters subtype subtype'

variable {text text' main subtype : String} {mediaType : MediaType}

/-- Type and subtype are trimmed one by one, so their text needs no trimming before it is split. -/
theorem ofText?_eq (text : List Char) :
    ofText? text =
      (Text.splitFirst? '/' ((Text.splitFirst? ';' text).getD (text, [])).1).bind
        fun (main, subtype) =>
          if (Text.trim main).isEmpty || (Text.trim subtype).isEmpty then none
          else some ⟨String.ofList ((Text.trim main).map Text.lowerChar),
            String.ofList ((Text.trim subtype).map Text.lowerChar),
            readParameters ((Text.splitFirst? ';' text).getD (text, [])).2⟩ := by
  rw [ofText?]
  generalize (Text.splitFirst? ';' text).getD (text, []) = pieces
  simp only [@Text.splitFirst?_trim '/' (by decide)]
  cases Text.splitFirst? '/' pieces.1 with
  | none => rfl
  | some names =>
      simp only [Option.map_some, Option.bind_some, Text.trim_dropWhile, Text.trim_dropTrailing]

theorem lowered_eq_empty_iff {name : String} : Text.lowered name = "" ↔ name = "" := by
  rw [← String.toList_eq_nil_iff, Text.lowered, String.toList_ofList, List.map_eq_nil_iff,
    String.toList_eq_nil_iff]

/-- A text is read as the type and the subtype that it names, if it names them at all. -/
theorem ofString?_of_names (hnames : Names text main subtype) :
    ∃ parameters, ofString? text =
      if Text.lowered main = "" ∨ Text.lowered subtype = "" then none
      else some ⟨Text.lowered main, Text.lowered subtype, parameters⟩ := by
  obtain ⟨⟨front, before, behind, back, parameters, htext, hblank, hparameters⟩, htrimmed, hslash,
    hsemicolon⟩ := hnames
  obtain ⟨hfronts, hbacks⟩ := List.forall_mem_append.1 hblank
  obtain ⟨hfront, hbefore⟩ := List.forall_mem_append.1 hfronts
  obtain ⟨hbehind, hback⟩ := List.forall_mem_append.1 hbacks
  have hessence : ';' ∉
      front ++ main.toList ++ before ++ '/' :: (behind ++ subtype.toList ++ back) := by
    have hfree : ∀ {blanks : List Char}, (∀ c ∈ blanks, Text.isBlank c) → ';' ∉ blanks :=
      fun hblanks => Text.notMem_of_isBlank hblanks (by decide)
    simp [hfree hfront, hfree hbefore, hfree hbehind, hfree hback, hsemicolon]
  have hpieces : ((Text.splitFirst? ';' text.toList).getD (text.toList, [])).1 =
      front ++ main.toList ++ before ++ '/' :: (behind ++ subtype.toList ++ back) := by
    rw [htext]
    cases parameters with
    | nil => rw [List.append_nil, Text.splitFirst?_eq_none_iff.2 hessence, Option.getD_none]
    | cons c rest =>
        obtain rfl := hparameters c rfl
        rw [Text.splitFirst?_append hessence, Option.getD_some]
  have hmain : '/' ∉ front ++ main.toList ++ before := by
    have hfree : ∀ {blanks : List Char}, (∀ c ∈ blanks, Text.isBlank c) → '/' ∉ blanks :=
      fun hblanks => Text.notMem_of_isBlank hblanks (by decide)
    simp [hfree hfront, hfree hbefore, hslash]
  have hempty : ∀ name : String, name.toList.isEmpty = decide (Text.lowered name = "") := by
    intro name
    rw [Bool.eq_iff_iff, List.isEmpty_iff, decide_eq_true_eq, lowered_eq_empty_iff,
      String.toList_eq_nil_iff]
  refine ⟨readParameters ((Text.splitFirst? ';' text.toList).getD (text.toList, [])).2, ?_⟩
  rw [ofString?, ofText?_eq, hpieces, Text.splitFirst?_append hmain]
  simp only [Option.bind_some, htrimmed.1.trim_append hfront hbefore,
    htrimmed.2.trim_append hbehind hback, hempty, Bool.or_eq_true, decide_eq_true_eq]
  rfl

/-- Every text that is read as a media type names its type and its subtype. -/
theorem exists_names_of_ofString? (hread : ofString? text = some mediaType) :
    ∃ main subtype, Names text main subtype ∧ Text.lowered main = mediaType.main ∧
      Text.lowered subtype = mediaType.subtype ∧ main ≠ "" ∧ subtype ≠ "" := by
  rw [ofString?, ofText?_eq] at hread
  obtain ⟨⟨main, subtype⟩, hsplit, hread⟩ := Option.bind_eq_some_iff.1 hread
  obtain ⟨hnonempty, hmediaType⟩ := Option.ite_none_left_eq_some.1 hread
  obtain rfl := Option.some.inj hmediaType
  obtain ⟨hessence, hslash⟩ := Text.splitFirst?_eq_some_iff.1 hsplit
  obtain ⟨front, before, hmain, hfront, hbefore, -⟩ := Text.exists_trimBy Text.isBlank main
  obtain ⟨behind, back, hsubtype, hbehind, hback, -⟩ := Text.exists_trimBy Text.isBlank subtype
  -- The parameters are what stands from the first semicolon on.
  obtain ⟨parameters, htext, hparameters, hsemicolon⟩ : ∃ parameters : List Char,
      text.toList = main ++ '/' :: subtype ++ parameters ∧ (∀ c ∈ parameters.head?, c = ';') ∧
        ';' ∉ main ++ '/' :: subtype := by
    cases hpieces : Text.splitFirst? ';' text.toList with
    | none =>
        rw [hpieces, Option.getD_none] at hessence
        refine ⟨[], by rw [List.append_nil, ← hessence], by simp, ?_⟩
        rw [← hessence]
        exact Text.splitFirst?_eq_none_iff.1 hpieces
    | some pieces =>
        obtain ⟨htext, hfree⟩ := Text.splitFirst?_eq_some_iff.1 hpieces
        rw [hpieces, Option.getD_some] at hessence
        rw [hessence] at htext hfree
        exact ⟨_, htext, by simp, hfree⟩
  have hmainTrimmed : (Text.trim main).Sublist main := Text.trimBy_sublist _ _
  have hsubtypeTrimmed : (Text.trim subtype).Sublist subtype := Text.trimBy_sublist _ _
  simp only [Bool.or_eq_true, not_or, List.isEmpty_iff] at hnonempty
  simp only [List.mem_append, List.mem_cons, not_or] at hsemicolon
  refine ⟨String.ofList (Text.trim main), String.ofList (Text.trim subtype), ⟨?_, ?_, ?_, ?_⟩, ?_,
    ?_, ?_, ?_⟩
  · refine ⟨front, before, behind, back, parameters, ?_, ?_, hparameters⟩
    · rw [String.toList_ofList, String.toList_ofList, htext]
      conv_lhs => rw [hmain, hsubtype]
      rfl
    · simp only [List.forall_mem_append]
      exact ⟨⟨hfront, hbefore⟩, hbehind, hback⟩
  · simp only [String.toList_ofList]
    exact ⟨Text.isTrimmed_trim main, Text.isTrimmed_trim subtype⟩
  · rw [String.toList_ofList]
    exact fun hmem => hslash (hmainTrimmed.subset hmem)
  · simp only [String.toList_ofList]
    exact ⟨fun hmem => hsemicolon.1 (hmainTrimmed.subset hmem),
      fun hmem => hsemicolon.2.2 (hsubtypeTrimmed.subset hmem)⟩
  · rw [Text.lowered, String.toList_ofList]
  · rw [Text.lowered, String.toList_ofList]
  · rw [Ne, ← String.toList_eq_nil_iff, String.toList_ofList]
    exact hnonempty.1
  · rw [Ne, ← String.toList_eq_nil_iff, String.toList_ofList]
    exact hnonempty.2

theorem means_iff : Means text main subtype ↔
    ∃ mediaType, ofString? text = some mediaType ∧ mediaType.main = main ∧
      mediaType.subtype = subtype := by
  constructor
  · rintro ⟨main', subtype', hnames, hmain, hsubtype, rfl, rfl⟩
    obtain ⟨parameters, hread⟩ := ofString?_of_names hnames
    have hnonempty : ¬(Text.lowered main' = "" ∨ Text.lowered subtype' = "") := by
      simp only [lowered_eq_empty_iff, not_or]
      exact ⟨hmain, hsubtype⟩
    rw [if_neg hnonempty] at hread
    exact ⟨_, hread, rfl, rfl⟩
  · rintro ⟨mediaType, hread, rfl, rfl⟩
    obtain ⟨main', subtype', hnames, hmain, hsubtype, hne⟩ := exists_names_of_ofString? hread
    exact ⟨main', subtype', hnames, hne.1, hne.2, hmain, hsubtype⟩

/-- Texts that differ only in spelling are read as one type and subtype, or not at all. -/
theorem Respelled.rel_ofString? (hrespelled : Respelled text text') :
    Option.Rel (fun mediaType mediaType' =>
      mediaType.main = mediaType'.main ∧ mediaType.subtype = mediaType'.subtype)
      (ofString? text) (ofString? text') := by
  obtain ⟨main, subtype, main', subtype', hnames, hnames', hmain, hsubtype⟩ := hrespelled
  obtain ⟨parameters, hread⟩ := ofString?_of_names hnames
  obtain ⟨parameters', hread'⟩ := ofString?_of_names hnames'
  rw [hread, hread', ← beq_iff_eq.1 hmain, ← beq_iff_eq.1 hsubtype]
  split
  · exact .none
  · exact .some ⟨rfl, rfl⟩

/-! ## Keys -/

theorem slash_notMem_main (hread : ofString? text = some mediaType) :
    '/' ∉ mediaType.main.toList := by
  obtain ⟨main', _, hnames, hmain, -⟩ := exists_names_of_ofString? hread
  rw [← hmain, Text.lowered, String.toList_ofList, List.mem_map]
  rintro ⟨c, hc, hlower⟩
  by_cases hupper : Text.isUpperLetter c
  · have hbounds := Text.isUpperLetter_iff.1 hupper
    have hslash : c.toNat + 32 = '/'.toNat := by
      rw [← Text.toNat_lowerChar hupper, hlower]
    rw [show '/'.toNat = 47 from rfl] at hslash
    omega
  · rw [Text.lowerChar, if_neg hupper] at hlower
    exact hnames.slash (hlower ▸ hc)

/-- An essence is that of a type without a slash and of a subtype in one way only. -/
theorem essence_eq_iff (hmain : '/' ∉ main.toList) (hslash : '/' ∉ mediaType.main.toList) :
    mediaType.essence = main ++ "/" ++ subtype ↔
      mediaType.main = main ∧ mediaType.subtype = subtype := by
  constructor
  · intro hessence
    have hchars := congrArg String.toList hessence
    simp only [essence, String.toList_append] at hchars
    have hslashText : "/".toList = ['/'] := rfl
    rw [hslashText, List.append_assoc, List.append_assoc, List.singleton_append,
      List.singleton_append] at hchars
    have hsplit := congrArg (Text.splitFirst? '/') hchars
    rw [Text.splitFirst?_append hslash, Text.splitFirst?_append hmain, Option.some.injEq,
      Prod.mk.injEq] at hsplit
    exact ⟨String.toList_injective hsplit.1, String.toList_injective hsplit.2⟩
  · rintro ⟨rfl, rfl⟩
    rfl

/-- The keys for the reader of a media type, the most specific first: the type with the subtype, the
suffix of the subtype, if it has one, and the type alone. -/
inductive ReaderKeys (main subtype : String) : List String → Prop
  | suffixed {front suffix : List Char} (hsubtype : subtype.toList = front ++ '+' :: suffix)
      (hsuffix : '+' ∉ suffix) :
      ReaderKeys main subtype
        [main ++ "/" ++ subtype, main ++ "/*+" ++ String.ofList suffix, main ++ "/*"]
  | plain (hsubtype : '+' ∉ subtype.toList) :
      ReaderKeys main subtype [main ++ "/" ++ subtype, main ++ "/*"]

theorem readerKeys_candidates (mediaType : MediaType) :
    ReaderKeys mediaType.main mediaType.subtype mediaType.candidates := by
  rw [candidates, suffix?]
  cases hsplit : Text.splitLast? '+' mediaType.subtype.toList with
  | none => exact .plain (Text.splitLast?_eq_none_iff.1 hsplit)
  | some pieces =>
      obtain ⟨front, suffix⟩ := pieces
      obtain ⟨hsubtype, hsuffix⟩ := Text.splitLast?_eq_some_iff.1 hsplit
      exact .suffixed hsubtype hsuffix

end MediaType

/-! ## Searches -/

section Searches

variable {κ α : Type} {belongs : κ → α → Prop} {lookup : κ → Option α} {keys : List κ}

/-- What is found when keys are tried one after the other: an item of the first key that has any. -/
inductive FoundInOrder (belongs : κ → α → Prop) : List κ → Option α → Prop
  | found {key : κ} {keys : List κ} {item : α} (hitem : belongs key item) :
      FoundInOrder belongs (key :: keys) (some item)
  | passed {key : κ} {keys : List κ} {found? : Option α} (hnone : ∀ item, ¬belongs key item)
      (hrest : FoundInOrder belongs keys found?) : FoundInOrder belongs (key :: keys) found?
  | nothing : FoundInOrder belongs [] none

theorem foundInOrder_findSome?
    (hlookup : ∀ key ∈ keys, ∀ item, lookup key = some item ↔ belongs key item) :
    FoundInOrder belongs keys (keys.findSome? lookup) := by
  induction keys with
  | nil => exact .nothing
  | cons key rest ih =>
      obtain ⟨hkey, hrest⟩ := List.forall_mem_cons.1 hlookup
      rw [List.findSome?_cons]
      cases hitem : lookup key with
      | some item => exact .found ((hkey item).1 hitem)
      | none =>
          refine .passed (fun item hbelongs => ?_) (ih hrest)
          rw [(hkey item).2 hbelongs] at hitem
          cases hitem

end Searches

section Declared

variable {α : Type} {content : Entries α} {key : String × String} {text text' : String}

/-- The first entry of a content map whose name means a type and a subtype. -/
def IsFirstDeclared (content : Entries α) (key : String × String) (entry : String × α) : Prop :=
  ∃ before after, content = before ++ entry :: after ∧ MediaType.Means entry.1 key.1 key.2 ∧
    ∀ other ∈ before, ¬MediaType.Means other.1 key.1 key.2

/-- The search for a declared type and subtype. -/
def declared? (content : Entries α) (key : String × String) : Option (String × α) :=
  content.find? fun (name, _) =>
    (MediaType.ofString? name).any fun mediaType => mediaType.essence == key.1 ++ "/" ++ key.2

theorem any_essence_iff (hslash : '/' ∉ key.1.toList) {name : String} :
    ((MediaType.ofString? name).any fun mediaType =>
      mediaType.essence == key.1 ++ "/" ++ key.2) = true ↔ MediaType.Means name key.1 key.2 := by
  rw [MediaType.means_iff, Option.any_eq_true]
  constructor
  · rintro ⟨mediaType, hread, hessence⟩
    exact ⟨mediaType, hread, (MediaType.essence_eq_iff hslash
      (MediaType.slash_notMem_main hread)).1 (beq_iff_eq.1 hessence)⟩
  · rintro ⟨mediaType, hread, hmain, hsubtype⟩
    exact ⟨mediaType, hread, beq_iff_eq.2 ((MediaType.essence_eq_iff hslash
      (MediaType.slash_notMem_main hread)).2 ⟨hmain, hsubtype⟩)⟩

theorem declared?_eq_some_iff (hslash : '/' ∉ key.1.toList) {entry : String × α} :
    declared? content key = some entry ↔ IsFirstDeclared content key entry := by
  rw [declared?, List.find?_eq_some_iff_append, IsFirstDeclared, any_essence_iff hslash]
  have hfree : ∀ other : String × α, ((!(MediaType.ofString? other.1).any fun mediaType =>
      mediaType.essence == key.1 ++ "/" ++ key.2) = true) ↔
        ¬MediaType.Means other.1 key.1 key.2 := by
    intro other
    rw [Bool.not_eq_true', ← Bool.not_eq_true, any_essence_iff hslash]
  simp only [hfree]
  constructor
  · rintro ⟨hmeans, before, after, hcontent, hbefore⟩
    exact ⟨before, after, hcontent, hmeans, hbefore⟩
  · rintro ⟨before, after, hcontent, hmeans, hbefore⟩
    exact ⟨hmeans, before, after, hcontent, hbefore⟩

theorem selectMediaType?_eq (content : Entries α) (text : String) :
    selectMediaType? content (some text) = (MediaType.ofString? text).bind fun mediaType =>
      [(mediaType.main, mediaType.subtype), (mediaType.main, "*"), ("*", "*")].findSome?
        (declared? content) := by
  cases hread : MediaType.ofString? text with
  | none => simp only [selectMediaType?, hread, Option.bind_none]
  | some mediaType =>
      have hwildcard : mediaType.wildcard = mediaType.main ++ "/" ++ "*" := by
        rw [MediaType.wildcard, String.append_assoc]
        rfl
      have hany : "*/*" = "*" ++ "/" ++ "*" := by decide
      simp only [selectMediaType?, hread, Option.bind_some]
      rw [hwildcard, hany]
      change (declared? content (mediaType.main, mediaType.subtype)).or
        ((declared? content (mediaType.main, "*")).or (declared? content ("*", "*"))) = _
      simp only [List.findSome?_cons, List.findSome?_nil]
      cases declared? content (mediaType.main, mediaType.subtype) with
      | some entry => rfl
      | none =>
          cases declared? content (mediaType.main, "*") with
          | some entry => rfl
          | none => cases declared? content ("*", "*") <;> rfl

theorem selectMediaType?_respelled (content : Entries α)
    (hrespelled : MediaType.Respelled text text') :
    selectMediaType? content (some text) = selectMediaType? content (some text') := by
  have hrel := hrespelled.rel_ofString?
  rw [selectMediaType?_eq, selectMediaType?_eq]
  revert hrel
  generalize MediaType.ofString? text = mediaType?
  generalize MediaType.ofString? text' = mediaType?'
  rintro (⟨hmain, hsubtype⟩ | _)
  · simp only [Option.bind_some, hmain, hsubtype]
  · rfl

end Declared

namespace MediaRegistry

variable {registrations : List (String × BodyReader)} {key : String} {reader : BodyReader}

/-- The registry with readers that were registered one after the other. -/
def ofRegistrations (registrations : List (String × BodyReader)) : MediaRegistry :=
  registrations.foldl (fun registry (key, reader) => registry.register key reader) empty

/-- The standard readers are registered too. -/
example : ofRegistrations standard.readers = standard := rfl

/-- The reader that was registered last under a key, which is given in lower case. -/
def IsLastRegistered (registrations : List (String × BodyReader)) (key : String)
    (reader : BodyReader) : Prop :=
  ∃ before name after, registrations = before ++ (name, reader) :: after ∧
    Text.lowered name = key ∧ ∀ other ∈ after, Text.lowered other.1 ≠ key

theorem get?_ofRegistrations (registrations : List (String × BodyReader)) (key : String) :
    Entries.get? (ofRegistrations registrations).readers key =
      (registrations.reverse.find? fun registration => Text.lowered registration.1 == key).map
        Prod.snd := by
  induction registrations using List.reverseRecOn with
  | nil => rfl
  | append_singleton registrations last ih =>
      have hstep : (ofRegistrations (registrations ++ [last])).readers =
          Entries.insert (ofRegistrations registrations).readers (Text.lowered last.1) last.2 := by
        rw [ofRegistrations, List.foldl_append]
        rfl
      rw [hstep, List.reverse_concat, List.find?_cons]
      by_cases hlast : Text.lowered last.1 = key
      · rw [hlast, Entries.get?_insert_self, beq_self_eq_true]
        rfl
      · rw [Entries.get?_insert_of_ne (Ne.symm hlast), ih, beq_eq_false_iff_ne.2 hlast]

theorem get?_ofRegistrations_iff :
    Entries.get? (ofRegistrations registrations).readers key = some reader ↔
      IsLastRegistered registrations key reader := by
  rw [get?_ofRegistrations, Option.map_eq_some_iff]
  constructor
  · rintro ⟨⟨name, _⟩, hfind, rfl⟩
    obtain ⟨hname, after, before, hsplit, hafter⟩ := List.find?_eq_some_iff_append.1 hfind
    refine ⟨before.reverse, name, after.reverse, ?_, beq_iff_eq.1 hname, fun other hother => ?_⟩
    · rw [← List.reverse_reverse registrations, hsplit]
      simp
    · simpa using hafter other (List.mem_reverse.1 hother)
  · rintro ⟨before, name, after, rfl, hname, hafter⟩
    refine ⟨(name, reader), List.find?_eq_some_iff_append.2 ⟨beq_iff_eq.2 hname, after.reverse,
      before.reverse, by simp, fun other hother => ?_⟩, rfl⟩
    simpa using hafter other (List.mem_reverse.1 hother)

theorem bind_find?_respelled (registry : MediaRegistry) {text text' : String}
    (hrespelled : MediaType.Respelled text text') :
    (MediaType.ofString? text).bind registry.find? =
      (MediaType.ofString? text').bind registry.find? := by
  have hrel := hrespelled.rel_ofString?
  revert hrel
  generalize MediaType.ofString? text = mediaType?
  generalize MediaType.ofString? text' = mediaType?'
  rintro (⟨hmain, hsubtype⟩ | _)
  · simp only [Option.bind_some, find?, MediaType.candidates, MediaType.suffix?, MediaType.essence,
      MediaType.wildcard, hmain, hsubtype]
  · rfl

end MediaRegistry

/-- What is declared for a content type is searched by type and subtype, then by type, then for any
type, and a reader by type and subtype, then by suffix, then by type.  Neither search sees how the
content type is spelled. -/
theorem lookups_go_by_type_and_subtype {α : Type} (content : Entries α)
    (registrations : List (String × BodyReader)) :
    (∀ text mediaType, MediaType.ofString? text = some mediaType →
      MediaType.Means text mediaType.main mediaType.subtype ∧
      FoundInOrder (IsFirstDeclared content)
        [(mediaType.main, mediaType.subtype), (mediaType.main, "*"), ("*", "*")]
        (selectMediaType? content (some text)) ∧
      ∃ keys, MediaType.ReaderKeys mediaType.main mediaType.subtype keys ∧
        FoundInOrder (MediaRegistry.IsLastRegistered registrations) keys
          ((MediaRegistry.ofRegistrations registrations).find? mediaType)) ∧
    ∀ text text', MediaType.Respelled text text' →
      selectMediaType? content (some text) = selectMediaType? content (some text') ∧
      (MediaType.ofString? text).bind (MediaRegistry.ofRegistrations registrations).find? =
        (MediaType.ofString? text').bind (MediaRegistry.ofRegistrations registrations).find? := by
  constructor
  · intro text mediaType hread
    refine ⟨MediaType.means_iff.2 ⟨mediaType, hread, rfl, rfl⟩, ?_, mediaType.candidates,
      MediaType.readerKeys_candidates mediaType, ?_⟩
    · rw [selectMediaType?_eq, hread, Option.bind_some]
      have hslash := MediaType.slash_notMem_main hread
      refine foundInOrder_findSome? fun key hkey entry => declared?_eq_some_iff ?_
      simp only [List.mem_cons, List.not_mem_nil, or_false] at hkey
      rcases hkey with rfl | rfl | rfl
      · exact hslash
      · exact hslash
      · decide
    · exact foundInOrder_findSome? fun key _ reader => MediaRegistry.get?_ofRegistrations_iff
  · intro text text' hrespelled
    exact ⟨selectMediaType?_respelled content hrespelled,
      MediaRegistry.bind_find?_respelled _ hrespelled⟩

/-- The suffix leads to the reader, since a key that was registered with a parameter is never asked
for, and a range that is declared first gives way to the type itself. -/
theorem problem_type_is_looked_up_in_any_spelling :
    let text := "\tApplication / Problem+JSON ; charset=\"a/b\""
    let content : Entries Nat :=
      [("APPLICATION/*", 0), ("json", 1), (" application/problem+json; q=1", 2)]
    let registrations := MediaRegistry.standard.readers ++ [
      ("application/problem+json; q=1", BodyReader.text), ("Application/*+JSON", BodyReader.binary)]
    MediaType.Respelled text "application/problem+json" ∧
      selectMediaType? content (some text) = some (" application/problem+json; q=1", 2) ∧
      (MediaType.ofString? text).bind (MediaRegistry.ofRegistrations registrations).find? =
        some BodyReader.binary := by
  intro text content registrations
  have hwritten : "\tApplication / Problem+JSON ; charset=\"a/b\"".toList =
      ['\t'] ++ "Application".toList ++ [' '] ++ '/' :: ([' '] ++ "Problem+JSON".toList ++ [' ']) ++
        "; charset=\"a/b\"".toList := by decide
  have hnames : MediaType.Names text "Application" "Problem+JSON" := {
    layout := ⟨['\t'], [' '], [' '], [' '], _, hwritten, by simp [Text.isBlank], by simp⟩
    trimmed := by decide
    slash := by decide
    semicolon := by decide }
  have hplain : MediaType.Names "application/problem+json" "application" "problem+json" := {
    layout := ⟨[], [], [], [], [], rfl, by simp, by simp⟩
    trimmed := by decide
    slash := by decide
    semicolon := by decide }
  have hrespelled : MediaType.Respelled text "application/problem+json" :=
    ⟨_, _, _, _, hnames, hplain, by decide, by decide⟩
  obtain ⟨hselected, hfound⟩ :=
    (lookups_go_by_type_and_subtype content registrations).2 text _ hrespelled
  refine ⟨hrespelled, ?_, ?_⟩
  · rw [hselected]
    decide
  · rw [hfound]
    rfl

end ApiContract
