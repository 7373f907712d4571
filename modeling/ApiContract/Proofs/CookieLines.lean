import ApiContract.Proofs.HeaderSpelling
import ApiContract.Proofs.Splitting
import ApiContract.Proofs.Trimming

/-!
# Cookies from header lines

A server framework may hand over the cookies of a request one by one, or leave them in the lines of
the `Cookie` header.  However the cookies are spread over such lines, reading them gives the map
that handing them over gives, so no parameter and no key that is kept in a cookie can tell the two
apart.
-/

namespace ApiContract

/-! ## Written cookies -/

/-- A name and a value that can stand in a line with other cookies. -/
structure IsCookie (cookie : String × String) : Prop where
  named : cookie.1 ≠ ""
  equals : '=' ∉ cookie.1.toList
  semicolon : ';' ∉ cookie.1.toList ∧ ';' ∉ cookie.2.toList
  trimmed : Text.IsTrimmed cookie.1.toList ∧ Text.IsTrimmed cookie.2.toList

/-- A field is a cookie with nothing but white space around it. -/
def WritesCookie (cookie : String × String) (field : List Char) : Prop :=
  ∃ front back : List Char, (∀ c ∈ front, Text.isBlank c) ∧ (∀ c ∈ back, Text.isBlank c) ∧
    field = front ++ (cookie.1.toList ++ '=' :: cookie.2.toList) ++ back

/-- A line is made up of cookies with semicolons between them. -/
def WritesCookies (cookies : List (String × String)) (line : String) : Prop :=
  ∃ fields, List.Forall₂ WritesCookie cookies fields ∧ line.toList = Text.joinWith ';' fields

/-- Header lines carry cookies in order, some in each `Cookie` line. -/
inductive CarriesCookies : List (String × String) → List (String × String) → Prop
  | done : CarriesCookies [] []
  | other {cookies lines : List (String × String)} {name value : String}
      (hname : ¬Text.sameLetters name "cookie") (hrest : CarriesCookies cookies lines) :
      CarriesCookies cookies ((name, value) :: lines)
  | line {cookies rest lines : List (String × String)} {name value : String}
      (hname : Text.sameLetters name "cookie") (hline : WritesCookies cookies value)
      (hrest : CarriesCookies rest lines) :
      CarriesCookies (cookies ++ rest) ((name, value) :: lines)

/-- A request to which cookies were added one after the other. -/
def Request.withCookies (request : Request) (cookies : List (String × String)) : Request :=
  cookies.foldl (fun request cookie => request.withCookie cookie.1 cookie.2) request

variable {cookies lines : List (String × String)} {cookie : String × String} {field : List Char}

/-! ## Reading lines -/

/-- Only the first equals sign separates, so a value may hold others. -/
theorem Request.cookie?_of_writesCookie (hcookie : IsCookie cookie)
    (hwrites : WritesCookie cookie field) : Request.cookie? field = some cookie := by
  obtain ⟨front, back, hfront, hback, rfl⟩ := hwrites
  have hequals : '=' ∉ front ++ cookie.1.toList := by
    rw [List.mem_append, not_or]
    exact ⟨Text.notMem_of_isBlank hfront (by decide), hcookie.equals⟩
  have hfield : front ++ (cookie.1.toList ++ '=' :: cookie.2.toList) ++ back =
      (front ++ cookie.1.toList) ++ '=' :: (cookie.2.toList ++ back) := by
    simp
  have hname : Text.trim (front ++ cookie.1.toList) = cookie.1.toList := by
    have htrim := hcookie.trimmed.1.trim_append hfront (List.forall_mem_nil _)
    rwa [List.append_nil] at htrim
  have hvalue : Text.trim (cookie.2.toList ++ back) = cookie.2.toList := by
    have htrim := hcookie.trimmed.2.trim_append (List.forall_mem_nil _) hback
    rwa [List.nil_append] at htrim
  have hnonempty : cookie.1.toList.isEmpty = false := by
    simpa using hcookie.named
  simp only [Request.cookie?, hfield, Text.splitFirst?_append hequals, hname, hvalue, hnonempty,
    Bool.false_eq_true, if_false, String.ofList_toList]

theorem semicolon_notMem_of_writesCookie (hcookie : IsCookie cookie)
    (hwrites : WritesCookie cookie field) : ';' ∉ field := by
  obtain ⟨front, back, hfront, hback, rfl⟩ := hwrites
  have hfree : ';' ∉ front ∧ ';' ∉ back :=
    ⟨Text.notMem_of_isBlank hfront (by decide), Text.notMem_of_isBlank hback (by decide)⟩
  simp [hfree, hcookie.semicolon]

theorem filterMap_cookie? {fields : List (List Char)}
    (hcookies : ∀ cookie ∈ cookies, IsCookie cookie)
    (hwrites : List.Forall₂ WritesCookie cookies fields) :
    fields.filterMap Request.cookie? = cookies := by
  induction hwrites with
  | nil => rfl
  | cons hfirst _ ih =>
      obtain ⟨hcookie, hrest⟩ := List.forall_mem_cons.1 hcookies
      rw [List.filterMap_cons_some (Request.cookie?_of_writesCookie hcookie hfirst), ih hrest]

theorem filterMap_splitAll_of_writesCookies {line : String}
    (hcookies : ∀ cookie ∈ cookies, IsCookie cookie) (hwrites : WritesCookies cookies line) :
    (Text.splitAll ';' line.toList).filterMap Request.cookie? = cookies := by
  obtain ⟨fields, hfields, hline⟩ := hwrites
  rw [hline]
  cases hfields with
  | nil => rfl
  | cons hfirst hrest =>
      have hall := List.Forall₂.cons hfirst hrest
      have hsemicolon : ∀ field ∈ _ :: _, ';' ∉ field :=
        forall_mem_of_forall₂ hall fun cookie hmem field hwrites =>
          semicolon_notMem_of_writesCookie (hcookies cookie hmem) hwrites
      rw [Text.splitAll_joinWith (List.cons_ne_nil _ _) hsemicolon, filterMap_cookie? hcookies hall]

/-- The lines give the cookies in order, however they are spread over them. -/
theorem filterMap_fields_of_carriesCookies (hcookies : ∀ cookie ∈ cookies, IsCookie cookie)
    (hcarries : CarriesCookies cookies lines) :
    ((Headers.getAll ⟨lines⟩ "cookie").flatMap fun line =>
      Text.splitAll ';' line.toList).filterMap Request.cookie? = cookies := by
  induction hcarries with
  | done => rfl
  | other hname _ ih =>
      rw [Headers.getAll_cons_of_other hname]
      exact ih hcookies
  | line hname hline _ ih =>
      obtain ⟨hhere, hrest⟩ := List.forall_mem_append.1 hcookies
      rw [Headers.getAll_cons_of_same hname, List.flatMap_cons, List.filterMap_append,
        filterMap_splitAll_of_writesCookies hhere hline, ih hrest]

/-! ## Both ways -/

theorem Request.cookies_withCookies (request : Request) (cookies : List (String × String)) :
    (request.withCookies cookies).cookies =
      cookies.foldl (fun entries cookie => Entries.insert entries cookie.1 cookie.2)
        request.cookies := by
  unfold withCookies
  induction cookies generalizing request with
  | nil => rfl
  | cons cookie rest ih => rw [List.foldl_cons, List.foldl_cons, ih]; rfl

theorem Entries.insert_ne_nil {α : Type} (entries : Entries α) (key : String) (value : α) :
    Entries.insert entries key value ≠ [] := by
  cases entries with
  | nil => exact List.cons_ne_nil _ _
  | cons entry rest =>
      unfold Entries.insert
      split <;> exact List.cons_ne_nil _ _

theorem Entries.ofPairs_ne_nil {α : Type} {pairs : List (String × α)} (hne : pairs ≠ []) :
    Entries.ofPairs pairs ≠ [] := by
  obtain ⟨front, last, rfl⟩ := (List.eq_nil_or_concat' pairs).resolve_left hne
  rw [Entries.ofPairs, List.foldl_append]
  exact Entries.insert_ne_nil _ _ _

theorem Request.cookieMap_withCookies {request : Request} (hempty : request.cookies = [])
    (hne : cookies ≠ []) : (request.withCookies cookies).cookieMap = Entries.ofPairs cookies := by
  have hcookies : (request.withCookies cookies).cookies = Entries.ofPairs cookies := by
    rw [cookies_withCookies, hempty]
    rfl
  have hsome : (Entries.ofPairs cookies).isEmpty = false := by
    rw [List.isEmpty_eq_false_iff]
    exact Entries.ofPairs_ne_nil hne
  rw [cookieMap, hcookies, hsome]
  rfl

theorem Request.cookieMap_of_carriesCookies {request : Request} (hempty : request.cookies = [])
    (hcookies : ∀ cookie ∈ cookies, IsCookie cookie)
    (hcarries : CarriesCookies cookies request.headers.lines) :
    request.cookieMap = Entries.ofPairs cookies := by
  rw [cookieMap, hempty]
  exact congrArg Entries.ofPairs (filterMap_fields_of_carriesCookies hcookies hcarries)

theorem ParameterSources.rawText?_cookie {parameter : Parameter}
    {sources sources' : ParameterSources} (hplace : parameter.place = .cookie)
    (hcookies : sources.cookies = sources'.cookies) :
    sources.rawText? parameter = sources'.rawText? parameter := by
  unfold rawText?
  rw [hplace, hcookies]

/-- Cookies that were added one by one and cookies that are spread over the lines of a header are
the same map in the same order, so that the parameters and the keys that are read from it agree. -/
theorem added_cookies_agree_with_lines (added sent : Request) (hne : cookies ≠ [])
    (hcookies : ∀ cookie ∈ cookies, IsCookie cookie) (hadded : added.cookies = [])
    (hsent : sent.cookies = []) (hcarries : CarriesCookies cookies sent.headers.lines) :
    (added.withCookies cookies).cookieMap = sent.cookieMap ∧
    (Entries.Distinct cookies → sent.cookieMap = cookies) ∧
    ∀ captures captures' : Entries String,
      (∀ (validator : Validator) (parameter : Parameter) (part : Part), parameter.place = .cookie →
        validator.judgeParameter parameter (.ofRequest (added.withCookies cookies) captures) part =
          validator.judgeParameter parameter (.ofRequest sent captures') part) ∧
      ∀ (rules : SecurityRules) (scheme key : String),
        Entries.get? rules.schemes scheme = some (.apiKey key .cookie) →
          rules.check (.ofRequest (added.withCookies cookies) captures) scheme =
            rules.check (.ofRequest sent captures') scheme := by
  have hread := Request.cookieMap_of_carriesCookies hsent hcookies hcarries
  have hmap : (added.withCookies cookies).cookieMap = sent.cookieMap :=
    (Request.cookieMap_withCookies hadded hne).trans hread.symm
  refine ⟨hmap, fun hdistinct => ?_, fun captures captures' => ?_⟩
  · rw [hread, Entries.ofPairs_of_distinct hdistinct]
  · have hextract : ∀ (styles : StyleRegistry) (table : SchemaTable) (parameter : Parameter),
        parameter.place = .cookie →
        styles.extract table parameter (.ofRequest (added.withCookies cookies) captures) =
          styles.extract table parameter (.ofRequest sent captures') :=
      fun styles table parameter hplace =>
        styles.extract_eq_of_rawText? table (ParameterSources.rawText?_cookie hplace hmap)
    constructor
    · intro validator parameter part hplace
      unfold Validator.judgeParameter Validator.parameterValue?
      rw [hextract _ _ _ hplace]
    · intro rules scheme key hscheme
      have hcredential := SecurityRules.credential?_congr
        (hextract rules.styles rules.schemas (.new key .cookie none) rfl)
      unfold SecurityRules.check
      rw [hscheme]
      dsimp only
      rw [hcredential]

/-- A value with equals signs, an empty one and one with a space, on two lines with another header
between them. -/
theorem session_is_read_from_two_lines :
    let cookies := [("session", "a=b=="), ("theme", ""), ("näme", "x y")]
    let added := Request.new "GET" "/"
    let sent : Request := { Request.new "GET" "/" with headers := ⟨[
      ("cookie", "session=a=b==;  theme="), ("Accept", "*/*"), ("COOKIE", "\tnäme=x y ")]⟩ }
    cookies ≠ [] ∧ (∀ cookie ∈ cookies, IsCookie cookie) ∧ added.cookies = [] ∧ sent.cookies = [] ∧
      CarriesCookies cookies sent.headers.lines ∧ sent.cookieMap = cookies ∧
      (added.withCookies cookies).cookieMap = sent.cookieMap := by
  intro cookies added sent
  have hcookies : ∀ cookie ∈ cookies, IsCookie cookie := by
    simp only [cookies, List.forall_mem_cons]
    exact ⟨⟨by decide, by decide, by decide, by decide⟩,
      ⟨by decide, by decide, by decide, by decide⟩,
      ⟨by decide, by decide, by decide, by decide⟩, by simp⟩
  have hfirst : WritesCookies [("session", "a=b=="), ("theme", "")] "session=a=b==;  theme=" :=
    ⟨["session=a=b==".toList, "  theme=".toList],
      .cons ⟨[], [], by simp, by simp, by decide⟩
        (.cons ⟨[' ', ' '], [], by simp [Text.isBlank], by simp, by decide⟩ .nil), by decide⟩
  have hsecond : WritesCookies [("näme", "x y")] "\tnäme=x y " :=
    ⟨["\tnäme=x y ".toList],
      .cons ⟨['\t'], [' '], by simp [Text.isBlank], by simp [Text.isBlank], by decide⟩ .nil,
      by decide⟩
  have hcarries : CarriesCookies cookies sent.headers.lines :=
    .line (by decide) hfirst (.other (by decide) (.line (by decide) hsecond .done))
  have hagree := added_cookies_agree_with_lines added sent (List.cons_ne_nil _ _) hcookies rfl rfl
    hcarries
  exact ⟨List.cons_ne_nil _ _, hcookies, rfl, rfl, hcarries, hagree.2.1 (by decide), hagree.1⟩

end ApiContract
