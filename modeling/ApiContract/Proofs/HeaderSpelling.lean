import ApiContract.Proofs.Observation
import ApiContract.Proofs.Transcoding

/-!
# The spelling of headers

The lines of a request may spell the name of a header in any case, and may bring the values of one
header together in one line.  Every reader of headers asks for the joined values of a name, but for
the cookies, which are read line by line, and the declared type of the body, which is the first of
its lines.  As long as lines of these two are not put together, a change of spelling is not seen,
and with it the letter case of the method is not seen either.
-/

namespace ApiContract

/-! ## Letter case -/

namespace Text

theorem sameLetters_congr {a b : String} (hsame : sameLetters a b) (c : String) :
    sameLetters a c = sameLetters b c := by
  unfold sameLetters at hsame ⊢
  rw [beq_iff_eq.1 hsame]

theorem isUpperLetter_iff {c : Char} : isUpperLetter c ↔ 65 ≤ c.toNat ∧ c.toNat ≤ 90 := by
  simp [isUpperLetter, Char.le_def, UInt32.le_iff_toNat_le]

theorem isLowerLetter_iff {c : Char} : isLowerLetter c ↔ 97 ≤ c.toNat ∧ c.toNat ≤ 122 := by
  simp [isLowerLetter, Char.le_def, UInt32.le_iff_toNat_le]

theorem toNat_lowerChar {c : Char} (hupper : isUpperLetter c) :
    (lowerChar c).toNat = c.toNat + 32 := by
  have hbounds := isUpperLetter_iff.1 hupper
  have hvalid : (c.toNat + 32).isValidChar := by
    left
    omega
  rw [lowerChar, if_pos hupper, Utf8.toNat_charOfNat hvalid]

theorem upperChar_lowerChar (c : Char) : upperChar (lowerChar c) = upperChar c := by
  by_cases hupper : isUpperLetter c
  · have hbounds := isUpperLetter_iff.1 hupper
    have hlowered := toNat_lowerChar hupper
    have hlower : isLowerLetter (lowerChar c) := by
      rw [isLowerLetter_iff, hlowered]
      omega
    have hnotLower : ¬isLowerLetter c := by
      rw [isLowerLetter_iff]
      omega
    rw [upperChar, if_pos hlower, hlowered, Nat.add_sub_cancel, Char.ofNat_toNat, upperChar,
      if_neg hnotLower]
  · rw [lowerChar, if_neg hupper]

theorem uppered_eq_of_sameLetters {a b : String} (hsame : sameLetters a b) :
    uppered a = uppered b := by
  have hlowered : lowered a = lowered b := beq_iff_eq.1 hsame
  have hchars : a.toList.map lowerChar = b.toList.map lowerChar := String.ofList_injective hlowered
  have huppered := congrArg (List.map upperChar) hchars
  simp only [List.map_map, Function.comp_def, upperChar_lowerChar] at huppered
  unfold uppered
  rw [huppered]

/-- Texts that were joined before are joined with their neighbours as if each stood alone. -/
theorem intercalate_joined (separator : String) (front : List String) (text : String)
    (texts rest : List String) :
    separator.intercalate (front ++ separator.intercalate (text :: texts) :: rest) =
      separator.intercalate (front ++ text :: (texts ++ rest)) := by
  have hjoined : separator.intercalate (separator.intercalate (text :: texts) :: rest) =
      separator.intercalate (text :: (texts ++ rest)) := by
    induction texts generalizing text with
    | nil => simp
    | cons next texts ih =>
        calc separator.intercalate (separator.intercalate (text :: next :: texts) :: rest)
            = text ++ (separator ++
                separator.intercalate (separator.intercalate (next :: texts) :: rest)) := by
              simp [String.append_assoc]
          _ = text ++ (separator ++ separator.intercalate (next :: (texts ++ rest))) := by
              rw [ih next]
          _ = separator.intercalate (text :: (next :: texts ++ rest)) := by
              simp [String.append_assoc]
  cases front with
  | nil => exact hjoined
  | cons first front =>
      rw [String.intercalate_append_of_ne_nil (List.cons_ne_nil _ _) (List.cons_ne_nil _ _),
        String.intercalate_append_of_ne_nil (List.cons_ne_nil _ _) (List.cons_ne_nil _ _), hjoined]

end Text

/-! ## Header lines -/

namespace Headers

/-- One change of spelling. -/
inductive Respells : Headers → Headers → Prop
  /-- The name of one line is written with letters of another case. -/
  | recase {front tail : List (String × String)} {name name' value : String}
      (hname : Text.sameLetters name name') :
      Respells ⟨front ++ (name, value) :: tail⟩ ⟨front ++ (name', value) :: tail⟩
  /-- The values that a header has in a stretch of lines are put into the first line of these. -/
  | combine {front stretch tail : List (String × String)} {name value : String}
      (hcookie : ¬Text.sameLetters name "cookie")
      (hcontentType : ¬Text.sameLetters name "content-type") :
      Respells ⟨front ++ (name, value) :: (stretch ++ tail)⟩
        ⟨front ++ (name, ",".intercalate (value :: getAll ⟨stretch⟩ name)) ::
          (stretch.filter (fun line => !Text.sameLetters line.1 name) ++ tail)⟩

/-- What is read of two lists of header lines is the same. -/
structure ReadAlike (headers headers' : Headers) : Prop where
  joined? : ∀ name, headers.joined? name = headers'.joined? name
  cookies : headers.getAll "cookie" = headers'.getAll "cookie"
  contentType? : headers.get? "content-type" = headers'.get? "content-type"

theorem ReadAlike.trans {headers headers' headers'' : Headers}
    (hfirst : headers.ReadAlike headers') (hsecond : headers'.ReadAlike headers'') :
    headers.ReadAlike headers'' where
  joined? name := (hfirst.joined? name).trans (hsecond.joined? name)
  cookies := hfirst.cookies.trans hsecond.cookies
  contentType? := hfirst.contentType?.trans hsecond.contentType?

theorem readAlike_of_getAll {headers headers' : Headers}
    (hall : ∀ name, headers.getAll name = headers'.getAll name) : headers.ReadAlike headers' where
  joined? name := by rw [Headers.joined?, hall, Headers.joined?]
  cookies := hall "cookie"
  contentType? := by rw [get?, hall, get?]

theorem getAll_append (lines more : List (String × String)) (name : String) :
    getAll ⟨lines ++ more⟩ name = getAll ⟨lines⟩ name ++ getAll ⟨more⟩ name := by
  simp [getAll]

theorem getAll_cons_of_same {name name' : String} (hsame : Text.sameLetters name name')
    (value : String) (lines : List (String × String)) :
    getAll ⟨(name, value) :: lines⟩ name' = value :: getAll ⟨lines⟩ name' := by
  simp [getAll, hsame]

theorem getAll_cons_of_other {name name' : String} (hother : ¬Text.sameLetters name name')
    (value : String) (lines : List (String × String)) :
    getAll ⟨(name, value) :: lines⟩ name' = getAll ⟨lines⟩ name' := by
  simp [getAll, hother]

theorem joined?_of_getAll_ne_nil {headers : Headers} {name : String}
    (hvalues : headers.getAll name ≠ []) :
    headers.joined? name = some (",".intercalate (headers.getAll name)) := by
  unfold joined?
  split
  · next hnil => exact absurd hnil hvalues
  · rfl

section Combining

variable {name other : String} (front stretch tail : List (String × String)) (value : String)

theorem getAll_combined_of_other (hother : ¬Text.sameLetters name other) (joined : String) :
    getAll ⟨front ++ (name, value) :: (stretch ++ tail)⟩ other =
      getAll ⟨front ++ (name, joined) ::
        (stretch.filter (fun line => !Text.sameLetters line.1 name) ++ tail)⟩ other := by
  have hkept : getAll ⟨stretch.filter fun line => !Text.sameLetters line.1 name⟩ other =
      getAll ⟨stretch⟩ other := by
    unfold getAll
    rw [List.filter_filter]
    congr 1
    apply List.filter_congr
    intro line _
    cases hline : Text.sameLetters line.1 other with
    | false => rfl
    | true =>
        have hdiffers : Text.sameLetters line.1 name = false := by
          rw [← Bool.not_eq_true]
          intro hsame
          exact hother ((Text.sameLetters_congr hsame other).symm.trans hline)
        rw [hdiffers]
        rfl
  rw [getAll_append, getAll_append, getAll_cons_of_other hother, getAll_cons_of_other hother,
    getAll_append, getAll_append, hkept]

theorem joined?_combined_of_same (hsame : Text.sameLetters name other) :
    joined? ⟨front ++ (name, value) :: (stretch ++ tail)⟩ other =
      joined? ⟨front ++ (name, ",".intercalate (value :: getAll ⟨stretch⟩ name)) ::
        (stretch.filter (fun line => !Text.sameLetters line.1 name) ++ tail)⟩ other := by
  have hline : ∀ line : String × String,
      Text.sameLetters line.1 name = Text.sameLetters line.1 other := by
    intro line
    unfold Text.sameLetters at hsame ⊢
    rw [beq_iff_eq.1 hsame]
  have hmoved : getAll ⟨stretch⟩ name = getAll ⟨stretch⟩ other := by
    simp only [getAll, hline]
  have hgone : getAll ⟨stretch.filter fun line => !Text.sameLetters line.1 name⟩ other = [] := by
    simp [getAll, List.filter_filter, hline]
  have hbefore : getAll ⟨front ++ (name, value) :: (stretch ++ tail)⟩ other =
      getAll ⟨front⟩ other ++ value :: (getAll ⟨stretch⟩ other ++ getAll ⟨tail⟩ other) := by
    rw [getAll_append, getAll_cons_of_same hsame, getAll_append]
  have hafter : getAll ⟨front ++ (name, ",".intercalate (value :: getAll ⟨stretch⟩ name)) ::
        (stretch.filter (fun line => !Text.sameLetters line.1 name) ++ tail)⟩ other =
      getAll ⟨front⟩ other ++ ",".intercalate (value :: getAll ⟨stretch⟩ other) ::
        getAll ⟨tail⟩ other := by
    rw [getAll_append, getAll_cons_of_same hsame, getAll_append, hgone, hmoved, List.nil_append]
  rw [joined?_of_getAll_ne_nil (by simp [hbefore]), joined?_of_getAll_ne_nil (by simp [hafter]),
    hbefore, hafter, Text.intercalate_joined]

end Combining

theorem Respells.readAlike {headers headers' : Headers} (hstep : headers.Respells headers') :
    headers.ReadAlike headers' := by
  cases hstep with
  | @recase front tail name name' value hname =>
      apply readAlike_of_getAll
      intro other
      rw [getAll_append, getAll_append]
      congr 1
      have hsame := Text.sameLetters_congr hname other
      by_cases hother : Text.sameLetters name other
      · rw [getAll_cons_of_same hother, getAll_cons_of_same (hsame ▸ hother)]
      · rw [getAll_cons_of_other hother, getAll_cons_of_other (hsame ▸ hother)]
  | @combine front stretch tail name value hcookie hcontentType =>
      constructor
      · intro other
        by_cases hother : Text.sameLetters name other
        · exact joined?_combined_of_same front stretch tail value hother
        · unfold joined?
          rw [getAll_combined_of_other front stretch tail value hother]
      · exact getAll_combined_of_other front stretch tail value hcookie _
      · unfold get?
        rw [getAll_combined_of_other front stretch tail value hcontentType]

theorem readAlike_of_respells {headers headers' : Headers}
    (hrun : Relation.ReflTransGen Respells headers headers') : headers.ReadAlike headers' := by
  induction hrun with
  | refl => exact readAlike_of_getAll fun _ => rfl
  | tail _ hstep ih => exact ih.trans hstep.readAlike

end Headers

/-! ## Requests -/

section Requests

variable {request : Request} {method : String} {headers : Headers}

theorem Request.cookieMap_respelled (hheaders : request.headers.ReadAlike headers) :
    { request with method, headers : Request }.cookieMap = request.cookieMap := by
  unfold Request.cookieMap
  rw [hheaders.cookies]

theorem Request.effectiveContentType?_respelled (hheaders : request.headers.ReadAlike headers) :
    { request with method, headers : Request }.effectiveContentType? =
      request.effectiveContentType? := by
  unfold Request.effectiveContentType?
  rw [hheaders.contentType?]

/-- No style sees how headers are spelled, whatever it does with the text of a parameter. -/
theorem StyleRegistry.extract_respelled (styles : StyleRegistry) (table : SchemaTable)
    (method : String) (hheaders : request.headers.ReadAlike headers) (captures : Entries String)
    (parameter : Parameter) :
    styles.extract table parameter (.ofRequest { request with method, headers } captures) =
      styles.extract table parameter (.ofRequest request captures) := by
  have hraw : (ParameterSources.ofRequest { request with method, headers } captures).rawText?
      parameter = (ParameterSources.ofRequest request captures).rawText? parameter := by
    unfold ParameterSources.rawText? ParameterSources.ofRequest
    cases parameter.place with
    | path => rfl
    | query => rfl
    | header => dsimp only; rw [hheaders.joined?]
    | cookie => dsimp only; rw [Request.cookieMap_respelled hheaders]
  exact styles.extract_eq_of_rawText? table hraw

end Requests

namespace Validator

/-- The letter case of the method and of header names does not matter to a request, nor does it
matter whether the values of a header have a line each. -/
theorem validateRequest_respelled (validator : Validator) (request : Request) {method : String}
    {headers : Headers} (hmethod : Text.sameLetters request.method method)
    (hheaders : Relation.ReflTransGen Headers.Respells request.headers headers) :
    validator.validateRequest { request with method, headers } =
      validator.validateRequest request := by
  have hread := Headers.readAlike_of_respells hheaders
  have hfind : validator.router.find method request.path =
      validator.router.find request.method request.path := by
    unfold Router.find
    rw [Text.uppered_eq_of_sameLetters hmethod]
  refine validateRequest_eq_of_seesAlike hfind fun found _ => ?_
  have hextract := validator.styles.extract_respelled validator.contract.schemas method hread
    found.captures
  have hcredential : ∀ name place,
      validator.securityRules.credential? (.ofRequest { request with method, headers }
        found.captures) name place =
      validator.securityRules.credential? (.ofRequest request found.captures) name place :=
    fun name place => SecurityRules.credential?_congr (hextract (.new name place none))
  constructor
  · intro parameter _
    exact hextract parameter
  · intro scheme _
    exact SecurityRules.check_congr (hcredential _ _) fun key place _ => hcredential key place
  · exact Request.effectiveContentType?_respelled hread
  · rfl

theorem tag_lines_are_read_as_one :
    let operation : Operation := {
      method := "GET"
      path := "/pets"
      parameters := [
        { name := "X-Tag", place := .header, required := true, style := .simple, explode := false }]
      security := [[("token", [])]] }
    let validator : Validator := {
      contract := { operations := [operation], securitySchemes := [("token", .http "bearer" none)] }
      router := ⟨[⟨⟨"/pets", [.literal "pets".toList]⟩, [operation]⟩], []⟩ }
    let request : Request := {
      method := "get"
      path := "/pets"
      query := ""
      headers := ⟨[("x-tag", "a"), ("AUTHORIZATION", "Bearer t"), ("X-TAG", "b")]⟩ }
    let headers : Headers := ⟨[("X-Tag", "a,b"), ("AUTHORIZATION", "Bearer t")]⟩
    Text.sameLetters request.method "GET" ∧
      Relation.ReflTransGen Headers.Respells request.headers headers ∧
      validator.validateRequest { request with method := "GET", headers } =
        validator.validateRequest request ∧
      (validator.validateRequest request).isAccepted := by
  intro operation validator request headers
  have hmethod : Text.sameLetters request.method "GET" := by decide
  have hrecased : request.headers.Respells
      ⟨[("X-Tag", "a"), ("AUTHORIZATION", "Bearer t"), ("X-TAG", "b")]⟩ :=
    @Headers.Respells.recase [] [("AUTHORIZATION", "Bearer t"), ("X-TAG", "b")] "x-tag" "X-Tag" "a"
      (by decide)
  have hcombined : Headers.Respells
      ⟨[("X-Tag", "a"), ("AUTHORIZATION", "Bearer t"), ("X-TAG", "b")]⟩ headers :=
    @Headers.Respells.combine [] [("AUTHORIZATION", "Bearer t"), ("X-TAG", "b")] [] "X-Tag" "a"
      (by decide) (by decide)
  have hheaders : Relation.ReflTransGen Headers.Respells request.headers headers :=
    (Relation.ReflTransGen.single hrecased).tail hcombined
  have hsame := validateRequest_respelled validator request hmethod hheaders
  have haccepted : (validator.validateRequest request).isAccepted := by decide +kernel
  exact ⟨hmethod, hheaders, hsame, haccepted⟩

end Validator

end ApiContract
