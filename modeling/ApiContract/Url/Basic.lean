import ApiContract.Text.Blank
import ApiContract.Url.Host

/-!
# URLs

An absolute URL is read as far as validation needs it: its scheme, host, port and path in their
normal forms. Schemes such as `http` have special rules: a host is required, a backslash counts as a
slash, and a default port is left out.
-/

namespace ApiContract

structure Url where
  scheme : String
  host? : Option Host
  port? : Option Nat
  path : String
  deriving DecidableEq

namespace Url

/-- The ports that need not be written. -/
def defaultPort? : String → Option Nat
  | "http" => some 80
  | "ws" => some 80
  | "https" => some 443
  | "wss" => some 443
  | "ftp" => some 21
  | _ => none

def isSpecial (scheme : String) : Bool := scheme == "file" || (defaultPort? scheme).isSome

/-- A text without the characters that URLs pass over. -/
def cleaned (text : List Char) : List Char :=
  let trimmed := Text.trimBy (·.toNat ≤ 0x20) text
  trimmed.filter fun c => c != '\t' && c != '\n' && c != '\r'

/-- The scheme in lower case, and the text behind its colon. -/
def scheme? (text : List Char) : Option (String × List Char) :=
  let belongs (c : Char) : Bool :=
    Text.isLetter c || Numeral.isDigit c || c == '+' || c == '-' || c == '.'
  match text with
  | [] => none
  | first :: _ =>
    if !Text.isLetter first then none
    else
      match text.dropWhile belongs with
      | ':' :: rest => some (String.ofList ((text.takeWhile belongs).map Text.lowerChar), rest)
      | _ => none

/-- Whether a character separates the segments of a path. -/
def isSeparator (special : Bool) (c : Char) : Bool := c == '/' || (special && c == '\\')

/-- Whether a character ends the authority of a URL. -/
def endsAuthority (special : Bool) (c : Char) : Bool :=
  isSeparator special c || c == '?' || c == '#'

/-- The characters that are percent-encoded in a path. -/
def isEncodedInPath (c : Char) : Bool :=
  c.toNat ≤ 0x20 || 0x7F ≤ c.toNat || "\"#<>?`".toList.contains c || c.toNat == 0x7B ||
    c.toNat == 0x7D

/-- Whether a segment means the directory itself. -/
def isSingleDot (segment : List Char) : Bool :=
  let lower := segment.map Text.lowerChar
  lower == ".".toList || lower == "%2e".toList

/-- Whether a segment means the directory above. -/
def isDoubleDot (segment : List Char) : Bool :=
  let lower := segment.map Text.lowerChar
  lower == "..".toList || lower == ".%2e".toList || lower == "%2e.".toList ||
    lower == "%2e%2e".toList

/-- Whether a segment is the letter of a drive. -/
def isDriveLetter : List Char → Bool
  | [letter, mark] => Text.isLetter letter && (mark == ':' || mark == '|')
  | _ => false

/-- The segments of a path with those for directories resolved; `done` holds them last first. -/
def resolve (isFile : Bool) : (done : List (List Char)) → List (List Char) → List (List Char)
  | done, [] => done.reverse
  | done, segment :: rest =>
    let isLast := rest.isEmpty
    if isDoubleDot segment then
      let shorter :=
        match done with
        | [only] => if isFile && isDriveLetter only then [only] else []
        | done => done.drop 1
      resolve isFile (if isLast then [] :: shorter else shorter) rest
    else if isSingleDot segment then
      resolve isFile (if isLast then [] :: done else done) rest
    else
      let encoded := Percent.encode isEncodedInPath segment
      let encoded :=
        match encoded with
        | [letter, mark] =>
          if isFile && done.isEmpty && isDriveLetter [letter, mark] then [letter, ':'] else encoded
        | _ => encoded
      resolve isFile (encoded :: done) rest

/-- Cuts a path into segments. -/
def segments (special : Bool) (path : List Char) : List (List Char) :=
  Text.splitAll '/' (path.map fun c => if isSeparator special c then '/' else c)

/-- The text up to the query and the fragment. -/
def pathPart (text : List Char) : List Char := text.takeWhile fun c => c != '?' && c != '#'

/-- The normal form of a path of segments. -/
def normalPath (scheme : String) (text : List Char) : String :=
  let special := isSpecial scheme
  let path := pathPart text
  match path with
  | [] => if special then "/" else ""
  | first :: rest =>
    let relative := if isSeparator special first then rest else path
    let resolved := resolve (scheme == "file") [] (segments special relative)
    let resolved :=
      if scheme == "file" then
        match resolved.dropWhile (·.isEmpty) with
        | [] => [[]]
        | kept => kept
      else resolved
    String.ofList ('/' :: Text.joinWith '/' resolved)

/-- A path that is no sequence of segments. -/
def opaquePath (text : List Char) : String :=
  String.ofList (Percent.encode (fun c => c.toNat < 0x20 || 0x7E < c.toNat) (pathPart text))

/-- A port behind its colon: `none` if there is no number or it is the default. -/
def readPort? (scheme : String) (text : List Char) : Option (Option Nat × List Char) :=
  let digits := text.takeWhile Numeral.isDigit
  let rest := text.dropWhile Numeral.isDigit
  let ends :=
    match rest with
    | [] => true
    | c :: _ => endsAuthority true c
  if !ends then none
  else
    match Numeral.natural? digits with
    | none => some (none, rest)
    | some n =>
      if 65535 < n then none
      else some (if defaultPort? scheme == some n then none else some n, rest)

/-- The host part of an authority: up to a colon outside brackets. -/
def hostPart : (inBrackets : Bool) → List Char → List Char × List Char
  | _, [] => ([], [])
  | inBrackets, c :: rest =>
    if c == ':' && !inBrackets then ([], c :: rest)
    else
      let (host, behind) := hostPart (c == '[' || (c != ']' && inBrackets)) rest
      (c :: host, behind)

/-- A URL behind the two slashes of its authority. -/
def withAuthority? (scheme : String) (text : List Char) : Option Url := do
  let special := isSpecial scheme
  let authority := text.takeWhile fun c => !endsAuthority special c
  let behind := text.dropWhile fun c => !endsAuthority special c
  let (userInfo, address) := (Text.splitLast? '@' authority).getD ([], authority)
  let namesUser := userInfo.any (· != ':')
  let isBare := authority.head? == some '@' && userInfo.isEmpty && !behind.isEmpty
  let (hostText, portText) := hostPart false address
  if hostText.isEmpty && (special || namesUser || isBare || !portText.isEmpty) then none
  else
    let host ← if special then Host.ofText? hostText else Host.opaqueOfText? hostText
    let (port, unread) ←
      match portText with
      | ':' :: digits => readPort? scheme digits
      | _ => some (none, [])
    let host := if host = .domain "" then none else some host
    some ⟨scheme, host, port, normalPath scheme (unread ++ behind)⟩

/-- A URL of the file scheme, behind its colon. -/
def file? (text : List Char) : Option Url :=
  let afterSlashes : Option (List Char) :=
    match text with
    | a :: b :: rest =>
      if isSeparator true a && isSeparator true b then some rest else none
    | _ => none
  match afterSlashes with
  | none => some ⟨"file", none, none, normalPath "file" text⟩
  | some rest =>
    let hostText := rest.takeWhile fun c => !endsAuthority true c
    let behind := rest.dropWhile fun c => !endsAuthority true c
    if isDriveLetter hostText then
      some ⟨"file", none, none, normalPath "file" ('/' :: rest)⟩
    else if hostText.isEmpty then
      some ⟨"file", none, none, normalPath "file" behind⟩
    else
      (Host.ofText? hostText).map fun host =>
        ⟨"file", if host = .domain "localhost" then none else some host, none,
          normalPath "file" behind⟩

/-- The absolute URL that a text holds. -/
def ofText? (text : List Char) : Option Url := do
  let (scheme, rest) ← scheme? (cleaned text)
  if scheme == "file" then
    file? rest
  else if isSpecial scheme then
    withAuthority? scheme (rest.dropWhile (isSeparator true))
  else
    match rest with
    | '/' :: '/' :: behind => withAuthority? scheme behind
    | '/' :: _ => some ⟨scheme, none, none, normalPath scheme rest⟩
    | _ => some ⟨scheme, none, none, opaquePath rest⟩

def ofString? (text : String) : Option Url := ofText? text.toList

end Url

end ApiContract
