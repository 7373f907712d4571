import ApiContract.Text.Percent
import ApiContract.Unicode.Names
import ApiContract.Url.Address
import ApiContract.Url.Punycode

/-!
# Hosts of URLs

The host of a URL is a domain, an IP address, or an opaque name where the scheme has no special
rules. Domains are compared in their ASCII form: letters in lower case, labels with other characters
in Punycode.
-/

namespace ApiContract

inductive Host where
  | domain (name : String)
  | ipv4 (address : Nat)
  | ipv6 (groups : List Nat)
  deriving DecidableEq

namespace Host

/-- The characters that no host contains. -/
def isForbidden (c : Char) : Bool :=
  let n := c.toNat
  n == 0 || n == 9 || n == 10 || n == 13 || " #/:<>?@[\\]^|".toList.contains c

/-- The characters that no domain contains. -/
def isForbiddenInDomain (c : Char) : Bool :=
  isForbidden c || c.toNat < 0x20 || c == '%' || c.toNat == 0x7F

/-- Characters that a domain name passes over. -/
def isIgnored (c : Char) : Bool :=
  [0xAD, 0x200B, 0x2060, 0xFEFF].contains c.toNat || (0xFE00 ≤ c.toNat && c.toNat ≤ 0xFE0F)

/-- Whether a character beyond ASCII may stand in a domain: it is assigned, and neither blank nor
control. -/
def isDomainCharacter (c : Char) : Bool :=
  !(((Unicode.category? "c").getD []).contains c || ((Unicode.category? "z").getD []).contains c)

/-- The lower case form of a character, where letter case is all that differs. -/
def lowerForm (c : Char) : Char :=
  if c.toNat < 128 then Text.lowerChar c
  else if ((Unicode.category? "lu").getD []).contains c then
    match Unicode.caseOrbits.find? (·.contains c.toNat) with
    | some orbit =>
      let lower := (Unicode.category? "ll").getD []
      match orbit.find? lower.containsCode with
      | some n => Char.ofNat n
      | none => c
    | none => c
  else c

/-- The form of a character that domain names are compared by. -/
def mapped (c : Char) : Char :=
  let n := c.toNat
  if n == 0x3002 || n == 0xFF0E || n == 0xFF61 then '.'
  else if 0xFF01 ≤ n && n ≤ 0xFF5E then Text.lowerChar (Char.ofNat (n - 0xFEE0))
  else lowerForm c

/-- The ASCII form of a label. -/
def asciiLabel? (label : List Char) : Option (List Char) :=
  if label.all (·.toNat < 128) then
    match Text.stripStart? "xn--".toList label with
    | none => some label
    | some encoded =>
      match Punycode.decode? encoded with
      | some decoded =>
        if decoded.any (128 ≤ ·.toNat) &&
            decoded.all (fun c => c.toNat < 128 || (isDomainCharacter c && mapped c == c)) then
          some label
        else none
      | none => none
  else if label.all fun c => c.toNat < 128 || isDomainCharacter c then
    some ("xn--".toList ++ Punycode.encode label)
  else none

/-- The ASCII form of a domain. -/
def asciiDomain? (text : List Char) : Option (List Char) :=
  let text := (text.filter (!isIgnored ·)).map mapped
  match (Text.splitAll '.' text).mapM asciiLabel? with
  | some labels =>
    let domain := Text.joinWith '.' labels
    if domain.any isForbiddenInDomain then none else some domain
  | none => none

/-- A number in decimal, octal (`0`) or hexadecimal (`0x`) digits. -/
def ipv4Number? (text : List Char) : Option Nat :=
  match text with
  | [] => none
  | '0' :: 'x' :: digits => if digits.isEmpty then some 0 else Text.hexNumber? digits
  | '0' :: 'X' :: digits => if digits.isEmpty then some 0 else Text.hexNumber? digits
  | '0' :: digit :: digits =>
    (digit :: digits).foldlM (fun n c =>
      if '0' ≤ c && c ≤ '7' then some (8 * n + Numeral.digitValue c) else none) 0
  | digits => Numeral.natural? digits

/-- The labels of a domain, without an empty one at the end. -/
def addressParts (domain : List Char) : List (List Char) :=
  let parts := Text.splitAll '.' domain
  if parts.length > 1 && parts.getLast? == some [] then parts.dropLast else parts

/-- Whether a domain has to be an IPv4 address because its last label is a number. -/
def endsInNumber (domain : List Char) : Bool :=
  match (addressParts domain).getLast? with
  | none => false
  | some last =>
    (!last.isEmpty && last.all Numeral.isDigit) ||
      (match last with
      | '0' :: x :: digits => (x == 'x' || x == 'X') && digits.all (Text.hexValue? · |>.isSome)
      | _ => false)

/-- The address of a domain of numbers: all but the last fill a byte each, the last fills the
rest. -/
def ipv4Address? (domain : List Char) : Option Nat := do
  let parts := addressParts domain
  if 4 < parts.length then none
  else
    let numbers ← parts.mapM ipv4Number?
    match numbers.reverse with
    | [] => none
    | last :: leading =>
      let bytes := leading.reverse
      if bytes.any (255 < ·) || 256 ^ (4 - bytes.length) ≤ last then none
      else some (bytes.foldl (fun n byte => 256 * n + byte) 0 * 256 ^ (4 - bytes.length) + last)

/-- An address in brackets. -/
def bracketed? (text : List Char) : Option Host :=
  if text.getLast? == some ']' then (Address.ipv6? (text.drop 1).dropLast).map .ipv6 else none

/-- The host of a URL whose scheme has special rules. -/
def ofText? (text : List Char) : Option Host :=
  if text.head? == some '[' then bracketed? text
  else
    match Utf8.decode (Percent.decodeBytes (Utf8.encode text)) with
    | .error _ => none
    | .ok decoded =>
      match asciiDomain? decoded with
      | none => none
      | some name =>
        if name.isEmpty then none
        else if endsInNumber name then (ipv4Address? name).map .ipv4
        else some (.domain (String.ofList name))

/-- The host of any other URL. -/
def opaqueOfText? (text : List Char) : Option Host :=
  if text.head? == some '[' then bracketed? text
  else if text.any isForbidden then none
  else
    let escaped (c : Char) : Bool := c.toNat < 0x20 || 0x7E < c.toNat
    some (.domain (String.ofList (Percent.encode escaped text)))

end Host

end ApiContract
