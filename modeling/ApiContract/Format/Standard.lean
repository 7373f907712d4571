import ApiContract.Format.Basic
import ApiContract.Text.Blank
import ApiContract.Url.Basic

/-!
# Standard formats

The formats that descriptions use without registering anything. Each caster accepts what it
produced: a value that already has the type of its format stays as it is, a text typed by another
format is refused, and a value that is no text at all is not its concern.
-/

namespace ApiContract.Format

open Calendar

/-- What a format of texts does with a value that is neither a plain text nor of its own type. -/
def refuseForeign (format : String) (value : Value) : Except FormatFault Value :=
  if value.isTextual then .error (.foreign format value.kind) else .ok value

/-- The outcome of reading a text under a format. -/
def readAs (format : String) (read? : Option Value) : Except FormatFault Value :=
  match read? with
  | some value => .ok value
  | none => .error (.malformed format)

def date : FormatCaster
  | .string text => readAs "date" ((Date.ofText? text.toList).map .date)
  | .date value => .ok (.date value)
  | value => refuseForeign "date" value

def dateTime : FormatCaster
  | .string text => readAs "date-time" ((Timestamp.ofText? text.toList).map .timestamp)
  | .timestamp value => .ok (.timestamp value)
  | value => refuseForeign "date-time" value

/-- Base64 in either alphabet. -/
def byte : FormatCaster
  | .string text =>
    let decoded := (Base64.decode? .standard text.toList).or (Base64.decode? .urlSafe text.toList)
    readAs "byte" (decoded.map .bytes)
  | .bytes value => .ok (.bytes value)
  | value => refuseForeign "byte" value

/-- Any text, taken as its bytes. -/
def binary : FormatCaster
  | .string text => .ok (.bytes (Utf8.encodeString text))
  | .bytes value => .ok (.bytes value)
  | value => refuseForeign "binary" value

def uuid : FormatCaster
  | .string text => readAs "uuid" ((Uuid.ofText? text.toList).map .uuid)
  | .uuid value => .ok (.uuid value)
  | value => refuseForeign "uuid" value

/-- One `@` between a local part and a domain that has a dot, but not at its ends; no blanks. -/
def isMailbox (text : List Char) : Bool :=
  !text.any Text.isBlank &&
    match Text.splitAll '@' text with
    | [name, domain] =>
      !name.isEmpty && domain.contains '.' && domain.head? != some '.' &&
        domain.getLast? != some '.'
    | _ => false

def email : FormatCaster
  | .string text => if isMailbox text.toList then .ok (.string text) else .error (.mailbox text)
  | value => refuseForeign "email" value

/-- Integers within bounds; values that are no integers pass. -/
def range (format : String) (least most : Int64) : FormatCaster
  | .integer value =>
    if value < least || most < value then .error (.outOfRange format value)
    else .ok (.integer value)
  | value => .ok value

/-- A format that says nothing more than the type. -/
def free : FormatCaster := .ok

def uri : FormatCaster
  | .string text => readAs "uri" ((Url.ofString? text).map fun _ => .string text)
  | value => refuseForeign "uri" value

/-- Texts that are addresses of a protocol. -/
def address (format protocol : String) (isAddress : List Char → Bool) : FormatCaster
  | .string text =>
    if isAddress text.toList then .ok (.string text) else .error (.address format protocol)
  | value => refuseForeign format value

def ipv4 : FormatCaster := address "ipv4" "IPv4" fun text => (Address.ipv4? text).isSome

def ipv6 : FormatCaster := address "ipv6" "IPv6" fun text => (Address.ipv6? text).isSome

/-- The standard formats by name. -/
def standard : FormatRegistry := {
  casters := [
    ("date", date),
    ("date-time", dateTime),
    ("byte", byte),
    ("binary", binary),
    ("uuid", uuid),
    ("email", email),
    ("int32", range "int32" (-2147483648) 2147483647),
    ("int64", range "int64" Int64.minValue Int64.maxValue),
    ("float", free),
    ("double", free),
    ("password", free),
    ("uri", uri),
    ("ipv4", ipv4),
    ("ipv6", ipv6)] }

end ApiContract.Format
