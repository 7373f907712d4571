import ApiContract.Text.Ascii
import ApiContract.Unicode.Names

/-!
# Quoted text

A text between quotes as listings show it: the quote, the backslash and every character that would
not be seen on its own are written as escapes.
-/

namespace ApiContract.Text

/-- Characters that have no picture of their own: controls, formats, blanks other than the space,
and code points without a character. -/
def isUnseen (c : Char) : Bool :=
  c != ' ' &&
    (["c", "z"].any fun name => ((Unicode.category? name).getD []).contains c)

/-- Characters that attach themselves to the one in front. -/
def isAttached (c : Char) : Bool := ((Unicode.named? "graphemeextend".toList).getD []).contains c

/-- One character of a quoted text. -/
def quotedChar (c : Char) : List Char :=
  match c with
  | '"' => ['\\', '"']
  | '\\' => ['\\', '\\']
  | '\n' => ['\\', 'n']
  | '\r' => ['\\', 'r']
  | '\t' => ['\\', 't']
  | c =>
    if c.toNat == 0 then ['\\', '0']
    else if c.toNat < 0x7F && 0x20 ≤ c.toNat then [c]
    else if isUnseen c || isAttached c then
      '\\' :: 'u' :: Char.ofNat 0x7B :: Nat.toDigits 16 c.toNat ++ [Char.ofNat 0x7D]
    else [c]

/-- A text between quotes. -/
def quoted (text : String) : String :=
  String.ofList ('"' :: text.toList.flatMap quotedChar ++ ['"'])

/-- Names between quotes, in the order of their code points, as the only field of a record. -/
def listing (record field : String) (names : List String) : String :=
  let sorted := names.mergeSort fun a b => a ≤ b
  let items := ", ".intercalate (sorted.map quoted)
  s!"{record} \x7b {field}: [{items}] \x7d"

end ApiContract.Text
