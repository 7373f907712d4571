import ApiContract.Text.Quoted
import ApiContract.Value.Wire

/-!
# Formats

A format gives a value whose kind already fits its schema a more precise type, or finds it
malformed. Formats are known by name in a registry; a name that is not registered asks for nothing,
because formats are advice.
-/

namespace ApiContract

/-- Why a value does not have a format. -/
inductive FormatFault where
  /-- The text does not follow the grammar of the format. -/
  | malformed (format : String)
  /-- The text is no address of an Internet protocol. -/
  | address (format protocol : String)
  /-- The text is no electronic mail address. -/
  | mailbox (text : String)
  /-- The value was typed by another format. -/
  | foreign (format : String) (kind : ValueKind)
  | outOfRange (format : String) (value : Int64)
  /-- What a registered caster reports. -/
  | custom (message : String)
  deriving DecidableEq

def FormatFault.message : FormatFault → String
  | .malformed format => s!"not a valid '{format}'"
  | .address format protocol => s!"not a valid '{format}': invalid {protocol} address syntax"
  | .mailbox text => s!"not a valid 'email': '{text}'"
  | .foreign format kind => s!"not a valid '{format}': got a {kind.name} value"
  | .outOfRange format value => s!"not a valid '{format}': {value.toInt} out of range"
  | .custom message => message

/-- Gives a value its type under one format. -/
abbrev FormatCaster := Value → Except FormatFault Value

/-- The known formats by name. -/
structure FormatRegistry where
  casters : Entries FormatCaster := []

namespace FormatRegistry

/-- No formats: every name passes. -/
def empty : FormatRegistry := {}

/-- Adds a format, or replaces the one of that name. -/
def register (registry : FormatRegistry) (format : String) (caster : FormatCaster) :
    FormatRegistry :=
  ⟨Entries.insert registry.casters format caster⟩

def contains (registry : FormatRegistry) (format : String) : Bool :=
  Entries.contains registry.casters format

/-- Gives a value its type; a format that is not known leaves it as it is. -/
def cast (registry : FormatRegistry) (format : String) (value : Value) :
    Except FormatFault Value :=
  match Entries.get? registry.casters format with
  | some caster => caster value
  | none => .ok value

def names (registry : FormatRegistry) : List String := Entries.keys registry.casters

/-- The names of the formats in one line. -/
def listing (registry : FormatRegistry) : String :=
  Text.listing "FormatRegistry" "formats" registry.names

@[simp] theorem cast_empty (format : String) (value : Value) :
    empty.cast format value = .ok value := rfl

end FormatRegistry

end ApiContract
