import ApiContract.Contract.Fault
import ApiContract.Progress
import ApiContract.Url.Basic

/-!
# References

A reference names an entry of a section of the components: `#/components/schemas/Pet`. In front of
the number sign may stand the address of the description itself; no other document is ever looked
into.
-/

namespace ApiContract

/-- An entry of a section of the components. -/
structure ComponentName where
  part : String
  name : String
  deriving DecidableEq, Repr

namespace Reference

/-- Whether an address names the document whose own address is `self`. A document that gives only a
path is known by that path. -/
def isSameDocument (address self : String) : Bool :=
  if address = self then true
  else
    match Url.ofString? address, Url.ofString? self with
    | some target, some own =>
      target.scheme == own.scheme && target.host? == own.host? && target.port? == own.port? &&
        target.path == own.path
    | some target, none => self.toList.head? == some '/' && target.path == self
    | none, _ => false

/-- One segment of a pointer: `~1` stands for a slash and `~0` for a tilde, and what results is
percent-decoded. -/
def decodeSegment (segment : List Char) : String :=
  let slashed := Text.replaceAll ['~', '1'] ['/'] segment
  let unescaped := Text.replaceAll ['~', '0'] ['~'] slashed
  String.ofList (Percent.decode unescaped)

/-- The component that a reference names, if it names one of this document. -/
def component? (self? : Option String) (reference : String) : Option ComponentName :=
  match Text.splitFirst? '#' reference.toList with
  | none => none
  | some (address, fragment) =>
    if !address.isEmpty && !self?.any (isSameDocument (String.ofList address)) then none
    else
      match fragment with
      | '/' :: pointer =>
        match Text.splitAll '/' pointer with
        | [start, part, name] =>
          let name := decodeSegment name
          if String.ofList start = "components" && !name.isEmpty then
            some ⟨decodeSegment part, name⟩
          else none
        | _ => none
      | _ => none

/-- The name that a reference has in a section. -/
def nameIn? (self? : Option String) (part reference : String) : Option String :=
  match component? self? reference with
  | some target => if target.part = part then some target.name else none
  | none => none

/-- The reference that an object holds. -/
def of? (json : Json) : Option String := (json.get? "$ref").bind Json.asString?

/-- Follows references through the entries of a section to an object without one. A chain that comes
back to a name it visited leads nowhere. -/
def resolveFrom (self? : Option String) (part : String) (entries : Entries Json)
    (visited : List String) (json : Json) : Except ReferenceFault Json :=
  match of? json with
  | none => .ok json
  | some reference =>
    match nameIn? self? part reference with
    | none => .error (.unresolved reference)
    | some name =>
      if _ : name ∈ visited then .error (.circular reference)
      else
        match _ : Entries.get? entries name with
        | none => .error (.unresolved reference)
        | some target => resolveFrom self? part entries (name :: visited) target
termination_by unseen (Entries.keys entries) visited
decreasing_by
  exact unseen_cons_lt (List.mem_map.2 ⟨_, Entries.mem_of_get? ‹_›, rfl⟩) ‹_›

/-- What an object stands for: itself, or the end of the chain of references that it starts. -/
def resolve (self? : Option String) (part : String) (entries : Entries Json) (json : Json) :
    Except ReferenceFault Json :=
  resolveFrom self? part entries [] json

end Reference

end ApiContract
