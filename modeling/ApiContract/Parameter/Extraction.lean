import ApiContract.Parameter.Styles

/-!
# Reading parameters

A parameter is read from the text at its place in its style. One with a media type keeps its text,
which is a document of its own. An absent parameter is at fault only if it is required.
-/

namespace ApiContract

/-- The value of a parameter before its absence is judged. -/
def StyleRegistry.read? (registry : StyleRegistry) (table : SchemaTable) (parameter : Parameter)
    (sources : ParameterSources) : Except ParameterFault (Option Value) :=
  match sources.rawText? parameter with
  | none => .ok none
  | some raw =>
    if parameter.contentType?.isSome then
      match raw with
      | .pairs pairs => .ok ((StyleReader.textsOf pairs parameter.name).head?.map .string)
      | .single text _ => .ok (some (.string text))
    else
      match registry.get? parameter.style.name with
      | none => .error (.unknownStyle parameter.style.name)
      | some reader =>
        match reader parameter (Shape.of table parameter.schema?) raw with
        | .ok value? => .ok value?
        | .error fault => .error (.malformed fault)

/-- The value of a parameter; `none` stands for an absent optional one. -/
def StyleRegistry.extract (registry : StyleRegistry) (table : SchemaTable) (parameter : Parameter)
    (sources : ParameterSources) : Except ParameterFault (Option Value) :=
  match registry.read? table parameter sources with
  | .ok none => if parameter.required then .error .missing else .ok none
  | result => result

/-- The fault of a parameter as a violation at its place. -/
def Parameter.violation (parameter : Parameter) (fault : ParameterFault) : Violation :=
  fault.violation parameter.place parameter.name

end ApiContract
