import ApiContract.Proofs.Pointer
import ApiContract.Proofs.ReferenceChains
import ApiContract.Proofs.Transcoding

/-!
# Spellings of names in references

A name can be spelled in many ways in a reference: any of its characters may be percent-encoded, with
hexadecimal digits in either case, and tildes and slashes may be escaped for the pointer instead.  All
spellings are read as the name.  So references in different spellings lead to the same object, and a
chain that comes back to a name is refused in whatever spelling it does.
-/

namespace ApiContract.Reference

/-- A segment of a pointer spells a name.  An escape of the pointer has to stand there as it is: where
its tilde is percent-encoded, the tilde belongs to the name. -/
inductive Spells : List Char → List Char → Prop
  | nil : Spells [] []
  | tilde {name segment : List Char} (hrest : Spells name segment) :
      Spells ('~' :: name) ('~' :: '0' :: segment)
  | slash {name segment : List Char} (hrest : Spells name segment) :
      Spells ('/' :: name) ('~' :: '1' :: segment)
  | plain {c : Char} {name segment : List Char} (htilde : c ≠ '~') (hslash : c ≠ '/')
      (hpercent : c ≠ '%') (hrest : Spells name segment) : Spells (c :: name) (c :: segment)
  | encoded {c : Char} {name piece segment : List Char}
      (hpiece : Percent.SpellsBytes (Utf8.encodeChar c) piece) (hrest : Spells name segment) :
      Spells (c :: name) (piece ++ segment)

variable {name segment : List Char}

theorem Spells.slash_notMem (hspells : Spells name segment) : '/' ∉ segment := by
  induction hspells with
  | nil => exact List.not_mem_nil
  | tilde _ ih => simpa using ih
  | slash _ ih => simpa using ih
  | plain _ hslash _ _ ih => simpa [hslash.symm] using ih
  | encoded hpiece _ ih =>
      rw [List.mem_append, not_or]
      exact ⟨hpiece.notMem (by decide) (by decide), ih⟩

/-- Undoing the escapes of the pointer and the percent-encoding leaves the bytes of the name. -/
theorem Spells.decodeBytes_unescape (hspells : Spells name segment) :
    Percent.decodeBytes (Utf8.encode (Pointer.unescape segment)) = Utf8.encode name := by
  have hkept : ∀ {c : Char} (name rest : List Char), c ≠ '%' →
      Percent.decodeBytes (Utf8.encode rest) = Utf8.encode name →
      Percent.decodeBytes (Utf8.encode (c :: rest)) = Utf8.encode (c :: name) := by
    intro c name rest hpercent hrest
    have hbyte : 0x25 ∉ Utf8.encodeChar c := Utf8.notMem_encodeChar (d := '%') (by decide) hpercent
    rw [Utf8.encode_cons, Percent.decodeBytes_append_of_notMem hbyte, hrest, Utf8.encode_cons]
  induction hspells with
  | nil => rfl
  | tilde _ ih =>
      rw [Pointer.unescape_tilde]
      exact hkept _ _ (by decide) ih
  | slash _ ih =>
      rw [Pointer.unescape_slash]
      exact hkept _ _ (by decide) ih
  | @plain c _ segment htilde _ hpercent _ ih =>
      have hfree : '~' ∉ [c] := fun hmem => htilde (List.mem_singleton.1 hmem).symm
      have hunescape : Pointer.unescape (c :: segment) = c :: Pointer.unescape segment :=
        Pointer.unescape_append hfree segment
      rw [hunescape]
      exact hkept _ _ hpercent ih
  | encoded hpiece _ ih =>
      have hfree : '~' ∉ _ := hpiece.notMem (by decide) (by decide)
      rw [Pointer.unescape_append hfree, Utf8.encode_append, Percent.decodeBytes_of_spellsBytes hpiece,
        ih, Utf8.encode_cons]

theorem decodeSegment_of_spells {name : String} (hspells : Spells name.toList segment) :
    decodeSegment segment = name := by
  have hdecode : decodeSegment segment =
      String.ofList (Percent.decode (Pointer.unescape segment)) := rfl
  rw [hdecode, Percent.decode, hspells.decodeBytes_unescape, Utf8.decodeLossy_encode,
    String.ofList_toList]

/-! ## References in different spellings -/

/-- A reference to a component without an address in front, with the section and the name in some
spelling. -/
def Writes (part name reference : String) : Prop :=
  ∃ partSegment nameSegment, Spells part.toList partSegment ∧ Spells name.toList nameSegment ∧
    reference.toList =
      '#' :: '/' :: Text.joinWith '/' ["components".toList, partSegment, nameSegment]

variable {self? : Option String} {part name reference : String} {entries : Entries Json}
  {json target last found : Json} {names : List String}

/-- Every spelling designates the component of the name that is meant. -/
theorem designates_of_writes (hname : name ≠ "") (hwrites : Writes part name reference) :
    Designates self? reference ⟨part, name⟩ := by
  obtain ⟨partSegment, nameSegment, hpart, hsegment, hwritten⟩ := hwrites
  have hnameRead := decodeSegment_of_spells hsegment
  have hbare : reference.toList =
      [] ++ '#' :: '/' :: Text.joinWith '/' ["components".toList, partSegment, nameSegment] := hwritten
  have hpointer : Designates self? reference
      ⟨decodeSegment partSegment, decodeSegment nameSegment⟩ :=
    .pointer hbare (by simp) (by simp) hpart.slash_notMem hsegment.slash_notMem (by rwa [hnameRead])
  rwa [decodeSegment_of_spells hpart, hnameRead] at hpointer

theorem names_of_writes (hname : name ≠ "") (hreference : of? json = some reference)
    (hwrites : Writes part name reference) : Names self? part json name :=
  ⟨reference, hreference, designates_of_writes hname hwrites⟩

theorem resolve_of_names {json' : Json} (hnames : Names self? part json name)
    (hnames' : Names self? part json' name)
    (hresolve : resolve self? part entries json = .ok found) :
    resolve self? part entries json' = .ok found := by
  obtain ⟨⟨names, hchain⟩, hend⟩ := resolve_eq_ok_iff.1 hresolve
  cases hchain with
  | stay => exact absurd hend hnames.of?_ne_none
  | step hfirst hget hrest =>
      obtain rfl := hnames.unique hfirst
      exact resolve_eq_ok_iff.2 ⟨⟨_, .step hnames' hget hrest⟩, hend⟩

/-- Two references to one entry come to the same object, whatever spelling each has. -/
theorem resolve_eq_ok_iff_of_writes {json' : Json} {reference' : String} (hname : name ≠ "")
    (hreference : of? json = some reference) (hreference' : of? json' = some reference')
    (hwrites : Writes part name reference) (hwrites' : Writes part name reference') :
    resolve self? part entries json = .ok found ↔ resolve self? part entries json' = .ok found := by
  have hnames : Names self? part json name := names_of_writes hname hreference hwrites
  have hnames' : Names self? part json' name := names_of_writes hname hreference' hwrites'
  exact ⟨resolve_of_names hnames hnames', resolve_of_names hnames' hnames⟩

/-- A chain that comes back to a name that it passed is refused, in whatever spelling it does. -/
theorem resolve_of_return (hchain : Chain self? part entries json names last)
    (hnodup : names.Nodup) (hreference : of? last = some reference)
    (hwrites : Writes part name reference) (hname : name ≠ "") (hpassed : name ∈ names) :
    resolve self? part entries json = .error (.circular reference) :=
  resolve_eq_error_iff.2
    ⟨names, last, hchain, hnodup, .circular hreference (designates_of_writes hname hwrites) hpassed⟩

/-- A slash that is escaped once and percent-encoded the next time. -/
example :
    let entry := Json.object [("$ref", .string "#/components/schemas/a%2Fb")]
    resolve none "schemas" [("a/b", entry)] (.object [("$ref", .string "#/components/schemas/a~1b")]) =
      .error (.circular "#/components/schemas/a%2Fb") := by
  cbv

end ApiContract.Reference
