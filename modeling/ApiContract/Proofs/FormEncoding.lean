import ApiContract.Proofs.Splitting
import ApiContract.Proofs.Transcoding
import ApiContract.Text.Form

/-!
# Reading form-encoded pairs

A form writes each pair as a field, the name in front of an equals sign and the value behind it, with
ampersands between the fields.  Names and values are percent-encoded; which characters are escaped is
up to the writer, except for those that a form reads in a way of its own, and a space that is not
escaped is written as a plus sign.  Whatever a writer escapes, the pairs are read back as they were
written.
-/

namespace ApiContract.Form

/-- The characters that a writer of forms escapes. -/
structure Escaping where
  escapes : Char → Bool
  percent : escapes '%' := by decide
  plus : escapes '+' := by decide
  ampersand : escapes '&' := by decide
  equals : escapes '=' := by decide

namespace Escaping

/-- What browsers escape: all but letters, digits, four marks, and spaces. -/
def standard : Escaping where
  escapes c := !(c.isAlphanum || c == '*' || c == '-' || c == '.' || c == '_' || c == ' ')

variable (escaping : Escaping)

/-- A name or a value as a form writes it. -/
def spell (text : String) : List Char :=
  (Percent.encode escaping.escapes text.toList).map fun c => if c = ' ' then '+' else c

/-- A field of a form: a name in front of a value that is already written. -/
def field (line : String × List Char) : List Char := escaping.spell line.1 ++ '=' :: line.2

/-- Fields as a form puts them together. -/
def fields (lines : List (String × List Char)) : String :=
  String.ofList (Text.joinWith '&' (lines.map escaping.field))

/-- A name with its value as a form writes it. -/
def spelled (pair : String × String) : String × List Char := (pair.1, escaping.spell pair.2)

/-- Pairs as a form writes them. -/
def write (pairs : List (String × String)) : String :=
  escaping.fields (pairs.map escaping.spelled)

end Escaping

example : Escaping.standard.write [("id", "3"), ("q", "a b&c"), ("id", "-4")] =
    "id=3&q=a+b%26c&id=-4" := by
  decide

/-! ## Fields -/

theorem splitBytes_append {separator : UInt8} {front rest field : List UInt8}
    {fields : List (List UInt8)} (hfront : separator ∉ front)
    (hrest : splitBytes separator rest = field :: fields) :
    splitBytes separator (front ++ rest) = (front ++ field) :: fields := by
  induction front with
  | nil => exact hrest
  | cons b more ih =>
      obtain ⟨hb, hmore⟩ := List.ne_and_not_mem_of_not_mem_cons hfront
      rw [List.cons_append, splitBytes, if_neg hb.symm, ih hmore]
      rfl

/-- Splitting bytes at an ASCII character is splitting characters there. -/
theorem splitBytes_encode {separator : Char} (hascii : separator.toNat < 0x80) (text : List Char) :
    splitBytes (.ofNat separator.toNat) (Utf8.encode text) =
      (Text.splitAll separator text).map Utf8.encode := by
  induction text with
  | nil => rfl
  | cons c rest ih =>
      rw [Utf8.encode_cons]
      by_cases hc : c = separator
      · subst hc
        rw [Utf8.encodeChar_of_lt hascii, List.singleton_append, splitBytes, if_pos rfl, ih,
          Text.splitAll, if_pos rfl]
        rfl
      · have hfront := Utf8.notMem_encodeChar hascii hc
        cases hfields : Text.splitAll separator rest with
        | nil => exact absurd hfields (Text.splitAll_ne_nil separator rest)
        | cons field fields =>
            rw [hfields] at ih
            rw [splitBytes_append hfront ih, Text.splitAll, if_neg hc, hfields, List.map_cons,
              Utf8.encode_cons]

theorem encode_ne_nil {text : List Char} (htext : text ≠ []) : Utf8.encode text ≠ [] := by
  have hlength : 0 < (Utf8.encode text).length := Utf8.byteLength_pos htext
  exact List.ne_nil_of_length_pos hlength

/-- Fields that are joined by ampersands are read one by one. -/
theorem pairs_joinWith {fields : List (List Char)} (hne : ∀ line ∈ fields, line ≠ [])
    (hampersand : ∀ line ∈ fields, '&' ∉ line) :
    pairs (Utf8.encode (Text.joinWith '&' fields)) =
      fields.map fun line => field (Utf8.encode line) := by
  have hascii : ('&').toNat < 0x80 := by decide
  have hsplit := splitBytes_encode hascii (Text.joinWith '&' fields)
  unfold pairs
  cases fields with
  | nil => rfl
  | cons first rest =>
      rw [Text.splitAll_joinWith (List.cons_ne_nil first rest) hampersand] at hsplit
      change ((splitBytes (.ofNat ('&').toNat) _).filter _).map field = _
      have hkeep : ((first :: rest).map Utf8.encode).filter (!·.isEmpty) =
          (first :: rest).map Utf8.encode := by
        rw [List.filter_eq_self, List.forall_mem_map]
        intro line hline
        simp [encode_ne_nil (hne line hline)]
      rw [hsplit, hkeep, List.map_map]
      rfl

theorem field_encode {name value : List Char} (hname : '=' ∉ name) :
    field (Utf8.encode (name ++ '=' :: value)) =
      (component (Utf8.encode name), component (Utf8.encode value)) := by
  have hbytes : Utf8.encode (name ++ '=' :: value) =
      Utf8.encode name ++ 0x3D :: Utf8.encode value := by
    rw [Utf8.encode_append, Utf8.encode_cons, Utf8.encodeChar_of_lt (by decide)]
    rfl
  have hother : ∀ b ∈ Utf8.encode name, decide (b ≠ 0x3D) := by
    intro b hb
    have hequals : 0x3D ∉ Utf8.encode name := Utf8.notMem_encode (d := '=') (by decide) hname
    have hne : b ≠ 0x3D := fun heq => hequals (heq ▸ hb)
    simp [hne]
  have hfront : (Utf8.encode name ++ 0x3D :: Utf8.encode value).takeWhile (· ≠ 0x3D) =
      Utf8.encode name := by
    rw [List.takeWhile_append_of_pos hother]
    simp
  have hback : (Utf8.encode name ++ 0x3D :: Utf8.encode value).dropWhile (· ≠ 0x3D) =
      0x3D :: Utf8.encode value := by
    rw [List.dropWhile_append_of_pos hother]
    simp
  rw [hbytes, field, hfront, hback]
  rfl

/-! ## Names and values -/

/-- Bytes with plus signs read as spaces. -/
def spaced (bytes : List UInt8) : List UInt8 := bytes.map fun b => if b = 0x2B then 0x20 else b

theorem component_eq (bytes : List UInt8) :
    component bytes = String.ofList (Utf8.decodeLossy (Percent.decodeBytes (spaced bytes))) :=
  rfl

theorem spaced_append (front back : List UInt8) :
    spaced (front ++ back) = spaced front ++ spaced back :=
  List.map_append

theorem spaced_of_notMem {bytes : List UInt8} (hbytes : 0x2B ∉ bytes) : spaced bytes = bytes := by
  have hkeep : ∀ b ∈ bytes, (if b = 0x2B then 0x20 else b) = id b := by
    intro b hb
    have hne : b ≠ 0x2B := fun heq => hbytes (heq ▸ hb)
    exact if_neg hne
  rw [spaced, List.map_congr_left hkeep, List.map_id]

namespace Escaping

variable (escaping : Escaping)

/-- A character with a meaning of its own does not occur among escaped ones. -/
theorem notMem_encode {c : Char} (hescaped : escaping.escapes c) (hpercent : c ≠ '%')
    (hdigit : ∀ n < 16, c ≠ Percent.upperHexDigit n) (text : List Char) :
    c ∉ Percent.encode escaping.escapes text := by
  intro hmem
  rcases Percent.mem_encode hmem with ⟨-, hkept⟩ | heq | ⟨n, hn, heq⟩
  · exact hkept hescaped
  · exact hpercent heq
  · exact hdigit n hn heq

theorem notMem_spell {c : Char} (hescaped : escaping.escapes c) (hpercent : c ≠ '%')
    (hplus : c ≠ '+') (hdigit : ∀ n < 16, c ≠ Percent.upperHexDigit n) (text : String) :
    c ∉ escaping.spell text := by
  intro hmem
  obtain ⟨source, hsource, heq⟩ := List.mem_map.1 hmem
  by_cases hspace : source = ' '
  · rw [if_pos hspace] at heq
    exact hplus heq.symm
  · rw [if_neg hspace] at heq
    subst heq
    exact escaping.notMem_encode hescaped hpercent hdigit _ hsource

theorem ampersand_notMem_spell (text : String) : '&' ∉ escaping.spell text :=
  escaping.notMem_spell escaping.ampersand (by decide) (by decide) (by decide) text

theorem equals_notMem_spell (text : String) : '=' ∉ escaping.spell text :=
  escaping.notMem_spell escaping.equals (by decide) (by decide) (by decide) text

/-- Plus signs that were written for spaces are read as spaces. -/
theorem spaced_encode_map {text : List Char} (hplus : '+' ∉ text) :
    spaced (Utf8.encode (text.map fun c => if c = ' ' then '+' else c)) = Utf8.encode text := by
  induction text with
  | nil => rfl
  | cons c rest ih =>
      obtain ⟨hc, hrest⟩ := List.ne_and_not_mem_of_not_mem_cons hplus
      rw [List.map_cons, Utf8.encode_cons, Utf8.encode_cons, spaced_append, ih hrest]
      congr 1
      by_cases hspace : c = ' '
      · subst hspace
        decide
      · rw [if_neg hspace]
        exact spaced_of_notMem (Utf8.notMem_encodeChar (d := '+') (by decide) hc.symm)

theorem decodeBytes_spell_append (text : String) (rest : List UInt8) :
    Percent.decodeBytes (spaced (Utf8.encode (escaping.spell text) ++ rest)) =
      Utf8.encode text.toList ++ Percent.decodeBytes (spaced rest) := by
  have hplus : '+' ∉ Percent.encode escaping.escapes text.toList :=
    escaping.notMem_encode escaping.plus (by decide) (by decide) text.toList
  rw [spaced_append, spell, spaced_encode_map hplus,
    Percent.decodeBytes_encode_append escaping.percent]

theorem component_spell (text : String) : component (Utf8.encode (escaping.spell text)) = text := by
  have hbytes := escaping.decodeBytes_spell_append text []
  have hnil : Percent.decodeBytes (spaced []) = [] := rfl
  rw [hnil, List.append_nil, List.append_nil] at hbytes
  rw [component_eq, hbytes, Utf8.decodeLossy_encode, String.ofList_toList]

theorem field_encode_field (line : String × List Char) :
    Form.field (Utf8.encode (escaping.field line)) =
      (line.1, component (Utf8.encode line.2)) := by
  rw [field, field_encode (escaping.equals_notMem_spell line.1), component_spell]

theorem pairs_fields {lines : List (String × List Char)} (hlines : ∀ line ∈ lines, '&' ∉ line.2) :
    Form.pairs (Utf8.encodeString (escaping.fields lines)) =
      lines.map fun line => (line.1, component (Utf8.encode line.2)) := by
  have hne : ∀ written ∈ lines.map escaping.field, written ≠ [] := by
    rw [List.forall_mem_map]
    intro line _
    simp [field]
  have hampersand : ∀ written ∈ lines.map escaping.field, '&' ∉ written := by
    rw [List.forall_mem_map]
    intro line hline
    simp [field, escaping.ampersand_notMem_spell, hlines line hline]
  rw [Utf8.encodeString, fields, String.toList_ofList, pairs_joinWith hne hampersand, List.map_map]
  exact List.map_congr_left fun line _ => escaping.field_encode_field line

theorem component_spelled (pairs : List (String × String)) :
    (pairs.map escaping.spelled).map (fun line => (line.1, component (Utf8.encode line.2))) =
      pairs := by
  rw [List.map_map]
  refine List.map_id'' (fun pair => ?_) pairs
  change (pair.1, component (Utf8.encode (escaping.spell pair.2))) = pair
  rw [component_spell]

theorem ampersand_notMem_spelled (pairs : List (String × String)) :
    ∀ line ∈ pairs.map escaping.spelled, '&' ∉ line.2 :=
  List.forall_mem_map.2 fun pair _ => escaping.ampersand_notMem_spell pair.2

/-- Pairs are read as they were written. -/
theorem pairs_write (pairs : List (String × String)) :
    Form.pairs (Utf8.encodeString (escaping.write pairs)) = pairs := by
  rw [write, pairs_fields escaping (escaping.ampersand_notMem_spelled pairs), component_spelled]

end Escaping

end ApiContract.Form
