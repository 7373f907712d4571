import ApiContract.Text.Percent
import Mathlib.Tactic

/-!
# Reading back what was encoded

The bytes of a text in UTF-8 are read as the characters of the text again, and a percent-encoded
text stands for the text that was encoded, as long as its percent signs were.
-/

namespace ApiContract

/-! ## UTF-8 -/

namespace Utf8

theorem isValid_toNat (c : Char) : c.toNat < 0xD800 ∨ 0xDFFF < c.toNat ∧ c.toNat < 0x110000 :=
  c.valid

theorem toNat_charOfNat {n : Nat} (hvalid : n.isValidChar) : (Char.ofNat n).toNat = n := by
  unfold Char.ofNat
  rw [dif_pos hvalid]
  rfl

theorem toNat_ofNat_of_lt {n : Nat} (hn : n < 256) : (UInt8.ofNat n).toNat = n := by
  rw [UInt8.toNat_ofNat', Nat.mod_eq_of_lt hn]

theorem isContinuation_ofNat {n : Nat} (hn : n < 64) : isContinuation (.ofNat (0x80 + n)) := by
  have hbyte := toNat_ofNat_of_lt (show 0x80 + n < 256 by omega)
  simp only [isContinuation, hbyte, Bool.and_eq_true, decide_eq_true_eq]
  omega

theorem low_ofNat {n : Nat} (hn : n < 64) : low (.ofNat (0x80 + n)) = n := by
  have hbyte := toNat_ofNat_of_lt (show 0x80 + n < 256 by omega)
  unfold low
  omega

theorem allowsSecond_of_three {n : Nat} (hlow : 0x800 ≤ n)
    (hvalid : n < 0xD800 ∨ 0xDFFF < n ∧ n < 0x10000) :
    allowsSecond (.ofNat (0xE0 + n / 4096)) (.ofNat (0x80 + n / 64 % 64)) := by
  have hfirst := toNat_ofNat_of_lt (show 0xE0 + n / 4096 < 256 by omega)
  have hsecond := toNat_ofNat_of_lt (show 0x80 + n / 64 % 64 < 256 by omega)
  unfold allowsSecond
  dsimp only
  rw [hfirst, hsecond]
  split
  · next h =>
      simp
      omega
  · next h =>
      simp
      omega
  · next h => omega
  · next h => omega
  · exact isContinuation_ofNat (Nat.mod_lt _ (by omega))

theorem allowsSecond_of_four {n : Nat} (hlow : 0x10000 ≤ n) (hhigh : n < 0x110000) :
    allowsSecond (.ofNat (0xF0 + n / 262144)) (.ofNat (0x80 + n / 4096 % 64)) := by
  have hfirst := toNat_ofNat_of_lt (show 0xF0 + n / 262144 < 256 by omega)
  have hsecond := toNat_ofNat_of_lt (show 0x80 + n / 4096 % 64 < 256 by omega)
  unfold allowsSecond
  dsimp only
  rw [hfirst, hsecond]
  split
  · next h => omega
  · next h => omega
  · next h =>
      simp
      omega
  · next h =>
      simp
      omega
  · exact isContinuation_ofNat (Nat.mod_lt _ (by omega))

theorem next_one {n : Nat} (hn : n < 0x80) (rest : List UInt8) :
    next (.ofNat n) rest = (.char (Char.ofNat n), rest) := by
  have hfirst := toNat_ofNat_of_lt (show n < 256 by omega)
  unfold next
  dsimp only
  rw [hfirst, if_pos hn]

theorem next_two {n : Nat} (hlow : 0x80 ≤ n) (hhigh : n < 0x800) (rest : List UInt8) :
    next (.ofNat (0xC0 + n / 64)) (.ofNat (0x80 + n % 64) :: rest) =
      (.char (Char.ofNat n), rest) := by
  have hfirst := toNat_ofNat_of_lt (show 0xC0 + n / 64 < 256 by omega)
  have hsecond := isContinuation_ofNat (Nat.mod_lt n (show 64 > 0 by omega))
  have hvalue : (0xC0 + n / 64 - 0xC0) * 64 + n % 64 = n := by omega
  unfold next
  dsimp only
  rw [hfirst, if_neg (by omega), if_neg (by simp; omega), if_pos (by omega), if_pos hsecond,
    low_ofNat (Nat.mod_lt n (by omega)), hvalue]

theorem next_three {n : Nat} (hlow : 0x800 ≤ n)
    (hvalid : n < 0xD800 ∨ 0xDFFF < n ∧ n < 0x10000) (rest : List UInt8) :
    next (.ofNat (0xE0 + n / 4096))
        (.ofNat (0x80 + n / 64 % 64) :: .ofNat (0x80 + n % 64) :: rest) =
      (.char (Char.ofNat n), rest) := by
  have hfirst := toNat_ofNat_of_lt (show 0xE0 + n / 4096 < 256 by omega)
  have hsecond := allowsSecond_of_three hlow hvalid
  have hthird := isContinuation_ofNat (Nat.mod_lt n (show 64 > 0 by omega))
  have hvalue : (0xE0 + n / 4096 - 0xE0) * 4096 + n / 64 % 64 * 64 + n % 64 = n := by omega
  unfold next
  dsimp only
  rw [hfirst, hsecond, hthird, if_neg (by omega), if_neg (by simp; omega), if_neg (by omega)]
  simp only [Bool.not_true, Bool.false_eq_true, if_false]
  rw [if_pos (by omega), low_ofNat (Nat.mod_lt _ (by omega)), low_ofNat (Nat.mod_lt _ (by omega)),
    hvalue]

theorem next_four {n : Nat} (hlow : 0x10000 ≤ n) (hhigh : n < 0x110000) (rest : List UInt8) :
    next (.ofNat (0xF0 + n / 262144))
        (.ofNat (0x80 + n / 4096 % 64) :: .ofNat (0x80 + n / 64 % 64) ::
          .ofNat (0x80 + n % 64) :: rest) =
      (.char (Char.ofNat n), rest) := by
  have hfirst := toNat_ofNat_of_lt (show 0xF0 + n / 262144 < 256 by omega)
  have hsecond := allowsSecond_of_four hlow hhigh
  have hthird := isContinuation_ofNat (Nat.mod_lt (n / 64) (show 64 > 0 by omega))
  have hfourth := isContinuation_ofNat (Nat.mod_lt n (show 64 > 0 by omega))
  have hvalue : (0xF0 + n / 262144 - 0xF0) * 262144 + n / 4096 % 64 * 4096 + n / 64 % 64 * 64 +
      n % 64 = n := by omega
  unfold next
  dsimp only
  rw [hfirst, hsecond, hthird, hfourth, if_neg (by omega), if_neg (by simp; omega),
    if_neg (by omega)]
  simp only [Bool.not_true, Bool.false_eq_true, if_false]
  rw [if_neg (by omega), low_ofNat (Nat.mod_lt _ (by omega)), low_ofNat (Nat.mod_lt _ (by omega)),
    low_ofNat (Nat.mod_lt _ (by omega)), hvalue]

theorem encodeChar_of_lt {c : Char} (hc : c.toNat < 0x80) : encodeChar c = [.ofNat c.toNat] := by
  rw [encodeChar]
  exact if_pos hc

theorem le_toNat_of_mem_encodeChar {c : Char} {b : UInt8} (hc : 0x80 ≤ c.toNat)
    (hb : b ∈ encodeChar c) : 0x80 ≤ b.toNat := by
  have hvalid := isValid_toNat c
  revert b
  unfold encodeChar
  dsimp only
  rw [if_neg (by omega)]
  split
  · simp only [List.forall_mem_cons, List.not_mem_nil, false_imp_iff, implies_true, and_true,
      UInt8.toNat_ofNat']
    omega
  · split
    · simp only [List.forall_mem_cons, List.not_mem_nil, false_imp_iff, implies_true, and_true,
        UInt8.toNat_ofNat']
      omega
    · simp only [List.forall_mem_cons, List.not_mem_nil, false_imp_iff, implies_true, and_true,
        UInt8.toNat_ofNat']
      omega

/-- The byte of an ASCII character occurs in the bytes of no other character. -/
theorem notMem_encodeChar {c d : Char} (hd : d.toNat < 0x80) (hne : c ≠ d) :
    UInt8.ofNat d.toNat ∉ encodeChar c := by
  intro hmem
  by_cases hascii : c.toNat < 0x80
  · rw [encodeChar_of_lt hascii, List.mem_singleton] at hmem
    have hbyte := congrArg UInt8.toNat hmem
    rw [toNat_ofNat_of_lt (by omega), toNat_ofNat_of_lt (by omega)] at hbyte
    exact hne (Char.toNat_inj.1 hbyte.symm)
  · have hbyte := le_toNat_of_mem_encodeChar (by omega) hmem
    rw [toNat_ofNat_of_lt (by omega)] at hbyte
    omega

theorem notMem_encode {d : Char} {text : List Char} (hd : d.toNat < 0x80) (htext : d ∉ text) :
    UInt8.ofNat d.toNat ∉ encode text := by
  intro hmem
  obtain ⟨c, hc, hbyte⟩ := List.mem_flatMap.1 hmem
  have hne : c ≠ d := fun heq => htext (heq ▸ hc)
  exact notMem_encodeChar hd hne hbyte

theorem encode_cons (c : Char) (rest : List Char) :
    encode (c :: rest) = encodeChar c ++ encode rest :=
  List.flatMap_cons

/-- What is read first of the bytes of a character is the character. -/
theorem pieces_encodeChar_append (c : Char) (rest : List UInt8) :
    pieces (encodeChar c ++ rest) = .char c :: pieces rest := by
  have hvalid := isValid_toNat c
  have hc : Char.ofNat c.toNat = c := Char.ofNat_toNat c
  unfold encodeChar
  dsimp only
  split
  · next h1 =>
      rw [List.singleton_append, pieces, next_one h1, hc]
  · next h1 =>
      split
      · next h2 =>
          rw [List.cons_append, List.singleton_append, pieces, next_two (by omega) h2, hc]
      · next h2 =>
          split
          · next h3 =>
              have hthree : c.toNat < 0xD800 ∨ 0xDFFF < c.toNat ∧ c.toNat < 0x10000 := by omega
              rw [List.cons_append, List.cons_append, List.singleton_append, pieces,
                next_three (by omega) hthree, hc]
          · next h3 =>
              rw [List.cons_append, List.cons_append, List.cons_append, List.singleton_append,
                pieces, next_four (by omega) (by omega), hc]

theorem pieces_encode (text : List Char) : pieces (encode text) = text.map .char := by
  unfold encode
  induction text with
  | nil => rw [List.flatMap_nil, pieces, List.map_nil]
  | cons c rest ih => rw [List.flatMap_cons, pieces_encodeChar_append, ih, List.map_cons]

theorem decodeLossy_encode (text : List Char) : decodeLossy (encode text) = text := by
  have hchars : (Piece.toChar ∘ Piece.char) = id := rfl
  rw [decodeLossy, pieces_encode, List.map_map, hchars, List.map_id]

theorem ofPieces_map_char (text : List Char) (index : Nat) :
    ofPieces index (text.map .char) = .ok text := by
  induction text generalizing index with
  | nil => rfl
  | cons c rest ih =>
      rw [List.map_cons, ofPieces, ih]
      rfl

theorem encode_append (front back : List Char) :
    encode (front ++ back) = encode front ++ encode back :=
  List.flatMap_append

theorem byteLength_append (front back : List Char) :
    byteLength (front ++ back) = byteLength front + byteLength back := by
  rw [byteLength, encode_append, List.length_append, byteLength, byteLength]

theorem length_encodeChar_pos (c : Char) : 0 < (encodeChar c).length := by
  unfold encodeChar
  dsimp only
  repeat' split
  all_goals simp

theorem byteLength_pos {text : List Char} (htext : text ≠ []) : 0 < byteLength text := by
  obtain ⟨c, rest, rfl⟩ := List.exists_cons_of_ne_nil htext
  have hchar := length_encodeChar_pos c
  have hcons : byteLength (c :: rest) = (encodeChar c).length + byteLength rest := by
    simp [byteLength, encode]
  omega

end Utf8

/-! ## Percent encoding -/

namespace Percent

open Utf8

/-- A hexadecimal digit of a number below sixteen, in either case. -/
def IsHexDigit (n : ℕ) (c : Char) : Prop := c = Text.hexDigit n ∨ c = upperHexDigit n

instance (n : ℕ) (c : Char) : Decidable (IsHexDigit n c) := inferInstanceAs (Decidable (_ ∨ _))

theorem hexValue?_of_isHexDigit {n : ℕ} {c : Char} (hn : n < 16) (hdigit : IsHexDigit n c) :
    Text.hexValue? c = some n := by
  have hlower : ∀ n < 16, Text.hexValue? (Text.hexDigit n) = some n := by decide
  have hupper : ∀ n < 16, Text.hexValue? (upperHexDigit n) = some n := by decide
  rcases hdigit with rfl | rfl
  · exact hlower n hn
  · exact hupper n hn

theorem toNat_lt_of_isHexDigit {n : ℕ} {c : Char} (hn : n < 16) (hdigit : IsHexDigit n c) :
    c.toNat < 0x80 := by
  have hlower : ∀ n < 16, (Text.hexDigit n).toNat < 0x80 := by decide
  have hupper : ∀ n < 16, (upperHexDigit n).toNat < 0x80 := by decide
  rcases hdigit with rfl | rfl
  · exact hlower n hn
  · exact hupper n hn

/-- Bytes are written as percent signs with two digits each. -/
inductive SpellsBytes : List UInt8 → List Char → Prop
  | nil : SpellsBytes [] []
  | cons {b : UInt8} {bytes : List UInt8} {high low : Char} {piece : List Char}
      (hhigh : IsHexDigit (b.toNat / 16) high) (hlow : IsHexDigit (b.toNat % 16) low)
      (hrest : SpellsBytes bytes piece) : SpellsBytes (b :: bytes) ('%' :: high :: low :: piece)

theorem spellsBytes_flatMap_encodeByte (bytes : List UInt8) :
    SpellsBytes bytes (bytes.flatMap encodeByte) := by
  induction bytes with
  | nil => exact .nil
  | cons b rest ih => exact .cons (.inr rfl) (.inr rfl) ih

theorem SpellsBytes.cases_of_mem {bytes : List UInt8} {piece : List Char} {c : Char}
    (hspells : SpellsBytes bytes piece) (hmem : c ∈ piece) :
    c = '%' ∨ ∃ n < 16, IsHexDigit n c := by
  induction hspells with
  | nil => exact absurd hmem List.not_mem_nil
  | @cons b _ _ _ _ hhigh hlow _ ih =>
      have hlt : b.toNat < 256 := b.toNat_lt
      simp only [List.mem_cons] at hmem
      rcases hmem with rfl | rfl | rfl | hmem
      · exact .inl rfl
      · exact .inr ⟨_, by omega, hhigh⟩
      · exact .inr ⟨_, by omega, hlow⟩
      · exact ih hmem

theorem SpellsBytes.notMem {bytes : List UInt8} {piece : List Char} {mark : Char}
    (hspells : SpellsBytes bytes piece) (hpercent : mark ≠ '%')
    (hdigit : ∀ n < 16, ¬ IsHexDigit n mark) : mark ∉ piece := by
  intro hmem
  rcases hspells.cases_of_mem hmem with heq | ⟨n, hn, hmark⟩
  · exact hpercent heq
  · exact hdigit n hn hmark

theorem decodeBytes_cons_of_ne {b : UInt8} (hb : b ≠ 0x25) (rest : List UInt8) :
    decodeBytes (b :: rest) = b :: decodeBytes rest := by
  rcases rest with _ | ⟨high, _ | ⟨low, rest⟩⟩
  · rfl
  · rfl
  · rw [decodeBytes, if_neg hb]

theorem decodeBytes_append_of_notMem {bytes : List UInt8} (hbytes : 0x25 ∉ bytes)
    (rest : List UInt8) : decodeBytes (bytes ++ rest) = bytes ++ decodeBytes rest := by
  induction bytes with
  | nil => rfl
  | cons b more ih =>
      obtain ⟨hb, hmore⟩ := List.ne_and_not_mem_of_not_mem_cons hbytes
      rw [List.cons_append, decodeBytes_cons_of_ne hb.symm, ih hmore, List.cons_append]

theorem byte?_of_isHexDigit {b : UInt8} {high low : Char} (hhigh : IsHexDigit (b.toNat / 16) high)
    (hlow : IsHexDigit (b.toNat % 16) low) : byte? high low = some b := by
  have hlt : b.toNat < 256 := b.toNat_lt
  have hsum : 16 * (b.toNat / 16) + b.toNat % 16 = b.toNat := Nat.div_add_mod _ _
  rw [byte?, hexValue?_of_isHexDigit (by omega) hhigh, hexValue?_of_isHexDigit (by omega) hlow]
  change some (UInt8.ofNat (16 * (b.toNat / 16) + b.toNat % 16)) = some b
  rw [hsum, UInt8.ofNat_toNat]

theorem decodeBytes_of_spellsBytes {bytes : List UInt8} {piece : List Char}
    (hspells : SpellsBytes bytes piece) (rest : List UInt8) :
    decodeBytes (Utf8.encode piece ++ rest) = bytes ++ decodeBytes rest := by
  induction hspells with
  | nil => rfl
  | @cons b bytes high low piece hhigh hlow _ ih =>
      have hlt : b.toNat < 256 := b.toNat_lt
      have hhighLt := toNat_lt_of_isHexDigit (by omega) hhigh
      have hlowLt := toNat_lt_of_isHexDigit (by omega) hlow
      have hpercent : encodeChar '%' = [0x25] := by decide
      have hhighByte := toNat_ofNat_of_lt (show high.toNat < 256 by omega)
      have hlowByte := toNat_ofNat_of_lt (show low.toNat < 256 by omega)
      rw [Utf8.encode_cons, Utf8.encode_cons, Utf8.encode_cons, hpercent, encodeChar_of_lt hhighLt,
        encodeChar_of_lt hlowLt]
      simp only [List.cons_append, List.nil_append]
      rw [decodeBytes, if_pos rfl, hhighByte, hlowByte, Char.ofNat_toNat, Char.ofNat_toNat,
        byte?_of_isHexDigit hhigh hlow]
      exact congrArg (b :: ·) ih

theorem decodeBytes_encode_append {escaped : Char → Bool} (hescaped : escaped '%')
    (text : List Char) (rest : List UInt8) :
    decodeBytes (Utf8.encode (encode escaped text) ++ rest) =
      Utf8.encode text ++ decodeBytes rest := by
  induction text with
  | nil => rfl
  | cons c more ih =>
      have hcons : encode escaped (c :: more) =
          (if escaped c then (encodeChar c).flatMap encodeByte else [c]) ++ encode escaped more :=
        List.flatMap_cons
      rw [hcons, Utf8.encode_append, Utf8.encode_cons, List.append_assoc, List.append_assoc, ← ih]
      by_cases hc : escaped c
      · rw [if_pos hc, decodeBytes_of_spellsBytes (spellsBytes_flatMap_encodeByte _)]
      · have hne : c ≠ '%' := fun heq => hc (heq ▸ hescaped)
        have hsingle : Utf8.encode [c] = encodeChar c := by simp [Utf8.encode]
        have hpercent : 0x25 ∉ encodeChar c := notMem_encodeChar (d := '%') (by decide) hne
        rw [if_neg hc, hsingle, decodeBytes_append_of_notMem hpercent]

theorem decodeBytes_encode {escaped : Char → Bool} (hescaped : escaped '%') (text : List Char) :
    decodeBytes (Utf8.encode (encode escaped text)) = Utf8.encode text := by
  have hread := decodeBytes_encode_append hescaped text []
  rwa [List.append_nil, decodeBytes, List.append_nil] at hread

/-- Whatever else is escaped, decoding gives the text back if percent signs are. -/
theorem decode_encode {escaped : Char → Bool} (hescaped : escaped '%') (text : List Char) :
    decode (encode escaped text) = text := by
  rw [decode, decodeBytes_encode hescaped, decodeLossy_encode]

/-- A percent-encoded text consists of its characters that were not escaped, percent signs and
digits. -/
theorem mem_encode {escaped : Char → Bool} {text : List Char} {c : Char}
    (hc : c ∈ encode escaped text) :
    (c ∈ text ∧ ¬escaped c) ∨ c = '%' ∨ ∃ n < 16, c = upperHexDigit n := by
  unfold encode at hc
  obtain ⟨source, hsource, hmem⟩ := List.mem_flatMap.1 hc
  by_cases hescaped : escaped source
  · rw [if_pos hescaped] at hmem
    obtain ⟨b, -, hb⟩ := List.mem_flatMap.1 hmem
    have hlt : b.toNat < 256 := b.toNat_lt
    simp only [encodeByte, List.mem_cons, List.not_mem_nil, or_false] at hb
    rcases hb with rfl | rfl | rfl
    · exact .inr (.inl rfl)
    · exact .inr (.inr ⟨_, by omega, rfl⟩)
    · exact .inr (.inr ⟨_, by omega, rfl⟩)
  · rw [if_neg hescaped, List.mem_singleton] at hmem
    exact .inl ⟨hmem ▸ hsource, hmem ▸ hescaped⟩

end Percent

end ApiContract
