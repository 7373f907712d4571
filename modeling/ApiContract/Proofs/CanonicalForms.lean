import ApiContract.Proofs.Transcoding
import ApiContract.Text.Base64
import Mathlib.Tactic

/-!
# Readers that accept only what is written

UTF-8 and base64 give every text and every sequence of bytes one written form, and their readers
accept no other: no character in more bytes than it needs, no padding left out and no bits left over.
So what was read determines what was written, and the other way round.
-/

namespace ApiContract

/-! ## UTF-8 -/

namespace Utf8

theorem isContinuation_iff {b : UInt8} : isContinuation b ↔ 0x80 ≤ b.toNat ∧ b.toNat < 0xC0 := by
  simp [isContinuation]

/-- The second byte rules out longer forms than needed, surrogates, and what is beyond Unicode. -/
theorem bounds_of_allowsSecond {first second : UInt8} (hallows : allowsSecond first second) :
    (0x80 ≤ second.toNat ∧ second.toNat < 0xC0) ∧
      (first.toNat = 0xE0 → 0xA0 ≤ second.toNat) ∧ (first.toNat = 0xED → second.toNat < 0xA0) ∧
      (first.toNat = 0xF0 → 0x90 ≤ second.toNat) ∧ (first.toNat = 0xF4 → second.toNat < 0x90) := by
  unfold allowsSecond at hallows
  dsimp only at hallows
  split at hallows
  case h_5 =>
    rw [isContinuation_iff] at hallows
    simp_all
  all_goals
    rw [Bool.and_eq_true, decide_eq_true_eq, decide_eq_true_eq] at hallows
    omega

theorem encodeChar_one {first : UInt8} (hfirst : first.toNat < 0x80) :
    encodeChar (Char.ofNat first.toNat) = [first] := by
  have hvalue : (Char.ofNat first.toNat).toNat = first.toNat := toNat_charOfNat (by omega)
  unfold encodeChar
  rw [hvalue, if_pos hfirst, UInt8.ofNat_toNat]

theorem encodeChar_two {first second : UInt8} (hlow : 0xC2 ≤ first.toNat)
    (hhigh : first.toNat < 0xE0) (hsecond : isContinuation second) :
    encodeChar (Char.ofNat ((first.toNat - 0xC0) * 64 + low second)) = [first, second] := by
  rw [isContinuation_iff] at hsecond
  unfold low
  generalize hn : (first.toNat - 0xC0) * 64 + (second.toNat - 0x80) = n
  have hvalue : (Char.ofNat n).toNat = n := toNat_charOfNat (by omega)
  have hlead : 0xC0 + n / 64 = first.toNat := by omega
  have hlast : 0x80 + n % 64 = second.toNat := by omega
  unfold encodeChar
  dsimp only
  rw [hvalue, if_neg (by omega), if_pos (by omega), hlead, hlast, UInt8.ofNat_toNat,
    UInt8.ofNat_toNat]

theorem encodeChar_three {first second third : UInt8} (hlow : 0xE0 ≤ first.toNat)
    (hhigh : first.toNat < 0xF0) (hsecond : allowsSecond first second)
    (hthird : isContinuation third) :
    encodeChar (Char.ofNat ((first.toNat - 0xE0) * 4096 + low second * 64 + low third)) =
      [first, second, third] := by
  have hbounds := bounds_of_allowsSecond hsecond
  rw [isContinuation_iff] at hthird
  unfold low
  generalize hn : (first.toNat - 0xE0) * 4096 + (second.toNat - 0x80) * 64 +
    (third.toNat - 0x80) = n
  have hvalue : (Char.ofNat n).toNat = n := toNat_charOfNat (by omega)
  have hlead : 0xE0 + n / 4096 = first.toNat := by omega
  have hmiddle : 0x80 + n / 64 % 64 = second.toNat := by omega
  have hlast : 0x80 + n % 64 = third.toNat := by omega
  unfold encodeChar
  dsimp only
  rw [hvalue, if_neg (by omega), if_neg (by omega), if_pos (by omega), hlead, hmiddle, hlast,
    UInt8.ofNat_toNat, UInt8.ofNat_toNat, UInt8.ofNat_toNat]

theorem encodeChar_four {first second third fourth : UInt8} (hlow : 0xF0 ≤ first.toNat)
    (hhigh : first.toNat < 0xF5) (hsecond : allowsSecond first second)
    (hthird : isContinuation third) (hfourth : isContinuation fourth) :
    encodeChar (Char.ofNat ((first.toNat - 0xF0) * 262144 + low second * 4096 + low third * 64 +
      low fourth)) = [first, second, third, fourth] := by
  have hbounds := bounds_of_allowsSecond hsecond
  rw [isContinuation_iff] at hthird hfourth
  unfold low
  generalize hn : (first.toNat - 0xF0) * 262144 + (second.toNat - 0x80) * 4096 +
    (third.toNat - 0x80) * 64 + (fourth.toNat - 0x80) = n
  have hvalue : (Char.ofNat n).toNat = n := toNat_charOfNat (by omega)
  have hlead : 0xF0 + n / 262144 = first.toNat := by omega
  have hnext : 0x80 + n / 4096 % 64 = second.toNat := by omega
  have hmiddle : 0x80 + n / 64 % 64 = third.toNat := by omega
  have hlast : 0x80 + n % 64 = fourth.toNat := by omega
  unfold encodeChar
  dsimp only
  rw [hvalue, if_neg (by omega), if_neg (by omega), if_neg (by omega), hlead, hnext, hmiddle, hlast,
    UInt8.ofNat_toNat, UInt8.ofNat_toNat, UInt8.ofNat_toNat, UInt8.ofNat_toNat]

/-- A character is only read from the bytes that it is written in. -/
theorem eq_encodeChar_append_of_next {first : UInt8} {rest behind : List UInt8} {c : Char}
    (hnext : next first rest = (.char c, behind)) : first :: rest = encodeChar c ++ behind := by
  unfold next at hnext
  dsimp only at hnext
  split at hnext
  · next hone =>
      obtain ⟨hc, rfl⟩ := Prod.mk.inj hnext
      obtain rfl := Piece.char.inj hc
      rw [encodeChar_one hone]
      rfl
  · split at hnext
    · cases hnext
    next hone hlead =>
    rw [Bool.or_eq_true, decide_eq_true_eq, decide_eq_true_eq] at hlead
    split at hnext
    · cases hnext
    split at hnext
    · next htwo =>
        split at hnext
        · next hsecond =>
            obtain ⟨hc, rfl⟩ := Prod.mk.inj hnext
            obtain rfl := Piece.char.inj hc
            rw [encodeChar_two (by omega) htwo hsecond]
            rfl
        · cases hnext
    next htwo =>
    split at hnext
    · cases hnext
    next hsecond =>
    rw [Bool.not_eq_true', Bool.not_eq_false] at hsecond
    split at hnext
    · cases hnext
    split at hnext
    · cases hnext
    next hthird =>
    rw [Bool.not_eq_true', Bool.not_eq_false] at hthird
    split at hnext
    · next hthree =>
        obtain ⟨hc, rfl⟩ := Prod.mk.inj hnext
        obtain rfl := Piece.char.inj hc
        rw [encodeChar_three (by omega) hthree hsecond hthird]
        rfl
    next hthree =>
    split at hnext
    · cases hnext
    split at hnext
    · cases hnext
    next hfourth =>
    rw [Bool.not_eq_true', Bool.not_eq_false] at hfourth
    obtain ⟨hc, rfl⟩ := Prod.mk.inj hnext
    obtain rfl := Piece.char.inj hc
    rw [encodeChar_four (by omega) (by omega) hsecond hthird hfourth]
    rfl

theorem eq_encode_of_pieces {bytes : List UInt8} {text : List Char}
    (hpieces : pieces bytes = text.map .char) : bytes = encode text := by
  induction text generalizing bytes with
  | nil =>
      cases bytes with
      | nil => rfl
      | cons first rest => simp [pieces] at hpieces
  | cons c text ih =>
      cases bytes with
      | nil => simp [pieces] at hpieces
      | cons first rest =>
          rw [pieces, List.map_cons, List.cons.injEq] at hpieces
          have hnext : next first rest = (.char c, (next first rest).2) :=
            Prod.ext hpieces.1 rfl
          rw [eq_encodeChar_append_of_next hnext, ih hpieces.2, encode_cons]

theorem pieces_of_ofPieces {list : List Piece} {text : List Char} {index : ℕ}
    (hread : ofPieces index list = .ok text) : list = text.map .char := by
  induction list generalizing text index with
  | nil =>
      obtain rfl := Except.ok.inj hread
      rfl
  | cons piece rest ih =>
      cases piece with
      | char c =>
          rw [ofPieces] at hread
          cases hrest : ofPieces (index + (encodeChar c).length) rest with
          | error fault =>
              rw [hrest] at hread
              cases hread
          | ok more =>
              rw [hrest] at hread
              obtain rfl := Except.ok.inj hread
              rw [List.map_cons, ih hrest]
      | rejected length => cases hread
      | cut length => cases hread

/-- The bytes of a text are those that are read as that text. -/
theorem decode_eq_ok_iff {bytes : List UInt8} {text : List Char} :
    decode bytes = .ok text ↔ bytes = encode text := by
  constructor
  · intro hread
    exact eq_encode_of_pieces (pieces_of_ofPieces hread)
  · rintro rfl
    rw [decode, pieces_encode, ofPieces_map_char]

end Utf8

/-! ## Base64 -/

namespace Base64

theorem value?_symbol : ∀ n < 64, Alphabet.standard.value? (Alphabet.standard.symbol n) = some n := by
  decide

theorem symbol_ne_equals : ∀ n < 64, Alphabet.standard.symbol n ≠ '=' := by
  decide

theorem toNat_lt_of_value? {c : Char} {n : ℕ} (hvalue : Alphabet.standard.value? c = some n) :
    c.toNat < 128 := by
  unfold Alphabet.value? at hvalue
  simp only [Char.le_def, UInt32.le_iff_toNat_le, Bool.and_eq_true, decide_eq_true_eq] at hvalue
  split at hvalue
  · next hupper => exact Nat.lt_of_le_of_lt hupper.2 (by decide)
  split at hvalue
  · next hlower => exact Nat.lt_of_le_of_lt hlower.2 (by decide)
  split at hvalue
  · next hdigit => exact Nat.lt_of_le_of_lt hdigit.2 (by decide)
  split at hvalue
  · next hplus =>
      rw [hplus]
      decide
  split at hvalue
  · next hslash =>
      rw [hslash]
      decide
  · cases hvalue

theorem symbol_of_value? {c : Char} {n : ℕ} (hvalue : Alphabet.standard.value? c = some n) :
    n < 64 ∧ Alphabet.standard.symbol n = c := by
  have hascii : ∀ k < 128, ∀ n ∈ Alphabet.standard.value? (Char.ofNat k),
      n < 64 ∧ Alphabet.standard.symbol n = Char.ofNat k := by decide
  have hchar := hascii c.toNat (toNat_lt_of_value? hvalue) n
  rw [Char.ofNat_toNat] at hchar
  exact hchar hvalue

/-- A group of four symbols stands for three bytes. -/
theorem decode?_group {i j k l : ℕ} (hi : i < 64) (hj : j < 64) (hk : k < 64) (hl : l < 64)
    (rest : List Char) :
    decode? .standard (Alphabet.standard.symbol i :: Alphabet.standard.symbol j ::
        Alphabet.standard.symbol k :: Alphabet.standard.symbol l :: rest) =
      (decode? .standard rest).map fun bytes =>
        .ofNat (i * 4 + j / 16) :: .ofNat (j % 16 * 16 + k / 4) :: .ofNat (k % 4 * 64 + l) ::
          bytes := by
  have hequals := symbol_ne_equals l hl
  rw [decode?, value?_symbol i hi, value?_symbol j hj, value?_symbol k hk, value?_symbol l hl]
  · cases decode? .standard rest <;> rfl
  · simp [hequals]
  · simp [hequals]

theorem decode?_pair {i j : ℕ} (hi : i < 64) (hj : j < 64) :
    decode? .standard [Alphabet.standard.symbol i, Alphabet.standard.symbol j, '=', '='] =
      if j % 16 = 0 then some [.ofNat (i * 4 + j / 16)] else none := by
  rw [decode?, value?_symbol i hi, value?_symbol j hj]
  rfl

theorem decode?_triple {i j k : ℕ} (hi : i < 64) (hj : j < 64) (hk : k < 64) :
    decode? .standard [Alphabet.standard.symbol i, Alphabet.standard.symbol j,
        Alphabet.standard.symbol k, '='] =
      if k % 4 = 0 then some [.ofNat (i * 4 + j / 16), .ofNat (j % 16 * 16 + k / 4)] else none := by
  rw [decode?, value?_symbol i hi, value?_symbol j hj, value?_symbol k hk]
  · rfl
  · exact symbol_ne_equals k hk

theorem decode?_encode (bytes : List UInt8) :
    decode? .standard (encode .standard bytes) = some bytes := by
  induction bytes using encode.induct with
  | case1 => rfl
  | case2 x =>
      have hx := x.toNat_lt
      rw [encode, decode?_pair (by omega) (by omega), if_pos (by omega)]
      have hbyte : x.toNat * 16 / 64 * 4 + x.toNat * 16 % 64 / 16 = x.toNat := by omega
      rw [hbyte, UInt8.ofNat_toNat]
  | case3 x y =>
      have hx := x.toNat_lt
      have hy := y.toNat_lt
      rw [encode]
      generalize hn : (x.toNat * 256 + y.toNat) * 4 = n
      have hfirst : n / 4096 * 4 + n / 64 % 64 / 16 = x.toNat := by omega
      have hsecond : n / 64 % 64 % 16 * 16 + n % 64 / 4 = y.toNat := by omega
      rw [decode?_triple (by omega) (by omega) (by omega), if_pos (by omega), hfirst, hsecond,
        UInt8.ofNat_toNat, UInt8.ofNat_toNat]
  | case4 x y z rest ih =>
      have hx := x.toNat_lt
      have hy := y.toNat_lt
      have hz := z.toNat_lt
      rw [encode]
      generalize hn : (x.toNat * 256 + y.toNat) * 256 + z.toNat = n
      have hfirst : n / 262144 * 4 + n / 4096 % 64 / 16 = x.toNat := by omega
      have hsecond : n / 4096 % 64 % 16 * 16 + n / 64 % 64 / 4 = y.toNat := by omega
      have hthird : n / 64 % 64 % 4 * 64 + n % 64 = z.toNat := by omega
      rw [decode?_group (by omega) (by omega) (by omega) (by omega), ih, hfirst, hsecond, hthird,
        UInt8.ofNat_toNat, UInt8.ofNat_toNat, UInt8.ofNat_toNat]
      rfl

theorem exists_symbol_of_bind {α : Type} {c : Char} {rest : ℕ → Option α} {result : α}
    (hread : (Alphabet.standard.value? c).bind rest = some result) :
    ∃ n < 64, Alphabet.standard.symbol n = c ∧ rest n = some result := by
  obtain ⟨n, hvalue, hrest⟩ := Option.bind_eq_some_iff.1 hread
  obtain ⟨hn, hsymbol⟩ := symbol_of_value? hvalue
  exact ⟨n, hn, hsymbol, hrest⟩

/-- Padding is only read where it belongs, and only without bits that it would drop. -/
theorem eq_encode_of_decode? {text : List Char} {bytes : List UInt8}
    (hread : decode? .standard text = some bytes) : text = encode .standard bytes := by
  induction text using decode?.induct generalizing bytes with
  | case1 =>
      obtain rfl := Option.some.inj hread
      rfl
  | case2 p q =>
      rw [decode?] at hread
      obtain ⟨i, hi, rfl, hq⟩ := exists_symbol_of_bind hread
      obtain ⟨j, hj, rfl, hbytes⟩ := exists_symbol_of_bind hq
      split at hbytes
      · next hspare =>
          obtain rfl := Option.some.inj hbytes
          have hbyte := Utf8.toNat_ofNat_of_lt (show i * 4 + j / 16 < 256 by omega)
          have hfirst : (i * 4 + j / 16) * 16 / 64 = i := by omega
          have hsecond : (i * 4 + j / 16) * 16 % 64 = j := by omega
          rw [encode, hbyte, hfirst, hsecond]
      · cases hbytes
  | case3 p q r hpair =>
      rw [decode?.eq_3 _ _ _ _ hpair] at hread
      obtain ⟨i, hi, rfl, hq⟩ := exists_symbol_of_bind hread
      obtain ⟨j, hj, rfl, hr⟩ := exists_symbol_of_bind hq
      obtain ⟨k, hk, rfl, hbytes⟩ := exists_symbol_of_bind hr
      split at hbytes
      · next hspare =>
          obtain rfl := Option.some.inj hbytes
          have hbyte := Utf8.toNat_ofNat_of_lt (show i * 4 + j / 16 < 256 by omega)
          have hnext := Utf8.toNat_ofNat_of_lt (show j % 16 * 16 + k / 4 < 256 by omega)
          rw [encode, hbyte, hnext]
          generalize hn : ((i * 4 + j / 16) * 256 + (j % 16 * 16 + k / 4)) * 4 = n
          have hfirst : n / 4096 = i := by omega
          have hsecond : n / 64 % 64 = j := by omega
          have hthird : n % 64 = k := by omega
          rw [hfirst, hsecond, hthird]
      · cases hbytes
  | case4 p q r s rest hpair htriple ih =>
      rw [decode?.eq_4 _ _ _ _ _ _ hpair htriple] at hread
      obtain ⟨i, hi, rfl, hq⟩ := exists_symbol_of_bind hread
      obtain ⟨j, hj, rfl, hr⟩ := exists_symbol_of_bind hq
      obtain ⟨k, hk, rfl, hs⟩ := exists_symbol_of_bind hr
      obtain ⟨l, hl, rfl, hrest⟩ := exists_symbol_of_bind hs
      obtain ⟨more, hmore, hbytes⟩ := Option.bind_eq_some_iff.1 hrest
      obtain rfl := Option.some.inj hbytes
      have hbyte := Utf8.toNat_ofNat_of_lt (show i * 4 + j / 16 < 256 by omega)
      have hnext := Utf8.toNat_ofNat_of_lt (show j % 16 * 16 + k / 4 < 256 by omega)
      have hlast := Utf8.toNat_ofNat_of_lt (show k % 4 * 64 + l < 256 by omega)
      rw [encode, hbyte, hnext, hlast, ← ih hmore]
      generalize hn : ((i * 4 + j / 16) * 256 + (j % 16 * 16 + k / 4)) * 256 +
        (k % 4 * 64 + l) = n
      have hfirst : n / 262144 = i := by omega
      have hsecond : n / 4096 % 64 = j := by omega
      have hthird : n / 64 % 64 = k := by omega
      have hfourth : n % 64 = l := by omega
      rw [hfirst, hsecond, hthird, hfourth]
  | case5 text hnil hpair htriple hgroup =>
      rw [decode?.eq_def] at hread
      split at hread
      · exact absurd rfl hnil
      · exact absurd rfl (hpair _ _)
      · exact absurd rfl (htriple _ _ _)
      · exact absurd rfl (hgroup _ _ _ _ _)
      · cases hread

/-- The base64 of some bytes is the text that is read as those bytes. -/
theorem decode?_eq_some_iff {text : List Char} {bytes : List UInt8} :
    decode? .standard text = some bytes ↔ text = encode .standard bytes := by
  constructor
  · exact eq_encode_of_decode?
  · rintro rfl
    exact decode?_encode bytes

end Base64

end ApiContract
