import ApiContract.Proofs.CanonicalForms
import ApiContract.Proofs.Decimals
import ApiContract.Proofs.Retyping
import ApiContract.Proofs.Splitting

/-!
# Typed values come back from their texts

A value that a format gave its type travels as a text again.  For dates, bytes and identifiers that
text is read as the value that wrote it: a year outside four digits by its sign, bytes by base64
alone, and an identifier by its five groups of digits.
-/

namespace ApiContract

/-! ## Numbers with zeros in front -/

namespace Calendar

variable {width n most : ℕ} {rest : List Char}

theorem isDigit_of_mem_padded {c : Char} (hc : c ∈ padded width n) : Numeral.isDigit c := by
  rcases List.mem_append.1 hc with hzero | hdigit
  · rw [List.eq_of_mem_replicate hzero]
    rfl
  · exact Numeral.isDigit_of_mem_toDigits hdigit

theorem padded_ne_nil : padded width n ≠ [] := by
  intro hnil
  exact Nat.toDigits_ne_nil (List.append_eq_nil_iff.1 hnil).2

theorem isDigit_of_mem_head_padded {c : Char} (hc : c ∈ (padded width n ++ rest).head?) :
    Numeral.isDigit c := by
  rw [List.head?_append_of_ne_nil _ padded_ne_nil] at hc
  exact isDigit_of_mem_padded (List.mem_of_mem_head? hc)

theorem ofDigits_padded : Numeral.ofDigits (padded width n) = n := by
  have hzeros : ∀ count,
      (List.replicate count '0').foldl (fun value c => 10 * value + Numeral.digitValue c) 0 = 0 := by
    intro count
    induction count with
    | zero => rfl
    | succ count ih =>
        rw [List.replicate_succ, List.foldl_cons]
        exact ih
  unfold padded Numeral.ofDigits
  rw [List.foldl_append, hzeros]
  exact Numeral.ofDigits_toDigits n

theorem length_padded_le (hwidth : 0 < width) (hn : n < 10 ^ width) :
    (padded width n).length ≤ width := by
  have hdigits : (Numeral.digitsOf n).length ≤ width :=
    (Nat.length_toDigits_le_iff (by decide) hwidth).2 hn
  unfold padded
  rw [List.length_append, List.length_replicate]
  omega

theorem takeWhile_padded (hrest : ∀ c ∈ rest.head?, Numeral.isDigit c = false) :
    (padded width n ++ rest).takeWhile Numeral.isDigit = padded width n := by
  rw [List.takeWhile_append_of_pos fun _ hc => isDigit_of_mem_padded hc]
  cases rest with
  | nil => exact List.append_nil _
  | cons c more => rw [List.takeWhile_cons_of_neg (by simp [hrest c rfl]), List.append_nil]

/-! ## Dates -/

namespace Date

/-- A number is read up to the first character that is no digit. -/
theorem number?_padded (hmost : (padded width n).length ≤ most)
    (hrest : ∀ c ∈ rest.head?, Numeral.isDigit c = false) :
    number? most (padded width n ++ rest) = some (n, rest) := by
  have hne : (padded width n).isEmpty = false := List.isEmpty_eq_false_iff.2 padded_ne_nil
  unfold number?
  rw [takeWhile_padded hrest, List.take_of_length_le hmost]
  simp only [hne, Bool.false_eq_true, if_false, ofDigits_padded, List.drop_left]

theorem number?_blank_padded (hmost : (padded width n).length ≤ most)
    (hrest : ∀ c ∈ rest.head?, Numeral.isDigit c = false) :
    number? most ((padded width n ++ rest).dropWhile Text.isBlank) = some (n, rest) := by
  rw [Text.dropWhile_of_head?, number?_padded hmost hrest]
  exact fun c hc => Numeral.isBlank_of_isDigit (isDigit_of_mem_head_padded hc)

/-- A year of four digits stands without a sign, and any other year has one. -/
theorem year?_yearText (year : ℤ) (hrest : ∀ c ∈ rest.head?, Numeral.isDigit c = false) :
    year? (yearText year ++ rest) = some (year, rest) := by
  unfold yearText
  split
  · next hshort =>
      obtain ⟨hnonneg, hfour⟩ : 0 ≤ year ∧ year ≤ 9999 := by simpa using hshort
      have hmost : (padded 4 year.toNat).length ≤ 4 := length_padded_le (by decide) (by omega)
      have hread := number?_padded hmost hrest
      have hsame : (year.toNat : ℤ) = year := Int.toNat_of_nonneg hnonneg
      have hfirst : ∀ c ∈ (padded 4 year.toNat ++ rest).head?, Numeral.isDigit c :=
        fun c hc => isDigit_of_mem_head_padded hc
      unfold year?
      split
      · next heq =>
          rw [heq] at hfirst
          exact absurd (hfirst '-' rfl) (by decide)
      · next heq =>
          rw [heq] at hfirst
          exact absurd (hfirst '+' rfl) (by decide)
      · simp only [hread, Option.map_some, hsame]
  · next hlong =>
      have hmost : (padded 4 year.natAbs).length ≤ (padded 4 year.natAbs ++ rest).length := by
        simp
      have hread := number?_padded hmost hrest
      split
      · next hneg =>
          have hsame : -(year.natAbs : ℤ) = year := by omega
          simp only [List.cons_append, year?, hread, Option.map_some, hsame]
      · next hpos =>
          have hsame : (year.natAbs : ℤ) = year := by omega
          simp only [List.cons_append, year?, hread, Option.map_some, hsame]

theorem isBlank_of_head_yearText {year : ℤ} {c : Char} (hc : c ∈ (yearText year ++ rest).head?) :
    Text.isBlank c = false := by
  unfold yearText at hc
  split at hc
  · exact Numeral.isBlank_of_isDigit (isDigit_of_mem_head_padded hc)
  · split at hc
    · obtain rfl := Option.some.inj hc
      decide
    · obtain rfl := Option.some.inj hc
      decide

theorem ofText?_toText (d : Date) : ofText? d.toText = some d := by
  obtain ⟨-, -, -, hmonth, -, hday⟩ := d.isDate
  have hdays : daysInMonth d.year d.month ≤ 31 := by
    unfold daysInMonth
    split <;> (try split) <;> decide
  have hhyphen : ∀ text : List Char, ∀ c ∈ ('-' :: text).head?, Numeral.isDigit c = false := by
    rintro text c ⟨⟩
    rfl
  have hyearRead := year?_yearText d.year
    (hhyphen (padded 2 d.month ++ '-' :: padded 2 d.day))
  have hmonthLength : (padded 2 d.month).length ≤ 2 := length_padded_le (by decide) (by omega)
  have hdayLength : (padded 2 d.day).length ≤ 2 := length_padded_le (by decide) (by omega)
  have hmonthRead := number?_blank_padded hmonthLength (hhyphen (padded 2 d.day))
  have hend : ∀ c ∈ ([] : List Char).head?, Numeral.isDigit c = false := by simp
  have hdayRead := number?_blank_padded hdayLength hend
  rw [List.append_nil] at hdayRead
  have htext : d.toText =
      yearText d.year ++ '-' :: (padded 2 d.month ++ '-' :: padded 2 d.day) := by
    simp [toText]
  unfold ofText?
  rw [htext, Text.dropWhile_of_head? fun c hc => isBlank_of_head_yearText hc, hyearRead]
  simp only [Option.bind_eq_bind, Option.bind_some, hyphen?, hmonthRead, hdayRead]
  simp [ofParts?, d.isDate]

end Date

end Calendar

/-! ## Identifiers -/

namespace Uuid

theorem hexValue?_hexDigit : ∀ n < 16, Text.hexValue? (Text.hexDigit n) = some n := by
  decide

theorem hexDigit_ne_hyphen : ∀ n < 16, Text.hexDigit n ≠ '-' := by
  decide

theorem length_hexDigits (count n : ℕ) : (hexDigits count n).length = count := by
  induction count generalizing n with
  | zero => rfl
  | succ count ih => rw [hexDigits, List.length_append, ih, List.length_singleton]

theorem hyphen_notMem_hexDigits (count n : ℕ) : '-' ∉ hexDigits count n := by
  induction count generalizing n with
  | zero => exact List.not_mem_nil
  | succ count ih =>
      intro hmem
      rcases List.mem_append.1 hmem with hfront | hlast
      · exact ih _ hfront
      · have hne := hexDigit_ne_hyphen (n % 16) (Nat.mod_lt n (by decide))
        exact hne (List.mem_singleton.1 hlast).symm

/-- So many digits keep so many hexadecimal places of a number. -/
theorem foldlM_hexDigits (count n : ℕ) :
    (hexDigits count n).foldlM (fun value c => (Text.hexValue? c).map (16 * value + ·)) 0 =
      some (n % 16 ^ count) := by
  induction count generalizing n with
  | zero => simp [hexDigits, Nat.mod_one]
  | succ count ih =>
      have hlast := hexValue?_hexDigit (n % 16) (Nat.mod_lt n (by decide))
      have hplaces : 16 * (n / 16 % 16 ^ count) + n % 16 = n % 16 ^ (count + 1) := by
        rw [Nat.pow_succ', Nat.mod_mul, Nat.add_comm]
      rw [hexDigits, List.foldlM_append, ih]
      simp [hlast, hplaces]

theorem ofDigits?_hexDigits (u : Uuid) : ofDigits? (hexDigits 32 u.bits.toNat) = some u := by
  have hne : (hexDigits 32 u.bits.toNat).isEmpty = false := by
    rw [List.isEmpty_eq_false_iff_exists_mem, ← List.length_pos_iff_exists_mem, length_hexDigits]
    decide
  have hsmall : u.bits.toNat % 16 ^ 32 = u.bits.toNat := Nat.mod_eq_of_lt u.bits.isLt
  unfold ofDigits? Text.hexNumber?
  rw [if_pos (length_hexDigits _ _), hne, foldlM_hexDigits, hsmall]
  simp

/-- Thirty-two digits in the groups that hyphens separate. -/
def groups (digits : List Char) : List (List Char) :=
  [digits.take 8, (digits.drop 8).take 4, (digits.drop 12).take 4, (digits.drop 16).take 4,
    digits.drop 20]

theorem toText_eq (u : Uuid) :
    u.toText = Text.joinWith '-' (groups (hexDigits 32 u.bits.toNat)) := by
  simp [toText, groups, Text.joinWith]

theorem flatten_groups (digits : List Char) :
    digits.take 8 ++ (digits.drop 8).take 4 ++ (digits.drop 12).take 4 ++
      (digits.drop 16).take 4 ++ digits.drop 20 = digits := by
  rw [← List.take_add, ← List.take_add, ← List.take_add, List.take_append_drop]

theorem hyphen_notMem_of_mem_groups {digits group : List Char} (hdigits : '-' ∉ digits)
    (hgroup : group ∈ groups digits) : '-' ∉ group := by
  intro hmem
  unfold groups at hgroup
  simp only [List.mem_cons, List.not_mem_nil, or_false] at hgroup
  rcases hgroup with rfl | rfl | rfl | rfl | rfl
  · exact hdigits (List.mem_of_mem_take hmem)
  · exact hdigits (List.mem_of_mem_drop (List.mem_of_mem_take hmem))
  · exact hdigits (List.mem_of_mem_drop (List.mem_of_mem_take hmem))
  · exact hdigits (List.mem_of_mem_drop (List.mem_of_mem_take hmem))
  · exact hdigits (List.mem_of_mem_drop hmem)

theorem ofGroups?_joinWith {digits : List Char} (hlength : digits.length = 32)
    (hdigits : '-' ∉ digits) :
    ofGroups? (Text.joinWith '-' (groups digits)) = ofDigits? digits := by
  have hsplit : Text.splitAll '-' (Text.joinWith '-' (groups digits)) = groups digits :=
    Text.splitAll_joinWith (List.cons_ne_nil _ _) fun group hgroup =>
      hyphen_notMem_of_mem_groups hdigits hgroup
  unfold ofGroups?
  rw [hsplit]
  simp only [groups, List.length_take, List.length_drop, hlength, flatten_groups]
  rfl

theorem ofText?_toText (u : Uuid) : ofText? u.toText = some u := by
  have hlength := length_hexDigits 32 u.bits.toNat
  have hgroups := ofGroups?_joinWith hlength (hyphen_notMem_hexDigits 32 u.bits.toNat)
  have hlong : u.toText.length ≠ 32 := by
    simp [toText, hlength]
  have hbare : ofDigits? u.toText = none := if_neg hlong
  unfold ofText?
  rw [hbare, toText_eq, hgroups, ofDigits?_hexDigits]

end Uuid

/-! ## Formats -/

/-- A value is written as a text that a format reads as that value. -/
def Value.ComesBackAs (format : String) (value : Value) : Prop :=
  ∃ text, value.toJson = .string text ∧ Format.standard.cast format (.string text) = .ok value

namespace Format

theorem comesBackAs_date (d : Calendar.Date) : (Value.date d).ComesBackAs "date" := by
  refine ⟨_, rfl, ?_⟩
  have hcast : standard.cast "date" = date := rfl
  rw [hcast, date, String.toList_ofList, Calendar.Date.ofText?_toText]
  rfl

theorem comesBackAs_bytes (bytes : List UInt8) : (Value.bytes bytes).ComesBackAs "byte" := by
  refine ⟨_, rfl, ?_⟩
  have hcast : standard.cast "byte" = byte := rfl
  rw [hcast, byte, String.toList_ofList, Base64.decode?_encode]
  rfl

theorem comesBackAs_uuid (u : Uuid) : (Value.uuid u).ComesBackAs "uuid" := by
  refine ⟨_, rfl, ?_⟩
  have hcast : standard.cast "uuid" = uuid := rfl
  rw [hcast, uuid, String.toList_ofList, Uuid.ofText?_toText]
  rfl

/-- A standard format leaves what it produced, and reads dates, bytes and identifiers again from the
texts that they travel as. -/
theorem typed_values_stay_and_come_back :
    (∀ format value typed, standard.cast format value = .ok typed →
      standard.cast format typed = .ok typed) ∧
    (∀ d, (Value.date d).ComesBackAs "date") ∧ (∀ bytes, (Value.bytes bytes).ComesBackAs "byte") ∧
      ∀ u, (Value.uuid u).ComesBackAs "uuid" :=
  ⟨fun format value typed hcast => (isSettling_cast format value typed hcast).2, comesBackAs_date,
    comesBackAs_bytes, comesBackAs_uuid⟩

/-- Bytes that were read in the second alphabet of base64, and a date with a negative year. -/
theorem url_safe_bytes_stay_and_early_date_comes_back :
    standard.cast "byte" (.string "_-8=") = .ok (.bytes [0xFF, 0xEF]) ∧
      standard.cast "byte" (.bytes [0xFF, 0xEF]) = .ok (.bytes [0xFF, 0xEF]) ∧
      (Value.date ⟨-44, 3, 15, by decide⟩).toJson = .string "-0044-03-15" ∧
      (Value.date ⟨-44, 3, 15, by decide⟩).ComesBackAs "date" := by
  have hread : standard.cast "byte" (.string "_-8=") = .ok (.bytes [0xFF, 0xEF]) := by rfl
  refine ⟨hread, typed_values_stay_and_come_back.1 _ _ _ hread, by rfl, ?_⟩
  exact typed_values_stay_and_come_back.2.1 _

end Format

end ApiContract
