import ApiContract.Number.Numeral
import ApiContract.Proofs.Trimming
import Mathlib.Tactic

/-!
# Integers in decimal digits

The decimal text of an integer is read as that integer again, and nothing is trimmed off it.  For
integers of 64 bits this includes the least one, whose absolute value is out of range.
-/

namespace ApiContract

namespace Numeral

theorem ofDigits_toDigits (n : Nat) : ofDigits (Nat.toDigits 10 n) = n := by
  have hread : Nat.ofDigitChars 10 (Nat.toDigits 10 n) 0 = n :=
    Nat.ofDigitChars_toDigits (by decide) (by decide)
  rwa [Nat.ofDigitChars_eq_foldl] at hread

theorem isDigit_of_mem_toDigits {n : Nat} {c : Char} (hc : c ∈ Nat.toDigits 10 n) : isDigit c :=
  Nat.isDigit_of_mem_toDigits (by decide) (by decide) hc

theorem natural?_toDigits (n : Nat) : natural? (Nat.toDigits 10 n) = some n := by
  have hne : (Nat.toDigits 10 n).isEmpty = false := by
    rw [List.isEmpty_eq_false_iff]
    exact Nat.toDigits_ne_nil
  have hdigits : (Nat.toDigits 10 n).all isDigit :=
    List.all_eq_true.2 fun _ hc => isDigit_of_mem_toDigits hc
  rw [natural?, hne, hdigits, ofDigits_toDigits]
  rfl

/-- Digits do not begin with a sign. -/
theorem splitSign_toDigits (n : Nat) :
    splitSign (Nat.toDigits 10 n) = (false, Nat.toDigits 10 n) := by
  cases hdigits : Nat.toDigits 10 n with
  | nil => rfl
  | cons first rest =>
      have hfirst : isDigit first := by
        apply isDigit_of_mem_toDigits (n := n)
        rw [hdigits]
        exact List.mem_cons_self
      unfold splitSign
      split
      · next heq =>
          obtain ⟨rfl, -⟩ := List.cons.inj heq
          exact absurd hfirst (by decide)
      · next heq =>
          obtain ⟨rfl, -⟩ := List.cons.inj heq
          exact absurd hfirst (by decide)
      · rfl

theorem toList_toString_natCast (n : Nat) : (toString (n : Int)).toList = Nat.toDigits 10 n :=
  Nat.toList_repr

theorem toList_toString_negSucc (n : Nat) :
    (toString (Int.negSucc n)).toList = '-' :: Nat.toDigits 10 (n + 1) := by
  have htext : toString (Int.negSucc n) = "-" ++ (n + 1).repr := rfl
  rw [htext, String.toList_append, Nat.toList_repr]
  rfl

theorem integer?_toString (i : Int) : integer? (toString i).toList = some i := by
  cases i with
  | ofNat n =>
      have htext : (toString (Int.ofNat n)).toList = Nat.toDigits 10 n := toList_toString_natCast n
      rw [htext, integer?, splitSign_toDigits]
      simp only [natural?_toDigits]
      rfl
  | negSucc n =>
      rw [toList_toString_negSucc, integer?, splitSign]
      simp only [natural?_toDigits]
      rfl

theorem int64?_toString (i : Int64) : int64? (toString i).toList = some i := by
  have hread : integer? (toString i).toList = some i.toInt := integer?_toString i.toInt
  have hleast : Int64.minValue.toInt ≤ i.toInt := i.minValue_le_toInt
  have hmost : i.toInt ≤ Int64.maxValue.toInt := i.toInt_le
  rw [int64?, hread]
  simp only [hleast, hmost, decide_true, Bool.and_self, if_true, Int64.ofInt_toInt]

theorem isBlank_of_isDigit {c : Char} (hc : isDigit c) : Text.isBlank c = false := by
  have hrange : '0' ≤ c ∧ c ≤ '9' := by
    simpa [isDigit] using hc
  have hlow : 48 ≤ c.toNat := hrange.1
  have hhigh : c.toNat ≤ 57 := hrange.2
  simp [Text.isBlank]
  omega

theorem trim_toString (i : Int) : Text.trim (toString i).toList = (toString i).toList := by
  have hdigits : ∀ n, ∀ c ∈ Nat.toDigits 10 n, Text.isBlank c = false := by
    intro n c hc
    exact isBlank_of_isDigit (isDigit_of_mem_toDigits hc)
  apply Text.trim_of_forall_not_isBlank
  cases i with
  | ofNat n =>
      have htext : (toString (Int.ofNat n)).toList = Nat.toDigits 10 n := toList_toString_natCast n
      rw [htext]
      exact hdigits n
  | negSucc n =>
      rw [toList_toString_negSucc, List.forall_mem_cons]
      exact ⟨by decide, hdigits (n + 1)⟩

end Numeral

end ApiContract
