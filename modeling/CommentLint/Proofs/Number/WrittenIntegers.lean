import CommentLint.Number.Numeral
import CommentLint.Proofs.Attempts
import Mathlib.Algebra.Ring.Int.Defs

/-
  Integers that can be written.

  An integer has a numeral unless it has too many digits, and
  there is no other reason for it to have none.

  Key definitions include:
    * `Numeral.IsWritable`

  Key results include:
    * `Numeral.write_eq_ok_iff`
    * `Numeral.write_eq_error_iff`
-/

namespace CommentLint

namespace Numeral

variable {n m : Int}

/- An integer has not too many digits. -/
def IsWritable (n : Int) : Prop :=
  n.natAbs < Nat.pow 10 digitLimit

instance (n : Int) : Decidable (IsWritable n) :=
  inferInstanceAs (Decidable (n.natAbs < Nat.pow 10 digitLimit))

/- It is written as what it is. -/
theorem write_of_isWritable
    (h : IsWritable n) :
    write n = .ok n.repr :=
  if_pos h

/- Any other is too large to be written. -/
theorem write_of_not_isWritable
    (h : ¬ IsWritable n) :
    write n = .error .tooLargeToWrite :=
  if_neg h

/- What is written is the numeral of an integer of few digits. -/
theorem write_eq_ok_iff
    {s : String} :
    write n = .ok s ↔ IsWritable n ∧ s = n.repr := by
  by_cases h : IsWritable n
  · simp [write_of_isWritable h, h, eq_comm]
  · simp [write_of_not_isWritable h, h]

/- Nothing else keeps an integer from being written. -/
theorem write_eq_error_iff
    {e : Error} :
    write n = .error e ↔
      ¬ IsWritable n ∧ e = .tooLargeToWrite := by
  by_cases h : IsWritable n
  · simp [write_of_isWritable h, h]
  · simp [write_of_not_isWritable h, h, eq_comm]

/- The integers with a numeral are those with few digits. -/
theorem exists_write_iff :
    (∃ s, write n = .ok s) ↔ IsWritable n := by
  simp [write_eq_ok_iff]

/- An offset at the start has a numeral. -/
theorem isWritable_zero : IsWritable 0 := by
  decide +kernel

/- So have the first line and the first column. -/
theorem isWritable_one : IsWritable 1 := by
  decide +kernel

/- What is no larger has no more digits. -/
theorem IsWritable.of_natAbs_le
    (h : IsWritable n)
    (hLe : m.natAbs ≤ n.natAbs) :
    IsWritable m :=
  Nat.lt_of_le_of_lt hLe h

/- A sign is no digit. -/
theorem isWritable_neg_iff :
    IsWritable (-n) ↔ IsWritable n := by
  unfold IsWritable
  rw [Int.natAbs_neg]

/- The least power of ten that has too many digits. -/
theorem not_isWritable_pow :
    ¬ IsWritable (10 ^ digitLimit) := by
  have hAbs (k : Nat) : Int.natAbs (10 ^ k) = Nat.pow 10 k :=
    Int.natAbs_pow 10 k
  intro h
  unfold IsWritable at h
  rw [hAbs] at h
  exact Nat.lt_irrefl _ h

end Numeral

end CommentLint
