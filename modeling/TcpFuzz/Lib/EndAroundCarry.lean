import Mathlib.Data.Nat.ModEq
import Mathlib.Tactic.Common

/-! Folding a sum with end-around carry: the result is congruent to the sum modulo the base less one, and only zero
folds to zero. -/

namespace EndAroundCarry

variable {base sum a b : Nat}

/-- Add the carry back until the sum is a single digit. -/
def fold (base sum : Nat) : Nat :=
  if base ≤ 1 ∨ sum < base then sum else fold base (sum / base + sum % base)
termination_by sum
decreasing_by
  have whole := Nat.div_add_mod sum base
  have carry : 0 < sum / base := Nat.div_pos (by omega) (by omega)
  have grows : 2 * (sum / base) ≤ base * (sum / base) := Nat.mul_le_mul_right _ (by omega)
  omega

theorem fold_lt (wide : 1 < base) (sum : Nat) : fold base sum < base := by
  fun_induction fold base sum with
  | case1 sum done => omega
  | case2 sum more ih => exact ih

theorem fold_modEq (wide : 1 < base) (sum : Nat) : fold base sum ≡ sum [MOD base - 1] := by
  fun_induction fold base sum with
  | case1 sum done => rfl
  | case2 sum more ih =>
    apply ih.trans
    have carry : base ≡ 1 [MOD base - 1] := by
      apply Nat.ModEq.symm
      exact (Nat.modEq_iff_dvd' (by omega)).mpr (dvd_refl _)
    have moved := (carry.mul_right (sum / base)).add_right (sum % base)
    rw [Nat.div_add_mod, Nat.one_mul] at moved
    exact moved.symm

theorem fold_pos (positive : 0 < sum) : 0 < fold base sum := by
  fun_induction fold base sum with
  | case1 sum done => exact positive
  | case2 sum more ih =>
    apply ih
    have carry : 0 < sum / base := Nat.div_pos (by omega) (by omega)
    omega

theorem fold_eq_of_dvd (wide : 1 < base) (positive : 0 < sum) (multiple : base - 1 ∣ sum) :
    fold base sum = base - 1 := by
  have digit := fold_lt wide sum
  have nonzero : 0 < fold base sum := fold_pos positive
  have divides : base - 1 ∣ fold base sum := ((fold_modEq wide sum).dvd_iff (dvd_refl _)).mpr multiple
  have := Nat.le_of_dvd nonzero divides
  omega

/-- A loop that adds the carry back, from one value of the sum to the one it ends with. -/
inductive Carries (base : Nat) : Nat → Nat → Prop where
  | done {sum : Nat} (digit : sum < base) : Carries base sum sum
  | more {sum result : Nat} (carry : base ≤ sum) (rest : Carries base (sum / base + sum % base) result) : Carries base sum result

theorem fold_carries (wide : 1 < base) (sum : Nat) : Carries base sum (fold base sum) := by
  fun_induction fold base sum with
  | case1 sum done => exact .done (by omega)
  | case2 sum more ih => exact .more (by omega) ih

def add (base a b : Nat) : Nat := if a + b < base then a + b else a + b - (base - 1)

def total (base : Nat) (digits : List Nat) : Nat := digits.foldl (add base) 0

theorem add_lt (left : a < base) (right : b < base) : add base a b < base := by
  unfold add
  split <;> omega

theorem add_modEq (wide : 1 < base) : add base a b ≡ a + b [MOD base - 1] := by
  unfold add
  split
  · rfl
  · exact (Nat.modEq_iff_dvd' (by omega)).mpr ⟨1, by omega⟩

theorem add_eq_zero (left : a < base) : add base a b = 0 ↔ a + b = 0 := by
  unfold add
  split <;> omega

theorem foldl_add (wide : 1 < base) {digits : List Nat} (small : ∀ d ∈ digits, d < base) {start : Nat}
    (digit : start < base) :
    digits.foldl (add base) start < base ∧ digits.foldl (add base) start ≡ start + digits.sum [MOD base - 1] ∧
      (digits.foldl (add base) start = 0 ↔ start + digits.sum = 0) := by
  induction digits generalizing start with
  | nil => exact ⟨digit, Nat.ModEq.refl _, Iff.rfl⟩
  | cons d digits ih =>
    obtain ⟨head, rest⟩ := List.forall_mem_cons.mp small
    obtain ⟨below, same, zero⟩ := ih rest (add_lt digit head)
    refine ⟨below, ?_, ?_⟩
    · rw [List.sum_cons, ← Nat.add_assoc]
      exact same.trans ((add_modEq wide).add_right _)
    · have first : add base start d = 0 ↔ start + d = 0 := add_eq_zero digit
      rw [List.foldl_cons, zero, List.sum_cons]
      omega

theorem digit_eq (left : a < base) (right : b < base) (same : a ≡ b [MOD base - 1]) (zero : a = 0 ↔ b = 0) :
    a = b := by
  rcases Nat.lt_trichotomy a b with less | equal | greater
  · obtain ⟨k, difference⟩ := (Nat.modEq_iff_dvd' (Nat.le_of_lt less)).mp same
    cases k with
    | zero => omega
    | succ k =>
      rw [Nat.mul_succ] at difference
      omega
  · exact equal
  · obtain ⟨k, difference⟩ := (Nat.modEq_iff_dvd' (Nat.le_of_lt greater)).mp same.symm
    cases k with
    | zero => omega
    | succ k =>
      rw [Nat.mul_succ] at difference
      omega

theorem total_eq_largest (wide : 1 < base) {digits : List Nat} (small : ∀ d ∈ digits, d < base)
    (positive : 0 < digits.sum) : total base digits = base - 1 ↔ base - 1 ∣ digits.sum := by
  obtain ⟨below, same, zero⟩ := foldl_add wide small (by omega : 0 < base)
  rw [Nat.zero_add] at same zero
  rw [← same.dvd_iff (dvd_refl _)]
  have nonzero : total base digits ≠ 0 := fun none => by have := zero.mp none; omega
  constructor
  · intro largest
    exact ⟨1, by rw [Nat.mul_one]; exact largest⟩
  · intro divides
    have := Nat.le_of_dvd (Nat.pos_of_ne_zero nonzero) divides
    have : total base digits < base := below
    omega

theorem fold_eq_zero : fold base sum = 0 ↔ sum = 0 := by
  constructor
  · intro zero
    by_contra nonzero
    have : 0 < fold base sum := fold_pos (Nat.pos_of_ne_zero nonzero)
    omega
  · rintro rfl
    unfold fold
    exact if_pos (by omega)

end EndAroundCarry
