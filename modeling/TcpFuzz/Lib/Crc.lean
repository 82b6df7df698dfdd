import Mathlib.Tactic.Common

/-! Cyclic redundancy checks in the reflected form. The register after eight shifts is linear in the register
before, so that a table of its values for the bytes does eight shifts at once. -/

namespace Crc

variable {w : Nat}

def shift (poly c : BitVec w) : BitVec w := if c.getLsbD 0 then (c >>> 1) ^^^ poly else c >>> 1

def feed (poly c : BitVec w) (bit : Bool) : BitVec w := if c.getLsbD 0 ^^ bit then (c >>> 1) ^^^ poly else c >>> 1

def bits (b : UInt8) : List Bool := (List.range 8).map b.toBitVec.getLsbD

def register (poly init : BitVec w) (message : List UInt8) : BitVec w := (message.flatMap bits).foldl (feed poly) init

def shifts (poly : BitVec w) : Nat → BitVec w → BitVec w
  | 0, c => c
  | n + 1, c => shift poly (shifts poly n c)

theorem shift_xor (poly a b : BitVec w) : shift poly (a ^^^ b) = shift poly a ^^^ shift poly b := by
  unfold shift
  rw [BitVec.getLsbD_xor, BitVec.ushiftRight_xor_distrib]
  cases a.getLsbD 0 with
  | false =>
    cases b.getLsbD 0 with
    | false => rfl
    | true => exact BitVec.xor_assoc _ _ _
  | true =>
    cases b.getLsbD 0 with
    | false =>
      show (a >>> 1) ^^^ (b >>> 1) ^^^ poly = (a >>> 1) ^^^ poly ^^^ (b >>> 1)
      rw [BitVec.xor_assoc, BitVec.xor_comm (b >>> 1), BitVec.xor_assoc]
    | true =>
      show (a >>> 1) ^^^ (b >>> 1) = (a >>> 1) ^^^ poly ^^^ ((b >>> 1) ^^^ poly)
      rw [BitVec.xor_assoc, BitVec.xor_comm (b >>> 1) poly, ← BitVec.xor_assoc poly, BitVec.xor_self, BitVec.zero_xor]

theorem shifts_xor (poly : BitVec w) (n : Nat) (a b : BitVec w) :
    shifts poly n (a ^^^ b) = shifts poly n a ^^^ shifts poly n b := by
  induction n with
  | zero => rfl
  | succ n ih => rw [shifts, ih, shift_xor, shifts, shifts]

theorem shifts_of_low_zero (poly : BitVec w) {c : BitVec w} {n : Nat} (low : ∀ i < n, c.getLsbD i = false) :
    shifts poly n c = c >>> n := by
  induction n with
  | zero => exact (BitVec.ushiftRight_zero c).symm
  | succ n ih =>
    have first : (c >>> n).getLsbD 0 = false := by
      rw [BitVec.getLsbD_ushiftRight]
      exact low n (Nat.lt_succ_self n)
    rw [shifts, ih fun i below => low i (Nat.lt_succ_of_lt below), shift, first, BitVec.shiftRight_add]
    rfl

theorem foldl_feed (poly c x : BitVec w) (n : Nat) :
    ((List.range n).map x.getLsbD).foldl (feed poly) c ^^^ (x >>> n) = shifts poly n (c ^^^ x) := by
  induction n with
  | zero =>
    rw [BitVec.ushiftRight_zero]
    rfl
  | succ n ih =>
    rw [shifts, ← ih, List.range_succ, List.map_append, List.foldl_append]
    generalize ((List.range n).map x.getLsbD).foldl (feed poly) c = d
    show feed poly d (x.getLsbD n) ^^^ _ = shift poly (d ^^^ (x >>> n))
    have first : (x >>> n).getLsbD 0 = x.getLsbD n := by rw [BitVec.getLsbD_ushiftRight, Nat.add_zero]
    unfold feed shift
    rw [BitVec.getLsbD_xor, first, BitVec.ushiftRight_xor_distrib, ← BitVec.shiftRight_add]
    split
    · rw [BitVec.xor_assoc, BitVec.xor_comm poly, BitVec.xor_assoc]
    · rfl

theorem setWidth_ushiftRight_eight (b : BitVec 8) : b.setWidth w >>> 8 = 0#w := by
  apply BitVec.eq_of_getLsbD_eq
  intro i _
  rw [BitVec.getLsbD_ushiftRight, BitVec.getLsbD_setWidth, BitVec.getLsbD_of_ge b (8 + i) (by omega), Bool.and_false]
  simp

theorem foldl_bits (wide : 8 ≤ w) (poly c : BitVec w) (b : UInt8) :
    (bits b).foldl (feed poly) c = shifts poly 8 (c ^^^ b.toBitVec.setWidth w) := by
  have same : bits b = (List.range 8).map (b.toBitVec.setWidth w).getLsbD := by
    apply List.map_congr_left
    intro i inside
    have below := List.mem_range.mp inside
    rw [BitVec.getLsbD_setWidth, decide_eq_true (by omega : i < w), Bool.true_and]
  rw [same, ← foldl_feed, setWidth_ushiftRight_eight, BitVec.xor_zero]

theorem shifts_eight (wide : 8 ≤ w) (poly x : BitVec w) :
    shifts poly 8 x = (x >>> 8) ^^^ shifts poly 8 ((x.setWidth 8).setWidth w) := by
  let low := (x.setWidth 8).setWidth w
  have cleared : ∀ i < 8, (x ^^^ low).getLsbD i = false := by
    intro i below
    have inside : i < w := by omega
    simp [low, below, inside]
  have split : x = (x ^^^ low) ^^^ low := by rw [BitVec.xor_assoc, BitVec.xor_self, BitVec.xor_zero]
  have rest : shifts poly 8 (x ^^^ low) = x >>> 8 := by
    rw [shifts_of_low_zero poly cleared, BitVec.ushiftRight_xor_distrib, setWidth_ushiftRight_eight, BitVec.xor_zero]
  calc shifts poly 8 x = shifts poly 8 ((x ^^^ low) ^^^ low) := by rw [← split]
    _ = (x >>> 8) ^^^ shifts poly 8 low := by rw [shifts_xor, rest]

structure Table (poly : BitVec w) where
  entry : BitVec 8 → BitVec w
  entries : ∀ i, entry i = shifts poly 8 (i.setWidth w)

def Table.feedByte {poly : BitVec w} (table : Table poly) (c : BitVec w) (b : UInt8) : BitVec w :=
  (c >>> 8) ^^^ table.entry ((c ^^^ b.toBitVec.setWidth w).setWidth 8)

theorem Table.foldl_feedByte {poly : BitVec w} (table : Table poly) (wide : 8 ≤ w) (init : BitVec w) (message : List UInt8) :
    message.foldl table.feedByte init = register poly init message := by
  induction message generalizing init with
  | nil => rfl
  | cons b message ih =>
    have byte : table.feedByte init b = (bits b).foldl (feed poly) init := by
      have eight := shifts_eight wide poly (init ^^^ b.toBitVec.setWidth w)
      rw [BitVec.ushiftRight_xor_distrib, setWidth_ushiftRight_eight, BitVec.xor_zero] at eight
      rw [foldl_bits wide, eight, feedByte, table.entries]
    rw [List.foldl_cons, ih, byte, register, register, List.flatMap_cons, List.foldl_append]

end Crc
