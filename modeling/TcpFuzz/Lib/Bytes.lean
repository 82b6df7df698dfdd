import Mathlib.Algebra.Ring.Int.Defs
import Mathlib.Algebra.Ring.Nat
import Mathlib.Data.List.Basic
import Mathlib.Tactic.Common

/-! Byte-addressed memory: reads and writes of fixed-width fields, block copies and their frame lemmas. Multi-byte
fields are big-endian and are read as natural numbers, so that goals about them are linear arithmetic. -/

namespace Bytes

variable {i j n k b lo hi : Nat}

/-- An object's bytes, by offset from its start. -/
abbrev Mem := Nat → UInt8

namespace Mem

def ofList (bs : List UInt8) : Mem := fun i => bs.getD i 0

def get8 (m : Mem) (i : Nat) : Nat := (m i).toNat

def be16 (m : Mem) (i : Nat) : Nat := get8 m i * 256 + get8 m (i + 1)

def be32 (m : Mem) (i : Nat) : Nat := be16 m i * 65536 + be16 m (i + 2)

def le16 (m : Mem) (i : Nat) : Nat := get8 m i + get8 m (i + 1) * 256

def le32 (m : Mem) (i : Nat) : Nat := le16 m i + le16 m (i + 2) * 65536

/-- The number that `n` bytes from offset `i` on store, the lowest byte first. -/
def le (m : Mem) (i : Nat) : Nat → Nat
  | 0 => 0
  | n + 1 => get8 m i + 256 * le m (i + 1) n

def bytes (m : Mem) (i n : Nat) : List UInt8 := (List.range n).map fun k => m (i + k)

def be16Bytes (n : UInt16) : List UInt8 := [UInt8.ofNat (n.toNat / 256), UInt8.ofNat n.toNat]

def be32Bytes (n : UInt32) : List UInt8 :=
  [UInt8.ofNat (n.toNat / 16777216), UInt8.ofNat (n.toNat / 65536), UInt8.ofNat (n.toNat / 256), UInt8.ofNat n.toNat]

def leBytes : Nat → Nat → List UInt8
  | 0, _ => []
  | n + 1, v => UInt8.ofNat v :: leBytes n (v / 256)

@[simp] theorem be32Bytes_length (n : UInt32) : (be32Bytes n).length = 4 := rfl

theorem be32_be32Bytes (front : List UInt8) (n : UInt32) (after : List UInt8) :
    be32 (ofList (front ++ (be32Bytes n ++ after))) front.length = n.toNat := by
  have small := n.toNat_lt
  have read : ∀ k, ofList (front ++ (be32Bytes n ++ after)) (front.length + k) = (be32Bytes n ++ after).getD k 0 := by
    intro k
    simp [ofList, List.getD_eq_getElem?_getD, List.getElem?_append_right]
  have first := read 0
  rw [Nat.add_zero] at first
  simp only [be32, be16, get8, Nat.add_assoc, first, read]
  simp [be32Bytes]
  omega

@[simp] theorem leBytes_length (n v : Nat) : (leBytes n v).length = n := by
  induction n generalizing v with
  | zero => rfl
  | succ n ih => rw [leBytes, List.length_cons, ih]

theorem le_leBytes (front : List UInt8) (n v : Nat) (after : List UInt8) :
    le (ofList (front ++ (leBytes n v ++ after))) front.length n = v % 256 ^ n := by
  induction n generalizing front v with
  | zero => rw [le, Nat.pow_zero, Nat.mod_one]
  | succ n ih =>
    have first : get8 (ofList (front ++ (leBytes (n + 1) v ++ after))) front.length = v % 256 := by
      simp [get8, ofList, leBytes, List.getD_eq_getElem?_getD]
    have rest := ih (front ++ [UInt8.ofNat v]) (v / 256)
    rw [List.append_assoc, List.length_append, List.length_singleton] at rest
    rw [le, first]
    simp only [leBytes, List.cons_append, List.nil_append] at rest ⊢
    rw [rest, Nat.pow_succ', Nat.mod_mul]

theorem le_lt (m : Mem) (i n : Nat) : le m i n < 256 ^ n := by
  induction n generalizing i with
  | zero => simp [le]
  | succ n ih =>
    have low := (m i).toNat_lt
    have high := ih (i + 1)
    rw [le, get8, Nat.pow_succ]
    omega

theorem get8_lt (m : Mem) (i : Nat) : get8 m i < 256 := (m i).toNat_lt

theorem be16_lt (m : Mem) (i : Nat) : be16 m i < 65536 := by
  have high := get8_lt m i
  have low := get8_lt m (i + 1)
  unfold be16
  omega

theorem be32_lt (m : Mem) (i : Nat) : be32 m i < 4294967296 := by
  have high := be16_lt m i
  have low := be16_lt m (i + 2)
  unfold be32
  omega

theorem le16_lt (m : Mem) (i : Nat) : le16 m i < 65536 := by
  have low := get8_lt m i
  have high := get8_lt m (i + 1)
  unfold le16
  omega

theorem le32_lt (m : Mem) (i : Nat) : le32 m i < 4294967296 := by
  have low := le16_lt m i
  have high := le16_lt m (i + 2)
  unfold le32
  omega

@[simp] theorem bytes_length (m : Mem) (i n : Nat) : (bytes m i n).length = n := by
  simp [bytes]

def put8 (m : Mem) (i v : Nat) : Mem := fun j => if j = i then UInt8.ofNat v else m j

def putBe16 (m : Mem) (i v : Nat) : Mem := put8 (put8 m i (v / 256)) (i + 1) v

def putBe32 (m : Mem) (i v : Nat) : Mem := putBe16 (putBe16 m i (v / 65536)) (i + 2) v

def putLe16 (m : Mem) (i v : Nat) : Mem := put8 (put8 m i v) (i + 1) (v / 256)

def putLe32 (m : Mem) (i v : Nat) : Mem := putLe16 (putLe16 m i v) (i + 2) (v / 65536)

def write (m : Mem) (i : Nat) (bs : List UInt8) : Mem :=
  fun j => if i ≤ j ∧ j < i + bs.length then bs.getD (j - i) 0 else m j

def copy (m : Mem) (i : Nat) (src : Mem) (j n : Nat) : Mem :=
  fun k => if i ≤ k ∧ k < i + n then src (j + (k - i)) else m k

def zero (m : Mem) (i n : Nat) : Mem := fun k => if i ≤ k ∧ k < i + n then 0 else m k

theorem put8_apply (m : Mem) (i v j : Nat) :
    put8 m i v j = if j = i then UInt8.ofNat v else m j := rfl

theorem get8_put8 (m : Mem) (i v j : Nat) :
    get8 (put8 m i v) j = if j = i then v % 256 else get8 m j := by
  unfold get8
  rw [put8_apply]
  split <;> simp

@[simp] theorem get8_put8_self (m : Mem) (i v : Nat) : get8 (put8 m i v) i = v % 256 := by
  simp [get8_put8]

theorem get8_put8_ne (m : Mem) (v : Nat) (apart : j ≠ i) :
    get8 (put8 m i v) j = get8 m j := by
  simp [get8_put8, apart]

theorem get8_putBe16 (m : Mem) (i v j : Nat) :
    get8 (putBe16 m i v) j =
      if j = i + 1 then v % 256 else if j = i then v / 256 % 256 else get8 m j := by
  simp only [putBe16, get8_put8]

theorem get8_putBe16_ne (m : Mem) (v : Nat) (apart : j < i ∨ i + 1 < j) :
    get8 (putBe16 m i v) j = get8 m j := by
  unfold putBe16
  rw [get8_put8_ne _ _ (by omega), get8_put8_ne _ _ (by omega)]

theorem get8_putLe16_ne (m : Mem) (v : Nat) (apart : j < i ∨ i + 1 < j) :
    get8 (putLe16 m i v) j = get8 m j := by
  unfold putLe16
  rw [get8_put8_ne _ _ (by omega), get8_put8_ne _ _ (by omega)]

theorem get8_putLe32_ne (m : Mem) (v : Nat) (apart : j < i ∨ i + 3 < j) :
    get8 (putLe32 m i v) j = get8 m j := by
  rw [putLe32, get8_putLe16_ne _ _ (by omega), get8_putLe16_ne _ _ (by omega)]

theorem get8_putBe32_ne (m : Mem) (v : Nat) (apart : j < i ∨ i + 3 < j) :
    get8 (putBe32 m i v) j = get8 m j := by
  unfold putBe32
  rw [get8_putBe16_ne _ _ (by omega), get8_putBe16_ne _ _ (by omega)]

theorem get8_zero (m : Mem) (i n j : Nat) :
    get8 (zero m i n) j = if i ≤ j ∧ j < i + n then 0 else get8 m j := by
  unfold get8 zero
  split <;> rfl

theorem get8_zero_ne (m : Mem) (apart : j < i ∨ i + n ≤ j) :
    get8 (zero m i n) j = get8 m j := by
  rw [get8_zero, if_neg (by omega)]

theorem get8_write_ne (m : Mem) (bs : List UInt8) (apart : j < i ∨ i + bs.length ≤ j) :
    get8 (write m i bs) j = get8 m j := by
  unfold get8 write
  rw [if_neg (by omega)]

theorem write_inside (m : Mem) (bs : List UInt8) (inside : k < bs.length) :
    write m i bs (i + k) = bs[k] := by
  unfold write
  rw [if_pos (by omega), Nat.add_sub_cancel_left]
  simp [List.getD_eq_getElem?_getD, inside]

theorem get8_write_front (m : Mem) {front : List UInt8} (rest : List UInt8) (inside : k < front.length) :
    get8 (write m 0 (front ++ rest)) k = (front.getD k 0).toNat := by
  have found := write_inside m (i := 0) (front ++ rest) (k := k) (by simp; omega)
  rw [Nat.zero_add] at found
  rw [get8, found, List.getElem_append_left inside, List.getD_eq_getElem?_getD, List.getElem?_eq_getElem inside,
    Option.getD_some]

theorem get8_write_back (m : Mem) (front : List UInt8) {back : List UInt8} (inside : k < back.length) :
    get8 (write m 0 (front ++ back)) (front.length + k) = (back.getD k 0).toNat := by
  have found := write_inside m (i := 0) (front ++ back) (k := front.length + k) (by simp; omega)
  rw [Nat.zero_add] at found
  rw [get8, found, List.getElem_append_right (Nat.le_add_right _ _)]
  simp [List.getD_eq_getElem?_getD, inside]

theorem bytes_write_self (m : Mem) (i : Nat) (bs : List UInt8) : bytes (write m i bs) i bs.length = bs := by
  apply List.ext_getElem (by simp)
  intro k _ inside
  simp [bytes, write_inside m bs inside]

theorem bytes_write_append (m : Mem) (n : Nat) (bs : List UInt8) :
    bytes (write m n bs) 0 (n + bs.length) = bytes m 0 n ++ bs := by
  apply List.ext_getElem (by simp)
  intro k _ inside
  rw [List.getElem_append]
  simp only [bytes_length]
  split
  · rename_i before
    simp [bytes, write]
    omega
  · rename_i behind
    simp only [bytes_length, List.length_append] at inside
    have bounded : k - n < bs.length := by omega
    have found := write_inside m bs bounded (i := n)
    rw [Nat.add_sub_cancel' (by omega)] at found
    simpa [bytes] using found

theorem get8_copy_inside (m : Mem) (src : Mem) (j : Nat) (inside : k < n) :
    get8 (copy m i src j n) (i + k) = get8 src (j + k) := by
  unfold get8 copy
  rw [if_pos (by omega), Nat.add_sub_cancel_left]

theorem get8_copy_ne (m : Mem) (src : Mem) (j : Nat) (apart : k < i ∨ i + n ≤ k) :
    get8 (copy m i src j n) k = get8 m k := by
  unfold get8 copy
  rw [if_neg (by omega)]

theorem be16_of_get8 {m m' : Mem} (high : get8 m j = get8 m' j)
    (low : get8 m (j + 1) = get8 m' (j + 1)) : be16 m j = be16 m' j := by
  unfold be16
  rw [high, low]

theorem be32_of_be16 {m m' : Mem} (high : be16 m j = be16 m' j)
    (low : be16 m (j + 2) = be16 m' (j + 2)) : be32 m j = be32 m' j := by
  unfold be32
  rw [high, low]

theorem be32_of_get8 {m m' : Mem} (same : ∀ k, j ≤ k → k < j + 4 → get8 m k = get8 m' k) :
    be32 m j = be32 m' j :=
  be32_of_be16 (be16_of_get8 (same _ (by omega) (by omega)) (same _ (by omega) (by omega)))
    (be16_of_get8 (same _ (by omega) (by omega)) (same _ (by omega) (by omega)))

theorem bytes_of_get8 {m m' : Mem} (same : ∀ k, i ≤ k → k < i + n → get8 m k = get8 m' k) :
    bytes m i n = bytes m' i n := by
  unfold bytes
  apply List.map_congr_left
  intro k inside
  have bound := List.mem_range.mp inside
  exact UInt8.toNat_inj.mp (same (i + k) (by omega) (by omega))

theorem bytes_append (m : Mem) (i n k : Nat) : bytes m i (n + k) = bytes m i n ++ bytes m (i + n) k := by
  unfold bytes
  rw [List.range_add, List.map_append, List.map_map]
  congr 2
  funext j
  simp [Nat.add_assoc]

theorem bytes_copy_self (m : Mem) (i : Nat) (src : Mem) (j n : Nat) : bytes (copy m i src j n) i n = bytes src j n := by
  unfold bytes
  apply List.map_congr_left
  intro k inside
  have copied := get8_copy_inside m (i := i) src j (List.mem_range.mp inside)
  exact UInt8.toNat_inj.mp copied

theorem be16_put8_ne (m : Mem) (v : Nat) (apart : i < j ∨ j + 1 < i) :
    be16 (put8 m i v) j = be16 m j :=
  be16_of_get8 (get8_put8_ne m v (by omega)) (get8_put8_ne m v (by omega))

theorem be16_putBe16_ne (m : Mem) (v : Nat) (apart : i + 1 < j ∨ j + 1 < i) :
    be16 (putBe16 m i v) j = be16 m j :=
  be16_of_get8 (get8_putBe16_ne m v (by omega)) (get8_putBe16_ne m v (by omega))

theorem be16_putBe32_ne (m : Mem) (v : Nat) (apart : i + 3 < j ∨ j + 1 < i) :
    be16 (putBe32 m i v) j = be16 m j :=
  be16_of_get8 (get8_putBe32_ne m v (by omega)) (get8_putBe32_ne m v (by omega))

theorem be16_zero_ne (m : Mem) (apart : j + 1 < i ∨ i + n ≤ j) :
    be16 (zero m i n) j = be16 m j :=
  be16_of_get8 (get8_zero_ne m (by omega)) (get8_zero_ne m (by omega))

theorem be16_write_ne (m : Mem) (bs : List UInt8) (apart : j + 1 < i ∨ i + bs.length ≤ j) :
    be16 (write m i bs) j = be16 m j :=
  be16_of_get8 (get8_write_ne m bs (by omega)) (get8_write_ne m bs (by omega))

theorem be32_put8_ne (m : Mem) (v : Nat) (apart : i < j ∨ j + 3 < i) :
    be32 (put8 m i v) j = be32 m j :=
  be32_of_be16 (be16_put8_ne m v (by omega)) (be16_put8_ne m v (by omega))

theorem be32_putBe16_ne (m : Mem) (v : Nat) (apart : i + 1 < j ∨ j + 3 < i) :
    be32 (putBe16 m i v) j = be32 m j :=
  be32_of_be16 (be16_putBe16_ne m v (by omega)) (be16_putBe16_ne m v (by omega))

theorem be32_putBe32_ne (m : Mem) (v : Nat) (apart : i + 3 < j ∨ j + 3 < i) :
    be32 (putBe32 m i v) j = be32 m j :=
  be32_of_be16 (be16_putBe32_ne m v (by omega)) (be16_putBe32_ne m v (by omega))

theorem be32_write_ne (m : Mem) (bs : List UInt8) (apart : j + 3 < i ∨ i + bs.length ≤ j) :
    be32 (write m i bs) j = be32 m j :=
  be32_of_be16 (be16_write_ne m bs (by omega)) (be16_write_ne m bs (by omega))

@[simp] theorem be16_putBe16_self (m : Mem) (i v : Nat) :
    be16 (putBe16 m i v) i = v % 65536 := by
  simp only [be16, get8_putBe16]
  simp
  omega

@[simp] theorem le16_putLe16_self (m : Mem) (i : Nat) {v : Nat} (fits : v < 65536) : le16 (putLe16 m i v) i = v := by
  simp (disch := omega) only [le16, putLe16, get8_put8_self, get8_put8_ne]
  omega

theorem le16_putLe16_ne (m : Mem) (v : Nat) (apart : i + 1 < j ∨ j + 1 < i) :
    le16 (putLe16 m i v) j = le16 m j := by
  simp (disch := omega) only [le16, get8_putLe16_ne]

theorem le32_putLe16_ne (m : Mem) (v : Nat) (apart : i + 1 < j ∨ j + 3 < i) :
    le32 (putLe16 m i v) j = le32 m j := by
  simp (disch := omega) only [le32, le16_putLe16_ne]

@[simp] theorem le32_putLe32_self (m : Mem) (i : Nat) {v : Nat} (fits : v < 4294967296) : le32 (putLe32 m i v) i = v := by
  rw [le32, putLe32, le16_putLe16_self _ _ (by omega), le16_putLe16_ne _ _ (by omega)]
  have low : le16 (putLe16 m i v) i = v % 65536 := by
    simp (disch := omega) only [le16, putLe16, get8_put8_self, get8_put8_ne]
    omega
  rw [low]
  omega

theorem le32_put8_ne (m : Mem) (v : Nat) (apart : i < j ∨ j + 3 < i) :
    le32 (put8 m i v) j = le32 m j := by
  simp (disch := omega) only [le32, le16, get8_put8_ne]

theorem be32_putBe32_self (m : Mem) (i v : Nat) :
    be32 (putBe32 m i v) i = v % 4294967296 := by
  unfold be32 putBe32
  rw [be16_putBe16_ne _ _ (by omega), be16_putBe16_self, be16_putBe16_self]
  omega

theorem get8_eq_be32 (m : Mem) (i : Nat) (inside : b < 4) :
    get8 m (i + b) = be32 m i / 256 ^ (3 - b) % 256 := by
  have b0 := get8_lt m i
  have b1 := get8_lt m (i + 1)
  have b2 := get8_lt m (i + 2)
  have b3 := get8_lt m (i + 3)
  have value : be32 m i = (get8 m i * 256 + get8 m (i + 1)) * 65536 + (get8 m (i + 2) * 256 + get8 m (i + 3)) := rfl
  rw [value]
  obtain rfl | rfl | rfl | rfl : b = 0 ∨ b = 1 ∨ b = 2 ∨ b = 3 := by omega
  all_goals simp only [Nat.reduceSub, Nat.reducePow, Nat.add_zero]; omega

theorem get8_of_be32_add {m m' : Mem} (inside : b < 4)
    (moved : be32 m' i = (be32 m i + 256 ^ (3 - b)) % 4294967296) : get8 m' (i + b) = (get8 m (i + b) + 1) % 256 := by
  rw [get8_eq_be32 m' i inside, get8_eq_be32 m i inside, moved]
  obtain rfl | rfl | rfl | rfl : b = 0 ∨ b = 1 ∨ b = 2 ∨ b = 3 := by omega
  all_goals simp only [Nat.reduceSub, Nat.reducePow]; omega

theorem get8_of_be32 {m m' : Mem} (inside : b < 4) (same : be32 m' i = be32 m i) :
    get8 m' (i + b) = get8 m (i + b) := by
  rw [get8_eq_be32 m' i inside, get8_eq_be32 m i inside, same]

theorem get8_putBe32_be32 (m : Mem) (i j : Nat) : get8 (putBe32 m i (be32 m i)) j = get8 m j := by
  by_cases inside : i ≤ j ∧ j < i + 4
  · obtain ⟨b, rfl⟩ : ∃ b, j = i + b := ⟨j - i, by omega⟩
    apply get8_of_be32 (by omega)
    rw [be32_putBe32_self, Nat.mod_eq_of_lt (be32_lt m i)]
  · exact get8_putBe32_ne m _ (by omega)

end Mem

end Bytes
