import TcpFuzz.Packet.Checksum

/-! The complement of the one's-complement sum of big-endian words. `checksum.c` adds 32-bit words in host order and
folds them twice, which gives the same bytes. -/

namespace TcpFuzz
open Bytes Mem EndAroundCarry

/-- The 16-bit words of a byte string; a last byte alone is padded with zero. -/
def bigEndianWords : List UInt8 → List Nat
  | [] => []
  | [b] => [b.toNat * 256]
  | b :: c :: rest => (b.toNat * 256 + c.toNat) :: bigEndianWords rest

def internetChecksum (bytes : List UInt8) : Nat := 0xffff - total 0x10000 (bigEndianWords bytes)

def ipv4PseudoHeader (src dst : List UInt8) (protocol : UInt8) (len : UInt16) : List UInt8 :=
  src ++ (dst ++ (0 :: protocol :: be16Bytes len))

def ipv6PseudoHeader (src dst : List UInt8) (nextHeader : UInt8) (len : UInt32) : List UInt8 :=
  src ++ (dst ++ (be32Bytes len ++ [0, 0, 0, nextHeader]))

theorem bigEndianWords_append {xs : List UInt8} (even : xs.length % 2 = 0) (ys : List UInt8) :
    bigEndianWords (xs ++ ys) = bigEndianWords xs ++ bigEndianWords ys := by
  fun_induction bigEndianWords xs with
  | case1 => rfl
  | case2 b => simp at even
  | case3 b c rest ih =>
    rw [List.length_cons, List.length_cons] at even
    rw [List.cons_append, List.cons_append, bigEndianWords, ih (by omega), List.cons_append]

theorem bytes_two (m : Mem) (p len : Nat) : m.bytes p (len + 2) = m p :: m (p + 1) :: m.bytes (p + 2) len := by
  rw [Nat.add_comm len 2, bytes_append]
  rfl

theorem bigEndianWords_halfwords (m : Mem) (p len : Nat) :
    (∀ w ∈ bigEndianWords (m.bytes p len), w < 0x10000) ∧
      (bigEndianWords (m.bytes p len)).sum ≡ 256 * halfwordSum m p len [MOD 0xffff] ∧
      ((bigEndianWords (m.bytes p len)).sum = 0 ↔ halfwordSum m p len = 0) := by
  induction len using Nat.twoStepInduction generalizing p with
  | zero => exact ⟨nofun, rfl, Iff.rfl⟩
  | one =>
    have byte := get8_lt m p
    have words : bigEndianWords (m.bytes p 1) = [m.get8 p * 256] := rfl
    rw [words, List.forall_mem_singleton, List.sum_singleton, halfwordSum, Nat.mul_comm]
    exact ⟨by omega, rfl, by omega⟩
  | more len ih _ =>
    obtain ⟨small, same, zero⟩ := ih (p + 2)
    have first := get8_lt m p
    have second := get8_lt m (p + 1)
    have words : bigEndianWords (m.bytes p (len + 2)) = m.be16 p :: bigEndianWords (m.bytes (p + 2) len) := by
      rw [bytes_two]
      rfl
    have swapped : 256 * m.le16 p ≡ m.be16 p [MOD 0xffff] :=
      ((Nat.modEq_iff_dvd' (by unfold be16 le16; omega)).mpr ⟨m.get8 (p + 1), by unfold be16 le16; omega⟩).symm
    rw [words, List.forall_mem_cons, List.sum_cons, halfwordSum, Nat.mul_add]
    refine ⟨⟨be16_lt m p, small⟩, swapped.symm.add same, ?_⟩
    unfold be16 le16
    omega

structure Totals (sum : Nat) (words : List Nat) : Prop where
  small : ∀ w ∈ words, w < 0x10000
  same : words.sum ≡ 256 * sum [MOD 0xffff]
  zero : words.sum = 0 ↔ sum = 0

namespace Totals

variable {m : Mem} {p len sum : Nat} {words : List Nat}

theorem nil : Totals 0 [] := ⟨nofun, rfl, Iff.rfl⟩

theorem block (totals : Totals sum words) (room : sum + (len / 4 + 1) * 2 ^ 32 ≤ 2 ^ 64) :
    Totals (ipChecksumPartial m p len sum) (words ++ bigEndianWords (m.bytes p len)) := by
  obtain ⟨small, same, zero⟩ := bigEndianWords_halfwords m p len
  obtain ⟨sums, sumsZero⟩ := ipChecksumPartial_modEq (m := m) (p := p) room
  refine ⟨fun w member => (List.mem_append.mp member).elim (totals.small w) (small w), ?_, ?_⟩
  · have whole := totals.same.add same
    rw [← Nat.mul_add] at whole
    rw [List.sum_append]
    exact whole.trans (sums.symm.mul_left 256)
  · have before := totals.zero
    rw [List.sum_append, sumsZero]
    omega

theorem ntohs_modEq {v : Nat} (low : v < 0x10000) : ntohs v ≡ 256 * v [MOD 0xffff] :=
  (Nat.modEq_iff_dvd' (by unfold ntohs; omega)).mpr ⟨v / 256, by unfold ntohs; omega⟩

theorem checksum (totals : Totals sum words) : ntohs (ipChecksumFold sum) = 0xffff - total 0x10000 words := by
  let folded := fold 0x10000 (fold 0x100000000 sum)
  have low : folded < 0x10000 := fold_lt (by decide) _
  have folds : folded ≡ sum [MOD 0xffff] := by
    have narrow : folded ≡ fold 0x100000000 sum [MOD 0xffff] := fold_modEq (by decide) _
    exact narrow.trans (fold32_modEq sum)
  have none : folded = 0 ↔ sum = 0 := fold_eq_zero.trans fold_eq_zero
  obtain ⟨below, same, zero⟩ := foldl_add (by decide) totals.small (by decide : 0 < 0x10000)
  rw [Nat.zero_add] at same zero
  have equal : ntohs folded = total 0x10000 words := by
    apply digit_eq (by unfold ntohs; omega : ntohs folded < 0x10000) below
    · exact (ntohs_modEq low).trans ((folds.mul_left 256).trans (totals.same.symm.trans same.symm))
    · have nothing := totals.zero
      show _ ↔ words.foldl (add 0x10000) 0 = 0
      rw [zero, nothing, ← none]
      unfold ntohs
      omega
  rw [← equal]
  show ntohs (0xffff - folded) = 0xffff - ntohs folded
  unfold ntohs
  omega

end Totals

theorem be16_putLe16 (m : Mem) (field v : Nat) : (m.putLe16 field v).be16 field = ntohs v := by
  simp only [be16, putLe16, get8_put8, ntohs]
  simp

theorem bytes_ofList (bs : List UInt8) : (ofList bs).bytes 0 bs.length = bs := by
  apply List.ext_getElem (bytes_length _ _ _)
  intro k _ inside
  simp [bytes, ofList, inside]

theorem tcpUdpV4Header_bytes (m : Mem) (ip : Nat) (protocol : UInt8) (len : UInt16) :
    (((ofList (m.bytes (ip + 12) 8)).put8 9 protocol.toNat).putBe16 10 len.toNat).bytes 0 12 =
      ipv4PseudoHeader (m.bytes (ip + 12) 4) (m.bytes (ip + 16) 4) protocol len := by
  let pseudo := ((ofList (m.bytes (ip + 12) 8)).put8 9 protocol.toNat).putBe16 10 len.toNat
  have addresses : pseudo.bytes 0 8 = m.bytes (ip + 12) 4 ++ m.bytes (ip + 16) 4 := by
    have same : pseudo.bytes 0 8 = (ofList (m.bytes (ip + 12) 8)).bytes 0 8 := by
      apply bytes_of_get8
      intro k _ upper
      rw [get8_putBe16_ne _ _ (by omega), get8_put8_ne _ _ (by omega)]
    have whole := bytes_ofList (m.bytes (ip + 12) 8)
    rw [bytes_length] at whole
    rw [same, whole, ← bytes_append]
  have rest : pseudo.bytes 8 4 = 0 :: protocol :: be16Bytes len := by
    have ofNat : UInt8.ofNat protocol.toNat = protocol := UInt8.ofNat_toNat
    show [pseudo 8, pseudo 9, pseudo 10, pseudo 11] = [0, protocol, UInt8.ofNat (len.toNat / 256), UInt8.ofNat len.toNat]
    simp [pseudo, putBe16, put8, ofList]
  show pseudo.bytes 0 (8 + 4) = _
  rw [bytes_append, addresses, rest, List.append_assoc]
  rfl

theorem tcpUdpV6Header_bytes (m : Mem) (ip : Nat) (protocol : UInt8) (len : UInt32) :
    (((ofList (m.bytes (ip + 8) 32)).putBe32 32 len.toNat).put8 39 protocol.toNat).bytes 0 40 =
      ipv6PseudoHeader (m.bytes (ip + 8) 16) (m.bytes (ip + 24) 16) protocol len := by
  let pseudo := ((ofList (m.bytes (ip + 8) 32)).putBe32 32 len.toNat).put8 39 protocol.toNat
  have addresses : pseudo.bytes 0 32 = m.bytes (ip + 8) 16 ++ m.bytes (ip + 24) 16 := by
    have same : pseudo.bytes 0 32 = (ofList (m.bytes (ip + 8) 32)).bytes 0 32 := by
      apply bytes_of_get8
      intro k _ upper
      rw [get8_put8_ne _ _ (by omega), get8_putBe32_ne _ _ (by omega)]
    have whole := bytes_ofList (m.bytes (ip + 8) 32)
    rw [bytes_length] at whole
    rw [same, whole, ← bytes_append]
  have rest : pseudo.bytes 32 8 = be32Bytes len ++ [0, 0, 0, protocol] := by
    show [pseudo 32, pseudo 33, pseudo 34, pseudo 35, pseudo 36, pseudo 37, pseudo 38, pseudo 39] = _
    simp [pseudo, putBe32, putBe16, put8, ofList, be32Bytes, Nat.div_div_eq_div_mul]
  show pseudo.bytes 0 (32 + 8) = _
  rw [bytes_append, addresses, rest, List.append_assoc]
  rfl

theorem header_totals {pseudo : Mem} {n : Nat} (short : n ≤ 40) {header : List UInt8} (bytes : pseudo.bytes 0 n = header) :
    Totals (ipChecksumPartial pseudo 0 n 0) (bigEndianWords header) ∧ ipChecksumPartial pseudo 0 n 0 < 2 ^ 36 := by
  have totals : Totals (ipChecksumPartial pseudo 0 n 0) _ := Totals.nil.block (by omega)
  have bound := loadSum_lt pseudo 0 n
  rw [List.nil_append, bytes] at totals
  refine ⟨totals, ?_⟩
  rw [ipChecksumPartial_eq (by omega)]
  omega

theorem pseudoHeader_checksum {m pseudo : Mem} {n payload len : Nat} (short : n ≤ 40) (even : n % 2 = 0)
    (small : len < 2 ^ 32) {header : List UInt8} (bytes : pseudo.bytes 0 n = header) :
    ntohs (ipChecksumFold (ipChecksumPartial m payload len (ipChecksumPartial pseudo 0 n 0))) =
      internetChecksum (header ++ m.bytes payload len) := by
  obtain ⟨totals, bound⟩ := header_totals short bytes
  have length : header.length = n := by rw [← bytes, bytes_length]
  have whole : Totals (ipChecksumPartial m payload len (ipChecksumPartial pseudo 0 n 0)) _ := totals.block (by omega)
  rw [whole.checksum, internetChecksum, bigEndianWords_append (by omega)]

theorem accumulator_fits (m : Mem) (p : Nat) {len : Nat} (short : len < 2 ^ 32) (n : Nat) :
    (((ipChecksumLoads p len).take n).map (Access.load m)).sum < 2 ^ 64 := by
  have whole := loadSum_lt m p len
  rw [loadSum, ← List.take_append_drop n (ipChecksumLoads p len), List.map_append, List.sum_append] at whole
  omega

/-- For every block of bytes: the folded sum, as it is stored, is the checksum; the accumulator does not
overflow; the loops end; and the checksums of the transport protocols are those with a pseudo-header. -/
theorem checksum_eq_internetChecksum (m : Mem) (p len : Nat) (short : len < 2 ^ 32) (field ip : Nat) (protocol : UInt8) :
    (m.putLe16 field (ipChecksumFold (ipChecksumPartial m p len 0))).be16 field = internetChecksum (m.bytes p len) ∧
    (∀ n, (((ipChecksumLoads p len).take n).map (Access.load m)).sum < 2 ^ 64) ∧
    (∀ sum, ∃ narrow digit, Carries 0x100000000 sum narrow ∧ Carries 0x10000 narrow digit ∧ ipChecksumFold sum = 0xffff - digit) ∧
    (∀ l4Bytes : UInt16,
      (m.putLe16 field (tcpUdpV4Checksum m ip protocol.toNat p l4Bytes.toNat)).be16 field =
        internetChecksum (ipv4PseudoHeader (m.bytes (ip + 12) 4) (m.bytes (ip + 16) 4) protocol l4Bytes ++ m.bytes p l4Bytes.toNat)) ∧
    ∀ l4Bytes : UInt32,
      (m.putLe16 field (tcpUdpV6Checksum m ip protocol.toNat p l4Bytes.toNat)).be16 field =
        internetChecksum (ipv6PseudoHeader (m.bytes (ip + 8) 16) (m.bytes (ip + 24) 16) protocol l4Bytes ++ m.bytes p l4Bytes.toNat) := by
  simp only [be16_putLe16]
  refine ⟨?_, accumulator_fits m p short, ?_, ?_, ?_⟩
  · have whole : Totals (ipChecksumPartial m p len 0) _ := Totals.nil.block (by omega)
    exact whole.checksum
  · intro sum
    exact ⟨_, _, fold_carries (by decide) sum, fold_carries (by decide) _, rfl⟩
  · intro l4Bytes
    have small := l4Bytes.toNat_lt
    exact pseudoHeader_checksum (by decide) (by decide) (by omega) (tcpUdpV4Header_bytes m ip protocol l4Bytes)
  · intro l4Bytes
    exact pseudoHeader_checksum (by decide) (by decide) l4Bytes.toNat_lt (tcpUdpV6Header_bytes m ip protocol l4Bytes)

theorem checksum_eq_internetChecksum_odd :
    3 < 2 ^ 32 ∧ (((ofList [0xff, 0xfe, 0x01]).putLe16 0
        (ipChecksumFold (ipChecksumPartial (ofList [0xff, 0xfe, 0x01]) 0 3 0))).be16 0 =
      internetChecksum ((ofList [0xff, 0xfe, 0x01]).bytes 0 3)) ∧ internetChecksum [0xff, 0xfe, 0x01] = 0xff00 :=
  ⟨by decide, (checksum_eq_internetChecksum (ofList [0xff, 0xfe, 0x01]) 0 3 (by decide) 0 0 6).1, by decide⟩

end TcpFuzz
