import Mathlib.Tactic.IntervalCases
import TcpFuzz.Live.Socket
import TcpFuzz.Packet.SctpCrc

/-! `ip_prefix.c` and the random local address of `ip_address.c`. -/

namespace TcpFuzz

def ipAddressLength : AddressFamily → Nat
  | .inet => 4
  | .inet6 => 16

theorem ipAddressLength_le (family : AddressFamily) : ipAddressLength family ≤ 16 := by
  cases family <;> decide

@[ext] structure IpPrefix where
  family : AddressFamily
  ip : IpAddress
  prefixLen : Nat
  inside : prefixLen ≤ 8 * ipAddressLength family

/-- Bit `i` of an address as it goes over the wire: the first bit is the highest of the first byte. -/
def IpAddress.bit (ip : IpAddress) (i : Nat) : Bool := (ip[i / 8]?.getD 0).toBitVec.getLsbD (7 - i % 8)

namespace IpPrefix

def maskByte (byte : UInt8) (pos : Nat) : UInt8 :=
  (byte.toUInt32 &&& ~~~((1 <<< pos.toUInt32) - 1)).toUInt8

def memsetZero (ip : IpAddress) (start count : Nat) : IpAddress :=
  Vector.ofFn fun i => if start ≤ i ∧ i < start + count then 0 else ip[i]

theorem ends_inside (p : IpPrefix) (h : p.prefixLen % 8 ≠ 0) : p.prefixLen / 8 < 16 := by
  have := p.inside
  have := ipAddressLength_le p.family
  omega

def ipPrefixNormalize (p : IpPrefix) : IpPrefix :=
  let bytes := p.prefixLen / 8
  let bits := p.prefixLen % 8
  let maxPrefixBytes := ipAddressLength p.family
  { p with
    ip :=
      if ends : bits ≠ 0 then
        have inside : bytes < 16 := p.ends_inside ends
        memsetZero (p.ip.set bytes (maskByte p.ip[bytes] (8 - bits))) (bytes + 1) (maxPrefixBytes - (bytes + 1))
      else memsetZero p.ip bytes (maxPrefixBytes - bytes) }

theorem maskByte_bit (byte : UInt8) {pos k : Nat} (positive : 0 < pos) (small : pos < 8) (inside : k < 8) :
    (maskByte byte pos).toBitVec.getLsbD k = (decide (pos ≤ k) && byte.toBitVec.getLsbD k) := by
  interval_cases pos <;> interval_cases k <;> simp [maskByte]

theorem bit_eq (ip : IpAddress) {i : Nat} (h : i / 8 < 16) : ip.bit i = ip[i / 8].toBitVec.getLsbD (7 - i % 8) := by
  rw [IpAddress.bit, Vector.getElem?_eq_getElem h]
  rfl

theorem bit_outside (ip : IpAddress) {i : Nat} (h : ¬i / 8 < 16) : ip.bit i = false := by
  rw [IpAddress.bit, Vector.getElem?_eq_none (by omega)]
  simp

theorem take_eq_of_bits {a b : IpAddress} {n : Nat} (h : ∀ i < 8 * n, a.bit i = b.bit i) :
    a.toList.take n = b.toList.take n := by
  apply List.ext_getElem (by simp)
  intro j inside _
  have inside : j < n ∧ j < 16 := by simpa using inside
  simp only [List.getElem_take, Vector.getElem_toList]
  apply UInt8.eq_of_toBitVec_eq
  apply BitVec.eq_of_getLsbD_eq
  intro k short
  have here := h (8 * j + (7 - k)) (by omega)
  have byte : (8 * j + (7 - k)) / 8 = j := by omega
  have bit : 7 - (8 * j + (7 - k)) % 8 = k := by omega
  rw [bit_eq a (by omega), bit_eq b (by omega)] at here
  simpa only [byte, bit] using here

theorem bit_memsetZero (ip : IpAddress) (start count i : Nat) :
    (memsetZero ip start count).bit i = (ip.bit i && !decide (start ≤ i / 8 ∧ i / 8 < start + count)) := by
  by_cases h : i / 8 < 16
  · rw [bit_eq _ h, bit_eq _ h]
    simp only [memsetZero, Vector.getElem_ofFn]
    by_cases cleared : start ≤ i / 8 ∧ i / 8 < start + count
    · rw [if_pos cleared, decide_eq_true cleared]
      simp
    · rw [if_neg cleared, decide_eq_false cleared]
      simp
  · rw [bit_outside _ h, bit_outside _ h]
    rfl

theorem bit_set (ip : IpAddress) {j : Nat} (byte : UInt8) (inside : j < 16) (i : Nat) :
    IpAddress.bit (ip.set j byte) i = if i / 8 = j then byte.toBitVec.getLsbD (7 - i % 8) else ip.bit i := by
  simp only [IpAddress.bit, Vector.getElem?_set]
  by_cases here : i / 8 = j
  · rw [if_pos here, if_pos here.symm]
    rfl
  · rw [if_neg here, if_neg (Ne.symm here)]

theorem bit_ipPrefixNormalize (p : IpPrefix) (i : Nat) :
    p.ipPrefixNormalize.ip.bit i = (p.ip.bit i && !decide (p.prefixLen ≤ i ∧ i < 8 * ipAddressLength p.family)) := by
  have := p.inside
  unfold ipPrefixNormalize
  by_cases ends : p.prefixLen % 8 ≠ 0
  · have inside := p.ends_inside ends
    simp only [dif_pos ends, bit_memsetZero, bit_set]
    by_cases here : i / 8 = p.prefixLen / 8
    · -- The byte where the prefix ends.
      rw [if_pos here, maskByte_bit _ (by omega) (by omega) (by omega), bit_eq _ (by omega)]
      simp only [here, Bool.and_comm (decide _), Bool.and_assoc]
      congr 1
      rw [Bool.eq_iff_iff]
      simp
      omega
    · rw [if_neg here]
      congr 2
      rw [decide_eq_decide]
      omega
  · simp only [dif_neg ends, bit_memsetZero]
    congr 2
    rw [decide_eq_decide]
    omega

theorem bit_eq_of_take {a b : IpAddress} {n i : Nat} (same : a.toList.take n = b.toList.take n) (h : i < 8 * n) :
    a.bit i = b.bit i := by
  have byte : a.toList[i / 8]? = b.toList[i / 8]? := by
    rw [← List.getElem?_take_of_lt (show i / 8 < n by omega), same, List.getElem?_take_of_lt (by omega)]
  simp only [Vector.getElem?_toList] at byte
  rw [IpAddress.bit, IpAddress.bit, byte]

theorem isEqualIp_iff (family : AddressFamily) (a b : IpAddress) :
    isEqualIp (some family) a b = true ↔ ∀ i < 8 * ipAddressLength family, a.bit i = b.bit i := by
  have whole (ip : IpAddress) : ip.toList.take 16 = ip.toList := List.take_of_length_le (by simp)
  have compared : isEqualIp (some family) a b = true ↔
      a.toList.take (ipAddressLength family) = b.toList.take (ipAddressLength family) := by
    cases family with
    | inet => simp [isEqualIp, ipAddressLength]
    | inet6 => simp [isEqualIp, ipAddressLength, whole, ← Vector.toList_inj]
  rw [compared]
  exact ⟨fun same i inside => bit_eq_of_take same inside, take_eq_of_bits⟩

theorem ext_of_bits {a b : IpAddress} (h : ∀ i, a.bit i = b.bit i) : a = b := by
  have same : a.toList.take 16 = b.toList.take 16 := take_eq_of_bits fun i _ => h i
  rwa [List.take_of_length_le (by simp), List.take_of_length_le (by simp), Vector.toList_inj] at same

theorem ipPrefixNormalize_idem (p : IpPrefix) : p.ipPrefixNormalize.ipPrefixNormalize = p.ipPrefixNormalize := by
  refine IpPrefix.ext rfl (ext_of_bits fun i => ?_) rfl
  rw [bit_ipPrefixNormalize, bit_ipPrefixNormalize]
  exact (Bool.and_assoc _ _ _).trans (congrArg _ (Bool.and_self _))

/-- Normalising keeps the bits of the prefix and clears the others of the address; a second time changes nothing, and two
addresses end as the same one exactly when their prefixes agree. -/
theorem ipPrefixNormalize_bits (p : IpPrefix) (other : IpAddress) :
    (∀ i < p.prefixLen, p.ipPrefixNormalize.ip.bit i = p.ip.bit i) ∧
    (∀ i < 8 * ipAddressLength p.family, p.prefixLen ≤ i → p.ipPrefixNormalize.ip.bit i = false) ∧
    p.ipPrefixNormalize.ipPrefixNormalize = p.ipPrefixNormalize ∧
    (isEqualIp (some p.family) p.ipPrefixNormalize.ip ({ p with ip := other } : IpPrefix).ipPrefixNormalize.ip = true ↔
      ∀ i < p.prefixLen, p.ip.bit i = other.bit i) := by
  have inside := p.inside
  refine ⟨?kept, ?cleared, p.ipPrefixNormalize_idem, ?equal⟩
  case kept =>
    intro i h
    rw [bit_ipPrefixNormalize, decide_eq_false (by omega), Bool.not_false, Bool.and_true]
  case cleared =>
    intro i short beyond
    rw [bit_ipPrefixNormalize, decide_eq_true ⟨beyond, short⟩, Bool.not_true, Bool.and_false]
  case equal =>
    rw [isEqualIp_iff]
    simp only [bit_ipPrefixNormalize]
    constructor
    · intro same i h
      have here := same i (by omega)
      rwa [decide_eq_false (by omega), Bool.not_false, Bool.and_true, Bool.and_true] at here
    · intro same i short
      by_cases h : i < p.prefixLen
      · rw [same i h]
      · rw [decide_eq_true ⟨by omega, short⟩]
        simp

end IpPrefix

/-- The address functions of the C library, over IPv4 addresses in network order. -/
structure AddressText where
  inetPton : String → Option (Vector UInt8 4)
  inetNtop : Vector UInt8 4 → String

def sAddr (a : Vector UInt8 4) : BitVec 32 :=
  a[3].toBitVec.setWidth 32 <<< 24 ||| a[2].toBitVec.setWidth 32 <<< 16 ||| a[1].toBitVec.setWidth 32 <<< 8 |||
    a[0].toBitVec.setWidth 32

def ofSAddr (v : BitVec 32) : Vector UInt8 4 := #v[⟨v.setWidth 8⟩, ⟨(v >>> 8).setWidth 8⟩, ⟨(v >>> 16).setWidth 8⟩, ⟨(v >>> 24).setWidth 8⟩]

def ntohl (v : BitVec 32) : BitVec 32 := htonl v

namespace AddressText

def ipv4Parse (lib : AddressText) (ipString : String) : Except String (Vector UInt8 4) :=
  match lib.inetPton ipString with
  | some ipv4 => .ok ipv4
  | none => .error ("bad IPv4 address: " ++ ipString ++ "\n")

end AddressText

/-- The loop of `netmask_to_prefix`, with the positions still to look at. -/
def leadingOnes (maskAddr : BitVec 32) : Nat → Nat → Nat
  | 0, prefixLen => prefixLen
  | pos + 1, prefixLen =>
    if maskAddr &&& (1#32 <<< pos) = 0#32 then prefixLen else leadingOnes maskAddr pos (prefixLen + 1)

def netmaskToPrefix (lib : AddressText) (netmask : String) : Except String Nat := do
  let mask ← lib.ipv4Parse netmask
  return leadingOnes (ntohl (sAddr mask)) 32 0

/-- What `generate_random_ipv4_addr` makes of the random word before it goes into the address. -/
def randomHost (prefixLen : Nat) (rnd : BitVec 32) : BitVec 32 :=
  if prefixLen ≠ 0 then
    let mask := (1#32 <<< (32 - prefixLen)) - 1#32
    let rnd := rnd &&& mask
    let rnd := if rnd < 2#32 then 2#32 else rnd
    if rnd = mask then rnd - 1#32 else rnd
  else rnd

/-- `urandom` is the word the random read gave, if it gave one. -/
def generateRandomIpv4Addr (lib : AddressText) (urandom : Option (BitVec 32)) (base netmask : String) :
    Except String String := do
  let prefixLen ← netmaskToPrefix lib netmask
  let addr ← lib.ipv4Parse base
  match urandom with
  | some rnd =>
    if prefixLen < 31 then return lib.inetNtop (ofSAddr (sAddr addr ||| htonl (randomHost prefixLen rnd)))
    else return lib.inetNtop addr
  | none => return lib.inetNtop addr

def hostOrder (a : Vector UInt8 4) : Nat := (ntohl (sAddr a)).toNat

theorem hostOrder_lt (a : Vector UInt8 4) : hostOrder a < 2 ^ 32 := (ntohl (sAddr a)).isLt

theorem sAddr_ofSAddr (v : BitVec 32) : sAddr (ofSAddr v) = v := by
  apply BitVec.eq_of_getLsbD_eq
  intro i inside
  simp only [sAddr, ofSAddr]
  interval_cases i <;> simp

theorem htonl_htonl (v : BitVec 32) : htonl (htonl v) = v := by
  apply BitVec.eq_of_getLsbD_eq
  intro i inside
  simp only [htonl]
  interval_cases i <;> simp

theorem htonl_or (v w : BitVec 32) : htonl (v ||| w) = htonl v ||| htonl w := by
  apply BitVec.eq_of_getLsbD_eq
  intro i inside
  simp only [htonl]
  interval_cases i <;> simp

theorem hostOrder_or (a : Vector UInt8 4) (v : BitVec 32) :
    hostOrder (ofSAddr (sAddr a ||| htonl v)) = hostOrder a ||| v.toNat := by
  rw [hostOrder, sAddr_ofSAddr, ntohl, htonl_or, htonl_htonl, BitVec.toNat_or]
  rfl

def contiguousMask (prefixLen : Nat) : BitVec 32 := BitVec.allOnes 32 <<< (32 - prefixLen)

theorem contiguousMask_bit {n pos : Nat} (inside : pos < 32) :
    contiguousMask n &&& (1#32 <<< pos) = 0#32 ↔ pos < 32 - n := by
  rw [← BitVec.twoPow_eq, BitVec.and_twoPow]
  have bit : (contiguousMask n).getLsbD pos = !decide (pos < 32 - n) := by
    simp only [contiguousMask, BitVec.getLsbD_shiftLeft, BitVec.getLsbD_allOnes]
    rw [decide_eq_true inside, decide_eq_true (show pos - (32 - n) < 32 by omega), Bool.true_and, Bool.and_true]
  have nonzero : BitVec.twoPow 32 pos ≠ 0#32 := by
    intro zero
    have value := congrArg (BitVec.getLsbD · pos) zero
    simp [inside] at value
  rw [bit]
  by_cases h : pos < 32 - n <;> simp [h, nonzero]

theorem leadingOnes_contiguous {n pos : Nat} (inside : pos ≤ 32) (beyond : 32 - n ≤ pos) (prefixLen : Nat) :
    leadingOnes (contiguousMask n) pos prefixLen = prefixLen + (pos - (32 - n)) := by
  induction pos generalizing prefixLen with
  | zero => simp [leadingOnes]
  | succ pos ih =>
    rw [leadingOnes]
    by_cases h : pos < 32 - n
    · rw [if_pos ((contiguousMask_bit (by omega)).mpr h)]
      omega
    · rw [if_neg (mt (contiguousMask_bit (by omega)).mp h), ih (by omega) (by omega)]
      omega

theorem randomHost_toNat {n : Nat} (positive : 0 < n) (small : n ≤ 30) (rnd : BitVec 32) :
    (randomHost n rnd).toNat =
      let word := rnd.toNat % 2 ^ (32 - n)
      if word < 2 then 2 else if word = 2 ^ (32 - n) - 1 then 2 ^ (32 - n) - 2 else word := by
  have four : 2 ^ 2 ≤ 2 ^ (32 - n) := Nat.pow_le_pow_right (by omega) (by omega)
  have half : 2 ^ (32 - n) ≤ 2 ^ 31 := Nat.pow_le_pow_right (by omega) (by omega)
  have mask : ((1#32 <<< (32 - n)) - 1#32).toNat = 2 ^ (32 - n) - 1 := by
    rw [← BitVec.twoPow_eq]
    simp only [BitVec.toNat_sub, BitVec.toNat_twoPow, BitVec.toNat_ofNat]
    omega
  have word : (rnd &&& ((1#32 <<< (32 - n)) - 1#32)).toNat = rnd.toNat % 2 ^ (32 - n) := by
    rw [BitVec.toNat_and, mask, Nat.and_two_pow_sub_one_eq_mod]
  have short : rnd.toNat % 2 ^ (32 - n) < 2 ^ (32 - n) := Nat.mod_lt _ (by omega)
  simp only [randomHost, if_pos (Nat.pos_iff_ne_zero.mp positive), BitVec.lt_def, word, ← BitVec.toNat_inj]
  by_cases low : rnd.toNat % 2 ^ (32 - n) < 2
  · rw [if_pos (show _ < (2#32).toNat from low), if_neg (by rw [mask]; show 2 ≠ _; omega), if_pos low]
    rfl
  · rw [if_neg (show ¬_ < (2#32).toNat from low), word, mask, if_neg low]
    by_cases top : rnd.toNat % 2 ^ (32 - n) = 2 ^ (32 - n) - 1
    · rw [if_pos top, if_pos top, BitVec.toNat_sub, word, top]
      show (2 ^ 32 - 1 + _) % 2 ^ 32 = _
      omega
    · rw [if_neg top, if_neg top, word]

theorem or_two (x : Nat) : x ||| 2 = if x / 2 % 2 = 1 then x else x + 2 := by
  have high : (x ||| 2) / 2 ^ 2 = x / 2 ^ 2 := by rw [Nat.or_div_two_pow]; simp
  have low : (x ||| 2) % 2 ^ 2 = x % 2 ^ 2 ||| 2 := by rw [Nat.or_mod_two_pow]
  have : x % 2 ^ 2 < 4 := Nat.mod_lt _ (by decide)
  have : x % 2 ^ 2 = 0 ∨ x % 2 ^ 2 = 1 ∨ x % 2 ^ 2 = 2 ∨ x % 2 ^ 2 = 3 := by omega
  rcases this with h | h | h | h <;> rw [h] at low <;> simp at low <;> split <;> omega

theorem or_eq_ones_iff {w x y : Nat} (hx : x < 2 ^ w) (hy : y < 2 ^ w) :
    x ||| y = 2 ^ w - 1 ↔ ∀ k < w, x.testBit k = true ∨ y.testBit k = true := by
  constructor
  · intro same k inside
    have bit : (x ||| y).testBit k = true := by
      rw [same, Nat.testBit_two_pow_sub_one]
      exact decide_eq_true inside
    simpa using bit
  · intro covered
    apply Nat.eq_of_testBit_eq
    intro k
    rw [Nat.testBit_two_pow_sub_one, Nat.testBit_or]
    by_cases inside : k < w
    · simpa [inside] using covered k inside
    · rw [Nat.testBit_lt_two_pow (hx.trans_le (Nat.pow_le_pow_right (by omega) (by omega))),
        Nat.testBit_lt_two_pow (hy.trans_le (Nat.pow_le_pow_right (by omega) (by omega)))]
      simp [inside]

/-- An address of the base's network with none of the reserved host parts: the network, the gateway and the broadcast. -/
def UsableHost (prefixLen base addr : Nat) : Prop :=
  addr / 2 ^ (32 - prefixLen) = base / 2 ^ (32 - prefixLen) ∧ addr % 2 ^ (32 - prefixLen) ≠ 0 ∧
    addr % 2 ^ (32 - prefixLen) ≠ 1 ∧ addr % 2 ^ (32 - prefixLen) ≠ 2 ^ (32 - prefixLen) - 1

/-- The bases and random words that a usable host comes from. -/
def GivesHost (prefixLen base rnd : Nat) : Prop :=
  let size := 2 ^ (32 - prefixLen)
  let word := rnd % size
  if prefixLen ≠ 0 ∧ word < 2 then base % size ≠ size - 1 ∧ base % size ≠ size - 3
  else if prefixLen ≠ 0 ∧ word = size - 1 then base % 2 = 0
  else (∃ k < 32 - prefixLen, base.testBit k = false ∧ rnd.testBit k = false) ∧ (2 ≤ base ∨ 2 ≤ rnd)

theorem usableHost_or {n base host : Nat} (short : host < 2 ^ (32 - n)) :
    UsableHost n base (base ||| host) ↔
      2 ≤ (base % 2 ^ (32 - n) ||| host) ∧ (base % 2 ^ (32 - n) ||| host) ≠ 2 ^ (32 - n) - 1 := by
  have network : (base ||| host) / 2 ^ (32 - n) = base / 2 ^ (32 - n) := by
    rw [Nat.or_div_two_pow, Nat.div_eq_of_lt short, Nat.or_zero]
  have part : (base ||| host) % 2 ^ (32 - n) = base % 2 ^ (32 - n) ||| host := by
    rw [Nat.or_mod_two_pow, Nat.mod_eq_of_lt short]
  rw [UsableHost, network, part]
  omega

theorem or_ne_ones_iff {w x y : Nat} :
    x % 2 ^ w ||| y % 2 ^ w ≠ 2 ^ w - 1 ↔ ∃ k < w, x.testBit k = false ∧ y.testBit k = false := by
  rw [Ne, or_eq_ones_iff (Nat.mod_lt _ (Nat.two_pow_pos w)) (Nat.mod_lt _ (Nat.two_pow_pos w))]
  simp only [Nat.testBit_mod_two_pow, not_forall, not_or, Bool.not_eq_true]
  constructor
  · intro ⟨k, inside, clear⟩
    exact ⟨k, inside, by simpa [inside] using clear⟩
  · intro ⟨k, inside, clear⟩
    exact ⟨k, inside, by simpa [inside] using clear⟩

theorem two_le_or_iff {x y : Nat} : 2 ≤ x ||| y ↔ 2 ≤ x ∨ 2 ≤ y := by
  constructor
  · intro large
    by_contra small
    have : x ||| y < 2 ^ 1 := Nat.or_lt_two_pow (by omega) (by omega)
    omega
  · rintro (large | large)
    · exact large.trans Nat.left_le_or
    · exact large.trans Nat.right_le_or

theorem or_even_ones {w x : Nat} (positive : 0 < w) (hx : x < 2 ^ w) : x ||| 2 ^ w - 2 = 2 ^ w - 1 ↔ x % 2 = 1 := by
  obtain ⟨w, rfl⟩ := Nat.exists_eq_add_one.mpr positive
  have pos := Nat.two_pow_pos w
  have double : 2 ^ (w + 1) = 2 * 2 ^ w := by rw [Nat.pow_succ, Nat.mul_comm]
  have high : (x ||| 2 ^ (w + 1) - 2) / 2 ^ 1 = 2 ^ w - 1 := by
    rw [Nat.or_div_two_pow, show (2 ^ (w + 1) - 2) / 2 ^ 1 = 2 ^ w - 1 by omega]
    exact (or_eq_ones_iff (by omega) (by omega)).mpr fun k inside => .inr (by simp [inside])
  have low : (x ||| 2 ^ (w + 1) - 2) % 2 ^ 1 = x % 2 := by
    rw [Nat.or_mod_two_pow, show (2 ^ (w + 1) - 2) % 2 ^ 1 = 0 by omega, Nat.or_zero]
  omega

theorem usableHost_iff {n : Nat} (small : n ≤ 30) {base : Nat} (wide : base < 2 ^ 32) (rnd : BitVec 32) :
    UsableHost n base (base ||| (randomHost n rnd).toNat) ↔ GivesHost n base rnd.toNat := by
  have word := rnd.isLt
  rcases Nat.eq_zero_or_pos n with rfl | positive
  · -- Nothing is done about the reserved words here.
    have covered := or_ne_ones_iff (w := 32) (x := base) (y := rnd.toNat)
    rw [Nat.mod_eq_of_lt wide, Nat.mod_eq_of_lt word] at covered
    rw [show randomHost 0 rnd = rnd from rfl, usableHost_or word, Nat.mod_eq_of_lt wide, covered, two_le_or_iff]
    simp [GivesHost, and_comm]
  · obtain ⟨quarter, size⟩ : ∃ q, 2 ^ (32 - n) = 4 * q :=
      ⟨2 ^ (30 - n), by rw [show 32 - n = 2 + (30 - n) by omega, Nat.pow_add]⟩
    have := Nat.two_pow_pos (32 - n)
    have short : base % 2 ^ (32 - n) < 2 ^ (32 - n) := Nat.mod_lt _ (by omega)
    have within : rnd.toNat % 2 ^ (32 - n) < 2 ^ (32 - n) := Nat.mod_lt _ (by omega)
    simp only [GivesHost, Nat.pos_iff_ne_zero.mp positive, not_false_eq_true, ne_eq, true_and]
    rw [randomHost_toNat positive small]
    dsimp only
    by_cases low : rnd.toNat % 2 ^ (32 - n) < 2
    · rw [if_pos low, if_pos low, usableHost_or (by omega), or_two]
      split <;> omega
    · rw [if_neg low, if_neg low]
      by_cases top : rnd.toNat % 2 ^ (32 - n) = 2 ^ (32 - n) - 1
      · have parity : base % 2 ^ (32 - n) % 2 = base % 2 := Nat.mod_mod_of_dvd base ⟨2 * quarter, by omega⟩
        rw [if_pos top, if_pos top, usableHost_or (by omega), two_le_or_iff, Ne, or_even_ones (by omega) short]
        omega
      · have large : 2 ≤ rnd.toNat := (Nat.not_lt.mp low).trans (Nat.mod_le _ _)
        rw [if_neg top, if_neg top, usableHost_or within, two_le_or_iff, or_ne_ones_iff]
        constructor
        · intro ⟨_, clear⟩
          exact ⟨clear, .inr large⟩
        · intro ⟨clear, _⟩
          exact ⟨.inr (Nat.not_lt.mp low), clear⟩

theorem givesHost_network {n base : Nat} (positive : 0 < n) (small : n ≤ 30) (network : base % 2 ^ (32 - n) = 0) (rnd : Nat) :
    GivesHost n base rnd := by
  have four : 2 ^ 2 ≤ 2 ^ (32 - n) := Nat.pow_le_pow_right (by omega) (by omega)
  simp only [GivesHost, Nat.pos_iff_ne_zero.mp positive, not_false_eq_true, ne_eq, true_and]
  by_cases low : rnd % 2 ^ (32 - n) < 2
  · rw [if_pos low, network]
    omega
  · rw [if_neg low]
    by_cases top : rnd % 2 ^ (32 - n) = 2 ^ (32 - n) - 1
    · have even : base % 2 ^ (32 - n) % 2 = base % 2 := Nat.mod_mod_of_dvd base (dvd_pow_self 2 (by omega))
      rw [if_pos top]
      omega
    · rw [if_neg top]
      refine ⟨or_ne_ones_iff.mp ?_, .inr ((Nat.not_lt.mp low).trans (Nat.mod_le _ _))⟩
      rwa [network, Nat.zero_or]

theorem AddressText.ipv4Parse_ok {lib : AddressText} {text : String} {a : Vector UInt8 4} (h : lib.inetPton text = some a) :
    lib.ipv4Parse text = .ok a := by
  rw [ipv4Parse, h]

theorem generateRandomIpv4Addr_ok {lib : AddressText} {base netmask : String} {b m : Vector UInt8 4}
    (parsed : lib.inetPton base = some b) (mask : lib.inetPton netmask = some m) {n : Nat} (small : n ≤ 30)
    (contiguous : ntohl (sAddr m) = contiguousMask n) (rnd : BitVec 32) :
    generateRandomIpv4Addr lib (some rnd) base netmask =
      .ok (lib.inetNtop (ofSAddr (sAddr b ||| htonl (randomHost n rnd)))) := by
  have prefixLen : netmaskToPrefix lib netmask = .ok n := by
    rw [netmaskToPrefix, AddressText.ipv4Parse_ok mask]
    show Except.ok (leadingOnes (ntohl (sAddr m)) 32 0) = _
    rw [contiguous, leadingOnes_contiguous (Nat.le_refl 32) (by omega)]
    congr 1
    omega
  rw [generateRandomIpv4Addr, prefixLen, AddressText.ipv4Parse_ok parsed]
  exact if_pos (by omega)

/-- With a contiguous netmask and a random word the function prints an address, and it is a usable host exactly for the
bases and words of `GivesHost`. -/
theorem generateRandomIpv4Addr_usable {lib : AddressText} (inverse : ∀ a, lib.inetPton (lib.inetNtop a) = some a)
    {base netmask : String} {b m : Vector UInt8 4} (parsed : lib.inetPton base = some b)
    (mask : lib.inetPton netmask = some m) {n : Nat} (small : n ≤ 30) (contiguous : ntohl (sAddr m) = contiguousMask n)
    (rnd : BitVec 32) :
    ∃ result a, generateRandomIpv4Addr lib (some rnd) base netmask = .ok result ∧ lib.ipv4Parse result = .ok a ∧
      (UsableHost n (hostOrder b) (hostOrder a) ↔ GivesHost n (hostOrder b) rnd.toNat) := by
  refine ⟨_, _, generateRandomIpv4Addr_ok parsed mask small contiguous rnd, AddressText.ipv4Parse_ok (inverse _), ?_⟩
  rw [hostOrder_or]
  exact usableHost_iff small (hostOrder_lt b) rnd

def decimalValue (digits : List Char) : Nat := digits.foldl (fun value c => 10 * value + (c.toNat - 48)) 0

def octet (digits : List Char) : Option UInt8 :=
  let value := decimalValue digits
  if value < 256 ∧ Nat.toDigits 10 value = digits then some (.ofNat value) else none

def dottedText : AddressText where
  inetNtop a := .ofList (['.'].intercalate (a.toList.map fun byte => Nat.toDigits 10 byte.toNat))
  inetPton s :=
    match (s.toList.splitOn '.').mapM octet with
    | some [b0, b1, b2, b3] => some #v[b0, b1, b2, b3]
    | _ => none

theorem toDigits_octet : ∀ n < 256, decimalValue (Nat.toDigits 10 n) = n ∧ '.' ∉ Nat.toDigits 10 n := by
  decide +kernel

theorem octet_toDigits (byte : UInt8) : octet (Nat.toDigits 10 byte.toNat) = some byte := by
  have value := (toDigits_octet byte.toNat byte.toNat_lt).1
  rw [octet, value]
  simp [byte.toNat_lt]

theorem dottedText_inverse (a : Vector UInt8 4) : dottedText.inetPton (dottedText.inetNtop a) = some a := by
  have parts : (['.'].intercalate (a.toList.map fun byte => Nat.toDigits 10 byte.toNat)).splitOn '.' =
      a.toList.map fun byte => Nat.toDigits 10 byte.toNat := by
    apply List.splitOn_intercalate
    · intro digits member
      obtain ⟨byte, _, rfl⟩ := List.mem_map.mp member
      exact (toDigits_octet byte.toNat byte.toNat_lt).2
    · simp
  have octets (bytes : List UInt8) : (bytes.map fun byte => Nat.toDigits 10 byte.toNat).mapM octet = some bytes := by
    induction bytes with
    | nil => rfl
    | cons byte bytes ih => simp [octet_toDigits, ih]
  have whole : a = #v[a[0], a[1], a[2], a[3]] := by
    ext i inside
    interval_cases i <;> rfl
  simp only [dottedText, String.toList_ofList, parts, octets]
  rw [whole]
  rfl

theorem generateRandomIpv4Addr_broadcast :
    ∃ result a, generateRandomIpv4Addr dottedText (some 0x57ffff#32) (dottedText.inetNtop #v[192, 168, 0, 0])
        (dottedText.inetNtop #v[255, 0, 0, 0]) = .ok result ∧ dottedText.ipv4Parse result = .ok a ∧
      a = #v[192, 255, 255, 255] ∧ ¬UsableHost 8 (hostOrder #v[192, 168, 0, 0]) (hostOrder a) := by
  refine ⟨_, _, generateRandomIpv4Addr_ok (n := 8) (dottedText_inverse _) (dottedText_inverse _) (by decide) (by decide) _,
    AddressText.ipv4Parse_ok (dottedText_inverse _), by decide, ?_⟩
  intro usable
  exact usable.2.2.2 (by decide)

theorem generateRandomIpv4Addr_usable_slash16 :
    ∃ result a, generateRandomIpv4Addr dottedText (some 7#32) (dottedText.inetNtop #v[192, 168, 0, 0])
        (dottedText.inetNtop #v[255, 255, 0, 0]) = .ok result ∧ dottedText.ipv4Parse result = .ok a ∧
      UsableHost 16 (hostOrder #v[192, 168, 0, 0]) (hostOrder a) := by
  obtain ⟨result, a, made, parsed, usable⟩ := generateRandomIpv4Addr_usable (n := 16) dottedText_inverse
    (dottedText_inverse _) (dottedText_inverse #v[255, 255, 0, 0]) (by decide) (by decide) 7#32
  exact ⟨result, a, made, parsed, usable.mpr (givesHost_network (by decide) (by decide) (by decide) _)⟩

structure AddressConfig where
  liveRemoteIpString : String
  liveNetmaskIpString : String
  liveLocalIpString : String
  liveGatewayIpString : String

def orDefault (text byDefault : String) : String := if text.length = 0 then byDefault else text

def setIpv4Defaults (lib : AddressText) (urandom : Option (BitVec 32)) (config : AddressConfig) :
    Except String AddressConfig := do
  let netmask := orDefault config.liveNetmaskIpString "255.255.0.0"
  let localIp ←
    if config.liveLocalIpString.length = 0 then generateRandomIpv4Addr lib urandom "192.168.0.0" netmask
    else pure config.liveLocalIpString
  return {
    liveRemoteIpString := orDefault config.liveRemoteIpString "192.0.2.1/24"
    liveNetmaskIpString := netmask
    liveLocalIpString := localIp
    liveGatewayIpString := orDefault config.liveGatewayIpString "192.168.0.1" }

/-- With the default netmask the local address is a usable host whatever the random word, and never the default gateway. -/
theorem setIpv4Defaults_usable {lib : AddressText} (inverse : ∀ a, lib.inetPton (lib.inetNtop a) = some a)
    (base : lib.inetPton "192.168.0.0" = some #v[192, 168, 0, 0])
    (mask : lib.inetPton "255.255.0.0" = some #v[255, 255, 0, 0]) (rnd : BitVec 32) (remote gateway : String) :
    ∃ config a, setIpv4Defaults lib (some rnd) ⟨remote, "", "", gateway⟩ = .ok config ∧
      lib.ipv4Parse config.liveLocalIpString = .ok a ∧ UsableHost 16 (hostOrder #v[192, 168, 0, 0]) (hostOrder a) := by
  have made := generateRandomIpv4Addr_ok base mask (show 16 ≤ 30 by decide) (by decide) rnd
  have run : setIpv4Defaults lib (some rnd) ⟨remote, "", "", gateway⟩ =
      .ok ⟨orDefault remote "192.0.2.1/24", "255.255.0.0",
        lib.inetNtop (ofSAddr (sAddr #v[192, 168, 0, 0] ||| htonl (randomHost 16 rnd))), orDefault gateway "192.168.0.1"⟩ := by
    rw [setIpv4Defaults, if_pos String.length_empty, show orDefault "" "255.255.0.0" = "255.255.0.0" from rfl, made]
    rfl
  refine ⟨_, _, run, AddressText.ipv4Parse_ok (inverse _), ?_⟩
  rw [hostOrder_or, usableHost_iff (by decide) (hostOrder_lt _)]
  exact givesHost_network (by decide) (by decide) (by decide) _

theorem setIpv4Defaults_usable_seven :
    ∃ config a, setIpv4Defaults dottedText (some 7#32) ⟨"", "", "", ""⟩ = .ok config ∧
      dottedText.ipv4Parse config.liveLocalIpString = .ok a ∧ UsableHost 16 (hostOrder #v[192, 168, 0, 0]) (hostOrder a) :=
  setIpv4Defaults_usable dottedText_inverse (by decide +kernel) (by decide +kernel) 7#32 "" ""

end TcpFuzz
