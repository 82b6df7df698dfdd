import TcpFuzz.Lib.EndAroundCarry
import TcpFuzz.Packet.Fields

/-! The sums of `checksum.c`, with words in the byte order of a little-endian host, and `checksum_packet`, which fills
in the checksums of a packet to send. -/

namespace TcpFuzz
open Bytes Mem EndAroundCarry

def ntohs (v : Nat) : Nat := v % 256 * 256 + v / 256 % 256

def ipChecksumTail (m : Mem) (p len sum : Nat) : Nat :=
  if 2 ≤ len then
    let sum := (sum + m.le16 p) % 2 ^ 64
    if 0 < len - 2 then (sum + ntohs (m.get8 (p + 2) * 256)) % 2 ^ 64 else sum
  else if 0 < len then (sum + ntohs (m.get8 p * 256)) % 2 ^ 64 else sum

def ipChecksumPartial (m : Mem) (p : Nat) : Nat → Nat → Nat
  | len + 4, sum => ipChecksumPartial m (p + 4) len ((sum + m.le32 p) % 2 ^ 64)
  | len, sum => ipChecksumTail m p len sum

theorem ipChecksumTail_congr {m m' : Mem} {p len : Nat} (same : ∀ j, p ≤ j → j < p + len → m'.get8 j = m.get8 j) (sum : Nat) :
    ipChecksumTail m' p len sum = ipChecksumTail m p len sum := by
  unfold ipChecksumTail
  split
  · split
    · simp (disch := omega) only [le16, same]
    · simp (disch := omega) only [le16, same]
  · split
    · simp (disch := omega) only [same]
    · rfl

theorem ipChecksumPartial_congr {m m' : Mem} {p len : Nat} (same : ∀ j, p ≤ j → j < p + len → m'.get8 j = m.get8 j)
    (sum : Nat) : ipChecksumPartial m' p len sum = ipChecksumPartial m p len sum := by
  induction p, len, sum using ipChecksumPartial.induct m with
  | case1 p len sum ih =>
    have word : m'.le32 p = m.le32 p := by simp (disch := omega) only [le32, le16, same]
    rw [ipChecksumPartial, ipChecksumPartial, word]
    exact ih fun j lower upper => same j (by omega) (by omega)
  | case2 p len sum short =>
    rw [ipChecksumPartial.eq_2 _ _ _ _ short, ipChecksumPartial.eq_2 _ _ _ _ short]
    exact ipChecksumTail_congr same sum

def ipChecksumFold (sum : Nat) : Nat := 0xffff - fold 0x10000 (fold 0x100000000 sum)

def ipv4Checksum (m : Mem) (ip headerBytes : Nat) : Nat := ipChecksumFold (ipChecksumPartial m ip headerBytes 0)

theorem ipChecksumFold_lt (sum : Nat) : ipChecksumFold sum < 65536 := by
  unfold ipChecksumFold
  omega

theorem ipChecksumFold_zero : ipChecksumFold 0 = 0xffff := by
  rw [ipChecksumFold, fold_eq_zero.mpr rfl, fold_eq_zero.mpr rfl]

theorem fold32_modEq (sum : Nat) : fold 0x100000000 sum ≡ sum [MOD 0xffff] := by
  have folded : fold 0x100000000 sum ≡ sum [MOD 0xffffffff] := fold_modEq (by decide) sum
  exact folded.of_dvd (by decide)

theorem ipChecksumFold_modEq (sum : Nat) : sum + ipChecksumFold sum ≡ 0 [MOD 0xffff] := by
  have folded : fold 0x10000 (fold 0x100000000 sum) ≡ fold 0x100000000 sum [MOD 0xffff] :=
    fold_modEq (by decide) _
  have digit : fold 0x10000 (fold 0x100000000 sum) < 0x10000 := fold_lt (by decide) _
  have whole := ((folded.trans (fold32_modEq sum)).symm.add_right (ipChecksumFold sum))
  apply whole.trans
  rw [ipChecksumFold, show ∀ d, d < 0x10000 → d + (0xffff - d) = 0xffff by omega]
  · rfl
  · exact digit

theorem ipChecksumFold_eq_zero {sum : Nat} (positive : 0 < sum) (multiple : sum ≡ 0 [MOD 0xffff]) :
    ipChecksumFold sum = 0 := by
  have folded : 0xffff ∣ fold 0x100000000 sum := Nat.dvd_of_mod_eq_zero ((fold32_modEq sum).trans multiple)
  have largest : fold 0x10000 (fold 0x100000000 sum) = 0xffff :=
    fold_eq_of_dvd (by decide) (fold_pos positive) folded
  rw [ipChecksumFold, largest]

theorem ipChecksumPartial_twenty (m : Mem) (ip : Nat) :
    ipChecksumPartial m ip 20 0 =
      m.le32 ip + m.le32 (ip + 4) + m.le32 (ip + 8) + m.le32 (ip + 12) + m.le32 (ip + 16) := by
  have w0 := le32_lt m ip
  have w1 := le32_lt m (ip + 4)
  have w2 := le32_lt m (ip + 8)
  have w3 := le32_lt m (ip + 12)
  have w4 := le32_lt m (ip + 16)
  have empty (sum : Nat) : ipChecksumTail m (ip + 20) 0 sum = sum := by simp [ipChecksumTail]
  simp only [ipChecksumPartial, Nat.add_assoc, Nat.reduceAdd, empty]
  omega

theorem ipv4Checksum_congr {m m' : Mem} {ip : Nat} (same : ∀ j, ip ≤ j → j < ip + 20 → m'.get8 j = m.get8 j) :
    ipv4Checksum m' ip 20 = ipv4Checksum m ip 20 := by
  unfold ipv4Checksum
  rw [ipChecksumPartial_twenty, ipChecksumPartial_twenty]
  simp (disch := omega) only [le32, le16, same]

def setIpv4Check (m : Mem) (ip : Nat) : Mem :=
  let m := m.putLe16 (ip + 10) 0
  m.putLe16 (ip + 10) (ipv4Checksum m ip (ipv4HeaderLen m ip))

theorem setIpv4Check_frame (m : Mem) {ip j : Nat} (apart : j < ip + 10 ∨ ip + 11 < j) :
    (setIpv4Check m ip).get8 j = m.get8 j := by
  simp (disch := omega) only [setIpv4Check, get8_putLe16_ne]

theorem setIpv4Check_verifies {m : Mem} {ip : Nat} (length : ipv4HeaderLen m ip = 20) :
    ipv4Checksum (setIpv4Check m ip) ip 20 = 0 := by
  let cleared := m.putLe16 (ip + 10) 0
  have same : ipv4HeaderLen cleared ip = 20 := by
    simp (disch := omega) only [cleared, ipv4HeaderLen, get8_putLe16_ne]
    exact length
  let check := ipv4Checksum cleared ip 20
  have stored : setIpv4Check m ip = cleared.putLe16 (ip + 10) check := by
    simp only [setIpv4Check, check]
    rw [same]
  have low : check < 65536 := ipChecksumFold_lt _
  have zero : cleared.le16 (ip + 10) = 0 := le16_putLe16_self m _ (by decide)
  have sum : ipChecksumPartial (setIpv4Check m ip) ip 20 0 = ipChecksumPartial cleared ip 20 0 + check * 65536 := by
    have third (m : Mem) : m.le32 (ip + 8) = m.le16 (ip + 8) + m.le16 (ip + 10) * 65536 := rfl
    rw [stored, ipChecksumPartial_twenty, ipChecksumPartial_twenty]
    simp (disch := omega) only [third, le32_putLe16_ne, le16_putLe16_ne, le16_putLe16_self, zero]
    omega
  have positive : 0 < ipChecksumPartial cleared ip 20 0 := by
    rw [ipv4HeaderLen] at same
    rw [ipChecksumPartial_twenty, le32, le16]
    omega
  unfold ipv4Checksum
  apply ipChecksumFold_eq_zero
  · omega
  · rw [sum]
    have carry : check * 65536 ≡ check * 1 [MOD 0xffff] := Nat.ModEq.mul_left check (by decide)
    rw [Nat.mul_one] at carry
    exact (carry.add_left _).trans (ipChecksumFold_modEq _)

def tcpUdpV4HeaderChecksumPartial (m : Mem) (ip protocol len : Nat) : Nat :=
  let pseudo := (ofList (m.bytes (ip + 12) 8)).put8 9 protocol |>.putBe16 10 len
  ipChecksumPartial pseudo 0 12 0

def tcpUdpV4Checksum (m : Mem) (ip protocol payload len : Nat) : Nat :=
  ipChecksumFold (ipChecksumPartial m payload len (tcpUdpV4HeaderChecksumPartial m ip protocol len))

def tcpUdpV6HeaderChecksumPartial (m : Mem) (ip protocol len : Nat) : Nat :=
  let pseudo := (ofList (m.bytes (ip + 8) 32)).putBe32 32 len |>.put8 39 protocol
  ipChecksumPartial pseudo 0 40 0

def tcpUdpV6Checksum (m : Mem) (ip protocol payload len : Nat) : Nat :=
  ipChecksumFold (ipChecksumPartial m payload len (tcpUdpV6HeaderChecksumPartial m ip protocol len))

/-- Clear a checksum field, then store the sum over the memory with the field cleared. -/
def fillCheck (m : Mem) (field : Nat) (sum : Mem → Nat) : Mem :=
  let m := m.putLe16 field 0
  m.putLe16 field (sum m)

theorem get8_fillCheck_ne (m : Mem) {field j : Nat} (sum : Mem → Nat) (apart : j < field ∨ field + 1 < j) :
    (fillCheck m field sum).get8 j = m.get8 j := by
  rw [fillCheck, get8_putLe16_ne _ _ apart, get8_putLe16_ne _ _ apart]

/-- The innermost layer 4 checksum; the pointers are looked at in this order. -/
def checksumLayer4 (p : Packet) (icmp : Option Nat) (check : Nat → Nat → Mem → Nat) (icmpCheck : Nat → Mem → Nat) :
    Run Packet :=
  match p.tcp, p.udp, icmp with
  | some tcp, _, _ => .ok { p with buffer := fillCheck p.buffer (tcp + 16) (check 6 tcp) }
  | none, some udp, _ => .ok { p with buffer := fillCheck p.buffer (udp + 6) (check 17 udp) }
  | none, none, some icmp => .ok { p with buffer := fillCheck p.buffer (icmp + 2) (icmpCheck icmp) }
  | none, none, none => .error .assertion

def checksumIpv4Packet (p : Packet) (ip : Nat) : Run Packet := do
  let p := { p with buffer := setIpv4Check p.buffer ip }
  let totLen := ipv4TotLen p.buffer ip
  assertThat (totLen ≤ p.ipBytes)
  -- a packet that is shorter than its header goes out without a layer 4 checksum
  if totLen ≤ ipv4HeaderLen p.buffer ip then
    return p
  let l4Bytes := totLen - ipv4HeaderLen p.buffer ip
  checksumLayer4 p p.icmpv4 (fun protocol l4 m => tcpUdpV4Checksum m ip protocol l4 l4Bytes)
    fun icmp m => ipv4Checksum m icmp l4Bytes

def checksumIpv6Packet (p : Packet) (ip : Nat) : Run Packet := do
  let l4Bytes := ipv6PayloadLen p.buffer ip
  assertThat (40 + l4Bytes ≤ p.ipBytes)
  assertThat (0 < l4Bytes)
  checksumLayer4 p p.icmpv6 (fun protocol l4 m => tcpUdpV6Checksum m ip protocol l4 l4Bytes)
    fun icmp m => tcpUdpV6Checksum m ip 58 icmp l4Bytes

def checksumPacket (p : Packet) : Run Packet :=
  match p.ipv4, p.ipv6 with
  | some ip, _ => checksumIpv4Packet p ip
  | none, some ip => checksumIpv6Packet p ip
  | none, none => .error .assertion

structure Access where
  start : Nat
  length : Nat

def Access.Inside (bound : Nat) (a : Access) : Prop := a.start + a.length ≤ bound

def ipChecksumLoads (p : Nat) : Nat → List Access
  | len + 4 => ⟨p, 4⟩ :: ipChecksumLoads (p + 4) len
  | 3 => [⟨p, 2⟩, ⟨p + 2, 1⟩]
  | 2 => [⟨p, 2⟩]
  | 1 => [⟨p, 1⟩]
  | 0 => []

def Access.load (m : Mem) (a : Access) : Nat :=
  match a.length with
  | 4 => m.le32 a.start
  | 2 => m.le16 a.start
  | _ => ntohs (m.get8 a.start * 256)

theorem ipChecksumLoads_inside {p len bound : Nat} :
    (∀ a ∈ ipChecksumLoads p len, a.Inside bound) ↔ len = 0 ∨ p + len ≤ bound := by
  induction p, len using ipChecksumLoads.induct with
  | case1 p len ih =>
    rw [ipChecksumLoads, List.forall_mem_cons, ih]
    show p + 4 ≤ bound ∧ _ ↔ _
    omega
  | case5 p => simp [ipChecksumLoads]
  | case2 p | case3 p | case4 p =>
    simp only [ipChecksumLoads, List.forall_mem_cons, List.not_mem_nil, false_implies, implies_true, and_true, Access.Inside]
    omega

def checksumIpv4Accesses (p : Packet) (ip : Nat) : List Access :=
  let totLen := ipv4TotLen p.buffer ip
  let headerLen := ipv4HeaderLen p.buffer ip
  let header := ⟨ip + 10, 2⟩ :: ⟨ip, 1⟩ :: ipChecksumLoads ip headerLen ++ [⟨ip + 2, 2⟩]
  if totLen ≤ headerLen then header
  else
    let pseudo : Access := ⟨ip + 12, 8⟩
    match p.tcp, p.udp, p.icmpv4 with
    | some tcp, _, _ => header ++ ⟨tcp + 16, 2⟩ :: pseudo :: ipChecksumLoads tcp (totLen - headerLen)
    | none, some udp, _ => header ++ ⟨udp + 6, 2⟩ :: pseudo :: ipChecksumLoads udp (totLen - headerLen)
    | none, none, some icmp => header ++ ⟨icmp + 2, 2⟩ :: ipChecksumLoads icmp (totLen - headerLen)
    | none, none, none => header

/-- The sum of the 16-bit words in host order; a last byte alone is a word with a zero behind it. -/
def halfwordSum (m : Mem) (p : Nat) : Nat → Nat
  | 0 => 0
  | 1 => m.get8 p
  | len + 2 => m.le16 p + halfwordSum m (p + 2) len

section Sums

variable {m : Mem} {p len sum : Nat}

theorem halfwordSum_congr {m' : Mem} (same : ∀ j, p ≤ j → j < p + len → m'.get8 j = m.get8 j) :
    halfwordSum m' p len = halfwordSum m p len := by
  induction len using Nat.twoStepInduction generalizing p with
  | zero => rfl
  | one => exact same p (by omega) (by omega)
  | more len ih _ =>
    rw [halfwordSum, halfwordSum, le16, le16, same p (by omega) (by omega), same (p + 1) (by omega) (by omega),
      ih fun j lower upper => same j (by omega) (by omega)]

theorem ntohs_high {b : Nat} (byte : b < 256) : ntohs (b * 256) = b := by
  unfold ntohs
  omega

theorem ipChecksumTail_eq (room : sum + 2 ^ 32 ≤ 2 ^ 64) (short : len < 4) :
    ipChecksumTail m p len sum = sum + halfwordSum m p len := by
  have low := le16_lt m p
  have first := get8_lt m p
  have last := get8_lt m (p + 2)
  unfold ipChecksumTail
  match len, short with
  | 0, _ => rfl
  | 1, _ =>
    rw [ntohs_high first, if_neg (by decide), if_pos (by decide), halfwordSum]
    omega
  | 2, _ =>
    rw [if_pos (by decide), if_neg (by decide), halfwordSum, halfwordSum]
    omega
  | 3, _ =>
    rw [ntohs_high last, if_pos (by decide), if_pos (by decide), halfwordSum, halfwordSum]
    omega

theorem ipChecksumPartial_short (short : len < 4) : ipChecksumPartial m p len sum = ipChecksumTail m p len sum := by
  match len, short with
  | 0, _ | 1, _ | 2, _ | 3, _ => rfl

def loadSum (m : Mem) (p len : Nat) : Nat := ((ipChecksumLoads p len).map (Access.load m)).sum

theorem loadSum_four (m : Mem) (p len : Nat) : loadSum m p (len + 4) = m.le32 p + loadSum m (p + 4) len := rfl

theorem loadSum_short (short : len < 4) : loadSum m p len = halfwordSum m p len := by
  have last : Access.load m ⟨p + 2, 1⟩ = m.get8 (p + 2) := ntohs_high (get8_lt m _)
  have first : Access.load m ⟨p, 1⟩ = m.get8 p := ntohs_high (get8_lt m _)
  match len, short with
  | 0, _ => rfl
  | 1, _ =>
    show Access.load m ⟨p, 1⟩ + 0 = m.get8 p
    rw [first, Nat.add_zero]
  | 2, _ => rfl
  | 3, _ =>
    show m.le16 p + (Access.load m ⟨p + 2, 1⟩ + 0) = m.le16 p + m.get8 (p + 2)
    rw [last, Nat.add_zero]

theorem halfwordSum_short_lt (short : len < 4) : halfwordSum m p len < 2 ^ 17 := by
  have low := le16_lt m p
  have first := get8_lt m p
  have last := get8_lt m (p + 2)
  match len, short with
  | 0, _ => simp only [halfwordSum]; omega
  | 1, _ => simp only [halfwordSum]; omega
  | 2, _ => simp only [halfwordSum]; omega
  | 3, _ => simp only [halfwordSum]; omega

theorem loadSum_lt (m : Mem) (p len : Nat) : loadSum m p len < (len / 4 + 1) * 2 ^ 32 := by
  induction len using Nat.strongRecOn generalizing p with
  | ind len ih =>
    rcases Nat.lt_or_ge len 4 with short | long
    · have small : halfwordSum m p len < 2 ^ 17 := halfwordSum_short_lt short
      rw [loadSum_short short]
      omega
    · obtain ⟨rest, rfl⟩ : ∃ rest, len = rest + 4 := ⟨len - 4, by omega⟩
      have word := le32_lt m p
      have inner := ih rest (by omega) (p + 4)
      rw [loadSum_four]
      omega

theorem ipChecksumPartial_eq (room : sum + (len / 4 + 1) * 2 ^ 32 ≤ 2 ^ 64) :
    ipChecksumPartial m p len sum = sum + loadSum m p len := by
  induction len using Nat.strongRecOn generalizing p sum with
  | ind len ih =>
    rcases Nat.lt_or_ge len 4 with short | long
    · rw [ipChecksumPartial_short short, ipChecksumTail_eq (by omega) short, loadSum_short short]
    · obtain ⟨rest, rfl⟩ : ∃ rest, len = rest + 4 := ⟨len - 4, by omega⟩
      have word := le32_lt m p
      have next : ipChecksumPartial m p (rest + 4) sum = ipChecksumPartial m (p + 4) rest (sum + m.le32 p) := by
        rw [ipChecksumPartial, Nat.mod_eq_of_lt (by omega)]
      rw [next, ih rest (by omega) (by omega), loadSum_four, Nat.add_assoc]

theorem loadSum_halfwords (m : Mem) (p len : Nat) :
    loadSum m p len ≡ halfwordSum m p len [MOD 0xffff] ∧ (loadSum m p len = 0 ↔ halfwordSum m p len = 0) := by
  induction len using Nat.strongRecOn generalizing p with
  | ind len ih =>
    rcases Nat.lt_or_ge len 4 with short | long
    · rw [loadSum_short short]
      exact ⟨Nat.ModEq.refl _, Iff.rfl⟩
    · obtain ⟨rest, rfl⟩ : ∃ rest, len = rest + 4 := ⟨len - 4, by omega⟩
      obtain ⟨same, zero⟩ := ih rest (by omega) (p + 4)
      have halves : m.le32 p = m.le16 p + m.le16 (p + 2) * 65536 := rfl
      have total : halfwordSum m p (rest + 4) = m.le16 p + m.le16 (p + 2) + halfwordSum m (p + 4) rest := by
        rw [Nat.add_assoc]
        rfl
      have carry : m.le16 (p + 2) * 65536 ≡ m.le16 (p + 2) * 1 [MOD 0xffff] := Nat.ModEq.mul_left _ (by decide)
      rw [Nat.mul_one] at carry
      rw [loadSum_four, total, halves]
      exact ⟨(carry.add_left _).add same, by omega⟩

theorem ipChecksumPartial_modEq (room : sum + (len / 4 + 1) * 2 ^ 32 ≤ 2 ^ 64) :
    ipChecksumPartial m p len sum ≡ sum + halfwordSum m p len [MOD 0xffff] ∧
      (ipChecksumPartial m p len sum = 0 ↔ sum + halfwordSum m p len = 0) := by
  obtain ⟨same, zero⟩ := loadSum_halfwords m p len
  rw [ipChecksumPartial_eq room]
  exact ⟨same.add_left _, by omega⟩

theorem halfwordSum_putLe16 {k v : Nat} (inside : 2 * k + 2 ≤ len) (low : v < 65536) (zero : m.le16 (p + 2 * k) = 0) :
    halfwordSum (m.putLe16 (p + 2 * k) v) p len = halfwordSum m p len + v := by
  induction k generalizing p len with
  | zero =>
    obtain ⟨rest, rfl⟩ : ∃ rest, len = rest + 2 := ⟨len - 2, by omega⟩
    have behind (q : Nat) (apart : p + 2 ≤ q) : halfwordSum (m.putLe16 p v) q rest = halfwordSum m q rest :=
      halfwordSum_congr fun j lower _ => get8_putLe16_ne m v (by omega)
    rw [Nat.mul_zero, Nat.add_zero] at zero ⊢
    rw [halfwordSum, halfwordSum, le16_putLe16_self m p low, behind _ (Nat.le_refl _), zero]
    omega
  | succ k ih =>
    obtain ⟨rest, rfl⟩ : ∃ rest, len = rest + 2 := ⟨len - 2, by omega⟩
    have field : p + 2 * (k + 1) = p + 2 + 2 * k := by omega
    rw [field] at zero ⊢
    rw [halfwordSum, halfwordSum, le16_putLe16_ne _ _ (by omega), ih (by omega) zero]
    omega

theorem fillCheck_verifies {k : Nat} {check : Mem → Nat} (inside : 2 * k + 2 ≤ len)
    (room : sum + (len / 4 + 1) * 2 ^ 32 ≤ 2 ^ 64)
    (filled : check (m.putLe16 (p + 2 * k) 0) = ipChecksumFold (ipChecksumPartial (m.putLe16 (p + 2 * k) 0) p len sum)) :
    ipChecksumFold (ipChecksumPartial (fillCheck m (p + 2 * k) check) p len sum) = 0 := by
  let cleared := m.putLe16 (p + 2 * k) 0
  have stored : fillCheck m (p + 2 * k) check =
      cleared.putLe16 (p + 2 * k) (ipChecksumFold (ipChecksumPartial cleared p len sum)) := by
    rw [fillCheck, filled]
  have low := ipChecksumFold_lt (ipChecksumPartial cleared p len sum)
  have zero : cleared.le16 (p + 2 * k) = 0 := le16_putLe16_self m _ (by decide)
  obtain ⟨after, afterZero⟩ := ipChecksumPartial_modEq (m := fillCheck m (p + 2 * k) check) (p := p) room
  obtain ⟨before, beforeZero⟩ := ipChecksumPartial_modEq (m := cleared) (p := p) room
  rw [stored, halfwordSum_putLe16 inside low zero, ← Nat.add_assoc, ← stored] at after afterZero
  apply ipChecksumFold_eq_zero
  · -- a sum of zero has the checksum 0xffff, which is then part of the sum
    apply Nat.pos_of_ne_zero
    intro none
    have both := afterZero.mp none
    have nothing : ipChecksumPartial cleared p len sum = 0 := beforeZero.mpr (by omega)
    rw [nothing, ipChecksumFold_zero] at both
    omega
  · exact after.trans ((before.symm.add_right _).trans (ipChecksumFold_modEq _))

end Sums

section PseudoHeader

variable {m m' : Mem} {ip protocol len : Nat}

theorem tcpUdpV4HeaderChecksumPartial_congr (same : ∀ j, ip + 12 ≤ j → j < ip + 20 → m'.get8 j = m.get8 j) :
    tcpUdpV4HeaderChecksumPartial m' ip protocol len = tcpUdpV4HeaderChecksumPartial m ip protocol len := by
  have addresses : m'.bytes (ip + 12) 8 = m.bytes (ip + 12) 8 :=
    bytes_of_get8 fun j lower upper => same j lower (by omega)
  simp only [tcpUdpV4HeaderChecksumPartial, addresses]

theorem tcpUdpV4HeaderChecksumPartial_bounds (protocolPos : 0 < protocol) (byte : protocol < 256) :
    0 < tcpUdpV4HeaderChecksumPartial m ip protocol len ∧ tcpUdpV4HeaderChecksumPartial m ip protocol len < 3 * 2 ^ 32 := by
  let pseudo := ((ofList (m.bytes (ip + 12) 8)).put8 9 protocol).putBe16 10 len
  have words : tcpUdpV4HeaderChecksumPartial m ip protocol len = pseudo.le32 0 + pseudo.le32 4 + pseudo.le32 8 := by
    have w0 := le32_lt pseudo 0
    have w1 := le32_lt pseudo 4
    have w2 := le32_lt pseudo 8
    show ipChecksumPartial pseudo 0 12 0 = _
    simp only [ipChecksumPartial, Nat.zero_add, Nat.reduceAdd, ipChecksumTail]
    simp only [Nat.not_le, Nat.zero_lt_succ, if_neg, Nat.lt_irrefl, if_false]
    omega
  have third : pseudo.le32 8 = pseudo.get8 8 + pseudo.get8 9 * 256 + pseudo.le16 10 * 65536 := rfl
  have stored : pseudo.get8 9 = protocol := by
    rw [get8_putBe16_ne _ _ (by omega), get8_put8_self]
    exact Nat.mod_eq_of_lt byte
  have w0 := le32_lt pseudo 0
  have w1 := le32_lt pseudo 4
  have w2 := le32_lt pseudo 8
  rw [words]
  omega

end PseudoHeader

theorem tcpUdpV4_fillCheck_verifies {m : Mem} {ip protocol l4 k len : Nat} (behind : ip + 20 ≤ l4 + 2 * k)
    (inside : 2 * k + 2 ≤ len) (short : len < 2 ^ 16) (protocolPos : 0 < protocol) (byte : protocol < 256) :
    tcpUdpV4Checksum (fillCheck m (l4 + 2 * k) fun m => tcpUdpV4Checksum m ip protocol l4 len) ip protocol l4 len = 0 := by
  have addresses (m' : Mem) (apart : ∀ j, j < l4 + 2 * k → m'.get8 j = m.get8 j) :
      tcpUdpV4HeaderChecksumPartial m' ip protocol len = tcpUdpV4HeaderChecksumPartial m ip protocol len :=
    tcpUdpV4HeaderChecksumPartial_congr fun j _ upper => apart j (by omega)
  have bound : tcpUdpV4HeaderChecksumPartial m ip protocol len < 3 * 2 ^ 32 :=
    (tcpUdpV4HeaderChecksumPartial_bounds protocolPos byte).2
  unfold tcpUdpV4Checksum
  rw [addresses _ fun j below => get8_fillCheck_ne m _ (.inl below)]
  apply fillCheck_verifies inside (by omega)
  rw [addresses _ fun j below => get8_putLe16_ne m _ (.inl below)]

end TcpFuzz
