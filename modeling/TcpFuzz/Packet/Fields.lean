import TcpFuzz.Packet.Header

/-! The bit-field layouts of `ip.h`, `ipv6.h`, `tcp.h`, `udp.h`, `gre.h` and `mpls.h` on a little-endian host. -/

namespace TcpFuzz
open Bytes

/-- The version nibble, at the same place in IPv4 and IPv6 headers. -/
def ipVersion (m : Mem) (ip : Nat) : Nat := m.get8 ip / 16

def ipv4HeaderLen (m : Mem) (ip : Nat) : Nat := m.get8 ip % 16 * 4
def ipv4TotLen (m : Mem) (ip : Nat) : Nat := m.be16 (ip + 2)
def ipv4FragOff (m : Mem) (ip : Nat) : Nat := m.be16 (ip + 6)
def ipv4Protocol (m : Mem) (ip : Nat) : Nat := m.get8 (ip + 9)

def ipv6PayloadLen (m : Mem) (ip : Nat) : Nat := m.be16 (ip + 4)
def ipv6NextHeader (m : Mem) (ip : Nat) : Nat := m.get8 (ip + 6)

def tcpDoff (m : Mem) (tcp : Nat) : Nat := m.get8 (tcp + 12) / 16

def udpLen (m : Mem) (udp : Nat) : Nat := m.be16 (udp + 4)

def greHasChecksum (m : Mem) (gre : Nat) : Prop := m.get8 gre / 128 % 2 = 1
def greHasRouting (m : Mem) (gre : Nat) : Prop := m.get8 gre / 64 % 2 = 1
def greHasKey (m : Mem) (gre : Nat) : Prop := m.get8 gre / 32 % 2 = 1
def greHasSeq (m : Mem) (gre : Nat) : Prop := m.get8 gre / 16 % 2 = 1
def greVersion (m : Mem) (gre : Nat) : Nat := m.get8 (gre + 1) % 8
def greProto (m : Mem) (gre : Nat) : Nat := m.be16 (gre + 2)

instance (m : Mem) (gre : Nat) : Decidable (greHasChecksum m gre) := inferInstanceAs (Decidable (_ = _))
instance (m : Mem) (gre : Nat) : Decidable (greHasRouting m gre) := inferInstanceAs (Decidable (_ = _))
instance (m : Mem) (gre : Nat) : Decidable (greHasKey m gre) := inferInstanceAs (Decidable (_ = _))
instance (m : Mem) (gre : Nat) : Decidable (greHasSeq m gre) := inferInstanceAs (Decidable (_ = _))

def mplsEntryStack (m : Mem) (entry : Nat) : Prop := m.be32 entry / 256 % 2 = 1

instance (m : Mem) (entry : Nat) : Decidable (mplsEntryStack m entry) :=
  inferInstanceAs (Decidable (_ = _))

def greFlagsLen (m : Mem) (gre : Nat) : Nat :=
  4 + (if greHasChecksum m gre ∨ greHasRouting m gre then 4 else 0)
    + (if greHasKey m gre then 4 else 0) + (if greHasSeq m gre then 4 else 0)

def greLen (m : Mem) (gre : Nat) : Run Nat := do
  assertThat (greVersion m gre = 0)
  assertThat (¬greHasRouting m gre)
  return greFlagsLen m gre

theorem greLen_ok {m : Mem} {gre : Nat} (version : greVersion m gre = 0)
    (direct : ¬greHasRouting m gre) : greLen m gre = .ok (greFlagsLen m gre) := by
  simp only [greLen, assertThat_ok version, assertThat_ok direct, ok_bind, run_pure]

theorem greFlagsLen_ge (m : Mem) (gre : Nat) : 4 ≤ greFlagsLen m gre := by
  unfold greFlagsLen
  omega

theorem greFlagsLen_le (m : Mem) (gre : Nat) : greFlagsLen m gre ≤ 16 := by
  unfold greFlagsLen
  split <;> split <;> split <;> omega

theorem greHasRouting_congr {m m' : Mem} {gre gre' : Nat} (flags : m'.get8 gre' = m.get8 gre) :
    greHasRouting m' gre' ↔ greHasRouting m gre := by
  rw [greHasRouting, flags, greHasRouting]

theorem greFlagsLen_congr {m m' : Mem} {gre gre' : Nat} (flags : m'.get8 gre' = m.get8 gre) :
    greFlagsLen m' gre' = greFlagsLen m gre := by
  have checksum : greHasChecksum m' gre' ↔ greHasChecksum m gre := by rw [greHasChecksum, flags, greHasChecksum]
  have key : greHasKey m' gre' ↔ greHasKey m gre := by rw [greHasKey, flags, greHasKey]
  have seq : greHasSeq m' gre' ↔ greHasSeq m gre := by rw [greHasSeq, flags, greHasSeq]
  unfold greFlagsLen
  rw [if_congr (or_congr checksum (greHasRouting_congr flags)) rfl rfl, if_congr key rfl rfl, if_congr seq rfl rfl]

def requirePtr (ptr : Option Nat) : Run Nat :=
  match ptr with
  | some offset => .ok offset
  | none => .error .assertion

def packetStart (p : Packet) : Run Nat := requirePtr (p.headers.get ⟨0, by decide⟩).ptr

def ipStart (p : Packet) : Run Nat :=
  match p.ipv4, p.ipv6 with
  | some ip, _ => .ok ip
  | none, some ip => .ok ip
  | none, none => .error .assertion

def packetTcpHeaderLen (p : Packet) : Run Nat := do
  let tcp ← requirePtr p.tcp
  return tcpDoff p.buffer tcp * 4

def packetTcpOptionsLen (p : Packet) : Run Int := do
  return (← packetTcpHeaderLen p) - 20

def packetPayload (p : Packet) : Run Nat :=
  match p.tcp, p.udp, p.icmpv4, p.icmpv6 with
  | some tcp, _, _, _ => .ok (tcp + tcpDoff p.buffer tcp * 4)
  | none, some udp, _, _ => .ok (udp + 8)
  | none, none, some icmp, _ => .ok (icmp + 8)
  | none, none, none, some icmp => .ok (icmp + 8)
  | none, none, none, none => .error .assertion

def packetEnd (p : Packet) : Run Nat := do
  let start ← packetStart p
  return start + p.ipBytes

def packetPayloadLen (p : Packet) : Run Int := do
  let stop ← packetEnd p
  let payload ← packetPayload p
  return (stop : Int) - payload

def packetPayloadBytes (p : Packet) : Run (List UInt8) := do
  let start ← packetPayload p
  let len ← packetPayloadLen p
  return p.buffer.bytes start len.toNat

theorem Layout.packetStart {p : Packet} {h : Header} {hs : List Header} (layout : Layout p (h :: hs)) :
    packetStart p = requirePtr h.ptr := by
  have first : p.headers.get ⟨0, by decide⟩ = h := by
    have found : p.headers[0]? = some h := by
      have head : p.headers.toList[0]? = some h := by rw [layout.table]; rfl
      simpa using head
    exact (Vector.getElem?_eq_some_iff.mp found).2
  rw [TcpFuzz.packetStart, first]

end TcpFuzz
