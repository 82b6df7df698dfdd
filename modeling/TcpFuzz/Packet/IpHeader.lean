import TcpFuzz.Packet.Build
import TcpFuzz.Packet.Wire

/-! What `set_ip_header` stores, and what the wire format makes of an IP header whose fields are known. -/

namespace TcpFuzz
open Bytes Mem

def AddressFamily.headerType : AddressFamily → HeaderType
  | .inet => .ipv4
  | .inet6 => .ipv6

/-- An IP header without options that claims `total` bytes and announces the protocol `proto`. -/
def IpHeaderAt (m : Mem) (ip : Nat) (family : AddressFamily) (total proto : Nat) : Prop :=
  match family with
  | .inet => ipVersion m ip = 4 ∧ ipv4HeaderLen m ip = 20 ∧ ipv4TotLen m ip = total ∧
      ipv4FragOff m ip = 0 ∧ ipv4Protocol m ip = proto
  | .inet6 => ipVersion m ip = 6 ∧ 40 + ipv6PayloadLen m ip = total ∧ ipv6NextHeader m ip = proto

def tosField (m : Mem) (ip : Nat) : AddressFamily → Nat
  | .inet => m.get8 (ip + 1)
  | .inet6 => m.get8 ip % 16 * 16 + m.get8 (ip + 1) / 16

def ttlField (m : Mem) (ip : Nat) : AddressFamily → Nat
  | .inet => m.get8 (ip + 8)
  | .inet6 => m.get8 (ip + 7)

def flowLabelField (m : Mem) (ip : Nat) : Nat := m.get8 (ip + 1) % 16 * 65536 + m.be16 (ip + 2)

def ipHeaderMem (m : Mem) (ip : Nat) (family : AddressFamily) (ipBytes tos flowLabel ttl protocol : Nat) : Mem :=
  match family with
  | .inet => setIpv4Header m ip (u16 ipBytes) tos ttl protocol
  | .inet6 =>
    let m := m.put8 ip (6 * 16 + tos / 16)
    let m := m.put8 (ip + 1) (tos % 16 * 16 + flowLabel / 65536 % 16)
    let m := m.putBe16 (ip + 2) (flowLabel % 65536)
    let m := m.putBe16 (ip + 4) (u16 ipBytes - 40)
    let m := m.put8 (ip + 6) protocol
    let m := m.put8 (ip + 7) (if ttl ≠ 0 then ttl else ttlCheckNone)
    let m := m.zero (ip + 8) 16
    m.zero (ip + 24) 16

def FitsIpHeader (family : AddressFamily) (ipBytes : Nat) : Prop := family = .inet6 → 40 ≤ u16 ipBytes

theorem setIpHeader_eq (m : Mem) (ip : Nat) {family : AddressFamily} {ipBytes : Nat}
    (fits : FitsIpHeader family ipBytes) (tos flowLabel ttl protocol : Nat) :
    setIpHeader m ip family ipBytes tos flowLabel ttl protocol =
      .ok (ipHeaderMem m ip family ipBytes tos flowLabel ttl protocol) := by
  cases family with
  | inet => rfl
  | inet6 => simp only [setIpHeader, setIpv6Header, assertThat_ok (fits rfl), ok_bind, run_pure, ipHeaderMem]

theorem setIpHeader_fails (m : Mem) (ip : Nat) {family : AddressFamily} {ipBytes : Nat}
    (overflow : ¬FitsIpHeader family ipBytes) (tos flowLabel ttl protocol : Nat) :
    setIpHeader m ip family ipBytes tos flowLabel ttl protocol = .error .assertion := by
  cases family with
  | inet => exact (overflow (by simp [FitsIpHeader])).elim
  | inet6 =>
    have short : ¬40 ≤ u16 ipBytes := fun long => overflow fun _ => long
    simp [setIpHeader, setIpv6Header, assertThat, short]

section Fields

variable (m : Mem) (ip : Nat) (family : AddressFamily) (ipBytes tos flowLabel ttl protocol : Nat)

theorem ipHeaderMem_frame {j : Nat} (apart : j < ip ∨ ip + ipHeaderMinLen family ≤ j) :
    (ipHeaderMem m ip family ipBytes tos flowLabel ttl protocol).get8 j = m.get8 j := by
  cases family <;> simp only [ipHeaderMinLen] at apart <;>
    simp (disch := omega) only [ipHeaderMem, setIpv4Header, get8_put8_ne, get8_putBe16_ne, get8_putBe32_ne,
      get8_zero_ne]

theorem ipHeaderMem_at (fits : FitsIpHeader family ipBytes) (byte : protocol < 256) (small : tos < 256) :
    IpHeaderAt (ipHeaderMem m ip family ipBytes tos flowLabel ttl protocol) ip family (u16 ipBytes) protocol := by
  have bound : u16 ipBytes < 65536 := Nat.mod_lt _ (by decide)
  cases family with
  | inet =>
    refine ⟨?_, ?_, ?_, ?_, ?_⟩ <;>
      simp (disch := omega) only [ipVersion, ipv4HeaderLen, ipv4TotLen, ipv4FragOff, ipv4Protocol, ipHeaderMem,
        setIpv4Header, get8_put8_ne, get8_putBe16_ne, get8_putBe32_ne, be16_put8_ne, be16_putBe16_ne,
        be16_putBe32_ne, get8_put8_self, be16_putBe16_self] <;> omega
  | inet6 =>
    have long := fits rfl
    refine ⟨?_, ?_, ?_⟩ <;>
      simp (disch := omega) only [ipVersion, ipv6PayloadLen, ipv6NextHeader, ipHeaderMem, get8_put8_ne,
        get8_putBe16_ne, be16_put8_ne, get8_zero_ne, be16_zero_ne, get8_put8_self, be16_putBe16_self] <;> omega

theorem ipHeaderMem_tos (small : tos < 256) :
    tosField (ipHeaderMem m ip family ipBytes tos flowLabel ttl protocol) ip family = tos := by
  cases family <;>
    simp (disch := omega) only [tosField, ipHeaderMem, setIpv4Header, get8_put8_ne, get8_putBe16_ne,
      get8_putBe32_ne, get8_zero_ne, get8_put8_self] <;> omega

theorem ipHeaderMem_ttl (small : ttl < 256) :
    ttlField (ipHeaderMem m ip family ipBytes tos flowLabel ttl protocol) ip family =
      if ttl ≠ 0 then ttl else ttlCheckNone := by
  have byte : (if ttl ≠ 0 then ttl else ttlCheckNone) < 256 := by split <;> simp [ttlCheckNone, small]
  cases family <;>
    simp (disch := omega) only [ttlField, ipHeaderMem, setIpv4Header, get8_put8_ne, get8_putBe16_ne,
      get8_putBe32_ne, get8_zero_ne, get8_put8_self, Nat.mod_eq_of_lt byte]

theorem ipHeaderMem_flowLabel :
    flowLabelField (ipHeaderMem m ip .inet6 ipBytes tos flowLabel ttl protocol) ip = flowLabel % 0x100000 := by
  simp (disch := omega) only [flowLabelField, ipHeaderMem, get8_put8_ne, get8_putBe16_ne, be16_put8_ne,
    be16_putBe16_ne, get8_zero_ne, be16_zero_ne, get8_put8_self, be16_putBe16_self]
  omega

end Fields

theorem IpHeaderAt.congr {m m' : Mem} {ip total proto : Nat} {family : AddressFamily}
    (header : IpHeaderAt m ip family total proto)
    (same : ∀ j, ip ≤ j → j < ip + ipHeaderMinLen family → m'.get8 j = m.get8 j) :
    IpHeaderAt m' ip family total proto := by
  cases family with
  | inet =>
    simp only [IpHeaderAt, ipVersion, ipv4HeaderLen, ipv4TotLen, ipv4FragOff, ipv4Protocol, ipHeaderMinLen,
      be16] at *
    simpa (disch := omega) only [same] using header
  | inet6 =>
    simp only [IpHeaderAt, ipVersion, ipv6PayloadLen, ipv6NextHeader, ipHeaderMinLen, be16] at *
    simpa (disch := omega) only [same] using header

theorem wire_ipHeader_iff {m : Mem} {stop ip total proto : Nat} {family : AddressFamily}
    (header : IpHeaderAt m ip family total proto) {es : List Extent} :
    Wire m stop .layer3 ip es ↔ ipHeaderMinLen family ≤ total ∧ ip + total ≤ stop ∧
      ∃ rest, es = ⟨family.headerType, ip, ipHeaderMinLen family, total⟩ :: rest ∧
        Wire m stop (.layer4 proto (total - ipHeaderMinLen family)) (ip + ipHeaderMinLen family) rest := by
  cases family with
  | inet =>
    obtain ⟨version, length, rfl, whole, rfl⟩ := header
    simp only [ipHeaderMinLen, AddressFamily.headerType, ← length]
    constructor
    · intro wire
      cases wire with
      | layer3Ipv4 _ _ next =>
        cases next with
        | ipv4 header next => exact ⟨header.contained, header.fits, _, rfl, next⟩
      | layer3Ipv6 six => omega
    · rintro ⟨contained, fits, rest, rfl, next⟩
      exact .layer3Ipv4 (by omega) version (.ipv4 ⟨by omega, contained, fits, by omega⟩ next)
  | inet6 =>
    obtain ⟨version, rfl, rfl⟩ := header
    simp only [ipHeaderMinLen, AddressFamily.headerType, Nat.add_sub_cancel_left]
    constructor
    · intro wire
      cases wire with
      | layer3Ipv4 _ four => omega
      | layer3Ipv6 _ next =>
        cases next with
        | ipv6 header next => exact ⟨by omega, by have := header.fits; omega, _, rfl, next⟩
    · rintro ⟨_, fits, rest, rfl, next⟩
      exact .layer3Ipv6 version (.ipv6 ⟨by omega⟩ next)

end TcpFuzz
