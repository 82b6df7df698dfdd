import TcpFuzz.Packet.Parser

/-! Which bytes are a chain of headers that ends in a transport header, said without the parser. -/

namespace TcpFuzz
open Bytes

/-- Where a header lies and how many bytes it and its contents claim. -/
structure Extent where
  type : HeaderType
  start : Nat
  headerBytes : Nat
  totalBytes : Nat
deriving DecidableEq, Repr

namespace Extent

def header (e : Extent) : Header := ⟨e.type, e.headerBytes, e.totalBytes, some e.start⟩

def inner (e : Extent) : Nat := e.start + e.headerBytes

def stop (e : Extent) : Nat := e.start + e.totalBytes

end Extent

/-- What the bytes at an offset are expected to be. -/
inductive Expect where
  | ipv4
  | ipv6
  | mpls
  | layer3
  | etherType (proto : Nat)
  | layer4 (proto bytes : Nat)
deriving DecidableEq, Repr

/-- A label stack whose entry `n`, counted from zero, is its bottom. -/
def LabelStack (m : Mem) (p n : Nat) : Prop :=
  (∀ k < n, ¬mplsEntryStack m (p + 4 * k)) ∧ mplsEntryStack m (p + 4 * n)

/-- The fields that make an IPv4 header acceptable in a packet that ends at `stop`. -/
structure Ipv4Header (m : Mem) (stop p : Nat) : Prop where
  long : 20 ≤ ipv4HeaderLen m p
  contained : ipv4HeaderLen m p ≤ ipv4TotLen m p
  fits : p + ipv4TotLen m p ≤ stop
  whole : ipv4FragOff m p % 0x4000 = 0

structure Ipv6Header (m : Mem) (stop p : Nat) : Prop where
  fits : p + 40 + ipv6PayloadLen m p ≤ stop

structure TcpHeader (m : Mem) (bytes p : Nat) : Prop where
  long : 5 ≤ tcpDoff m p
  contained : tcpDoff m p * 4 ≤ bytes

structure UdpHeader (m : Mem) (bytes p : Nat) : Prop where
  long : 8 ≤ bytes
  agrees : udpLen m p = bytes

structure GreHeader (m : Mem) (bytes p : Nat) : Prop where
  version : greVersion m p = 0
  direct : ¬greHasRouting m p
  contained : greFlagsLen m p ≤ bytes

/-- The extents of the headers from an offset on, in a packet that ends at `stop`. -/
inductive Wire (m : Mem) (stop : Nat) : Expect → Nat → List Extent → Prop where
  | ipv4 {p es} (header : Ipv4Header m stop p)
      (next : Wire m stop (.layer4 (ipv4Protocol m p) (ipv4TotLen m p - ipv4HeaderLen m p))
        (p + ipv4HeaderLen m p) es) :
      Wire m stop .ipv4 p (⟨.ipv4, p, ipv4HeaderLen m p, ipv4TotLen m p⟩ :: es)
  | ipv6 {p es} (header : Ipv6Header m stop p)
      (next : Wire m stop (.layer4 (ipv6NextHeader m p) (ipv6PayloadLen m p)) (p + 40) es) :
      Wire m stop .ipv6 p (⟨.ipv6, p, 40, 40 + ipv6PayloadLen m p⟩ :: es)
  | mpls {p n es} (stack : LabelStack m p n)
      (next : Wire m stop .layer3 (p + 4 * (n + 1)) es) :
      Wire m stop .mpls p (⟨.mpls, p, 4 * (n + 1), stop - p⟩ :: es)
  | layer3Ipv4 {p es} (fits : p + 20 ≤ stop) (version : ipVersion m p = 4)
      (next : Wire m stop .ipv4 p es) : Wire m stop .layer3 p es
  | layer3Ipv6 {p es} (version : ipVersion m p = 6)
      (next : Wire m stop .ipv6 p es) : Wire m stop .layer3 p es
  | etherIpv4 {p es} (fits : p + 20 ≤ stop) (version : ipVersion m p = 4)
      (next : Wire m stop .ipv4 p es) : Wire m stop (.etherType 0x0800) p es
  | etherIpv6 {p es} (version : ipVersion m p = 6)
      (next : Wire m stop .ipv6 p es) : Wire m stop (.etherType 0x86dd) p es
  | etherMpls {p proto es} (mplsProto : proto = 0x8847 ∨ proto = 0x8848)
      (next : Wire m stop .mpls p es) : Wire m stop (.etherType proto) p es
  | tcp {p bytes} (header : TcpHeader m bytes p) :
      Wire m stop (.layer4 6 bytes) p [⟨.tcp, p, tcpDoff m p * 4, bytes⟩]
  | udp {p bytes} (header : UdpHeader m bytes p) :
      Wire m stop (.layer4 17 bytes) p [⟨.udp, p, 8, bytes⟩]
  | icmpv4 {p bytes} (long : 8 ≤ bytes) : Wire m stop (.layer4 1 bytes) p [⟨.icmpv4, p, 8, bytes⟩]
  | icmpv6 {p bytes} (long : 8 ≤ bytes) : Wire m stop (.layer4 58 bytes) p [⟨.icmpv6, p, 8, bytes⟩]
  | gre {p bytes es} (header : GreHeader m bytes p)
      (next : Wire m stop (.etherType (greProto m p)) (p + greFlagsLen m p) es) :
      Wire m stop (.layer4 47 bytes) p (⟨.gre, p, greFlagsLen m p, bytes⟩ :: es)
  | ipip {p bytes es} (next : Wire m stop .ipv4 p es) : Wire m stop (.layer4 4 bytes) p es
  | ip6 {p bytes es} (next : Wire m stop .ipv6 p es) : Wire m stop (.layer4 41 bytes) p es

def PacketLayer.expect (m : Mem) : PacketLayer → Expect
  | .layer2Ethernet => .etherType (m.be16 12)
  | .layer3Ip => .layer3

def PacketLayer.headerBytes : PacketLayer → Nat
  | .layer2Ethernet => 14
  | .layer3Ip => 0

def WirePacket (m : Mem) (stop : Nat) (layer : PacketLayer) (es : List Extent) : Prop :=
  layer.headerBytes ≤ stop ∧ Wire m stop (layer.expect m) layer.headerBytes es

theorem Wire.ne_nil {m : Mem} {stop p : Nat} {x : Expect} {es : List Extent}
    (wire : Wire m stop x p es) : es ≠ [] := by
  induction wire <;> simp_all

theorem LabelStack.move {m m' : Mem} {p p' n : Nat} (stack : LabelStack m p n)
    (same : ∀ j < 4 * (n + 1), m'.get8 (p' + j) = m.get8 (p + j)) : LabelStack m' p' n := by
  have entry (k : Nat) (inside : k ≤ n) : mplsEntryStack m' (p' + 4 * k) ↔ mplsEntryStack m (p + 4 * k) := by
    simp (disch := omega) only [mplsEntryStack, Mem.be32, Mem.be16, Nat.add_assoc, same]
  refine ⟨fun k below => ?_, (entry n (Nat.le_refl n)).mpr stack.2⟩
  rw [entry k (by omega)]
  exact stack.1 k below

theorem Wire.congr {m m' : Mem} {stop p : Nat} {x : Expect} {es : List Extent} (wire : Wire m stop x p es)
    (same : ∀ j, p ≤ j → m'.get8 j = m.get8 j) : Wire m' stop x p es := by
  induction wire with
  | @ipv4 p es header next ih =>
    have headerLen : ipv4HeaderLen m' p = ipv4HeaderLen m p := by rw [ipv4HeaderLen, same _ (by omega), ipv4HeaderLen]
    have totLen : ipv4TotLen m' p = ipv4TotLen m p := Mem.be16_of_get8 (same _ (by omega)) (same _ (by omega))
    have fragOff : ipv4FragOff m' p = ipv4FragOff m p := Mem.be16_of_get8 (same _ (by omega)) (same _ (by omega))
    have protocol : ipv4Protocol m' p = ipv4Protocol m p := same _ (by omega)
    obtain ⟨long, contained, fits, whole⟩ := header
    have inner := ih fun j behind => same j (by omega)
    rw [← headerLen, ← totLen, ← protocol] at inner
    rw [← headerLen, ← totLen]
    exact .ipv4 ⟨by omega, by omega, by omega, by omega⟩ inner
  | @ipv6 p es header next ih =>
    have payloadLen : ipv6PayloadLen m' p = ipv6PayloadLen m p :=
      Mem.be16_of_get8 (same _ (by omega)) (same _ (by omega))
    have nextHeader : ipv6NextHeader m' p = ipv6NextHeader m p := same _ (by omega)
    have fits := header.fits
    have inner := ih fun j behind => same j (by omega)
    rw [← payloadLen, ← nextHeader] at inner
    rw [← payloadLen]
    exact .ipv6 ⟨by omega⟩ inner
  | mpls stack next ih =>
    exact .mpls (stack.move fun j _ => same _ (by omega)) (ih fun j behind => same j (by omega))
  | layer3Ipv4 fits version next ih => exact .layer3Ipv4 fits (by rwa [ipVersion, same _ (Nat.le_refl _)]) (ih same)
  | layer3Ipv6 version next ih => exact .layer3Ipv6 (by rwa [ipVersion, same _ (Nat.le_refl _)]) (ih same)
  | etherIpv4 fits version next ih => exact .etherIpv4 fits (by rwa [ipVersion, same _ (Nat.le_refl _)]) (ih same)
  | etherIpv6 version next ih => exact .etherIpv6 (by rwa [ipVersion, same _ (Nat.le_refl _)]) (ih same)
  | etherMpls mplsProto next ih => exact .etherMpls mplsProto (ih same)
  | @tcp p bytes header =>
    have doff : tcpDoff m' p = tcpDoff m p := by rw [tcpDoff, same _ (by omega), tcpDoff]
    rw [← doff]
    exact .tcp ⟨doff ▸ header.long, doff ▸ header.contained⟩
  | @udp p bytes header =>
    have length : udpLen m' p = udpLen m p := Mem.be16_of_get8 (same _ (by omega)) (same _ (by omega))
    exact .udp ⟨header.long, length.trans header.agrees⟩
  | icmpv4 long => exact .icmpv4 long
  | icmpv6 long => exact .icmpv6 long
  | @gre p bytes es header next ih =>
    have flags : m'.get8 p = m.get8 p := same _ (Nat.le_refl _)
    have length := greFlagsLen_congr flags
    have version : greVersion m' p = greVersion m p := by rw [greVersion, same _ (by omega), greVersion]
    have routing := greHasRouting_congr flags
    have proto : greProto m' p = greProto m p := Mem.be16_of_get8 (same _ (by omega)) (same _ (by omega))
    have inner := ih fun j behind => same j (by have := greFlagsLen_ge m p; omega)
    rw [← proto, ← length] at inner
    rw [← length]
    exact .gre ⟨version.trans header.version, routing.not.mpr header.direct, length ▸ header.contained⟩ inner
  | ipip next ih => exact .ipip (ih same)
  | ip6 next ih => exact .ip6 (ih same)

theorem mplsStackEnd_bounds {m : Mem} {stop p inner : Nat} (found : mplsStackEnd m stop p = some inner) :
    p + 4 ≤ inner ∧ inner ≤ stop := by
  fun_induction mplsStackEnd m stop p with
  | case1 => cases found
  | case2 p fits more ih => have := ih found; omega
  | case3 p fits last => cases found; omega

theorem mplsStackEnd_stack {m : Mem} {stop p inner : Nat} (found : mplsStackEnd m stop p = some inner)
    (room : inner < stop) : ∃ n, inner = p + 4 * (n + 1) ∧ LabelStack m p n := by
  fun_induction mplsStackEnd m stop p with
  | case1 => cases found
  | case2 p fits more ih =>
    obtain ⟨n, rfl, above, bottom⟩ := ih found
    refine ⟨n + 1, by omega, fun k below => ?_, by rwa [show p + 4 * (n + 1) = p + 4 + 4 * n by omega]⟩
    cases k with
    | zero => exact more.1
    | succ k => rw [show p + 4 * (k + 1) = p + 4 + 4 * k by omega]; exact above k (by omega)
  | case3 p fits last =>
    cases found
    refine ⟨0, by omega, by simp, ?_⟩
    by_contra middle
    exact last ⟨middle, room⟩

theorem LabelStack.stackEnd {m : Mem} {stop p n : Nat} (stack : LabelStack m p n)
    (fits : p + 4 * (n + 1) ≤ stop) : mplsStackEnd m stop p = some (p + 4 * (n + 1)) := by
  induction n generalizing p with
  | zero =>
    have bottom : mplsEntryStack m p := stack.2
    rw [mplsStackEnd, if_neg (by omega), if_neg (by simp [bottom])]
  | succ n ih =>
    have middle : ¬mplsEntryStack m p := stack.1 0 (by omega)
    have rest : LabelStack m (p + 4) n := by
      refine ⟨fun k below => ?_, ?_⟩
      · rw [show p + 4 + 4 * k = p + 4 * (k + 1) by omega]
        exact stack.1 (k + 1) (by omega)
      · rw [show p + 4 + 4 * n = p + 4 * (n + 1) by omega]
        exact stack.2
    rw [mplsStackEnd, if_neg (by omega), if_pos ⟨middle, by omega⟩, ih rest (by omega)]
    congr 1
    omega

end TcpFuzz
