import TcpFuzz.Live.Timestamps
import TcpFuzz.Packet.Placed

/-! `set_packet_tuple` stores where the header pointers say, and for an ICMP message where a quoted header would be,
whether or not the message quotes one. -/

namespace TcpFuzz
open Bytes Mem

def addressArea (ipv4 ipv6 : Option Nat) : Option (Nat × Nat) :=
  match ipv4, ipv6 with
  | some ip, _ => some (ip + 12, 4)
  | none, some ip => some (ip + 8, 16)
  | none, none => none

/-- A tuple stored as two addresses of `n` bytes from `a` on and, with a transport header, two ports. -/
def tupleMem (m : Mem) (a n : Nat) (l4 : Option Nat) (t : Tuple) : Mem :=
  let m := (m.write a (t.src.ip.toList.take n)).write (a + n) (t.dst.ip.toList.take n)
  match l4 with
  | some l4 => setPorts m l4 t
  | none => m

theorem setHeadersTuple_eq (m : Mem) {ipv4 ipv6 : Option Nat} (tcp udp : Option Nat) (t : Tuple) {a n : Nat}
    (area : addressArea ipv4 ipv6 = some (a, n)) :
    setHeadersTuple m ipv4 ipv6 tcp udp t = .ok (tupleMem m a n (tcp.or udp) t) := by
  have whole (ip : IpAddress) : ip.toList.take 16 = ip.toList := List.take_of_length_le (by simp)
  have ports (m : Mem) : (match tcp, udp with
      | some tcp, _ => return setPorts m tcp t
      | none, some udp => return setPorts m udp t
      | none, none => return m : Run Mem) = .ok (match tcp.or udp with | some l4 => setPorts m l4 t | none => m) := by
    cases tcp <;> cases udp <;> rfl
  cases ipv4 with
  | some ip =>
    cases area
    exact ports _
  | none =>
    cases ipv6 with
    | none => cases area
    | some ip =>
      cases area
      simp only [tupleMem, whole]
      exact ports _

def TupleStores (a n : Nat) (l4 : Option Nat) (j : Nat) : Prop :=
  a ≤ j ∧ j < a + 2 * n ∨ ∃ start, l4 = some start ∧ start ≤ j ∧ j < start + 4

/-- The tuple all of whose bytes are `v`: with it, every store can be seen. -/
def constantTuple (v : UInt8) : Tuple :=
  ⟨⟨Vector.replicate 16 v, UInt16.ofNat (v.toNat * 257)⟩, ⟨Vector.replicate 16 v, UInt16.ofNat (v.toNat * 257)⟩⟩

theorem write_apart (m : Mem) {i j : Nat} (bs : List UInt8) (apart : j < i ∨ i + bs.length ≤ j) :
    write m i bs j = m j := by
  rw [write, if_neg (by omega)]

theorem write_replicate (m : Mem) {i j n : Nat} (v : UInt8) (lower : i ≤ j) (upper : j < i + n) :
    write m i (List.replicate n v) j = v := by
  obtain ⟨k, rfl⟩ := Nat.exists_eq_add_of_le lower
  rw [write_inside _ _ (by rw [List.length_replicate]; omega), List.getElem_replicate]

theorem putBe16_apply (m : Mem) (i v j : Nat) :
    putBe16 m i v j = if j = i + 1 then UInt8.ofNat v else if j = i then UInt8.ofNat (v / 256) else m j := rfl

theorem setPorts_apart (m : Mem) {l4 j : Nat} (t : Tuple) (apart : j < l4 ∨ l4 + 4 ≤ j) : setPorts m l4 t j = m j := by
  simp only [setPorts, putBe16_apply]
  rw [if_neg (by omega), if_neg (by omega), if_neg (by omega), if_neg (by omega)]

theorem setPorts_constant (m : Mem) {l4 j : Nat} (v : UInt8) (lower : l4 ≤ j) (upper : j < l4 + 4) :
    setPorts m l4 (constantTuple v) j = v := by
  have small := v.toNat_lt
  have port : (UInt16.ofNat (v.toNat * 257)).toNat = v.toNat * 257 := by
    rw [UInt16.toNat_ofNat']
    omega
  have high : UInt8.ofNat (v.toNat * 257 / 256) = v := by
    rw [show v.toNat * 257 / 256 = v.toNat by omega]
    exact UInt8.ofNat_toNat
  have low : UInt8.ofNat (v.toNat * 257) = v := by
    apply UInt8.toNat_inj.mp
    rw [UInt8.toNat_ofNat']
    omega
  simp only [setPorts, constantTuple, putBe16_apply, port, high, low]
  rcases (by omega : j = l4 ∨ j = l4 + 1 ∨ j = l4 + 2 ∨ j = l4 + 3) with rfl | rfl | rfl | rfl <;> simp

section TupleMem

variable {m : Mem} {a n : Nat} {l4 : Option Nat} (short : n ≤ 16)

include short

theorem tupleMem_apart (t : Tuple) {j : Nat} (apart : ¬TupleStores a n l4 j) : tupleMem m a n l4 t j = m j := by
  unfold TupleStores at apart
  push Not at apart
  have addresses : ((m.write a (t.src.ip.toList.take n)).write (a + n) (t.dst.ip.toList.take n)) j = m j := by
    rw [write_apart _ _ (by simp; omega), write_apart _ _ (by simp; omega)]
  cases l4 with
  | none => exact addresses
  | some start =>
    rw [tupleMem, setPorts_apart _ _ (by have := apart.2 start rfl; omega), addresses]

theorem tupleMem_constant (v : UInt8) {j : Nat} (stored : TupleStores a n l4 j) :
    tupleMem m a n l4 (constantTuple v) j = v := by
  have bytes : (Vector.replicate 16 v).toList.take n = List.replicate n v := by
    rw [Vector.toList_replicate, List.take_replicate, Nat.min_eq_left short]
  have addresses (inside : a ≤ j ∧ j < a + 2 * n) :
      ((m.write a (List.replicate n v)).write (a + n) (List.replicate n v)) j = v := by
    by_cases second : a + n ≤ j
    · exact write_replicate _ v second (by omega)
    · rw [write_apart _ _ (by omega), write_replicate _ v (by omega) (by omega)]
  unfold tupleMem
  simp only [show (constantTuple v).src.ip = Vector.replicate 16 v from rfl,
    show (constantTuple v).dst.ip = Vector.replicate 16 v from rfl, bytes]
  cases l4 with
  | none =>
    rcases stored with inside | ⟨start, found, -⟩
    · exact addresses inside
    · cases found
  | some start =>
    by_cases port : start ≤ j ∧ j < start + 4
    · exact setPorts_constant _ v port.1 port.2
    · rcases stored with inside | ⟨_, ⟨rfl⟩, inside⟩
      · exact (setPorts_apart _ _ (by omega)).trans (addresses inside)
      · exact absurd inside port

theorem tupleMem_reads {start : Nat} (t : Tuple) (apart : a + 2 * n ≤ start) :
    (tupleMem m a n (some start) t).bytes a n = t.src.ip.toList.take n ∧
      (tupleMem m a n (some start) t).bytes (a + n) n = t.dst.ip.toList.take n ∧
      (tupleMem m a n (some start) t).be16 start = t.src.port.toNat ∧
      (tupleMem m a n (some start) t).be16 (start + 2) = t.dst.port.toNat := by
  have length (ip : IpAddress) : (ip.toList.take n).length = n := by simp [short]
  have srcPort := t.src.port.toNat_lt
  have dstPort := t.dst.port.toNat_lt
  refine ⟨?_, ?_, ?_, ?_⟩
  · have first := bytes_write_self m a (t.src.ip.toList.take n)
    rw [length] at first
    refine Eq.trans (bytes_of_get8 fun k lower upper => ?_) first
    rw [tupleMem, setPorts, get8_putBe16_ne _ _ (by omega), get8_putBe16_ne _ _ (by omega),
      get8_write_ne _ _ (by omega)]
  · have second := bytes_write_self (m.write a (t.src.ip.toList.take n)) (a + n) (t.dst.ip.toList.take n)
    rw [length] at second
    refine Eq.trans (bytes_of_get8 fun k lower upper => ?_) second
    rw [tupleMem, setPorts, get8_putBe16_ne _ _ (by omega), get8_putBe16_ne _ _ (by omega)]
  · rw [tupleMem, setPorts, be16_putBe16_ne _ _ (by omega), be16_putBe16_self]
    omega
  · rw [tupleMem, setPorts, be16_putBe16_self]
    omega

end TupleMem

def HasPorts (protocol : Nat) : Prop := protocol = 6 ∨ protocol = 17

instance (protocol : Nat) : Decidable (HasPorts protocol) := inferInstanceAs (Decidable (_ ∨ _))

def quotedPorts (protocol l4 : Nat) : Option Nat := if HasPorts protocol then some l4 else none

theorem quotedPorts_eq (protocol l4 : Nat) :
    (if protocol = 6 then some l4 else none).or (if protocol = 17 then some l4 else none) = quotedPorts protocol l4 := by
  unfold quotedPorts HasPorts
  by_cases tcp : protocol = 6 <;> simp [tcp]

/-- The bytes that are stored in the place of a header that an ICMP message quotes. -/
def EchoStores (p : Packet) (j : Nat) : Prop :=
  match p.icmpv4, p.icmpv6 with
  | some icmp, _ => TupleStores (icmp + 20) 4 (quotedPorts (ipv4Protocol p.buffer (icmp + 8)) (icmp + 28)) j
  | none, some icmp => TupleStores (icmp + 16) 16 (quotedPorts (ipv6NextHeader p.buffer (icmp + 8)) (icmp + 48)) j
  | none, none => False

def PacketStores (p : Packet) (j : Nat) : Prop :=
  (∃ a n, addressArea p.ipv4 p.ipv6 = some (a, n) ∧ TupleStores a n (p.tcp.or p.udp) j) ∨ EchoStores p j

/-- What `set_packet_tuple` does to a packet: it stores certain bytes, and the constant tuple shows each. -/
structure StoresTuple (p : Packet) (stored : Nat → Prop) : Prop where
  runs : ∀ t, ∃ m, setPacketTuple p t = .ok { p with buffer := m } ∧ ∀ j, ¬stored j → m j = p.buffer j
  shows : ∀ v m, setPacketTuple p (constantTuple v) = .ok { p with buffer := m } → ∀ j, stored j → m j = v

theorem setIcmpEchoedTuple_ipv4 {p : Packet} {icmp : Nat} (icmpv4 : p.icmpv4 = some icmp) (t : Tuple) :
    setIcmpEchoedTuple p t = .ok
      { p with
        buffer := tupleMem p.buffer (icmp + 20) 4
          (quotedPorts (ipv4Protocol p.buffer (icmp + 8)) (icmp + 28)) (reverseTuple t) } := by
  have area (icmpv6 : Option Nat) : addressArea ((some icmp).map (· + 8)) icmpv6 = some (icmp + 20, 4) := rfl
  simp only [setIcmpEchoedTuple, packetEchoedTcpHeader, packetEchoedUdpHeader, packetEchoedIpProtocol,
    packetEchoedIpHeader, icmpv4, ok_bind, run_pure, Option.isSome_some, if_true]
  rw [setHeadersTuple_eq _ _ _ _ (area _), quotedPorts_eq]
  rfl

theorem setIcmpEchoedTuple_ipv6 {p : Packet} {icmp : Nat} (noIcmpv4 : p.icmpv4 = none) (icmpv6 : p.icmpv6 = some icmp)
    (t : Tuple) :
    setIcmpEchoedTuple p t = .ok
      { p with
        buffer := tupleMem p.buffer (icmp + 16) 16
          (quotedPorts (ipv6NextHeader p.buffer (icmp + 8)) (icmp + 48)) (reverseTuple t) } := by
  have area : addressArea ((none : Option Nat).map (· + 8)) ((some icmp).map (· + 8)) = some (icmp + 16, 16) := rfl
  simp only [setIcmpEchoedTuple, packetEchoedTcpHeader, packetEchoedUdpHeader, packetEchoedIpProtocol,
    packetEchoedIpHeader, noIcmpv4, icmpv6, ok_bind, run_pure, Option.isSome_none, Bool.false_eq_true, if_false]
  rw [setHeadersTuple_eq _ _ _ _ area, quotedPorts_eq]
  rfl

theorem setPacketTuple_icmp {p : Packet} {t : Tuple} {m : Mem}
    (headers : setHeadersTuple p.buffer p.ipv4 p.ipv6 p.tcp p.udp t = .ok m)
    (icmp : p.icmpv4.isSome ∨ p.icmpv6.isSome) : setPacketTuple p t = setIcmpEchoedTuple { p with buffer := m } t := by
  rw [setPacketTuple, headers, ok_bind]
  exact if_pos icmp

section Stores

variable {p : Packet} {a n a' n' : Nat} {l4 l4' : Option Nat}

theorem StoresTuple.once (short : n ≤ 16)
    (ran : ∀ t, setPacketTuple p t = .ok { p with buffer := tupleMem p.buffer a n l4 t }) :
    StoresTuple p (TupleStores a n l4) where
  runs t := ⟨_, ran t, fun _ apart => tupleMem_apart short t apart⟩
  shows := by
    intro v m returned j stored
    rw [ran] at returned
    cases returned
    exact tupleMem_constant short v stored

theorem StoresTuple.twice (short : n ≤ 16) (short' : n' ≤ 16)
    (ran : ∀ t, setPacketTuple p t =
      .ok { p with buffer := tupleMem (tupleMem p.buffer a n l4 t) a' n' l4' (reverseTuple t) }) :
    StoresTuple p fun j => TupleStores a n l4 j ∨ TupleStores a' n' l4' j where
  runs t := by
    refine ⟨_, ran t, fun j apart => ?_⟩
    rw [not_or] at apart
    rw [tupleMem_apart short' _ apart.2, tupleMem_apart short _ apart.1]
  shows := by
    intro v m returned j stored
    rw [ran] at returned
    cases returned
    by_cases second : TupleStores a' n' l4' j
    · exact tupleMem_constant short' v second
    · rw [tupleMem_apart short' _ second]
      exact tupleMem_constant short v (stored.resolve_right second)

end Stores

namespace Placed

variable {p : Packet} {start : Nat} {ip last : HeaderType × Nat}

theorem area (placed : Placed p start ip last) :
    ∃ a n, addressArea p.ipv4 p.ipv6 = some (a, n) ∧ n ≤ 16 ∧ 0 < n ∧ ip.2 ≤ a ∧ a + 2 * n ≤ last.2 ∧
      a + 2 * n = ip.2 + if ip.1 = .ipv4 then 20 else 40 := by
  have behind := placed.behind
  rcases placed.network with type | type
  · refine ⟨ip.2 + 12, 4, ?_, by omega, by omega, by omega, ?_, ?_⟩
    · rw [placed.ipv4, if_pos type]
      rfl
    · rw [if_pos type] at behind
      omega
    · rw [if_pos type]
  · have other : ip.1 ≠ .ipv4 := by simp [type]
    refine ⟨ip.2 + 8, 16, ?_, by omega, by omega, by omega, ?_, ?_⟩
    · rw [placed.ipv4, if_neg other, placed.ipv6, if_pos type]
      rfl
    · rw [if_neg other] at behind
      omega
    · rw [if_neg other]

theorem storesTuple (placed : Placed p start ip last) : StoresTuple p (PacketStores p) := by
  obtain ⟨a, n, area, short, positive, -, front, -⟩ := placed.area
  have first (t : Tuple) := setHeadersTuple_eq p.buffer p.tcp p.udp t area
  have only (j : Nat) : (∃ a n, addressArea p.ipv4 p.ipv6 = some (a, n) ∧ TupleStores a n (p.tcp.or p.udp) j) ↔
      TupleStores a n (p.tcp.or p.udp) j := by
    constructor
    · rintro ⟨_, _, found, stored⟩
      rw [area] at found
      cases found
      exact stored
    · exact fun stored => ⟨a, n, area, stored⟩
  have stores : PacketStores p = fun j => TupleStores a n (p.tcp.or p.udp) j ∨ EchoStores p j := by
    funext j
    exact propext (or_congr_left (only j))
  rw [stores]
  have noPorts (icmp : last.1 = .icmpv4 ∨ last.1 = .icmpv6) : p.tcp.or p.udp = none := by
    rw [placed.tcp, placed.udp, if_neg (by rcases icmp with type | type <;> simp [type]),
      if_neg (by rcases icmp with type | type <;> simp [type])]
    rfl
  -- the byte that says which transport header is quoted lies behind what is stored first
  have kept (icmp : last.1 = .icmpv4 ∨ last.1 = .icmpv6) (t : Tuple) {k : Nat} (behind : last.2 ≤ k) :
      (tupleMem p.buffer a n (p.tcp.or p.udp) t).get8 k = p.buffer.get8 k := by
    rw [noPorts icmp, get8, tupleMem_apart short t, get8]
    rintro (inside | ⟨_, none, -⟩)
    · omega
    · cases none
  have plain (ports : last.1 = .tcp ∨ last.1 = .udp) :
      StoresTuple p fun j => TupleStores a n (p.tcp.or p.udp) j ∨ EchoStores p j := by
    have noIcmpv4 : p.icmpv4 = none := by
      rw [placed.icmpv4, if_neg (by rcases ports with type | type <;> simp [type])]
    have noIcmpv6 : p.icmpv6 = none := by
      rw [placed.icmpv6, if_neg (by rcases ports with type | type <;> simp [type])]
    have none (j : Nat) : ¬EchoStores p j := by simp [EchoStores, noIcmpv4, noIcmpv6]
    simp only [none, or_false]
    refine .once short fun t => ?_
    simp only [setPacketTuple, first, ok_bind, noIcmpv4, noIcmpv6, Option.isSome_none, Bool.false_eq_true, or_self,
      if_false, run_pure]
  rcases placed.transport with type | type | type | type
  · exact plain (.inl type)
  · exact plain (.inr type)
  · have icmpv4 : p.icmpv4 = some last.2 := by rw [placed.icmpv4, if_pos type]
    have echo (j : Nat) : EchoStores p j ↔ TupleStores (last.2 + 20) 4
        (quotedPorts (ipv4Protocol p.buffer (last.2 + 8)) (last.2 + 28)) j := by
      simp only [EchoStores, icmpv4]
    simp only [echo]
    refine .twice short (by omega) fun t => ?_
    rw [setPacketTuple_icmp (first t) (.inl (by simp [icmpv4])),
      setIcmpEchoedTuple_ipv4 (p := { p with buffer := tupleMem p.buffer a n (p.tcp.or p.udp) t }) icmpv4]
    simp only [ipv4Protocol, kept (.inl type) t (show last.2 ≤ last.2 + 8 + 9 by omega)]
  · have noIcmpv4 : p.icmpv4 = none := by rw [placed.icmpv4, if_neg (by simp [type])]
    have icmpv6 : p.icmpv6 = some last.2 := by rw [placed.icmpv6, if_pos type]
    have echo (j : Nat) : EchoStores p j ↔ TupleStores (last.2 + 16) 16
        (quotedPorts (ipv6NextHeader p.buffer (last.2 + 8)) (last.2 + 48)) j := by
      simp only [EchoStores, noIcmpv4, icmpv6]
    simp only [echo]
    refine .twice short (by omega) fun t => ?_
    rw [setPacketTuple_icmp (first t) (.inr (by simp [icmpv6])),
      setIcmpEchoedTuple_ipv6 (p := { p with buffer := tupleMem p.buffer a n (p.tcp.or p.udp) t }) noIcmpv4 icmpv6]
    simp only [ipv6NextHeader, kept (.inr type) t (show last.2 ≤ last.2 + 8 + 6 by omega)]

end Placed

def InPacket (p : Packet) (j : Nat) : Prop := ∃ start, packetStart p = .ok start ∧ start ≤ j ∧ j < start + p.ipBytes

def innerStop (p : Packet) : Nat := (p.ipv4.or p.ipv6).getD 0 + datagramBytes p

def icmpv4Errors : List Nat := [3, 4, 5, 11, 12]

def icmpv6Errors : List Nat := [1, 2, 3, 4]

/-- An ICMP message quotes a header: it is about another packet, and holds the whole header of one. -/
structure QuotesHeader (p : Packet) (icmp : Nat) (errors : List Nat) (version headerBytes : Nat) : Prop where
  about : p.echoedHeader = true ∨ p.buffer.get8 icmp ∈ errors
  version : ipVersion p.buffer (icmp + 8) = version
  whole : icmp + 8 + headerBytes ≤ innerStop p

def QuotesIpv4 (p : Packet) (icmp : Nat) : Prop :=
  20 ≤ ipv4HeaderLen p.buffer (icmp + 8) ∧ QuotesHeader p icmp icmpv4Errors 4 (ipv4HeaderLen p.buffer (icmp + 8))

def QuotesIpv6 (p : Packet) (icmp : Nat) : Prop := QuotesHeader p icmp icmpv6Errors 6 40

/-- The address and port bytes of the innermost headers and of a header that an ICMP message quotes. -/
inductive TupleField (p : Packet) (j : Nat) : Prop where
  | ipv4 {ip} (ptr : p.ipv4 = some ip) (here : ip + 12 ≤ j ∧ j < ip + 20)
  | ipv6 {ip} (ptr : p.ipv6 = some ip) (here : ip + 8 ≤ j ∧ j < ip + 40)
  | tcp {tcp} (ptr : p.tcp = some tcp) (here : tcp ≤ j ∧ j < tcp + 4)
  | udp {udp} (ptr : p.udp = some udp) (here : udp ≤ j ∧ j < udp + 4)
  | quotedIpv4 {icmp} (ptr : p.icmpv4 = some icmp) (quotes : QuotesIpv4 p icmp)
      (here : icmp + 8 + 12 ≤ j ∧ j < icmp + 8 + 20)
  | quotedIpv6 {icmp} (ptr : p.icmpv6 = some icmp) (quotes : QuotesIpv6 p icmp)
      (here : icmp + 8 + 8 ≤ j ∧ j < icmp + 8 + 40)
  | portsInIpv4 {icmp l4} (ptr : p.icmpv4 = some icmp) (quotes : QuotesIpv4 p icmp)
      (protocol : HasPorts (ipv4Protocol p.buffer (icmp + 8)))
      (behind : l4 = icmp + 8 + ipv4HeaderLen p.buffer (icmp + 8)) (here : l4 ≤ j ∧ j < l4 + 4) (inside : j < innerStop p)
  | portsInIpv6 {icmp l4} (ptr : p.icmpv6 = some icmp) (quotes : QuotesIpv6 p icmp)
      (protocol : HasPorts (ipv6NextHeader p.buffer (icmp + 8)))
      (behind : l4 = icmp + 8 + 40) (here : l4 ≤ j ∧ j < l4 + 4) (inside : j < innerStop p)

/-- Equal addresses of the family of the packet (`is_equal_ip`), and equal ports. -/
def SameTuple (p : Packet) (t u : Tuple) : Prop :=
  let length := if p.ipv4.isSome then 4 else 16
  t.src.ip.toList.take length = u.src.ip.toList.take length ∧ t.dst.ip.toList.take length = u.dst.ip.toList.take length ∧
    t.src.port = u.src.port ∧ t.dst.port = u.dst.port

structure TupleFramed (p : Packet) (t : Tuple) (q : Packet) : Prop where
  rest : ∃ m, q = { p with buffer := m }
  stores : ∀ j, q.buffer j ≠ p.buffer j → TupleField p j ∧ InPacket p j
  body : ∀ icmp, (p.icmpv4 = some icmp ∧ ¬QuotesIpv4 p icmp ∨ p.icmpv6 = some icmp ∧ ¬QuotesIpv6 p icmp) →
    ∀ j, icmp ≤ j → q.buffer j = p.buffer j
  tuple : p.tcp.isSome ∨ p.udp.isSome → ∃ u, getPacketTuple q = .ok u ∧ SameTuple p u t

/-- The fields of the innermost headers lie in front of `stop`, and an ICMP message quotes a header without
options whose fields do as well. -/
structure Rewritable (p : Packet) (stop : Nat) : Prop where
  ipv4 : ∀ ip, p.ipv4 = some ip → ip + 20 ≤ stop
  ipv6 : ∀ ip, p.ipv6 = some ip → ip + 40 ≤ stop
  ports : ∀ l4, p.tcp = some l4 ∨ p.udp = some l4 → l4 + 4 ≤ stop
  icmpv4 : ∀ icmp, p.icmpv4 = some icmp → QuotesIpv4 p icmp ∧ icmp + 28 ≤ stop ∧
    (HasPorts (ipv4Protocol p.buffer (icmp + 8)) →
      ipv4HeaderLen p.buffer (icmp + 8) = 20 ∧ icmp + 32 ≤ innerStop p ∧ icmp + 32 ≤ stop)
  icmpv6 : ∀ icmp, p.icmpv6 = some icmp → QuotesIpv6 p icmp ∧ icmp + 48 ≤ stop ∧
    (HasPorts (ipv6NextHeader p.buffer (icmp + 8)) → icmp + 52 ≤ innerStop p ∧ icmp + 52 ≤ stop)

theorem addressArea_length {p : Packet} {a n : Nat} (area : addressArea p.ipv4 p.ipv6 = some (a, n)) :
    (if p.ipv4.isSome then 4 else 16) = n := by
  cases ipv4 : p.ipv4 with
  | some ip =>
    rw [ipv4] at area
    cases area
    rfl
  | none =>
    rw [ipv4] at area
    cases ipv6 : p.ipv6 <;> rw [ipv6] at area <;> cases area
    rfl

theorem getPacketTuple_eq {p : Packet} {a n l4 : Nat} (area : addressArea p.ipv4 p.ipv6 = some (a, n))
    (ports : p.tcp.or p.udp = some l4) :
    getPacketTuple p = .ok ⟨⟨ipFromBytes (p.buffer.bytes a n), UInt16.ofNat (p.buffer.be16 l4)⟩,
      ⟨ipFromBytes (p.buffer.bytes (a + n) n), UInt16.ofNat (p.buffer.be16 (l4 + 2))⟩⟩ := by
  have transport : p.tcp = some l4 ∨ p.tcp = none ∧ p.udp = some l4 := by
    cases tcp : p.tcp with
    | some start =>
      rw [tcp, Option.some_or] at ports
      exact .inl ports
    | none =>
      rw [tcp, Option.none_or] at ports
      exact .inr ⟨rfl, ports⟩
  cases ipv4 : p.ipv4 with
  | some ip =>
    rw [ipv4] at area
    cases area
    rcases transport with tcp | ⟨noTcp, udp⟩
    · simp only [getPacketTuple, ipv4, tcp, ok_bind, run_pure]
    · simp only [getPacketTuple, ipv4, noTcp, udp, ok_bind, run_pure]
  | none =>
    rw [ipv4] at area
    cases ipv6 : p.ipv6 <;> rw [ipv6] at area <;> cases area
    rcases transport with tcp | ⟨noTcp, udp⟩
    · simp only [getPacketTuple, ipv4, ipv6, tcp, ok_bind, run_pure]
    · simp only [getPacketTuple, ipv4, ipv6, noTcp, udp, ok_bind, run_pure]

namespace Placed

variable {p : Packet} {start : Nat} {ip last : HeaderType × Nat}

theorem inPacket_iff (placed : Placed p start ip last) (j : Nat) :
    InPacket p j ↔ start ≤ j ∧ j < start + p.ipBytes := by
  constructor
  · rintro ⟨s, found, inside⟩
    rw [placed.starts] at found
    cases found
    exact inside
  · exact fun inside => ⟨start, placed.starts, inside⟩

theorem field_cases (placed : Placed p start ip last) {j : Nat} (field : TupleField p j) (behind : last.2 ≤ j) :
    (p.tcp = some last.2 ∨ p.udp = some last.2) ∧ j < last.2 + 4 ∨
    p.icmpv4 = some last.2 ∧ QuotesIpv4 p last.2 ∧ (j < last.2 + 28 ∨
      last.2 + 8 + ipv4HeaderLen p.buffer (last.2 + 8) ≤ j ∧ j < innerStop p) ∨
    p.icmpv6 = some last.2 ∧ QuotesIpv6 p last.2 ∧ (j < last.2 + 48 ∨ last.2 + 48 ≤ j ∧ j < innerStop p) := by
  have front := placed.behind
  cases field with
  | ipv4 ptr here =>
    obtain ⟨type, rfl⟩ := eq_of_ite_some (placed.ipv4.symm.trans ptr)
    rw [if_pos type] at front
    omega
  | ipv6 ptr here =>
    obtain ⟨type, rfl⟩ := eq_of_ite_some (placed.ipv6.symm.trans ptr)
    rw [if_neg (by simp [type])] at front
    omega
  | tcp ptr here =>
    obtain ⟨-, rfl⟩ := eq_of_ite_some (placed.tcp.symm.trans ptr)
    exact .inl ⟨.inl ptr, here.2⟩
  | udp ptr here =>
    obtain ⟨-, rfl⟩ := eq_of_ite_some (placed.udp.symm.trans ptr)
    exact .inl ⟨.inr ptr, here.2⟩
  | quotedIpv4 ptr quotes here =>
    obtain ⟨-, rfl⟩ := eq_of_ite_some (placed.icmpv4.symm.trans ptr)
    exact .inr (.inl ⟨ptr, quotes, .inl (by omega)⟩)
  | quotedIpv6 ptr quotes here =>
    obtain ⟨-, rfl⟩ := eq_of_ite_some (placed.icmpv6.symm.trans ptr)
    exact .inr (.inr ⟨ptr, quotes, .inl (by omega)⟩)
  | portsInIpv4 ptr quotes protocol behind here inside =>
    obtain ⟨-, rfl⟩ := eq_of_ite_some (placed.icmpv4.symm.trans ptr)
    exact .inr (.inl ⟨ptr, quotes, .inr ⟨by omega, inside⟩⟩)
  | portsInIpv6 ptr quotes protocol behind here inside =>
    obtain ⟨-, rfl⟩ := eq_of_ite_some (placed.icmpv6.symm.trans ptr)
    exact .inr (.inr ⟨ptr, quotes, .inr ⟨by omega, inside⟩⟩)

theorem icmp_only (placed : Placed p start ip last) {icmp : Nat} (ptr : p.icmpv4 = some icmp ∨ p.icmpv6 = some icmp) :
    icmp = last.2 ∧ p.tcp = none ∧ p.udp = none := by
  rcases ptr with ptr | ptr
  · obtain ⟨type, rfl⟩ := eq_of_ite_some (placed.icmpv4.symm.trans ptr)
    exact ⟨rfl, by rw [placed.tcp, if_neg (by simp [type])], by rw [placed.udp, if_neg (by simp [type])]⟩
  · obtain ⟨type, rfl⟩ := eq_of_ite_some (placed.icmpv6.symm.trans ptr)
    exact ⟨rfl, by rw [placed.tcp, if_neg (by simp [type])], by rw [placed.udp, if_neg (by simp [type])]⟩

theorem icmpv4_only (placed : Placed p start ip last) {icmp : Nat} (ptr : p.icmpv4 = some icmp) : p.icmpv6 = none := by
  obtain ⟨type, -⟩ := eq_of_ite_some (placed.icmpv4.symm.trans ptr)
  rw [placed.icmpv6, if_neg (by simp [type])]

theorem icmpv6_only (placed : Placed p start ip last) {icmp : Nat} (ptr : p.icmpv6 = some icmp) : p.icmpv4 = none := by
  obtain ⟨type, -⟩ := eq_of_ite_some (placed.icmpv6.symm.trans ptr)
  rw [placed.icmpv4, if_neg (by simp [type])]

theorem allowed_of_rewritable (placed : Placed p start ip last) (rewritable : Rewritable p (start + p.ipBytes)) {j : Nat}
    (stored : PacketStores p j) : TupleField p j ∧ InPacket p j := by
  rw [placed.inPacket_iff]
  have inside := placed.inside
  have front := placed.behind
  rcases stored with ⟨a, n, area, header | ⟨l4, found, here⟩⟩ | echo
  · -- the addresses of the innermost IP header
    cases ipv4 : p.ipv4 with
    | some ip4 =>
      obtain ⟨-, rfl⟩ := eq_of_ite_some (placed.ipv4.symm.trans ipv4)
      rw [ipv4] at area
      cases area
      have fits := rewritable.ipv4 _ ipv4
      exact ⟨.ipv4 ipv4 (by omega), by omega, by omega⟩
    | none =>
      cases ipv6 : p.ipv6 with
      | none => rw [ipv4, ipv6] at area; cases area
      | some ip6 =>
        obtain ⟨-, rfl⟩ := eq_of_ite_some (placed.ipv6.symm.trans ipv6)
        rw [ipv4, ipv6] at area
        cases area
        have fits := rewritable.ipv6 _ ipv6
        exact ⟨.ipv6 ipv6 (by omega), by omega, by omega⟩
  · -- the ports
    have long : ip.2 ≤ last.2 := by omega
    cases tcp : p.tcp with
    | some l4' =>
      obtain ⟨-, rfl⟩ := eq_of_ite_some (placed.tcp.symm.trans tcp)
      rw [tcp] at found
      cases found
      have fits := rewritable.ports _ (.inl tcp)
      exact ⟨.tcp tcp here, by omega, by omega⟩
    | none =>
      rw [tcp, Option.none_or] at found
      obtain ⟨-, rfl⟩ := eq_of_ite_some (placed.udp.symm.trans found)
      have fits := rewritable.ports _ (.inr found)
      exact ⟨.udp found here, by omega, by omega⟩
  · -- the quoted header
    unfold EchoStores at echo
    cases icmpv4 : p.icmpv4 with
    | some icmp =>
      obtain ⟨rfl, -⟩ := placed.icmp_only (.inl icmpv4)
      obtain ⟨quotes, fits, withPorts⟩ := rewritable.icmpv4 _ icmpv4
      rw [icmpv4] at echo
      rcases echo with addresses | ⟨l4, ports, here⟩
      · exact ⟨.quotedIpv4 icmpv4 quotes (by omega), by omega, by omega⟩
      · obtain ⟨protocol, rfl⟩ := eq_of_ite_some ports
        obtain ⟨plain, whole, fits⟩ := withPorts protocol
        exact ⟨.portsInIpv4 icmpv4 quotes protocol rfl (by omega) (by omega), by omega, by omega⟩
    | none =>
      cases icmpv6 : p.icmpv6 with
      | none => rw [icmpv4, icmpv6] at echo; exact echo.elim
      | some icmp =>
        obtain ⟨rfl, -⟩ := placed.icmp_only (.inr icmpv6)
        obtain ⟨quotes, fits, withPorts⟩ := rewritable.icmpv6 _ icmpv6
        rw [icmpv4, icmpv6] at echo
        rcases echo with addresses | ⟨l4, ports, here⟩
        · exact ⟨.quotedIpv6 icmpv6 quotes (by omega), by omega, by omega⟩
        · obtain ⟨protocol, rfl⟩ := eq_of_ite_some ports
          obtain ⟨whole, fits⟩ := withPorts protocol
          exact ⟨.portsInIpv6 icmpv6 quotes protocol rfl (by omega) (by omega), by omega, by omega⟩

theorem rewritable_of_allowed (placed : Placed p start ip last)
    (allowed : ∀ j, PacketStores p j → TupleField p j ∧ InPacket p j) : Rewritable p (start + p.ipBytes) := by
  simp only [placed.inPacket_iff] at allowed
  constructor
  case ipv4 =>
    intro ip4 ptr
    have stored : PacketStores p (ip4 + 19) := .inl ⟨ip4 + 12, 4, by rw [ptr]; rfl, .inl (by omega)⟩
    have := (allowed _ stored).2
    omega
  case ipv6 =>
    intro ip6 ptr
    obtain ⟨type, -⟩ := eq_of_ite_some (placed.ipv6.symm.trans ptr)
    have noIpv4 : p.ipv4 = none := by rw [placed.ipv4, if_neg (by simp [type])]
    have stored : PacketStores p (ip6 + 39) := .inl ⟨ip6 + 8, 16, by rw [noIpv4, ptr]; rfl, .inl (by omega)⟩
    have := (allowed _ stored).2
    omega
  case ports =>
    intro l4 ptr
    have found : p.tcp.or p.udp = some l4 := by
      rcases ptr with ptr | ptr
      · rw [ptr, Option.some_or]
      · obtain ⟨type, -⟩ := eq_of_ite_some (placed.udp.symm.trans ptr)
        rw [placed.tcp, if_neg (by simp [type]), Option.none_or, ptr]
    obtain ⟨a, n, area, -⟩ := placed.area
    have := (allowed (l4 + 3) (.inl ⟨a, n, area, .inr ⟨l4, found, by omega⟩⟩)).2
    omega
  case icmpv4 =>
    intro icmp ptr
    obtain ⟨rfl, noTcp, noUdp⟩ := placed.icmp_only (.inl ptr)
    have other := placed.icmpv4_only ptr
    have stored {j : Nat} (here : TupleStores (last.2 + 20) 4
        (quotedPorts (ipv4Protocol p.buffer (last.2 + 8)) (last.2 + 28)) j) : PacketStores p j := by
      refine .inr ?_
      rw [EchoStores, ptr]
      exact here
    have quoted {j : Nat} (field : TupleField p j) (behind : last.2 ≤ j) : QuotesIpv4 p last.2 ∧
        (j < last.2 + 28 ∨ last.2 + 8 + ipv4HeaderLen p.buffer (last.2 + 8) ≤ j ∧ j < innerStop p) := by
      rcases placed.field_cases field behind with ⟨ports, -⟩ | ⟨-, quotes⟩ | ⟨icmpv6, -⟩
      · simp [noTcp, noUdp] at ports
      · exact quotes
      · rw [other] at icmpv6
        cases icmpv6
    have address := allowed (last.2 + 20) (stored (.inl (by omega)))
    have quotes := (quoted address.1 (by omega)).1
    refine ⟨quotes, ?_, fun protocol => ?_⟩
    · have := (allowed (last.2 + 27) (stored (.inl (by omega)))).2
      omega
    · have first := allowed (last.2 + 28) (stored (.inr ⟨last.2 + 28, if_pos protocol, by omega⟩))
      have last' := allowed (last.2 + 31) (stored (.inr ⟨last.2 + 28, if_pos protocol, by omega⟩))
      have low := (quoted first.1 (by omega)).2
      have high := (quoted last'.1 (by omega)).2
      have long := quotes.1
      omega
  case icmpv6 =>
    intro icmp ptr
    obtain ⟨rfl, noTcp, noUdp⟩ := placed.icmp_only (.inr ptr)
    have other := placed.icmpv6_only ptr
    have stored {j : Nat} (here : TupleStores (last.2 + 16) 16
        (quotedPorts (ipv6NextHeader p.buffer (last.2 + 8)) (last.2 + 48)) j) : PacketStores p j := by
      refine .inr ?_
      rw [EchoStores, other, ptr]
      exact here
    have quoted {j : Nat} (field : TupleField p j) (behind : last.2 ≤ j) : QuotesIpv6 p last.2 ∧
        (j < last.2 + 48 ∨ last.2 + 48 ≤ j ∧ j < innerStop p) := by
      rcases placed.field_cases field behind with ⟨ports, -⟩ | ⟨icmpv4, -⟩ | ⟨-, quotes⟩
      · simp [noTcp, noUdp] at ports
      · rw [other] at icmpv4
        cases icmpv4
      · exact quotes
    have address := allowed (last.2 + 16) (stored (.inl (by omega)))
    refine ⟨(quoted address.1 (by omega)).1, ?_, fun protocol => ?_⟩
    · have := (allowed (last.2 + 47) (stored (.inl (by omega)))).2
      omega
    · have high := allowed (last.2 + 51) (stored (.inr ⟨last.2 + 48, if_pos protocol, by omega⟩))
      have := (quoted high.1 (by omega)).2
      omega

theorem tuple_set (placed : Placed p start ip last) (ports : p.tcp.isSome ∨ p.udp.isSome) {t : Tuple} {q : Packet}
    (ran : setPacketTuple p t = .ok q) : ∃ u, getPacketTuple q = .ok u ∧ SameTuple p u t := by
  obtain ⟨a, n, area, short, -, -, front, -⟩ := placed.area
  have found : p.tcp.or p.udp = some last.2 := by
    rw [placed.tcp, placed.udp] at ports ⊢
    by_cases tcp : last.1 = .tcp
    · rw [if_pos tcp, Option.some_or]
    · by_cases udp : last.1 = .udp
      · rw [if_neg tcp, if_pos udp, Option.none_or]
      · simp [tcp, udp] at ports
  have noIcmp : ¬(p.icmpv4.isSome ∨ p.icmpv6.isSome) := by
    rintro icmp
    obtain ⟨at4, ptr⟩ | ⟨at6, ptr⟩ := icmp.imp Option.isSome_iff_exists.mp Option.isSome_iff_exists.mp
    · obtain ⟨-, noTcp, noUdp⟩ := placed.icmp_only (.inl ptr)
      simp [noTcp, noUdp] at ports
    · obtain ⟨-, noTcp, noUdp⟩ := placed.icmp_only (.inr ptr)
      simp [noTcp, noUdp] at ports
  rw [setPacketTuple, setHeadersTuple_eq _ _ _ _ area, ok_bind, found] at ran
  obtain rfl : { p with buffer := tupleMem p.buffer a n (some last.2) t } = q := by
    simp only [noIcmp, if_false] at ran
    exact Except.ok.inj ran
  obtain ⟨src, dst, srcPort, dstPort⟩ := tupleMem_reads (m := p.buffer) short t front
  have address {bs : List UInt8} (length : bs.length = n) : (ipFromBytes bs).toList.take n = bs := by
    apply List.ext_getElem
    · simp [length, short]
    · intro i inside inside'
      simp [ipFromBytes, List.getD_eq_getElem?_getD, inside']
  refine ⟨_, getPacketTuple_eq (p := { p with buffer := tupleMem p.buffer a n (some last.2) t }) area found, ?_⟩
  rw [SameTuple, addressArea_length area, src, dst, srcPort, dstPort, address (by simp [short]),
    address (by simp [short])]
  exact ⟨rfl, rfl, UInt16.ofNat_toNat, UInt16.ofNat_toNat⟩

/-- On a packet with its headers in place, the tuple can be set as it should exactly when it is rewritable. -/
theorem framed_iff (placed : Placed p start ip last) :
    (∀ t, ∃ q, setPacketTuple p t = .ok q ∧ TupleFramed p t q) ↔ Rewritable p (start + p.ipBytes) := by
  have stores := placed.storesTuple
  constructor
  · intro framed
    refine placed.rewritable_of_allowed fun j stored => ?_
    -- a value that differs from the byte's own shows the store
    obtain ⟨q, ran, frame⟩ := framed (constantTuple (p.buffer j + 1))
    obtain ⟨m, rfl⟩ := frame.rest
    refine frame.stores j ?_
    have shown : m j = p.buffer j + 1 := stores.shows _ m ran j stored
    simp [shown]
  · intro rewritable t
    obtain ⟨m, ran, apart⟩ := stores.runs t
    refine ⟨_, ran, ⟨m, rfl⟩, fun j changed => ?_, ?_, fun ports => placed.tuple_set ports ran⟩
    · refine placed.allowed_of_rewritable rewritable ?_
      by_contra outside
      exact changed (apart j outside)
    · rintro icmp (⟨ptr, unquoted⟩ | ⟨ptr, unquoted⟩)
      · exact absurd (rewritable.icmpv4 icmp ptr).1 unquoted
      · exact absurd (rewritable.icmpv6 icmp ptr).1 unquoted

end Placed

/-- Setting the tuple of a packet stores inside the packet and only the address and port fields of its
innermost headers and of a quoted header, and for TCP and UDP the tuple can be read back, for every tuple
exactly if the packet is rewritable. -/
theorem setPacketTuple_framed_iff {p : Packet} (given : Given p) :
    (∀ t, ∃ q, setPacketTuple p t = .ok q ∧ TupleFramed p t q) ↔ ∃ stop, packetEnd p = .ok stop ∧ Rewritable p stop := by
  obtain ⟨start, ip, last, placed⟩ := given.placed
  have stop : packetEnd p = .ok (start + p.ipBytes) := by
    rw [packetEnd, placed.starts, ok_bind, run_pure]
  rw [placed.framed_iff, stop]
  simp

def unreachableMessage : Mem := .ofList
  [0x45, 0, 0, 56, 0, 0, 0, 0, 64, 1, 0, 0, 10, 0, 0, 1, 10, 0, 0, 2, 3, 3, 0, 0, 0, 0, 0, 0,
   0x45, 0, 0, 28, 0, 0, 0, 0, 64, 17, 0, 0, 10, 0, 0, 2, 10, 0, 0, 1, 0, 7, 0, 8, 0, 8, 0, 0]

theorem setPacketTuple_framed_iff_unreachable :
    ∃ p, parsePacket (packetNew unreachableMessage 56) 56 .layer3Ip = .ok (.ok, p) ∧
      ∀ t, ∃ q, setPacketTuple p t = .ok q ∧ TupleFramed p t q := by
  obtain ⟨⟨result, p⟩, parsed, facts⟩ := ok_of_toOption
    (f := fun r : ParseResult × Packet => (r.1, [r.2.ipv4, r.2.ipv6, r.2.tcp, r.2.udp, r.2.icmpv4, r.2.icmpv6],
      (packetEnd r.2).toOption))
    (show (parsePacket (packetNew unreachableMessage 56) 56 .layer3Ip).toOption.map _ =
      some (.ok, [some 0, none, none, none, some 20, none], some 56) by decide +kernel)
  simp only [Prod.mk.injEq, List.cons.injEq] at facts
  obtain ⟨rfl, ⟨ipv4, ipv6, tcp, udp, icmpv4, icmpv6, -⟩, stop⟩ := facts
  have buffer := (accepted_innermost (by decide) parsed).1
  have stops : innerStop p = 56 := by
    rw [innerStop, datagramBytes, ipv4, ipv6, buffer]
    decide
  refine ⟨p, parsed, (setPacketTuple_framed_iff (.accepted parsed)).mpr ⟨56, eq_ok_of_toOption stop, ?_⟩⟩
  constructor
  case ipv4 => rw [ipv4]; rintro _ ⟨rfl⟩; omega
  case ipv6 => rw [ipv6]; rintro _ ⟨⟩
  case ports => rw [tcp, udp]; rintro _ (⟨⟨⟩⟩ | ⟨⟨⟩⟩)
  case icmpv6 => rw [icmpv6]; rintro _ ⟨⟩
  case icmpv4 =>
    rw [icmpv4]
    rintro _ ⟨rfl⟩
    have quotes : QuotesIpv4 p 20 := by
      refine ⟨?_, .inr ?_, ?_, ?_⟩ <;> simp only [stops, buffer] <;> decide
    refine ⟨quotes, by omega, fun _ => ?_⟩
    rw [stops, buffer]
    decide

def rawPing : IcmpArgs where
  family := .inet
  direction := .inbound
  typeString := "echo_request"
  codeString := none
  protocol := 255
  tcpStartSequence := 0
  payloadBytes := 24
  ipInfo := { tos := { check := .none, value := 0 }, flowLabel := 0, ttl := 0 }
  mtu := -1
  echoId := 0

/-- Setting the tuple of a ping overwrites its body and the bytes behind it. -/
theorem rawPing_overwritten :
    ∃ p q, newIcmpPacket (fun _ => 0) rawPing = .ok (.ok p) ∧ p.echoedHeader = false ∧ p.icmpv4 = some 20 ∧
      packetEnd p = .ok 44 ∧ setPacketTuple p (constantTuple 1) = .ok q ∧
      (p.buffer 40, q.buffer 40) = (0, 1) ∧ (p.buffer 47, q.buffer 47) = (0, 1) := by
  have evaluated : ((newIcmpPacket (fun _ => 0) rawPing).toOption.bind Except.toOption).map
      (fun p => ((p.echoedHeader, p.icmpv4, (packetEnd p).toOption), (p.buffer 40, p.buffer 47),
        (setPacketTuple p (constantTuple 1)).toOption.map fun q => (q.buffer 40, q.buffer 47))) =
      some ((false, some 20, some 44), (0, 0), some (1, 1)) := by decide +kernel
  obtain ⟨p, built, facts⟩ := Option.map_eq_some_iff.mp evaluated
  obtain ⟨r, returned, ok⟩ := Option.bind_eq_some_iff.mp built
  simp only [Prod.mk.injEq] at facts
  obtain ⟨⟨echoed, icmpv4, stop⟩, ⟨body, behind⟩, changed⟩ := facts
  obtain ⟨q, set, bytes⟩ := ok_of_toOption changed
  simp only [Prod.mk.injEq] at bytes
  refine ⟨p, q, ?_, echoed, icmpv4, eq_ok_of_toOption stop, set, by rw [body, bytes.1], by rw [behind, bytes.2]⟩
  rw [eq_ok_of_toOption returned, eq_ok_of_toOption ok]

end TcpFuzz
