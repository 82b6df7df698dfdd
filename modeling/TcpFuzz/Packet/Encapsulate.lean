import TcpFuzz.Packet.Checksum
import TcpFuzz.Packet.IpHeader

/-! The copying functions of `packet.c`, those that append an encapsulation header, and `packet_encapsulate`, which
finishes each header from what lies inside it. -/

namespace TcpFuzz
open Bytes

def deref {α : Type} (ptr : Option α) : Run α :=
  match ptr with
  | some a => .ok a
  | none => .error .invalidAccess

def Header.shift (headroom : Nat) (h : Header) : Header := { h with ptr := h.ptr.map (headroom + ·) }

theorem get_ofFn {n : Nat} (f : Fin n → Header) (i : Fin n) : (Vector.ofFn f).get i = f i :=
  Vector.getElem_ofFn i.isLt

def packetCopyHeaders (new old : Packet) (headroom : Nat) : Packet :=
  { new with headers := Vector.ofFn fun i =>
      if i.val < packetHeaderCount old then (old.headers.get i).shift headroom else new.headers.get i }

def packetDuplicateInfo (p old : Packet) (headroom extraPayload : Nat) : Packet :=
  let p := { p with
    ipBytes := old.ipBytes + extraPayload
    direction := old.direction
    timeUsecs := old.timeUsecs
    flags := old.flags
    tosChk := old.tosChk }
  let p := packetCopyHeaders p old headroom
  { p with
    ipv4 := old.ipv4.map (headroom + ·)
    ipv6 := old.ipv6.map (headroom + ·)
    tcp := old.tcp.map (headroom + ·)
    udp := old.udp.map (headroom + ·)
    icmpv4 := old.icmpv4.map (headroom + ·)
    icmpv6 := old.icmpv6.map (headroom + ·)
    tcpTsVal := old.tcpTsVal.map (headroom + ·)
    tcpTsEcr := old.tcpTsEcr.map (headroom + ·)
    echoedHeader := old.echoedHeader }

def packetCopyWithHeadroom (allocated : Mem) (old : Packet) (headroom : Nat) : Run Packet := do
  let bytesUsed ← packetEnd old
  assertThat (bytesUsed ≤ 128 * 1024)
  let p := packetNew (allocated.copy headroom old.buffer 0 bytesUsed) (headroom + bytesUsed)
  return packetDuplicateInfo p old headroom 0

def packetCopy (allocated : Mem) (old : Packet) : Run Packet := packetCopyWithHeadroom allocated old 0

def headerTypeInfo (type : HeaderType) : Run HeaderType := do
  assertThat (type ≠ .none)
  return type

def ipv4HeaderFinish (m : Mem) (header : Header) (nextInner : Option Header) : Run (Mem × Header) := do
  let ip ← deref header.ptr
  let next ← deref nextInner
  let ipBytes := 20 + next.totalBytes
  let m := m.putBe16 (ip + 2) (u16 ipBytes)
  let type ← headerTypeInfo next.type
  let m := m.put8 (ip + 9) type.ipProto
  return (setIpv4Check m ip, { header with totalBytes := ipBytes })

def ipv6HeaderFinish (m : Mem) (header : Header) (nextInner : Option Header) : Run (Mem × Header) := do
  let ip ← deref header.ptr
  let next ← deref nextInner
  assertThat (next.totalBytes ≤ 0xffff)
  let m := m.putBe16 (ip + 4) (u16 next.totalBytes)
  let type ← headerTypeInfo next.type
  let m := m.put8 (ip + 6) type.ipProto
  return (m, { header with totalBytes := 40 + next.totalBytes })

def greHeaderFinish (m : Mem) (header : Header) (nextInner : Option Header) : Run (Mem × Header) := do
  let gre ← deref header.ptr
  let length ← greLen m gre
  let next ← deref nextInner
  let type ← headerTypeInfo next.type
  let m := m.putBe16 (gre + 2) type.ethProto
  return (m, { header with totalBytes := length + next.totalBytes })

def mplsHeaderFinish (m : Mem) (header : Header) (nextInner : Option Header) : Run (Mem × Header) := do
  let next ← deref nextInner
  return (m, { header with totalBytes := header.headerBytes + next.totalBytes })

def headerFinish (m : Mem) (header : Header) (nextInner : Option Header) : Run (Mem × Header) :=
  match header.type with
  | .ipv4 => ipv4HeaderFinish m header nextInner
  | .ipv6 => ipv6HeaderFinish m header nextInner
  | .gre => greHeaderFinish m header nextInner
  | .mpls => mplsHeaderFinish m header nextInner
  | _ => .ok (m, header)

/-- The loop over the table: inner headers first, unused entries skipped. -/
def finishHeaders (m : Mem) : List Header → Run (Mem × List Header)
  | [] => .ok (m, [])
  | header :: inner => do
    let (m, inner) ← finishHeaders m inner
    if header.type = .none then
      return (m, header :: inner)
    let (m, header) ← headerFinish m header inner.head?
    return (m, header :: inner)

def packetFinishEncapsulationHeaders (p : Packet) : Run Packet := do
  let (buffer, headers) ← finishHeaders p.buffer p.headers.toList
  return { p with buffer, headers := Vector.ofFn fun i => headers.getD i .unused }

/-- Move the first `count` entries of the table `n` places up. -/
def moveHeaders (p : Packet) (n count : Nat) : Packet :=
  { p with headers := Vector.ofFn fun i =>
      if n ≤ i.val ∧ i.val < n + count then p.headers.get ⟨i - n, by omega⟩ else p.headers.get i }

theorem moveHeaders_get (p : Packet) (n count : Nat) (i : Fin packetMaxHeaders) :
    (moveHeaders p n count).headers.get i =
      if n ≤ i.val ∧ i.val < n + count then p.headers.get ⟨i - n, by omega⟩ else p.headers.get i := by
  rw [moveHeaders, get_ofFn]

def packetEncapsulate (allocated : Mem) (outer inner : Packet) : Run Packet := do
  let outerHeaders := packetHeaderCount outer
  let innerHeaders := packetHeaderCount inner
  assertThat (outerHeaders + innerHeaders ≤ packetMaxHeaders)
  let p ← packetCopyWithHeadroom allocated inner outer.ipBytes
  let p := { p with buffer := p.buffer.copy 0 outer.buffer 0 outer.ipBytes }
  let p := moveHeaders p outerHeaders innerHeaders
  let p := packetCopyHeaders p outer 0
  assertThat (packetHeaderCount p = outerHeaders + innerHeaders)
  let p ← packetFinishEncapsulationHeaders p
  return { p with ipBytes := outer.ipBytes + inner.ipBytes }

/-- The address parser of the C library, one function per address family. -/
structure InetPton where
  inet : String → Option (Vector UInt8 4)
  inet6 : String → Option (Vector UInt8 16)

def appendStored (p : Packet) (type : HeaderType) (headerBytes : Nat)
    (store : Mem → Nat → Run (Except String Mem)) : Run (Except String Packet) := do
  match ← packetAppendHeader p type headerBytes with
  | none => return .error "too many headers"
  | some (p, i) =>
    let header ← deref (p.headers.toList[i]?.bind Header.ptr)
    match ← store p.buffer header with
    | .error e => return .error e
    | .ok buffer => return .ok { p with buffer }

theorem appendStored_eq (p : Packet) (type : HeaderType) (headerBytes : Nat)
    (store : Mem → Nat → Run (Except String Mem)) :
    appendStored p type headerBytes store =
      if packetHeaderCount p = packetMaxHeaders ∨ p.bufferBytes < p.ipBytes + headerBytes then
        .ok (.error "too many headers")
      else store p.buffer (p.l2HeaderBytes + p.ipBytes) >>= fun stored =>
        .ok (stored.map fun buffer => { appended p type headerBytes 0 with buffer }) := by
  have count : packetHeaderCount p ≤ packetMaxHeaders := by
    have bound := @List.findIdx_le_length _ (fun h : Header => h.type = .none) p.headers.toList
    rwa [Vector.length_toList] at bound
  rw [appendStored, packetAppendHeader, assertThat_ok count, ok_bind]
  by_cases full : packetHeaderCount p = packetMaxHeaders
  · rw [if_pos full, if_pos (.inl full)]
    rfl
  rw [if_neg full]
  by_cases long : p.bufferBytes < p.ipBytes + headerBytes
  · rw [if_pos long, if_pos (.inr long)]
    rfl
  rw [if_neg long, if_neg (by tauto)]
  have here : (appended p type headerBytes 0).headers.toList[packetHeaderCount p]?.bind Header.ptr =
      some (p.l2HeaderBytes + p.ipBytes) := by
    have inside : packetHeaderCount p < packetMaxHeaders := by omega
    simp [appended, updateHeader, inside]
  show (deref ((appended p type headerBytes 0).headers.toList[packetHeaderCount p]?.bind Header.ptr) >>= _) = _
  rw [here, deref, ok_bind]
  show (store p.buffer (p.l2HeaderBytes + p.ipBytes) >>= _) = _
  congr 1
  funext stored
  cases stored <;> rfl

def storeAddresses (name : String) (parse : String → Option (List UInt8)) (m : Mem) (src dst : Nat)
    (ipSrc ipDst : String) : Except String Mem :=
  match parse ipSrc with
  | none => .error ("bad " ++ name ++ " src address: '" ++ ipSrc ++ "'\n")
  | some srcIp =>
    match parse ipDst with
    | none => .error ("bad " ++ name ++ " dst address: '" ++ ipDst ++ "'\n")
    | some dstIp => .ok ((m.write src srcIp).write dst dstIp)

def ipv4HeaderAppend (inetPton : InetPton) (p : Packet) (ipSrc ipDst : String) (tos ttl : UInt8) :
    Run (Except String Packet) :=
  appendStored p .ipv4 20 fun m ip => do
    let m ← setIpHeader m ip .inet 0 tos.toNat 0 ttl.toNat 0
    return storeAddresses "IPv4" (fun s => (inetPton.inet s).map Vector.toList) m (ip + 12) (ip + 16) ipSrc ipDst

def ipv6HeaderAppend (inetPton : InetPton) (p : Packet) (ipSrc ipDst : String) (tos hopLimit : UInt8) :
    Run (Except String Packet) :=
  appendStored p .ipv6 40 fun m ip => do
    let m ← setIpHeader m ip .inet6 40 tos.toNat 0 hopLimit.toNat 0
    return storeAddresses "IPv6" (fun s => (inetPton.inet6 s).map Vector.toList) m (ip + 8) (ip + 24) ipSrc ipDst

/-- A `struct gre` is its flags, its protocol and three optional words. -/
abbrev Gre := Vector UInt8 16

def Gre.mem (gre : Gre) : Mem := .ofList gre.toList

def greHeaderAppend (p : Packet) (gre : Gre) : Run (Except String Packet) := do
  let length ← greLen gre.mem 0
  appendStored p .gre length fun m header => return .ok (m.copy header gre.mem 0 length)

def putStack (m : Mem) (p : Nat) : List UInt32 → Mem
  | [] => m
  | entry :: stack => putStack (m.putBe32 p entry.toNat) (p + 4) stack

def mplsHeaderAppend (p : Packet) (stack : List UInt32) : Run (Except String Packet) :=
  appendStored p .mpls (stack.length * 4) fun m mpls => return .ok (putStack m mpls stack)

inductive OuterHeader where
  | ipv4 (ipSrc ipDst : String) (tos ttl : UInt8)
  | ipv6 (ipSrc ipDst : String) (tos hopLimit : UInt8)
  | gre (header : Gre)
  | mpls (stack : List UInt32)

namespace OuterHeader

def type : OuterHeader → HeaderType
  | .ipv4 .. => .ipv4
  | .ipv6 .. => .ipv6
  | .gre _ => .gre
  | .mpls _ => .mpls

def append (inetPton : InetPton) (p : Packet) : OuterHeader → Run (Except String Packet)
  | .ipv4 ipSrc ipDst tos ttl => ipv4HeaderAppend inetPton p ipSrc ipDst tos ttl
  | .ipv6 ipSrc ipDst tos hopLimit => ipv6HeaderAppend inetPton p ipSrc ipDst tos hopLimit
  | .gre header => greHeaderAppend p header
  | .mpls stack => mplsHeaderAppend p stack

end OuterHeader

/-- Append the headers of a script in order; the first error ends the packet. -/
def appendHeaders (inetPton : InetPton) (p : Packet) : List OuterHeader → Run (Except String Packet)
  | [] => .ok (.ok p)
  | header :: headers => do
    match ← header.append inetPton p with
    | .error e => return .error e
    | .ok p => appendHeaders inetPton p headers

end TcpFuzz
