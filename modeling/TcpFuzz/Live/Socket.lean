import TcpFuzz.Packet.Encapsulate
import TcpFuzz.Packet.Icmp

/-! The part of `socket.h` that maps packets between script and live values. -/

namespace TcpFuzz
open Bytes Mem

abbrev IpAddress := Vector UInt8 16

def isEqualIp (family : Option AddressFamily) (a b : IpAddress) : Bool :=
  if family = some .inet then a.toList.take 4 = b.toList.take 4 else a = b

structure Endpoint where
  ip : IpAddress
  port : UInt16
deriving DecidableEq

structure Tuple where
  src : Endpoint
  dst : Endpoint
deriving DecidableEq

inductive SocketPhase where
  | init | new | passiveListening | passivePacketReceived | passiveSynackSent | passiveSynackAcked
  | activeConnecting | activeSynSent | activeSynAcked
deriving DecidableEq, Repr

structure SocketState where
  localEnd : Endpoint
  localIsn : UInt32
  remoteEnd : Endpoint
  remoteIsn : UInt32

structure Socket where
  state : SocketPhase
  script : SocketState
  live : SocketState
  /-- Outbound timestamp values, from scripted to live. -/
  tsValMap : UInt32 → Option UInt32
  lastInjectedTcpHeader : List UInt8
  lastInjectedTcpPayloadLen : UInt32

def socketGetInbound (s : SocketState) : Tuple := ⟨s.remoteEnd, s.localEnd⟩

def reverseTuple (t : Tuple) : Tuple := ⟨t.dst, t.src⟩

def setPorts (m : Mem) (l4 : Nat) (t : Tuple) : Mem :=
  (m.putBe16 l4 t.src.port.toNat).putBe16 (l4 + 2) t.dst.port.toNat

def setHeadersTuple (m : Mem) (ipv4 ipv6 tcp udp : Option Nat) (t : Tuple) : Run Mem := do
  let m ← match ipv4, ipv6 with
    | some ip, _ => .ok ((m.write (ip + 12) (t.src.ip.toList.take 4)).write (ip + 16) (t.dst.ip.toList.take 4))
    | none, some ip => .ok ((m.write (ip + 8) t.src.ip.toList).write (ip + 24) t.dst.ip.toList)
    | none, none => .error .assertion
  match tcp, udp with
  | some tcp, _ => return setPorts m tcp t
  | none, some udp => return setPorts m udp t
  | none, none => return m

def packetEchoedIpProtocol (p : Packet) : Run Nat :=
  match p.icmpv4, p.icmpv6 with
  | some icmp, _ => .ok (ipv4Protocol p.buffer (icmp + 8))
  | none, some icmp => .ok (ipv6NextHeader p.buffer (icmp + 8))
  | none, none => .error .assertion

def packetEchoedUdpHeader (p : Packet) : Run (Option Nat) := do
  let protocol ← packetEchoedIpProtocol p
  let ip ← packetEchoedIpHeader p
  return if protocol = 17 then some (ip + if p.icmpv4.isSome then 20 else 40) else none

def setIcmpEchoedTuple (p : Packet) (t : Tuple) : Run Packet := do
  let tcp ← packetEchoedTcpHeader p
  let udp ← packetEchoedUdpHeader p
  let buffer ← setHeadersTuple p.buffer (p.icmpv4.map (· + 8)) (p.icmpv6.map (· + 8)) tcp udp (reverseTuple t)
  return { p with buffer }

def setPacketTuple (p : Packet) (t : Tuple) : Run Packet := do
  let buffer ← setHeadersTuple p.buffer p.ipv4 p.ipv6 p.tcp p.udp t
  let p := { p with buffer }
  if p.icmpv4.isSome ∨ p.icmpv6.isSome then setIcmpEchoedTuple p t else return p

def remoteSeqScriptToLiveOffset (s : Socket) (isSyn : Bool) : UInt32 := if isSyn then 0 else s.live.remoteIsn

def remoteSeqLiveToScriptOffset (s : Socket) (isSyn : Bool) : UInt32 := -remoteSeqScriptToLiveOffset s isSyn

def localSeqScriptToLiveOffset (s : Socket) (isSyn : Bool) : UInt32 :=
  if isSyn then s.live.localIsn - s.script.localIsn else s.live.localIsn

def localSeqLiveToScriptOffset (s : Socket) (isSyn : Bool) : UInt32 := -localSeqScriptToLiveOffset s isSyn

end TcpFuzz
