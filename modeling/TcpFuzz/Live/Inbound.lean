import TcpFuzz.Live.Mapping

/-! `do_inbound_script_packet`: fill the payload of the script packet, map a copy to live values and send the copy. -/

namespace TcpFuzz
open Bytes Mem

structure Config where
  isAnyip : Bool
  liveRemoteIp : IpAddress
  liveLocalIp : IpAddress
  liveConnectPort : UInt16
  liveBindPort : UInt16

def inboundHandshake (s : Socket) (p : Packet) : Socket :=
  match p.tcp with
  | none => s
  | some tcp =>
    if s.state = .passiveSynackSent ∧ tcpAck p.buffer tcp then { s with state := .passiveSynackAcked }
    else if s.state = .activeSynSent ∧ tcpSyn p.buffer tcp ∧ tcpAck p.buffer tcp then
      let seq := UInt32.ofNat (tcpSeq p.buffer tcp)
      { s with
        state := .activeSynAcked
        script := { s.script with remoteIsn := seq }
        live := { s.live with remoteIsn := seq } }
    else s

def Endpoint.orPort (e : Endpoint) (ip : IpAddress) (port : UInt16) : Endpoint :=
  ⟨ip, if e.port = 0 then port else e.port⟩

/-- With any-IP configured, datagrams may arrive before the socket has sent anything. -/
def fillAnyip (config : Config) (s : Socket) (p : Packet) : Socket :=
  if config.isAnyip ∧ (p.udp.isSome ∨ p.icmpv4.isSome ∨ p.icmpv6.isSome) then
    { s with live := { s.live with
        remoteEnd := s.live.remoteEnd.orPort config.liveRemoteIp config.liveConnectPort
        localEnd := s.live.localEnd.orPort config.liveLocalIp config.liveBindPort } }
  else s

/-- The loop that fills the payload. It reads the sequence number as the host stores it, without
`ntohl`, and adds to it in 32 bits. -/
def fillLoop (tcp : Nat) (m : Mem) (i j : Nat) : Nat → Mem
  | 0 => m
  | n + 1 => fillLoop tcp (m.put8 i ((m.le32 (tcp + 4) + j) % 2 ^ 32 % 10)) (i + 1) (j + 1) n

def fillPayload (p : Packet) : Run Packet := do
  let tcp ← deref p.tcp
  let i := 20 + tcpDoff p.buffer tcp * 4
  return { p with buffer := fillLoop tcp p.buffer i 0 (p.bufferBytes - i) }

def sendLiveIpPacket (live : Packet) : Run Packet := do
  assertThat (0 < live.ipBytes)
  assertThat (live.ipv4.isSome ∨ live.ipv6.isSome)
  assertThat (live.tcp.isSome ∨ live.udp.isSome ∨ live.icmpv4.isSome ∨ live.icmpv6.isSome)
  checksumPacket live

def rememberInjected (s : Socket) (live : Packet) : Run Socket :=
  match live.tcp with
  | none => .ok s
  | some tcp => do
    let payload ← packetPayloadLen live
    return { s with
      lastInjectedTcpHeader := live.buffer.bytes tcp 20
      lastInjectedTcpPayloadLen := UInt32.ofInt payload }

/-- The socket and the script packet afterwards, and the packet handed to the device or the error. -/
structure Injection where
  socket : Socket
  packet : Packet
  sent : Except String Packet

def doInboundScriptPacket (allocated : Mem) (config : Config) (s : Socket) (p : Packet) : Run Injection := do
  let s := fillAnyip config (inboundHandshake s p) p
  let p ← fillPayload p
  let live ← packetCopy allocated p
  match ← mapInboundPacket s live with
  | .error e => return ⟨s, p, .error e⟩
  | .ok live =>
    let s ← rememberInjected s live
    return ⟨s, p, .ok (← sendLiveIpPacket live)⟩

end TcpFuzz
