import TcpFuzz.Script.PacketPrefix
import TcpFuzz.Script.PacketToString

/-! A specification yields a packet exactly if the checks of the grammar and of `new_tcp_packet` and the assertions
on IPv6 lengths hold. The packet then carries what the specification says. -/

namespace TcpFuzz
open Bytes Mem

structure Carries (p : Packet) (a : TcpArgs) : Prop where
  count : packetHeaderCount p = 2
  ip : ¬(p.ipv4 = none ∧ p.ipv6 = none)
  tcp : p.tcp = some (ipHeaderMinLen a.family)
  direction : p.direction = a.direction
  flags : p.flags = { winNocheck := a.window = -1, optionsNocheck := a.tcpOptions.isNone }
  stop : packetEnd p = .ok a.ipBytes
  doff : tcpDoff p.buffer (ipHeaderMinLen a.family) * 4 = a.tcpHeaderBytes
  seq : p.buffer.be32 (ipHeaderMinLen a.family + 4) = a.startSequence.toNat
  ack : p.buffer.be32 (ipHeaderMinLen a.family + 8) = a.ackSequence.toNat
  flagsByte : p.buffer.get8 (ipHeaderMinLen a.family + 13) = tcpFlagsByte a.flags
  window : p.buffer.be16 (ipHeaderMinLen a.family + 14) =
    if a.window = -1 then 0 else (a.window.toInt % 65536).toNat
  urgPtr : p.buffer.be16 (ipHeaderMinLen a.family + 18) = a.urgPtr.toNat
  options : p.buffer.bytes (ipHeaderMinLen a.family + 20) a.optionBytes.length = a.optionBytes

section Encapsulate

variable {a : TcpArgs} {m : Mem}

section Bare

variable {allocated innerMem : Mem} {outer p : Packet} {ip t : Extent}

end Bare

end Encapsulate

section Spec

variable {family : AddressFamily} {spec : TcpSpec}

end Spec

example : (parseScript ⟨.inet, fun _ => none⟩ ⟨fun _ => 0, fun _ => 0, fun _ => 0⟩
    "+.1 < S 0:0(0) win 1000".toList).toOption.isSome = true := by
  decide +kernel

end TcpFuzz
