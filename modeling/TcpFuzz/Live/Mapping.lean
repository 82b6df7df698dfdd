import TcpFuzz.Live.Socket
import TcpFuzz.Tcp.OptionWalk

/-! The functions of `run_packet.c` that map packets between script and live values. Sequence numbers are in network
order, so that adding an offset is adding it to the big-endian value. -/

namespace TcpFuzz
open Bytes Mem

def tcpSyn (m : Mem) (tcp : Nat) : Bool := m.get8 (tcp + 13) / 2 % 2 = 1
def tcpAck (m : Mem) (tcp : Nat) : Bool := m.get8 (tcp + 13) / 16 % 2 = 1
def tcpSeq (m : Mem) (tcp : Nat) : Nat := m.be32 (tcp + 4)

inductive Status where
  | ok
  | err
deriving DecidableEq, Repr

/-- The live value of an outbound timestamp; one that was never seen stays the zero that the caller
has put there, and the lookup reports success either way. -/
def getOutboundTsValMapping (s : Socket) (scriptTimestamp : UInt32) : Status × UInt32 :=
  (.ok, (s.tsValMap scriptTimestamp).getD 0)

def mapInboundIcmpTcpPacket (s : Socket) (live : Packet) : Run Packet := do
  let seq ← packetEchoedTcpSeq live
  return { live with buffer := addSeq live.buffer seq (localSeqScriptToLiveOffset s false) }

def mapInboundIcmpPacket (s : Socket) (live : Packet) : Run Packet := do
  if live.echoedHeader then
    let protocol ← packetEchoedIpProtocol live
    if protocol = 6 then mapInboundIcmpTcpPacket s live
    else if protocol = 17 then return live
    else .error .assertion
  else return live

/-- The ports that a packet carries before its tuple is set are put back, unless they are zero. -/
def restorePorts (m m' : Mem) (l4 : Nat) : Mem :=
  let m' := if m.be16 l4 ≠ 0 then m'.putBe16 l4 (m.be16 l4) else m'
  if m.be16 (l4 + 2) ≠ 0 then m'.putBe16 (l4 + 2) (m.be16 (l4 + 2)) else m'

def mapTuple (s : Socket) (live : Packet) : Run Packet := do
  let mapped ← setPacketTuple live (socketGetInbound s.live)
  match live.tcp, live.udp with
  | some l4, _ | none, some l4 => return { mapped with buffer := restorePorts live.buffer mapped.buffer l4 }
  | none, none => return mapped

def offsetSeqNumbers (p : Packet) (tcp : Nat) (seqOffset ackOffset : UInt32) : Run (Except String Packet) :=
  let m := addSeq p.buffer (tcp + 4) seqOffset
  let m := if tcpAck m tcp then addSeq m (tcp + 8) ackOffset else m
  offsetSackBlocks { p with buffer := m } ackOffset

def packetTs (p : Packet) (field : Nat) : UInt32 := UInt32.ofNat (p.buffer.be32 field)

/-- The three ways to map an echo that was found in an acknowledgment, and the error of the last. The
baseline is the first script and actual timestamp, if echoes are scaled and there is one. -/
def remapTsEcr (s : Socket) (baseline : Option (UInt32 × UInt32)) (live : Packet) (ecr : Nat) : Packet × Option String :=
  let scriptTsEcr := packetTs live ecr
  let store (tsEcr : UInt32) : Packet := { live with buffer := live.buffer.putBe32 ecr tsEcr.toNat }
  match getOutboundTsValMapping s scriptTsEcr, baseline with
  | (.ok, liveTsEcr), _ => (store liveTsEcr, none)
  | (.err, _), some (firstScriptTsVal, firstActualTsVal) =>
    (store (scriptTsEcr - firstScriptTsVal + firstActualTsVal), none)
  | (.err, _), none =>
    (live, some (s!"unable to infer live TS ecr for script TS ecr {scriptTsEcr};  " ++
      "no matching or preceding outound TS val"))

/-- Any baseline will do: the lookup does not fail. -/
def mapTsEcr (s : Socket) (live : Packet) (tcp : Nat) : Packet :=
  match live.tcpTsEcr with
  | some ecr => if tcpAck live.buffer tcp then (remapTsEcr s none live ecr).1 else live
  | none => live

def mapTimestamp (s : Socket) (live : Packet) (tcp : Nat) : Run (Except String Packet) := do
  let found ← if tcpSyn live.buffer tcp ∨ tcpSeq live.buffer tcp < 3 then findTcpTimestamp live else .ok (.ok live)
  match found with
  | .error e => return .error e
  | .ok live => return .ok (mapTsEcr s live tcp)

def mapInboundTcp (s : Socket) (live : Packet) (tcp : Nat) : Run (Except String Packet) := do
  let isSyn := tcpSyn live.buffer tcp
  match ← offsetSeqNumbers live tcp (remoteSeqScriptToLiveOffset s isSyn) (localSeqScriptToLiveOffset s isSyn) with
  | .error e => return .error e
  | .ok live => mapTimestamp s live tcp

def mapInboundPacket (s : Socket) (live : Packet) : Run (Except String Packet) := do
  let live ← mapTuple s live
  if live.icmpv4.isSome ∨ live.icmpv6.isSome then
    return .ok (← mapInboundIcmpPacket s live)
  match live.tcp with
  | none => return .ok live
  | some tcp => mapInboundTcp s live tcp

def tcpConvertSeqNumber (s : Socket) (p : Packet) : Run (Except String Packet) := do
  let tcp ← deref p.tcp
  let isSyn := tcpSyn p.buffer tcp
  offsetSeqNumbers p tcp (localSeqLiveToScriptOffset s isSyn) (remoteSeqLiveToScriptOffset s isSyn)

theorem restorePorts_frame (m m' : Mem) {l4 j : Nat} (apart : j < l4 ∨ l4 + 4 ≤ j) :
    (restorePorts m m' l4).get8 j = m'.get8 j := by
  unfold restorePorts
  split <;> split <;> simp (disch := omega) only [get8_putBe16_ne]

def headerOffset (m : Mem) (tcp : Nat) (seqOffset ackOffset : UInt32) : Mem :=
  let m := addSeq m (tcp + 4) seqOffset
  if tcpAck m tcp then addSeq m (tcp + 8) ackOffset else m

structure SeqOffset (m : Mem) (tcp : Nat) (seqOffset : UInt32) (m' : Mem) : Prop where
  seq : tcpSeq m' tcp = (tcpSeq m tcp + seqOffset.toNat) % 2 ^ 32
  frame : ∀ j, j < tcp + 4 ∨ tcp + 12 ≤ j → m'.get8 j = m.get8 j

theorem headerOffset_seqOffset (m : Mem) (tcp : Nat) (seqOffset ackOffset : UInt32) :
    SeqOffset m tcp seqOffset (headerOffset m tcp seqOffset ackOffset) := by
  simp only [headerOffset]
  split
  · refine ⟨?_, fun j apart => ?_⟩
    · unfold tcpSeq
      rw [be32_addSeq_ne _ (by omega), be32_addSeq_self]
    · rw [get8_addSeq_ne _ (by omega), get8_addSeq_ne _ (by omega)]
  · exact ⟨be32_addSeq_self _ _, fun j apart => get8_addSeq_ne _ (by omega)⟩

theorem offsetSeqNumbers_run {p : Packet} {tcp : Nat} (found : p.tcp = some tcp) (seqOffset ackOffset : UInt32) :
    offsetSeqNumbers p tcp seqOffset ackOffset =
      .ok ((forOptions id (tcp + tcpDoff p.buffer tcp * 4) (offsetSackOption ackOffset)
        (headerOffset p.buffer tcp seqOffset ackOffset) (tcp + 20)).map fun buffer => { p with buffer }) := by
  have doff : tcpDoff (headerOffset p.buffer tcp seqOffset ackOffset) tcp = tcpDoff p.buffer tcp := by
    unfold tcpDoff
    rw [(headerOffset_seqOffset p.buffer tcp seqOffset ackOffset).frame _ (by omega)]
  have begins : tcpOptionsBegin { p with buffer := headerOffset p.buffer tcp seqOffset ackOffset } =
      .ok (tcp + 20, tcp + tcpDoff p.buffer tcp * 4) := by
    simp only [tcpOptionsBegin, packetPayload, found, requirePtr, doff, ok_bind, run_pure]
  show offsetSackBlocks { p with buffer := headerOffset p.buffer tcp seqOffset ackOffset } ackOffset = _
  rw [offsetSackBlocks, begins, ok_bind]
  dsimp only
  cases forOptions id (tcp + tcpDoff p.buffer tcp * 4) (offsetSackOption ackOffset)
    (headerOffset p.buffer tcp seqOffset ackOffset) (tcp + 20) <;> rfl

theorem offsetSeqNumbers_eq {p : Packet} {tcp : Nat} (found : p.tcp = some tcp) (seqOffset ackOffset : UInt32) :
    ∃ m, SeqOffset p.buffer tcp seqOffset m ∧ offsetSeqNumbers p tcp seqOffset ackOffset =
      .ok ((forOptions id (tcp + tcpDoff p.buffer tcp * 4) (offsetSackOption ackOffset) m (tcp + 20)).map
        fun buffer => { p with buffer }) :=
  ⟨_, headerOffset_seqOffset p.buffer tcp seqOffset ackOffset, offsetSeqNumbers_run found seqOffset ackOffset⟩

theorem offsetSeqNumbers_seq {p q : Packet} {tcp : Nat} {seqOffset ackOffset : UInt32} (found : p.tcp = some tcp)
    (offset : offsetSeqNumbers p tcp seqOffset ackOffset = .ok (.ok q)) :
    q.tcp = some tcp ∧ tcpSeq q.buffer tcp = (tcpSeq p.buffer tcp + seqOffset.toNat) % 2 ^ 32 := by
  obtain ⟨m, moved, numbers⟩ := offsetSeqNumbers_eq found seqOffset ackOffset
  rw [numbers] at offset
  rcases sackLoop m (tcp + tcpDoff p.buffer tcp * 4) (tcp + 20) ackOffset with ⟨-, failed⟩ | ⟨-, m', done, sacks⟩
  · rw [failed] at offset
    cases offset
  · rw [done] at offset
    cases offset
    refine ⟨found, ?_⟩
    rw [← moved.seq]
    -- SACK blocks lie in options, which start behind the header
    apply be32_of_get8
    intro j _ early
    apply sacks.frame
    intro o member block
    have := optionOffsets_bounds o member
    have := block.1
    omega

end TcpFuzz
