import TcpFuzz.Live.HashMap
import TcpFuzz.Live.Outbound
import TcpFuzz.Live.Translation

/-! `map_outbound_live_packet` remembers which live timestamp stood for a script timestamp, and `map_inbound_packet`
looks the echo of an acknowledgment up there. -/

namespace TcpFuzz
open Bytes Mem

structure Timestamps where
  tsValMap : HashMap
  foundFirstTcpTs : Bool
  firstScriptTsVal : UInt32
  firstActualTsVal : UInt32
  firstScriptTsEcr : UInt32
  firstActualTsEcr : UInt32

def newTimestamps : Timestamps := ⟨hashMapNew 1, false, 0, 0, 0, 0⟩

def socketGetOutbound (s : SocketState) : Tuple := ⟨s.localEnd, s.remoteEnd⟩

def ipFromBytes (bytes : List UInt8) : IpAddress := Vector.ofFn fun i => bytes.getD i 0

def getPacketTuple (p : Packet) : Run Tuple := do
  let (src, dst) ← match p.ipv4, p.ipv6 with
    | some ip, _ => .ok (ipFromBytes (p.buffer.bytes (ip + 12) 4), ipFromBytes (p.buffer.bytes (ip + 16) 4))
    | none, some ip => .ok (ipFromBytes (p.buffer.bytes (ip + 8) 16), ipFromBytes (p.buffer.bytes (ip + 24) 16))
    | none, none => .error .assertion
  match p.tcp, p.udp with
  | some l4, _ | none, some l4 =>
    return ⟨⟨src, UInt16.ofNat (p.buffer.be16 l4)⟩, ⟨dst, UInt16.ofNat (p.buffer.be16 (l4 + 2))⟩⟩
  | none, none => return ⟨⟨src, 0⟩, ⟨dst, 0⟩⟩

section

variable (hash : UInt32 → UInt32)

/-- Remember the pair of a script and an actual timestamp; the first pair is the baseline. -/
def Timestamps.record (t : Timestamps) (scriptTsVal actualTsVal scriptTsEcr actualTsEcr : UInt32) : Timestamps :=
  let tsValMap := hashMapSet hash t.tsValMap scriptTsVal actualTsVal
  if t.foundFirstTcpTs then { t with tsValMap }
  else ⟨tsValMap, true, scriptTsVal, actualTsVal, scriptTsEcr, actualTsEcr⟩

/-- The timestamps that were found in both packets; both fields of an option are found together. -/
def mapOutboundTimestamp (t : Timestamps) (actual script : Packet) : Run (Timestamps × Packet) :=
  match script.tcpTsVal, actual.tcpTsVal with
  | some scriptVal, some actualVal => do
    let scriptEcr ← deref script.tcpTsEcr
    let actualEcr ← deref actual.tcpTsEcr
    let t := t.record hash (packetTs script scriptVal) (packetTs actual actualVal) (packetTs script scriptEcr)
      (packetTs actual actualEcr)
    let tsVal := t.firstScriptTsVal + (packetTs actual actualVal - t.firstActualTsVal)
    return (t, { actual with buffer := actual.buffer.putBe32 actualVal tsVal.toNat })
  | _, _ => return (t, actual)

/-- For an ICMP socket only the addresses have to be the ones of the socket. -/
def mapOutboundLivePacket (s : Socket) (isIcmp : Bool) (t : Timestamps) (live actual script : Packet) :
    Run (Except String (Timestamps × Packet)) := do
  let tuple ← getPacketTuple live
  let outbound := socketGetOutbound s.live
  assertThat (if isIcmp then tuple.src.ip = outbound.src.ip ∧ tuple.dst.ip = outbound.dst.ip else tuple = outbound)
  let actual ← setPacketTuple actual (socketGetOutbound s.script)
  if live.tcp = none then return .ok (t, actual)
  match ← findTcpTimestamp script, ← findTcpTimestamp actual with
  | .ok script, .ok actual => return .ok (← mapOutboundTimestamp hash t actual script)
  | .error e, _ | _, .error e => return .error e

structure OutboundCall where
  socket : Socket
  isIcmp : Bool
  live : Packet
  actual : Packet
  script : Packet

def runOutbound (t : Timestamps) : List OutboundCall → Run Timestamps
  | [] => return t
  | call :: calls => do
    match ← mapOutboundLivePacket hash call.socket call.isIcmp t call.live call.actual call.script with
    | .ok (t, _) => runOutbound t calls
    | .error _ => runOutbound t calls

end

def timestampPair (actual script : Packet) : Option (UInt32 × UInt32) :=
  match script.tcpTsVal, actual.tcpTsVal with
  | some scriptVal, some actualVal => some (packetTs script scriptVal, packetTs actual actualVal)
  | _, _ => none

/-- The pair that a call remembers: the timestamps are looked for in a TCP segment, after its
addresses have been mapped. -/
def OutboundCall.stamp (call : OutboundCall) : Option (UInt32 × UInt32) :=
  match call.live.tcp, setPacketTuple call.actual (socketGetOutbound call.socket.script) with
  | some _, .ok actual =>
    match findTcpTimestamp call.script, findTcpTimestamp actual with
    | .ok (.ok script), .ok (.ok actual) => timestampPair actual script
    | _, _ => none
  | _, _ => none

def latestStamp (e : UInt32) (stamps : List (UInt32 × UInt32)) : Option UInt32 :=
  stamps.reverse.findSome? fun stamp => if stamp.1 = e then some stamp.2 else none

section History

variable {hash : UInt32 → UInt32} {t t' : Timestamps}

theorem Timestamps.record_map (t : Timestamps) (scriptTsVal actualTsVal scriptTsEcr actualTsEcr : UInt32) :
    (t.record hash scriptTsVal actualTsVal scriptTsEcr actualTsEcr).tsValMap =
      hashMapSet hash t.tsValMap scriptTsVal actualTsVal := by
  unfold record
  split <;> rfl

def setStamp (hash : UInt32 → UInt32) (map : HashMap) : Option (UInt32 × UInt32) → HashMap
  | some (scriptTsVal, actualTsVal) => hashMapSet hash map scriptTsVal actualTsVal
  | none => map

theorem mapOutboundTimestamp_map {actual script actual' : Packet}
    (mapped : mapOutboundTimestamp hash t actual script = .ok (t', actual')) :
    t'.tsValMap = setStamp hash t.tsValMap (timestampPair actual script) := by
  unfold mapOutboundTimestamp at mapped
  unfold timestampPair
  split at mapped
  · next scriptVal actualVal inScript inActual =>
    obtain ⟨scriptEcr, -, mapped⟩ := run_bind_ok mapped
    obtain ⟨actualEcr, -, mapped⟩ := run_bind_ok mapped
    cases mapped
    exact t.record_map _ _ _ _
  · cases mapped
    rfl

theorem mapOutboundLivePacket_map {call : OutboundCall} {result : Except String (Timestamps × Packet)}
    (returned : mapOutboundLivePacket hash call.socket call.isIcmp t call.live call.actual call.script = .ok result) :
    ∃ t' actual, result = .ok (t', actual) ∧ t'.tsValMap = setStamp hash t.tsValMap call.stamp := by
  unfold mapOutboundLivePacket at returned
  obtain ⟨tuple, -, returned⟩ := run_bind_ok returned
  obtain ⟨-, -, returned⟩ := run_bind_ok returned
  obtain ⟨actual, addressed, returned⟩ := run_bind_ok returned
  unfold OutboundCall.stamp
  rw [addressed]
  cases tcp : call.live.tcp with
  | none =>
    rw [if_pos tcp] at returned
    cases returned
    exact ⟨t, actual, rfl, rfl⟩
  | some l4 =>
    rw [if_neg (by rw [tcp]; exact Option.some_ne_none l4)] at returned
    obtain ⟨found, inScript, returned⟩ := run_bind_ok returned
    obtain ⟨found', inActual, returned⟩ := run_bind_ok returned
    rw [inScript]
    dsimp only
    rw [inActual]
    cases found with
    | error e =>
      obtain ⟨q, other⟩ := findTcpTimestamp_returns inScript
      cases other
    | ok script =>
      cases found' with
      | error e =>
        obtain ⟨q, other⟩ := findTcpTimestamp_returns inActual
        cases other
      | ok actual =>
        obtain ⟨⟨t', actual'⟩, mapped, returned⟩ := run_bind_ok returned
        cases returned
        exact ⟨t', actual', rfl, mapOutboundTimestamp_map mapped⟩

theorem runOutbound_latest {calls : List OutboundCall} (valid : t.tsValMap.Valid hash)
    (returned : runOutbound hash t calls = .ok t') (e : UInt32) :
    hashMapGet hash t'.tsValMap e = (latestStamp e (calls.filterMap OutboundCall.stamp)).or (hashMapGet hash t.tsValMap e) := by
  induction calls generalizing t with
  | nil =>
    cases returned
    rfl
  | cons call calls ih =>
    obtain ⟨result, mapped, returned⟩ := run_bind_ok returned
    obtain ⟨t₁, actual, rfl, table⟩ := mapOutboundLivePacket_map mapped
    cases stamp : call.stamp with
    | none =>
      rw [stamp] at table
      have same : t₁.tsValMap = t.tsValMap := table
      rw [← same] at valid ⊢
      rw [List.filterMap_cons_none stamp]
      exact ih valid returned
    | some pair =>
      obtain ⟨scriptTsVal, actualTsVal⟩ := pair
      rw [stamp] at table
      obtain ⟨valid', same⟩ := hashMapSet_spec valid scriptTsVal actualTsVal
      rw [← show t₁.tsValMap = hashMapSet hash t.tsValMap scriptTsVal actualTsVal from table] at valid' same
      rw [ih valid' returned, same, List.filterMap_cons_some stamp, latestStamp, latestStamp, List.reverse_cons,
        List.findSome?_append]
      by_cases key : scriptTsVal = e
      · subst key
        simp
      · simp [key, Ne.symm key]

end History

/-- The echo of an acknowledgment in which the timestamp is looked for becomes the live timestamp
of the most recent outbound segment whose script timestamp it is, or zero if there is none. The
baseline is never used and the remapping sets no error. -/
theorem mapInboundPacket_echo (hash : UInt32 → UInt32) {calls : List OutboundCall} {t : Timestamps}
    (history : runOutbound hash newTimestamps calls = .ok t) {s : Socket} (table : s.tsValMap = hashMapGet hash t.tsValMap)
    {p live q : Packet} {tcp o : Nat} (addressed : mapTuple s p = .ok live) (icmpv4 : live.icmpv4 = none)
    (icmpv6 : live.icmpv6 = none) (found : live.tcp = some tcp)
    (offset : offsetSeqNumbers live tcp (remoteSeqScriptToLiveOffset s (tcpSyn live.buffer tcp))
      (localSeqScriptToLiveOffset s (tcpSyn live.buffer tcp)) = .ok (.ok q))
    (ack : tcpAck q.buffer tcp = true) (looked : tcpSyn q.buffer tcp = true ∨ tcpSeq q.buffer tcp < 3)
    (stamped : lastTimestamp q.buffer (optionsEnd q.buffer tcp) (tcp + 20) = some o) :
    let e := packetTs q (o + 6)
    let liveTsEcr := (latestStamp e (calls.filterMap OutboundCall.stamp)).getD 0
    let r := { q with buffer := q.buffer.putBe32 (o + 6) liveTsEcr.toNat, tcpTsVal := some (o + 2), tcpTsEcr := some (o + 6) }
    mapInboundPacket s p = .ok (.ok r) ∧
      ∀ baseline, remapTsEcr s baseline { q with tcpTsVal := some (o + 2), tcpTsEcr := some (o + 6) } (o + 6) = (r, none) := by
  intro e liveTsEcr r
  have lookup : (hashMapGet hash t.tsValMap e).getD 0 = liveTsEcr := by
    rw [runOutbound_latest (hashMapNew_valid hash 1) history e]
    rw [show hashMapGet hash newTimestamps.tsValMap e = none from congrFun (hashMapGet_new hash 1) e, Option.or_none]
  have kept : q.tcp = some tcp := by
    rw [offsetSeqNumbers_run found] at offset
    cases done : forOptions id (tcp + tcpDoff live.buffer tcp * 4)
      (offsetSackOption (localSeqScriptToLiveOffset s (tcpSyn live.buffer tcp)))
      (headerOffset live.buffer tcp (remoteSeqScriptToLiveOffset s (tcpSyn live.buffer tcp))
        (localSeqScriptToLiveOffset s (tcpSyn live.buffer tcp))) (tcp + 20) with
    | error e =>
      rw [done] at offset
      cases offset
    | ok m =>
      rw [done] at offset
      cases offset
      exact found
  have remapped (baseline : Option (UInt32 × UInt32)) :
      remapTsEcr s baseline { q with tcpTsVal := some (o + 2), tcpTsEcr := some (o + 6) } (o + 6) = (r, none) := by
    simp only [remapTsEcr, getOutboundTsValMapping, table]
    rw [show packetTs { q with tcpTsVal := some (o + 2), tcpTsEcr := some (o + 6) } (o + 6) = e from rfl, lookup]
  refine ⟨?_, remapped⟩
  rw [mapInboundPacket_tcp addressed icmpv4 icmpv6 found, mapInboundTcp, offset, ok_bind]
  simp only [mapTimestamp, if_pos looked]
  rw [findTcpTimestamp_eq kept, ok_bind]
  show (Except.ok (Except.ok (mapTsEcr s _ tcp)) : Run (Except String Packet)) = _
  have stamped' : lastTimestamp q.buffer (tcp + tcpDoff q.buffer tcp * 4) (tcp + 20) = some o := stamped
  rw [stamped']
  simp only [mapTsEcr, Option.map_some, ack, if_true, remapped]

def stampedSegment (val ecr : UInt8) : Packet :=
  let bytes := twoByteSegment [8, 10, 0, 0, 0, val, 0, 0, 0, ecr, 1, 1] [1, 2]
  { packetNew (.ofList bytes) bytes.length with ipv4 := some 0, tcp := some 20 }

def stampedSocket (tsValMap : UInt32 → Option UInt32) : Socket where
  state := .passiveSynackAcked
  script := ⟨⟨Vector.replicate 16 0, 0⟩, 0, ⟨Vector.replicate 16 0, 0⟩, 0⟩
  live := ⟨⟨ipFromBytes [1, 1, 1, 1], 7⟩, 0, ⟨ipFromBytes [2, 2, 2, 2], 8⟩, 0⟩
  tsValMap
  lastInjectedTcpHeader := []
  lastInjectedTcpPayloadLen := 0

def stampedCall (actualVal : UInt8) : OutboundCall where
  socket := stampedSocket fun _ => none
  isIcmp := false
  live := stampedSegment actualVal 0
  actual := stampedSegment actualVal 0
  script := stampedSegment 5 0

def mappedNumbers (s : Socket) (p : Packet) (tcp : Nat) : Option (Packet × Packet) := do
  let live ← (mapTuple s p).toOption
  let q ← (offsetSeqNumbers live tcp (remoteSeqScriptToLiveOffset s (tcpSyn live.buffer tcp))
    (localSeqScriptToLiveOffset s (tcpSyn live.buffer tcp))).toOption
  return (live, ← q.toOption)

theorem mappedNumbers_eq {s : Socket} {p live q : Packet} {tcp : Nat} (mapped : mappedNumbers s p tcp = some (live, q)) :
    mapTuple s p = .ok live ∧ offsetSeqNumbers live tcp (remoteSeqScriptToLiveOffset s (tcpSyn live.buffer tcp))
      (localSeqScriptToLiveOffset s (tcpSyn live.buffer tcp)) = .ok (.ok q) := by
  simp only [mappedNumbers, Option.bind_eq_bind, Option.bind_eq_some_iff, Option.pure_def, Option.some.injEq,
    Prod.mk.injEq] at mapped
  obtain ⟨live', first, outcome, second, q', third, rfl, rfl⟩ := mapped
  exact ⟨eq_ok_of_toOption first, (eq_ok_of_toOption second).trans (congrArg _ (eq_ok_of_toOption third))⟩

/-- Two segments with the same script timestamp: the echo becomes the live one of the second. -/
theorem mapInboundPacket_echo_second :
    ∃ t r, runOutbound id newTimestamps [stampedCall 100, stampedCall 200] = .ok t ∧
      mapInboundPacket (stampedSocket (hashMapGet id t.tsValMap)) (stampedSegment 1 5) = .ok (.ok r) ∧
      r.buffer.be32 46 = 200 := by
  have evaluated : (runOutbound id newTimestamps [stampedCall 100, stampedCall 200]).toOption.map (fun t =>
      (mappedNumbers (stampedSocket (hashMapGet id t.tsValMap)) (stampedSegment 1 5) 20).map fun r => decide
        (r.1.icmpv4 = none ∧ r.1.icmpv6 = none ∧ r.1.tcp = some 20 ∧ tcpAck r.2.buffer 20 = true ∧
          tcpSeq r.2.buffer 20 < 3 ∧ lastTimestamp r.2.buffer (optionsEnd r.2.buffer 20) (20 + 20) = some 40 ∧
          (latestStamp (packetTs r.2 (40 + 6)) ([stampedCall 100, stampedCall 200].filterMap OutboundCall.stamp)).getD 0 = 200)) =
      some (some true) := by
    decide +kernel
  obtain ⟨t, history, facts⟩ := ok_of_toOption evaluated
  obtain ⟨⟨live, q⟩, mapped, facts⟩ := Option.map_eq_some_iff.mp facts
  obtain ⟨icmpv4, icmpv6, tcp, ack, seq, stamped, latest⟩ := of_decide_eq_true facts
  obtain ⟨addressed, offset⟩ := mappedNumbers_eq mapped
  obtain ⟨echoed, -⟩ := mapInboundPacket_echo id history rfl addressed icmpv4 icmpv6 tcp offset ack (.inr seq) stamped
  refine ⟨t, _, history, echoed, ?_⟩
  rw [latest]
  exact be32_putBe32_self _ _ _

theorem unmatched_echo_zeroed :
    ∃ r, mapInboundPacket (stampedSocket (hashMapGet id newTimestamps.tsValMap)) (stampedSegment 1 5) = .ok (.ok r) ∧
      (stampedSegment 1 5).buffer.be32 46 = 5 ∧ r.buffer.be32 46 = 0 ∧
      ∀ baseline, (remapTsEcr (stampedSocket (hashMapGet id newTimestamps.tsValMap)) baseline (stampedSegment 1 5) 46).2 = none := by
  have evaluated : (mapInboundPacket (stampedSocket (hashMapGet id newTimestamps.tsValMap)) (stampedSegment 1 5)).toOption.map
      (fun outcome => outcome.toOption.map fun r => decide (r.buffer.be32 46 = 0)) = some (some true) := by
    decide +kernel
  obtain ⟨outcome, mapped, facts⟩ := ok_of_toOption evaluated
  obtain ⟨r, found, zero⟩ := Option.map_eq_some_iff.mp facts
  rw [eq_ok_of_toOption found] at mapped
  exact ⟨r, mapped, by decide, of_decide_eq_true zero, fun _ => rfl⟩

end TcpFuzz
