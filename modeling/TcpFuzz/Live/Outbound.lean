import Mathlib.Data.List.GetD
import TcpFuzz.Live.Mapping
import TcpFuzz.Tcp.OptionAccess
import TcpFuzz.Packet.Lengths

/-! `syscall_write` numbers the bytes it writes, and `validate_outbound_packet` compares the payload of each sniffed
segment with the numbers that its sequence number stands for. -/

namespace TcpFuzz
open Bytes Mem

variable {m : Mem} {n tcp k : Nat} {live : Packet}

/-- A `write` on a buffer of `count` bytes and its result; what is accepted is a prefix of the buffer. -/
structure WriteCall where
  count : Nat
  result : Int
  accepted : 0 < result → result ≤ count

def writeBuffer (total : UInt64) (count : Nat) : List UInt8 :=
  (List.range count).map fun i => UInt8.ofNat ((i + total.toNat) % 2 ^ 64 % 10)

def syscallWrite (total : UInt64) (w : WriteCall) : UInt64 :=
  if 0 < w.result then total + UInt64.ofNat w.result.toNat else total

def runWrites (total : UInt64) : List WriteCall → UInt64 × List UInt8
  | [] => (total, [])
  | w :: ws =>
    let (final, rest) := runWrites (syscallWrite total w) ws
    (final, (writeBuffer total w.count).take w.result.toNat ++ rest)

def acceptedStream (ws : List WriteCall) : List UInt8 := (runWrites 0 ws).2

theorem syscallWrite_toNat (total : UInt64) (w : WriteCall) :
    (syscallWrite total w).toNat = (total.toNat + w.result.toNat) % 2 ^ 64 := by
  unfold syscallWrite
  split
  · rw [UInt64.toNat_add, UInt64.toNat_ofNat', Nat.add_mod_mod]
  · have := total.toNat_lt
    rw [show w.result.toNat = 0 by omega]
    omega

theorem WriteCall.result_le (w : WriteCall) : w.result.toNat ≤ w.count := by
  have := w.accepted
  omega

/-- Every accepted byte is its place in the stream modulo ten, whatever the writes accept. -/
theorem runWrites_digit {ws : List WriteCall} {total : UInt64} {base : Nat} (counter : total.toNat = base % 2 ^ 64)
    {q : Nat} (inside : q < (runWrites total ws).2.length) :
    (runWrites total ws).2.getD q 0 = UInt8.ofNat ((base + q) % 2 ^ 64 % 10) := by
  induction ws generalizing total base q with
  | nil => simp [runWrites] at inside
  | cons w ws ih =>
    have size : ((writeBuffer total w.count).take w.result.toNat).length = w.result.toNat := by
      have := w.result_le
      simp [writeBuffer, this]
    simp only [runWrites, List.length_append, size] at inside ⊢
    by_cases first : q < w.result.toNat
    · have := w.result_le
      rw [List.getD_append _ _ _ _ (by omega), List.getD_eq_getElem _ _ (by omega)]
      simp only [writeBuffer, List.getElem_take, List.getElem_map, List.getElem_range, counter]
      rw [Nat.add_mod_mod, Nat.add_comm q base]
    · have next : (syscallWrite total w).toNat = (base + w.result.toNat) % 2 ^ 64 := by
        rw [syscallWrite_toNat, counter, Nat.mod_add_mod]
      rw [List.getD_append_right _ _ _ _ (by omega), size, ih next (by omega),
        show base + w.result.toNat + (q - w.result.toNat) = base + q by omega]

theorem acceptedStream_digit {ws : List WriteCall} {q : Nat} (inside : q < (acceptedStream ws).length)
    (small : q < 2 ^ 32) : ((acceptedStream ws).getD q 0).toNat = q % 10 := by
  have digit : (acceptedStream ws).getD q 0 = UInt8.ofNat ((0 + q) % 2 ^ 64 % 10) := runWrites_digit rfl inside
  rw [digit, UInt8.toNat_ofNat_of_lt' (show (0 + q) % 2 ^ 64 % 10 < 256 by omega)]
  omega

/-- What the validating thread leaves in globals and in the socket. The two fields of the last packet are kept here as
numbers; the code keeps them in network order, compares them so and converts them to print. -/
structure Validation where
  isValidateOutboundDataError : Bool
  lastReceivedPacketAckSeq : Nat
  isReceivedPacketHasTimestamp : Bool
  lastReceivedPacketEcr : Nat
  lastOutboundTcpHeader : List UInt8

/-- The loop over the payload; the expected digit is computed in 32 bits. -/
def checkPayload (m : Mem) (payload seq : Nat) (i : Nat) : Nat → Bool → Bool
  | 0, error => error
  | n + 1, error =>
    let differs : Bool := m.get8 (payload + i) ≠ (seq + (2 ^ 32 - 1) + i) % 2 ^ 32 % 10
    checkPayload m payload seq (i + 1) n (error || differs)

def rememberReceived (v : Validation) (live : Packet) (tcp : Nat) : Run Validation := do
  let ackSeq := live.buffer.be32 (tcp + 8)
  let v := if ackSeq ≠ 0 then { v with lastReceivedPacketAckSeq := ackSeq } else v
  match ← findTcpTimestamp live with
  | .error _ => return v
  | .ok live =>
    match live.tcpTsEcr with
    | none => return v
    | some ecr => return { v with
        isReceivedPacketHasTimestamp := true
        lastReceivedPacketEcr := live.buffer.be32 ecr }

def checkConverted (v : Validation) (live : Packet) : Run Validation := do
  let livePayloadLen ← packetPayloadLen live
  let tcp ← deref live.tcp
  let payload ← packetPayload live
  let error := checkPayload live.buffer payload (tcpSeq live.buffer tcp) 0 livePayloadLen.toNat
    v.isValidateOutboundDataError
  rememberReceived { v with isValidateOutboundDataError := error } live tcp

def validateOutboundPacket (s : Socket) (v : Validation) (live : Packet) : Run Validation :=
  match live.tcp with
  | none => checkConverted v live
  | some tcp => do
    let v := { v with lastOutboundTcpHeader := live.buffer.bytes tcp 20 }
    match ← tcpConvertSeqNumber s live with
    | .error _ => return v
    | .ok live => checkConverted v live

theorem checkPayload_iff {payload seq i : Nat} {error : Bool} :
    checkPayload m payload seq i n error = true ↔ error = true ∨
      ∃ j < n, m.get8 (payload + (i + j)) ≠ (seq + (2 ^ 32 - 1) + (i + j)) % 2 ^ 32 % 10 := by
  induction n generalizing i error with
  | zero => simp [checkPayload]
  | succ n ih =>
    rw [checkPayload, ih, Bool.or_eq_true, or_assoc]
    refine or_congr_right ?_
    constructor
    · rintro (here | ⟨j, inside, later⟩)
      · exact ⟨0, by omega, of_decide_eq_true here⟩
      · rw [Nat.add_assoc i 1 j, Nat.add_comm 1 j] at later
        exact ⟨j + 1, by omega, later⟩
    · rintro ⟨j, inside, differs⟩
      match j with
      | 0 => exact .inl (decide_eq_true differs)
      | j + 1 =>
        refine .inr ⟨j, by omega, ?_⟩
        rw [Nat.add_assoc i 1 j, Nat.add_comm 1 j]
        exact differs

structure SniffedTcp (live : Packet) (tcp n : Nat) : Prop where
  found : live.tcp = some tcp
  doff : 5 ≤ tcpDoff live.buffer tcp
  len : packetPayloadLen live = .ok n

theorem sniffedTcp_of_parsed {bufferBytes inBytes : Nat} {layer : PacketLayer}
    (buffered : inBytes ≤ bufferBytes) (parsed : parsePacket (packetNew m bufferBytes) inBytes layer = .ok (.ok, live))
    (found : live.tcp = some tcp) (len : packetPayloadLen live = .ok n) : SniffedTcp live tcp n := by
  have fresh := packetNew_fresh m bufferBytes
  obtain ⟨es, wire, fits, rfl⟩ := (parsePacket_ok_iff fresh buffered).mp parsed
  obtain ⟨last, isLast, _, tcpPtr, _⟩ :=
    (recorded_metadata fresh ⟨rfl, rfl, rfl, rfl, rfl, rfl⟩ wire fits).transport
  have buffer : (recorded layer (packetNew m bufferBytes) es).buffer = m := (parsed_frame wire.2.nested).1
  rw [tcpPtr] at found
  split at found
  next type =>
    cases found
    refine ⟨tcpPtr.trans (if_pos type), ?_, len⟩
    rw [buffer]
    exact wire.2.last_doff isLast type
  next => cases found

def livePayload (live : Packet) (tcp : Nat) : Nat := tcp + tcpDoff live.buffer tcp * 4

def liveOptions (live : Packet) (tcp : Nat) : List Nat := optionOffsets live.buffer (livePayload live tcp) (tcp + 20)

structure Converted (live : Packet) (tcp k : Nat) (m : Mem) : Prop where
  seq : tcpSeq m tcp = (1 + k) % 2 ^ 32
  frame : ∀ j, tcp + 12 ≤ j → (∀ o ∈ liveOptions live tcp, ¬InSackBlocks live.buffer o j) → m.get8 j = live.buffer.get8 j

theorem tcpConvertSeqNumber_cases {s : Socket} (found : live.tcp = some tcp)
    (data : tcpSyn live.buffer tcp = false)
    (seq : tcpSeq live.buffer tcp = (s.live.localIsn.toNat + 1 + k) % 2 ^ 32) :
    (∃ o ∈ liveOptions live tcp, ShortSack live.buffer o) ∧
        tcpConvertSeqNumber s live = .ok (.error "TCP SACK option too short") ∨
      (∀ o ∈ liveOptions live tcp, ¬ShortSack live.buffer o) ∧ ∃ m, Converted live tcp k m ∧
        tcpConvertSeqNumber s live = .ok (.ok { live with buffer := m }) := by
  have starts : tcpConvertSeqNumber s live = offsetSeqNumbers live tcp (-s.live.localIsn) (-s.live.remoteIsn) := by
    have read : deref live.tcp = .ok tcp := by
      rw [found]
      rfl
    rw [tcpConvertSeqNumber, read, ok_bind]
    simp only [data]
    rfl
  obtain ⟨m, moved, numbers⟩ := offsetSeqNumbers_eq found (-s.live.localIsn) (-s.live.remoteIsn)
  have behind : ∀ j, tcp + 20 ≤ j → m.get8 j = live.buffer.get8 j := fun j late => moved.frame j (by omega)
  have walk : optionOffsets m (livePayload live tcp) (tcp + 20) = liveOptions live tcp := optionOffsets_behind behind
  have kept {o : Nat} (member : o ∈ liveOptions live tcp) :
      m.get8 o = live.buffer.get8 o ∧ m.get8 (o + 1) = live.buffer.get8 (o + 1) := by
    have := optionOffsets_bounds o member
    exact ⟨behind o (by omega), behind (o + 1) (by omega)⟩
  have short {o : Nat} (member : o ∈ liveOptions live tcp) : ShortSack m o ↔ ShortSack live.buffer o := by
    unfold ShortSack
    rw [(kept member).1, (kept member).2]
  rw [starts, numbers]
  rcases sackLoop m (livePayload live tcp) (tcp + 20) (-s.live.remoteIsn) with
    ⟨⟨o, member, tooShort⟩, failed⟩ | ⟨long, m', done, offsets⟩
  · rw [walk] at member
    refine .inl ⟨⟨o, member, (short member).mp tooShort⟩, ?_⟩
    rw [livePayload] at failed
    rw [failed]
    rfl
  · refine .inr ⟨fun o member tooShort => long o (walk ▸ member) ((short member).mpr tooShort), m', ?_, ?_⟩
    · refine ⟨?_, fun j late outside => ?_⟩
      · have same : tcpSeq m' tcp = tcpSeq m tcp := by
          apply be32_of_get8
          intro j _ early
          apply offsets.frame
          intro o member block
          have := optionOffsets_bounds o member
          have := block.1
          omega
        have back : (-s.live.localIsn).toNat = (4294967296 - s.live.localIsn.toNat) % 4294967296 := UInt32.toNat_neg _
        have small := s.live.localIsn.toNat_lt
        rw [same, moved.seq, seq, back]
        omega
      · rw [offsets.frame j, moved.frame j (by omega)]
        intro o member
        rw [walk] at member
        unfold InSackBlocks
        rw [sackBlocks_congr (kept member).1 (kept member).2]
        exact outside o member
    · rw [livePayload] at done
      rw [done]
      rfl

theorem rememberReceived_error {v : Validation} (found : live.tcp = some tcp) :
    ∃ v', rememberReceived v live tcp = .ok v' ∧
      v'.isValidateOutboundDataError = v.isValidateOutboundDataError := by
  rw [rememberReceived, findTcpTimestamp_eq found, ok_bind]
  cases lastTimestamp live.buffer (tcp + tcpDoff live.buffer tcp * 4) (tcp + 20) with
  | none =>
    refine ⟨_, rfl, ?_⟩
    split <;> rfl
  | some o =>
    refine ⟨_, rfl, ?_⟩
    split <;> rfl

theorem Converted.sniffed (converted : Converted live tcp k m)
    (sniffed : SniffedTcp live tcp n) :
    SniffedTcp { live with buffer := m } tcp n ∧ livePayload { live with buffer := m } tcp = livePayload live tcp := by
  have doff : tcpDoff m tcp = tcpDoff live.buffer tcp := by
    unfold tcpDoff
    rw [converted.frame (tcp + 12) (by omega)]
    intro o member block
    have := optionOffsets_bounds o member
    have := block.1
    omega
  have payload : packetPayload { live with buffer := m } = packetPayload live := by
    simp only [packetPayload, sniffed.found, doff]
  refine ⟨⟨sniffed.found, doff ▸ sniffed.doff, ?_⟩, by simp only [livePayload, doff]⟩
  rw [← sniffed.len, packetPayloadLen, packetPayloadLen, payload]
  rfl

theorem checkConverted_error {v : Validation} (sniffed : SniffedTcp live tcp n) :
    ∃ v', checkConverted v live = .ok v' ∧ v'.isValidateOutboundDataError =
      checkPayload live.buffer (livePayload live tcp) (tcpSeq live.buffer tcp) 0 n v.isValidateOutboundDataError := by
  have payload : packetPayload live = .ok (livePayload live tcp) := by
    rw [packetPayload, sniffed.found]
    rfl
  have read : deref live.tcp = .ok tcp := by
    rw [sniffed.found]
    rfl
  rw [checkConverted, sniffed.len, ok_bind, read, ok_bind, payload, ok_bind]
  exact rememberReceived_error sniffed.found

/-- The oracle on one segment: one with a SACK option that is too short is passed over; otherwise the
flag is raised exactly when the payload differs from what was written, provided that the SACK blocks
end before the payload. -/
theorem validateOutboundPacket_exact {ws : List WriteCall} {s : Socket} {live : Packet} {tcp n k : Nat}
    (sniffed : SniffedTcp live tcp n) (data : tcpSyn live.buffer tcp = false)
    (seq : tcpSeq live.buffer tcp = (s.live.localIsn.toNat + 1 + k) % 2 ^ 32) (range : k + n < 2 ^ 32)
    (written : k + n ≤ (acceptedStream ws).length)
    (inOptions : ∀ o ∈ liveOptions live tcp, ∀ j, InSackBlocks live.buffer o j → j < livePayload live tcp)
    (v : Validation) :
    ∃ v', validateOutboundPacket s v live = .ok v' ∧
      ((∃ o ∈ liveOptions live tcp, ShortSack live.buffer o) →
        v'.isValidateOutboundDataError = v.isValidateOutboundDataError) ∧
      ((∀ o ∈ liveOptions live tcp, ¬ShortSack live.buffer o) →
        (v'.isValidateOutboundDataError = true ↔ v.isValidateOutboundDataError = true ∨
          ∃ i < n, live.buffer (livePayload live tcp + i) ≠ (acceptedStream ws).getD (k + i) 0)) := by
  rw [validateOutboundPacket, sniffed.found]
  rcases tcpConvertSeqNumber_cases sniffed.found data seq with ⟨short, failed⟩ | ⟨long, m, converted, done⟩
  · simp only [failed, ok_bind]
    exact ⟨_, rfl, fun _ => rfl, fun long => absurd short.choose_spec.2 (long _ short.choose_spec.1)⟩
  simp only [done, ok_bind]
  obtain ⟨sniffed', start⟩ := converted.sniffed sniffed
  obtain ⟨v', checked, error⟩ := checkConverted_error
    (v := { v with lastOutboundTcpHeader := live.buffer.bytes tcp 20 }) sniffed'
  refine ⟨v', checked, fun short => absurd short.choose_spec.2 (long _ short.choose_spec.1), fun _ => ?_⟩
  rw [error, checkPayload_iff, start]
  refine or_congr_right (exists_congr fun i => and_congr_right fun inside => not_congr ?_)
  -- the digit at the sequence number of a byte is the byte that was written there
  have := sniffed.doff
  have kept : m.get8 (livePayload live tcp + (0 + i)) = live.buffer.get8 (livePayload live tcp + i) := by
    rw [Nat.zero_add]
    apply converted.frame _ (by unfold livePayload; omega)
    intro o member block
    have := inOptions o member _ block
    omega
  have place : k + i < (acceptedStream ws).length := by omega
  have digit := acceptedStream_digit place (by omega)
  rw [kept, converted.seq, ← UInt8.toNat_inj, digit]
  rw [show ((1 + k) % 2 ^ 32 + (2 ^ 32 - 1) + (0 + i)) % 2 ^ 32 = k + i by omega]
  rfl

/-- A connection whose initial sequence numbers are zero, before anything was validated. -/
def startedSocket : Socket where
  state := .passiveSynackAcked
  script := ⟨⟨Vector.replicate 16 0, 0⟩, 0, ⟨Vector.replicate 16 0, 0⟩, 0⟩
  live := ⟨⟨Vector.replicate 16 0, 0⟩, 0, ⟨Vector.replicate 16 0, 0⟩, 0⟩
  tsValMap := fun _ => none
  lastInjectedTcpHeader := []
  lastInjectedTcpPayloadLen := 0

def startedValidation : Validation := ⟨false, 0, false, 0, []⟩

def twoBytesWritten : WriteCall := ⟨2, 2, fun _ => by decide⟩

/-- A block of selective acknowledgments in the options; the second byte of the payload is wrong. -/
theorem validateOutboundPacket_exact_sackSegment :
    ∃ live v, sniff (twoByteSegment [5, 10, 0, 0, 0, 3, 0, 0, 0, 7, 1, 1] [0, 9]) = .ok (.ok, live) ∧
      validateOutboundPacket startedSocket startedValidation live = .ok v ∧ v.isValidateOutboundDataError = true := by
  have evaluated : (sniff (twoByteSegment [5, 10, 0, 0, 0, 3, 0, 0, 0, 7, 1, 1] [0, 9])).toOption.map
      (fun sniffed => decide (sniffed.1 = .ok ∧ sniffed.2.tcp = some 20 ∧
        (packetPayloadLen sniffed.2).toOption = some 2 ∧ tcpSyn sniffed.2.buffer 20 = false ∧
        tcpSeq sniffed.2.buffer 20 = 1 ∧
        (∀ o ∈ liveOptions sniffed.2 20, sackBlocks sniffed.2.buffer o = 0 ∨
          o + 2 + 8 * sackBlocks sniffed.2.buffer o ≤ livePayload sniffed.2 20) ∧
        (∀ o ∈ liveOptions sniffed.2 20, ¬ShortSack sniffed.2.buffer o) ∧
        sniffed.2.buffer (livePayload sniffed.2 20 + 1) = 9)) = some true := by
    decide +kernel
  obtain ⟨⟨result, live⟩, sniffed, facts⟩ := ok_of_toOption evaluated
  obtain ⟨ok, tcp, len, syn, seq, inside, long, second⟩ := of_decide_eq_true facts
  simp only at ok
  subst ok
  have segment := sniffedTcp_of_parsed (Nat.le_refl _) sniffed tcp (eq_ok_of_toOption len)
  have inOptions : ∀ o ∈ liveOptions live 20, ∀ j, InSackBlocks live.buffer o j → j < livePayload live 20 := by
    intro o member j block
    obtain ⟨lower, upper⟩ := block
    have bound : sackBlocks live.buffer o = 0 ∨ o + 2 + 8 * sackBlocks live.buffer o ≤ livePayload live 20 :=
      inside o member
    omega
  have written : 0 + 2 ≤ (acceptedStream [twoBytesWritten]).length := by decide
  have start : tcpSeq live.buffer 20 = (startedSocket.live.localIsn.toNat + 1 + 0) % 2 ^ 32 := seq
  obtain ⟨v, ran, -, exact⟩ :=
    validateOutboundPacket_exact segment syn start (by decide) written inOptions startedValidation
  refine ⟨live, v, sniffed, ran, (exact long).mpr (.inr ⟨1, by decide, ?_⟩)⟩
  rw [second]
  decide

/-- A SACK option of length two makes the oracle pass over a segment whose payload is nothing that was
written. -/
theorem shortSack_not_validated :
    ∃ live v, sniff (twoByteSegment [5, 2, 1, 1] [9, 9]) = .ok (.ok, live) ∧ SniffedTcp live 20 2 ∧
      tcpSyn live.buffer 20 = false ∧ tcpSeq live.buffer 20 = (startedSocket.live.localIsn.toNat + 1 + 0) % 2 ^ 32 ∧
      0 + 2 ≤ (acceptedStream [twoBytesWritten]).length ∧
      validateOutboundPacket startedSocket startedValidation live = .ok v ∧ v.isValidateOutboundDataError = false ∧
      live.buffer (livePayload live 20 + 0) ≠ (acceptedStream [twoBytesWritten]).getD (0 + 0) 0 := by
  have evaluated : (sniff (twoByteSegment [5, 2, 1, 1] [9, 9])).toOption.map (fun sniffed => decide
      (sniffed.1 = .ok ∧ sniffed.2.tcp = some 20 ∧ (packetPayloadLen sniffed.2).toOption = some 2 ∧
        tcpSyn sniffed.2.buffer 20 = false ∧ tcpSeq sniffed.2.buffer 20 = 1 ∧
        (validateOutboundPacket startedSocket startedValidation sniffed.2).toOption.map
          (·.isValidateOutboundDataError) = some false ∧
        sniffed.2.buffer (livePayload sniffed.2 20) = 9)) = some true := by
    decide +kernel
  obtain ⟨⟨result, live⟩, sniffed, facts⟩ := ok_of_toOption evaluated
  obtain ⟨ok, tcp, len, syn, seq, validated, first⟩ := of_decide_eq_true facts
  simp only at ok
  subst ok
  obtain ⟨v, ran, flag⟩ := ok_of_toOption validated
  refine ⟨live, v, sniffed, ?_, syn, seq, by decide, ran, flag, ?_⟩
  · exact sniffedTcp_of_parsed (Nat.le_refl _) sniffed tcp (eq_ok_of_toOption len)
  · rw [Nat.add_zero, first]
    decide

end TcpFuzz
