import TcpFuzz.Fuzz.Input
import TcpFuzz.Packet.Checksum
import TcpFuzz.Packet.Parser

/-! `fuzz_to_packet` of `fuzz_test_packet.c`: TCP over IPv4, with options and payload from the fuzz file and lengths
in 8-bit variables. -/

namespace TcpFuzz
open Bytes Mem

def maxOptionsLength : Nat := 40
def maxPacketDataLength : UInt32 := 10000
def ipHeaderLength : Nat := 20

def fixedData : List UInt8 := [0x45, 0, 0, 0, 0, 0, 0, 0, 0xff, 6, 0, 0, 0, 0, 0, 0, 0, 0, 0, 0]

/-- The kind and the length of an option. The byte read is a signed character, so that its
remainder may be negative. -/
def fuzzOptionHead : StateM Fuzzer (UInt8 × UInt8) := do
  let tmp ← readByte
  match tmp.toInt8.toInt.tmod 17 with
  | 0 => return (0, 1) -- TCPOPT_EOL
  | 1 => return (1, 1) -- TCPOPT_NOP
  | 2 => return (2, 4) -- TCPOPT_MAXSEG
  | 3 => return (3, 3) -- TCPOPT_WINDOW
  | 4 => return (4, 2) -- TCPOPT_SACK_PERMITTED
  | 5 => return (5, ((← readByte) % 4 + 1) * 8) -- TCPOPT_SACK
  | 6 => return (8, 10) -- TCPOPT_TIMESTAMP
  | 7 => return (34, (← readByte) % UInt8.ofNat maxOptionsLength) -- TCPOPT_FASTOPEN
  | 8 => return (254, (← readByte) % UInt8.ofNat maxOptionsLength) -- TCPOPT_EXP
  | _ =>
    let length ← readByte
    return (tmp, if length = 0 then 2 else length)

def fuzzOptionComment (kind length : UInt8) : String := s!"// kind is {kind}, length is {length}\n"

/-- The loop over the options. It ends early at one that does not fit. -/
def fuzzOptions : Nat → List UInt8 → UInt8 → StateM Fuzzer (List UInt8 × UInt8)
  | 0, data, optionsLength => return (data, optionsLength)
  | count + 1, data, optionsLength => do
    let (kind, length) ← fuzzOptionHead
    if maxOptionsLength < optionsLength.toNat + length.toNat then
      return (data, optionsLength)
    -- an option of length zero still takes the byte of its kind
    let head := if 1 < length then [kind, length] else [kind]
    let content ← readBytes (length.toNat - 2)
    addContentToFuzzScript (fuzzOptionComment kind length)
    fuzzOptions count (data ++ head ++ content) (optionsLength + length)

def seqBytes (isFuzzWithoutDependency : Bool) : StateM Fuzzer (List UInt8) := do
  if isFuzzWithoutDependency then readBytes 4
  else return be32Bytes (← get).packetSeq

/-- The IPv4 header and the fixed part of the TCP header; the data offset is filled in later. -/
def fuzzHeaders (isFuzzWithoutDependency : Bool) : StateM Fuzzer (List UInt8) := do
  let seq ← seqBytes isFuzzWithoutDependency
  let window ← readBytes 2
  let urgent ← readBytes 2
  return fixedData ++ [0, 0, 0, 0] ++ seq ++ [0, 0, 0, 1] ++ [0, 0x10] ++ window ++ [0, 0] ++ urgent

def fuzzTcpOptions (isFuzzOptions : Bool) (data : List UInt8) : StateM Fuzzer (List UInt8 × UInt8) := do
  if isFuzzOptions then
    let optionCount ← readByte
    fuzzOptions (optionCount.toNat % 11) data 0
  else return (data, 0)

def fuzzDataLength (isFuzzData : Bool) : StateM Fuzzer UInt32 := do
  if isFuzzData then
    let length ← readInt
    modify fun s => { s with lastPacketDataLength := length % maxPacketDataLength }
  else modify fun s => { s with lastPacketDataLength := 0 }
  return (← get).lastPacketDataLength

def paddingLength (optionsLength : UInt8) : UInt8 :=
  let paddingLength := 4 - optionsLength % 4
  if paddingLength < 4 then paddingLength else 0

/-- Pad the options, push the payload, and fill in the data offset and the length. -/
def finishData (data : List UInt8) (optionsLength : UInt8) (packetSeq dataLength : UInt32) : List UInt8 :=
  let data := data ++ List.replicate (paddingLength optionsLength).toNat 0
  let tcpHeaderLength := 20 + optionsLength + paddingLength optionsLength
  -- the reserved bits are made the same as the offset
  let tcpOff := tcpHeaderLength / 4
  let data := data.set 32 (tcpOff <<< 4 ||| tcpOff)
  let data := data ++ (List.range dataLength.toNat).map fun i => ((packetSeq + UInt32.ofNat i) % 10).toUInt8
  let ipLength := (ipHeaderLength + tcpHeaderLength.toNat + dataLength.toNat) % 2 ^ 16
  (data.set 2 (UInt8.ofNat (ipLength / 256))).set 3 (UInt8.ofNat ipLength)

def fuzzData (isFuzzWithoutDependency isFuzzOptions isFuzzData : Bool) : StateM Fuzzer (List UInt8) := do
  let data ← fuzzHeaders isFuzzWithoutDependency
  let (data, optionsLength) ← fuzzTcpOptions isFuzzOptions data
  let dataLength ← fuzzDataLength isFuzzData
  return finishData data optionsLength (← get).packetSeq dataLength

/-- The checksums are filled in whether or not the bytes parsed; a packet that did not parse stops
the process. -/
def fuzzToPacket (allocated : Mem) (isFuzzWithoutDependency isFuzzOptions isFuzzData : Bool) (s : Fuzzer) :
    Run (Packet × Fuzzer) := do
  let (data, s) := fuzzData isFuzzWithoutDependency isFuzzOptions isFuzzData s
  let (result, packet) ← parsePacket (packetNew (allocated.write 0 data) data.length) data.length .layer3Ip
  let packet ← checksumPacket packet
  assertThat (result = .ok)
  return ({ packet with direction := .inbound }, s)

/-! ### What is generated -/

def takenOptions : Nat → UInt8 → StateM Fuzzer (List (UInt8 × UInt8))
  | 0, _ => return []
  | count + 1, optionsLength => do
    let (kind, length) ← fuzzOptionHead
    if maxOptionsLength < optionsLength.toNat + length.toNat then return []
    let _ ← readBytes (length.toNat - 2)
    addContentToFuzzScript (fuzzOptionComment kind length)
    return (kind, length) :: (← takenOptions count (optionsLength + length))

def zeroLengths (options : List (UInt8 × UInt8)) : Nat := options.countP fun option => option.2 = 0

/-- The options take the bytes that they are counted for, and one more for each of length zero; they
are counted for forty at most. -/
theorem fuzzOptions_taken (count : Nat) (data : List UInt8) (optionsLength : UInt8) (s : Fuzzer)
    (bound : optionsLength.toNat ≤ maxOptionsLength) :
    ∃ options length,
      fuzzOptions count data optionsLength s = ((data ++ options, length), (takenOptions count optionsLength s).2) ∧
      length.toNat ≤ maxOptionsLength ∧
      optionsLength.toNat + options.length = length.toNat + zeroLengths (takenOptions count optionsLength s).1 := by
  induction count generalizing data optionsLength s with
  | zero => exact ⟨[], optionsLength, by rw [List.append_nil]; rfl, bound, rfl⟩
  | succ count ih =>
    rcases chosen : fuzzOptionHead s with ⟨⟨kind, length⟩, s₁⟩
    simp only [fuzzOptions, takenOptions, bind, StateT.bind, chosen]
    split
    · exact ⟨[], optionsLength, by rw [List.append_nil]; rfl, bound, rfl⟩
    · next fits =>
      have sum : (optionsLength + length).toNat = optionsLength.toNat + length.toNat := by
        rw [UInt8.toNat_add]
        unfold maxOptionsLength at fits
        omega
      rcases content : readBytes (length.toNat - 2) s₁ with ⟨bytes, s₂⟩
      have contentLength : bytes.length = length.toNat - 2 := by
        have := readBytes_length (length.toNat - 2) s₁
        rwa [content] at this
      let head := if 1 < length then [kind, length] else [kind]
      have pushed : (head ++ bytes).length = length.toNat + if length = 0 then 1 else 0 := by
        rw [List.length_append, contentLength]
        unfold head
        by_cases zero : length = 0
        · subst zero
          rfl
        · have positive : length.toNat ≠ 0 := fun same => zero (UInt8.toNat_inj.mp same)
          rw [if_neg zero]
          split
          · next long =>
            rw [UInt8.lt_iff_toNat_lt, UInt8.toNat_one] at long
            simp only [List.length_cons, List.length_nil]
            omega
          · next short =>
            rw [UInt8.lt_iff_toNat_lt, UInt8.toNat_one] at short
            simp only [List.length_cons, List.length_nil]
            omega
      rcases recorded : addContentToFuzzScript (fuzzOptionComment kind length) s₂ with ⟨_, s₃⟩
      rcases rest : takenOptions count (optionsLength + length) s₃ with ⟨taken, s₄⟩
      obtain ⟨options, final, ran, small, counted⟩ := ih (data ++ head ++ bytes) (optionsLength + length) s₃ (by omega)
      rw [rest] at ran counted
      refine ⟨head ++ bytes ++ options, final, ?_, small, ?_⟩
      · simp only [bind, StateT.bind, content, recorded, rest]
        rw [← List.append_assoc, ← List.append_assoc]
        exact ran
      · have one : zeroLengths ((kind, length) :: taken) = zeroLengths taken + if length = 0 then 1 else 0 := by
          simp [zeroLengths, List.countP_cons]
        simp only [bind, StateT.bind, content, recorded, rest]
        show _ = final.toNat + zeroLengths ((kind, length) :: taken)
        rw [one, List.length_append, pushed]
        have inner : (optionsLength + length).toNat + options.length = final.toNat + zeroLengths taken := counted
        omega

theorem takenOptions_onlyReads (count : Nat) (optionsLength : UInt8) : OnlyReads (takenOptions count optionsLength) := by
  have head : OnlyReads fuzzOptionHead := by
    refine OnlyReads.readByte.bind fun tmp => ?_
    split <;> first | exact .pure _ | exact OnlyReads.readByte.bind fun _ => .pure _
  induction count generalizing optionsLength with
  | zero => exact .pure _
  | succ count ih =>
    refine head.bind fun option => ?_
    show OnlyReads (if _ then _ else _)
    split
    · exact .pure _
    · exact (OnlyReads.readBytes _).bind fun _ => (OnlyReads.addContent _).bind fun _ => (ih _).bind fun _ => .pure _

/-- The headers before the options, with the fields that are filled in at the end. -/
def headerBytes (totLen : Nat) (seq window urgent : List UInt8) (off : UInt8) : List UInt8 :=
  [0x45, 0, UInt8.ofNat (totLen / 256), UInt8.ofNat totLen, 0, 0, 0, 0, 0xff, 6, 0, 0, 0, 0, 0, 0, 0, 0, 0, 0] ++
    [0, 0, 0, 0] ++ seq ++ [0, 0, 0, 1] ++ [off, 0x10] ++ window ++ [0, 0] ++ urgent

theorem headerBytes_length {seq window urgent : List UInt8} (seqLength : seq.length = 4) (windowLength : window.length = 2)
    (urgentLength : urgent.length = 2) (totLen : Nat) (off : UInt8) :
    (headerBytes totLen seq window urgent off).length = 40 := by
  simp [headerBytes, seqLength, windowLength, urgentLength]

section Fields

variable {seq : List UInt8} (seqLength : seq.length = 4) (window urgent rest : List UInt8) (totLen : Nat) (off : UInt8)
include seqLength

theorem headerBytes_getD :
    let data := headerBytes totLen seq window urgent off
    data.getD 0 0 = 0x45 ∧ data.getD 2 0 = UInt8.ofNat (totLen / 256) ∧ data.getD 3 0 = UInt8.ofNat totLen ∧
      data.getD 6 0 = 0 ∧ data.getD 7 0 = 0 ∧ data.getD 9 0 = 6 ∧ data.getD 32 0 = off := by
  match seq, seqLength with
  | [_, _, _, _], _ => exact ⟨rfl, rfl, rfl, rfl, rfl, rfl, rfl⟩

theorem headerBytes_getD_seq {k : Nat} (inside : k < 4) :
    (headerBytes totLen seq window urgent off).getD (24 + k) 0 = seq.getD k 0 := by
  match seq, seqLength, k, inside with
  | [_, _, _, _], _, 0, _ | [_, _, _, _], _, 1, _ | [_, _, _, _], _, 2, _ | [_, _, _, _], _, 3, _ => rfl

theorem headerBytes_setOff (v : UInt8) :
    (headerBytes totLen seq window urgent off ++ rest).set 32 v = headerBytes totLen seq window urgent v ++ rest := by
  match seq, seqLength with
  | [_, _, _, _], _ => rfl

theorem headerBytes_setTotLen (v : Nat) :
    ((headerBytes totLen seq window urgent off ++ rest).set 2 (UInt8.ofNat (v / 256))).set 3 (UInt8.ofNat v) =
      headerBytes v seq window urgent off ++ rest := by
  match seq, seqLength with
  | [_, _, _, _], _ => rfl

end Fields

theorem seqBytes_length (isFuzzWithoutDependency : Bool) (s : Fuzzer) : (seqBytes isFuzzWithoutDependency s).1.length = 4 := by
  cases isFuzzWithoutDependency with
  | false => rfl
  | true => exact readBytes_length 4 s

/-- The choices that the file makes for a packet, read as the generator reads them. -/
structure PacketChoices where
  seq : List UInt8
  window : List UInt8
  urgent : List UInt8
  options : List (UInt8 × UInt8)
  dataLength : UInt32

def tcpOptionsTaken (isFuzzOptions : Bool) : StateM Fuzzer (List (UInt8 × UInt8)) := do
  if isFuzzOptions then
    let optionCount ← readByte
    takenOptions (optionCount.toNat % 11) 0
  else return []

def payloadLength (isFuzzData : Bool) : StateM Fuzzer UInt32 := if isFuzzData then readInt else pure 0

def packetChoices (isFuzzWithoutDependency isFuzzOptions isFuzzData : Bool) : StateM Fuzzer PacketChoices := do
  let seq ← seqBytes isFuzzWithoutDependency
  let window ← readBytes 2
  let urgent ← readBytes 2
  let options ← tcpOptionsTaken isFuzzOptions
  let dataLength ← payloadLength isFuzzData
  return { seq, window, urgent, options, dataLength := dataLength % maxPacketDataLength }

theorem takenOptions_length (count : Nat) (optionsLength : UInt8) (s : Fuzzer) :
    (takenOptions count optionsLength s).1.length ≤ count := by
  induction count generalizing optionsLength s with
  | zero => exact Nat.le_refl 0
  | succ count ih =>
    rcases chosen : fuzzOptionHead s with ⟨⟨kind, length⟩, s₁⟩
    simp only [takenOptions, stateM_bind, chosen]
    split
    · exact Nat.zero_le _
    · exact Nat.succ_le_succ (ih _ _)

theorem zeroLengths_le (isFuzzOptions : Bool) (s : Fuzzer) : zeroLengths (tcpOptionsTaken isFuzzOptions s).1 ≤ 10 := by
  refine Nat.le_trans List.countP_le_length ?_
  cases isFuzzOptions with
  | false => exact Nat.zero_le _
  | true => exact Nat.le_trans (takenOptions_length _ _ _) (Nat.le_of_lt_succ (Nat.mod_lt _ (by decide)))

theorem fuzzTcpOptions_taken (isFuzzOptions : Bool) (data : List UInt8) (s : Fuzzer) :
    ∃ options length,
      fuzzTcpOptions isFuzzOptions data s = ((data ++ options, length), (tcpOptionsTaken isFuzzOptions s).2) ∧
      length.toNat ≤ maxOptionsLength ∧ options.length = length.toNat + zeroLengths (tcpOptionsTaken isFuzzOptions s).1 := by
  cases isFuzzOptions with
  | false => exact ⟨[], 0, by rw [List.append_nil]; rfl, by decide, rfl⟩
  | true =>
    rcases read : readByte s with ⟨optionCount, s'⟩
    obtain ⟨options, length, ran, bound, counted⟩ := fuzzOptions_taken (optionCount.toNat % 11) data 0 s' (by decide)
    refine ⟨options, length, ?_, bound, ?_⟩
    · simp only [fuzzTcpOptions, tcpOptionsTaken, if_true, bind, StateT.bind, read]
      exact ran
    · simp only [tcpOptionsTaken, if_true, bind, StateT.bind, read]
      simpa using counted

theorem paddingLength_spec {optionsLength : UInt8} (bound : optionsLength.toNat ≤ 40) :
    (20 + optionsLength + paddingLength optionsLength).toNat =
        20 + (optionsLength.toNat + (paddingLength optionsLength).toNat) ∧
      optionsLength.toNat + (paddingLength optionsLength).toNat ≤ 40 ∧
      (optionsLength.toNat + (paddingLength optionsLength).toNat) % 4 = 0 := by
  have left : (optionsLength % 4).toNat = optionsLength.toNat % 4 := by rw [UInt8.toNat_mod]; rfl
  have missing : (4 - optionsLength % 4).toNat = 4 - optionsLength.toNat % 4 := by
    rw [UInt8.toNat_sub_of_le, left]
    · rfl
    · rw [UInt8.le_iff_toNat_le, left]
      exact Nat.le_of_lt (Nat.mod_lt _ (by decide))
  have padding : (paddingLength optionsLength).toNat =
      if 4 - optionsLength.toNat % 4 < 4 then 4 - optionsLength.toNat % 4 else 0 := by
    unfold paddingLength
    rw [apply_ite UInt8.toNat, missing]
    simp only [UInt8.lt_iff_toNat_lt, missing]
    rfl
  have sum : (20 + optionsLength + paddingLength optionsLength).toNat =
      ((20 + optionsLength.toNat) % 256 + (paddingLength optionsLength).toNat) % 256 := by
    rw [UInt8.toNat_add, UInt8.toNat_add]
    rfl
  rw [sum, padding]
  split <;> omega

/-- What is pushed for a packet: there are at least as many bytes of options as the header says. -/
structure Generated where
  seq : List UInt8
  window : List UInt8
  urgent : List UInt8
  off : Nat
  options : List UInt8
  packetSeq : UInt32
  dataLength : Nat
  seqLength : seq.length = 4
  windowLength : window.length = 2
  urgentLength : urgent.length = 2
  low : 5 ≤ off
  high : off ≤ 15
  short : dataLength < 10000
  enough : off * 4 ≤ 20 + options.length
  few : options.length ≤ 50

namespace Generated

variable (g : Generated)

def total : Nat := 20 + g.off * 4 + g.dataLength

def headers : List UInt8 := headerBytes g.total g.seq g.window g.urgent (UInt8.ofNat g.off <<< 4 ||| UInt8.ofNat g.off)

def payload : List UInt8 := (List.range g.dataLength).map fun i => ((g.packetSeq + UInt32.ofNat i) % 10).toUInt8

def data : List UInt8 := g.headers ++ (g.options ++ g.payload)

theorem headers_length : g.headers.length = 40 := headerBytes_length g.seqLength g.windowLength g.urgentLength _ _

theorem data_length : g.data.length = 40 + g.options.length + g.dataLength := by
  rw [data, List.length_append, List.length_append, headers_length, payload, List.length_map, List.length_range]
  omega

end Generated

theorem finishData_generated {seq window urgent options : List UInt8} {optionsLength : UInt8} {dataLength : UInt32}
    (packetSeq : UInt32) (seqLength : seq.length = 4) (windowLength : window.length = 2) (urgentLength : urgent.length = 2)
    (bound : optionsLength.toNat ≤ 40) (counted : optionsLength.toNat ≤ options.length)
    (few : options.length ≤ optionsLength.toNat + 10) (short : dataLength.toNat < 10000) :
    ∃ g : Generated, finishData (headerBytes 0 seq window urgent 0 ++ options) optionsLength packetSeq dataLength = g.data ∧
      g.seq = seq ∧ g.packetSeq = packetSeq ∧ g.dataLength = dataLength.toNat ∧
      g.options = options ++ List.replicate (paddingLength optionsLength).toNat 0 ∧
      g.off * 4 = 20 + (optionsLength.toNat + (paddingLength optionsLength).toNat) := by
  obtain ⟨sum, most, aligned⟩ := paddingLength_spec bound
  let total := optionsLength.toNat + (paddingLength optionsLength).toNat
  have off : (20 + optionsLength + paddingLength optionsLength) / 4 = UInt8.ofNat (5 + total / 4) := by
    rw [← UInt8.toNat_inj, UInt8.toNat_div, sum, UInt8.toNat_ofNat']
    show (20 + total) / 4 = (5 + total / 4) % 256
    omega
  have length : (ipHeaderLength + (20 + total) + dataLength.toNat) % 2 ^ 16 =
      20 + (5 + total / 4) * 4 + dataLength.toNat := by
    unfold ipHeaderLength
    omega
  have padded : (options ++ List.replicate (paddingLength optionsLength).toNat 0).length =
      options.length + (paddingLength optionsLength).toNat := by
    rw [List.length_append, List.length_replicate]
  let g : Generated :=
    { seq, window, urgent, packetSeq, seqLength, windowLength, urgentLength, short
      off := 5 + total / 4
      options := options ++ List.replicate (paddingLength optionsLength).toNat 0
      dataLength := dataLength.toNat
      low := by omega
      high := by omega
      enough := by omega
      few := by omega }
  refine ⟨g, ?_, rfl, rfl, rfl, rfl, ?_⟩
  · simp only [finishData, off, sum]
    rw [length, List.append_assoc, headerBytes_setOff seqLength, List.append_assoc, headerBytes_setTotLen seqLength,
      List.append_assoc, ← List.append_assoc options]
    rfl
  · show (5 + total / 4) * 4 = 20 + total
    omega

def optionsPushed (isFuzzWithoutDependency isFuzzOptions : Bool) : StateM Fuzzer Nat := do
  let headers ← fuzzHeaders isFuzzWithoutDependency
  let (data, optionsLength) ← fuzzTcpOptions isFuzzOptions headers
  return data.length - headers.length + (paddingLength optionsLength).toNat

theorem fuzzData_generated (isFuzzWithoutDependency isFuzzOptions isFuzzData : Bool) (s : Fuzzer) :
    let choices := (packetChoices isFuzzWithoutDependency isFuzzOptions isFuzzData s).1
    ∃ (g : Generated) (s' : Fuzzer), fuzzData isFuzzWithoutDependency isFuzzOptions isFuzzData s = (g.data, s') ∧
      g.seq = choices.seq ∧ g.packetSeq = s.packetSeq ∧ g.dataLength = choices.dataLength.toNat ∧
      s'.lastPacketDataLength = choices.dataLength ∧
      g.options.length = (optionsPushed isFuzzWithoutDependency isFuzzOptions s).1 ∧
      20 + g.options.length = g.off * 4 + zeroLengths choices.options := by
  have seqLength := seqBytes_length isFuzzWithoutDependency s
  have seqReads : OnlyReads (seqBytes isFuzzWithoutDependency) := by
    cases isFuzzWithoutDependency with
    | false => exact fun s => ⟨s.fuzzFileIndex, s.fuzzScript, rfl⟩
    | true => exact .readBytes 4
  have seqKept := seqReads.packetSeq s
  rcases first : seqBytes isFuzzWithoutDependency s with ⟨seq, s₁⟩
  have windowLength := readBytes_length 2 s₁
  have windowKept := (OnlyReads.readBytes 2).packetSeq s₁
  rcases second : readBytes 2 s₁ with ⟨window, s₂⟩
  have urgentLength := readBytes_length 2 s₂
  have urgentKept := (OnlyReads.readBytes 2).packetSeq s₂
  rcases third : readBytes 2 s₂ with ⟨urgent, s₃⟩
  rw [first] at seqLength seqKept
  rw [second] at windowLength windowKept
  rw [third] at urgentLength urgentKept
  have optionsReads : OnlyReads (tcpOptionsTaken isFuzzOptions) := by
    cases isFuzzOptions with
    | false => exact .pure _
    | true => exact OnlyReads.readByte.bind fun _ => takenOptions_onlyReads _ _
  have optionsKept := optionsReads.packetSeq s₃
  obtain ⟨options, optionsLength, fourth, bound, counted⟩ :=
    fuzzTcpOptions_taken isFuzzOptions (headerBytes 0 seq window urgent 0) s₃
  have few : options.length ≤ optionsLength.toNat + 10 := by
    have taken := zeroLengths_le isFuzzOptions s₃
    omega
  rcases taken : tcpOptionsTaken isFuzzOptions s₃ with ⟨kinds, s₄⟩
  rw [taken] at fourth counted optionsKept
  have lengthReads : OnlyReads (payloadLength isFuzzData) := by
    cases isFuzzData with
    | false => exact .pure 0
    | true => exact .readInt
  have lengthKept := lengthReads.packetSeq s₄
  rcases fifth : payloadLength isFuzzData s₄ with ⟨length, s₅⟩
  rw [fifth] at lengthKept
  have ended : fuzzDataLength isFuzzData s₄ =
      (length % maxPacketDataLength, { s₅ with lastPacketDataLength := length % maxPacketDataLength }) := by
    cases isFuzzData with
    | false =>
      obtain ⟨rfl, rfl⟩ : 0 = length ∧ s₄ = s₅ := Prod.mk.inj fifth
      rfl
    | true =>
      have read : readInt s₄ = (length, s₅) := fifth
      simp only [fuzzDataLength, if_true, bind, StateT.bind, read]
      rfl
  have short : (length % maxPacketDataLength).toNat < 10000 := by
    rw [UInt32.toNat_mod]
    exact Nat.mod_lt _ (by decide)
  obtain ⟨g, pushed, isSeq, isPacketSeq, isLength, isOptions, isOff⟩ := finishData_generated s₅.packetSeq seqLength
    windowLength urgentLength bound (Nat.le.intro counted.symm) few short
  have padded : g.options.length = options.length + (paddingLength optionsLength).toNat := by
    rw [isOptions, List.length_append, List.length_replicate]
  have made : fuzzHeaders isFuzzWithoutDependency s = (headerBytes 0 seq window urgent 0, s₃) := by
    simp only [fuzzHeaders, bind, StateT.bind, first, second, third]
    rfl
  have chosen : (packetChoices isFuzzWithoutDependency isFuzzOptions isFuzzData s).1 =
      ⟨seq, window, urgent, kinds, length % maxPacketDataLength⟩ := by
    simp only [packetChoices, bind, StateT.bind, first, second, third, taken, fifth]
    rfl
  have occupied : (optionsPushed isFuzzWithoutDependency isFuzzOptions s).1 =
      options.length + (paddingLength optionsLength).toNat := by
    simp only [optionsPushed, bind, StateT.bind, made, fourth]
    show (headerBytes 0 seq window urgent 0 ++ options).length - (headerBytes 0 seq window urgent 0).length + _ = _
    rw [List.length_append, Nat.add_sub_cancel_left]
  rw [chosen]
  refine ⟨g, { s₅ with lastPacketDataLength := length % maxPacketDataLength }, ?_, isSeq, ?_, isLength, rfl,
    padded.trans occupied.symm, ?_⟩
  · simp only [fuzzData, bind, StateT.bind, made, fourth, ended]
    exact congrArg (·, _) pushed
  · rw [isPacketSeq]
    exact lengthKept.trans (optionsKept.trans (urgentKept.trans (windowKept.trans seqKept)))
  · show 20 + g.options.length = g.off * 4 + zeroLengths kinds
    have counted' : options.length = optionsLength.toNat + zeroLengths kinds := counted
    omega

end TcpFuzz
