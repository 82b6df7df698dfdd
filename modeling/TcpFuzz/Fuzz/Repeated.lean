import TcpFuzz.Fuzz.Inject

/-! Two fuzzers at the same place of the same file generate the same packets, whatever their scripts hold and
`malloc` finds. -/

namespace TcpFuzz
open Bytes Mem

/-- Two fuzzers at the same place of a file. The length of the last payload is the same only where it
is `known`. -/
structure SameFuzzer (file : List UInt8) (known : Prop) (s s' : Fuzzer) : Prop where
  first : s.fuzzFileString = file
  second : s'.fuzzFileString = file
  fuzzFileIndex : s.fuzzFileIndex = s'.fuzzFileIndex
  packetSeq : s.packetSeq = s'.packetSeq
  lastPacketDataLength : known → s.lastPacketDataLength = s'.lastPacketDataLength

theorem SameFuzzer.weaken {file : List UInt8} {known known' : Prop} {s s' : Fuzzer} (same : SameFuzzer file known s s')
    (less : known' → known) : SameFuzzer file known' s s' :=
  { same with lastPacketDataLength := fun holds => same.lastPacketDataLength (less holds) }

/-- From fuzzers that are the same the two programs come to the same. -/
def Alike {α β : Type} (known known' : Prop) (same : α → β → Prop) (m : StateM Fuzzer α) (m' : StateM Fuzzer β) : Prop :=
  ∀ file s s', SameFuzzer file known s s' → same (m s).1 (m' s').1 ∧ SameFuzzer file known' (m s).2 (m' s').2

namespace Alike

variable {α β γ δ : Type} {known known₁ known₂ : Prop} {same : α → β → Prop} {final : γ → δ → Prop}

theorem pure {a : α} {b : β} (holds : same a b) : Alike known known same (Pure.pure a) (Pure.pure b) :=
  fun _ _ _ start => ⟨holds, start⟩

theorem bind {m : StateM Fuzzer α} {m' : StateM Fuzzer β} (first : Alike known known₁ same m m') {f : α → StateM Fuzzer γ}
    {f' : β → StateM Fuzzer δ} (rest : ∀ a b, same a b → Alike known₁ known₂ final (f a) (f' b)) :
    Alike known known₂ final (m >>= f) (m' >>= f') := by
  intro file s s' start
  obtain ⟨holds, middle⟩ := first file s s' start
  exact rest _ _ holds _ _ _ middle

theorem andThen {m : StateM Fuzzer α} {m' : StateM Fuzzer α} (first : Alike known known₁ Eq m m') {f : α → StateM Fuzzer γ}
    {f' : α → StateM Fuzzer δ} (rest : ∀ a, Alike known₁ known₂ final (f a) (f' a)) :
    Alike known known₂ final (m >>= f) (m' >>= f') := by
  apply first.bind
  rintro a _ rfl
  exact rest a

theorem ite {c : Prop} [Decidable c] {m n : StateM Fuzzer α} {m' n' : StateM Fuzzer β} (yes : Alike known known₁ same m m')
    (no : Alike known known₁ same n n') : Alike known known₁ same (if c then m else n) (if c then m' else n') := by
  split
  · exact yes
  · exact no

theorem readByte : Alike known known Eq readByte readByte := by
  intro file s s' start
  unfold TcpFuzz.readByte
  rw [start.first, start.second, ← start.fuzzFileIndex]
  split
  · exact ⟨rfl, rfl, rfl, rfl, start.packetSeq, start.lastPacketDataLength⟩
  · exact ⟨rfl, start⟩

theorem readInt : Alike known known Eq readInt readInt :=
  readByte.andThen fun _ => readByte.andThen fun _ => readByte.andThen fun _ => readByte.andThen fun _ => pure rfl

theorem readBytes (n : Nat) : Alike known known Eq (readBytes n) (readBytes n) := by
  induction n with
  | zero => exact pure rfl
  | succ n ih => exact readByte.andThen fun _ => ih.andThen fun _ => pure rfl

theorem addContent (content content' : String) :
    Alike known known Eq (addContentToFuzzScript content) (addContentToFuzzScript content') :=
  fun _ _ _ start => ⟨rfl, { start with }⟩

theorem fuzzOptionHead : Alike known known Eq fuzzOptionHead fuzzOptionHead := by
  refine readByte.andThen fun tmp => ?_
  split <;> first | exact pure rfl | exact readByte.andThen fun _ => pure rfl

theorem fuzzOptions (count : Nat) (data : List UInt8) (optionsLength : UInt8) :
    Alike known known Eq (fuzzOptions count data optionsLength) (fuzzOptions count data optionsLength) := by
  induction count generalizing data optionsLength with
  | zero => exact pure rfl
  | succ count ih =>
    refine fuzzOptionHead.andThen fun option => .ite (pure rfl) ?_
    exact (readBytes _).andThen fun _ => (addContent _ _).andThen fun _ => ih _ _

theorem fuzzHeaders (isFuzzWithoutDependency : Bool) :
    Alike known known Eq (fuzzHeaders isFuzzWithoutDependency) (fuzzHeaders isFuzzWithoutDependency) := by
  have seq : Alike known known Eq (seqBytes isFuzzWithoutDependency) (seqBytes isFuzzWithoutDependency) := by
    cases isFuzzWithoutDependency with
    | true => exact readBytes 4
    | false => exact fun _ s s' start => ⟨congrArg be32Bytes start.packetSeq, start⟩
  exact seq.andThen fun _ => (readBytes 2).andThen fun _ => (readBytes 2).andThen fun _ => pure rfl

theorem fuzzTcpOptions (isFuzzOptions : Bool) (data : List UInt8) :
    Alike known known Eq (fuzzTcpOptions isFuzzOptions data) (fuzzTcpOptions isFuzzOptions data) :=
  .ite (readByte.andThen fun _ => fuzzOptions _ _ _) (pure rfl)

theorem fuzzDataLength (isFuzzData : Bool) :
    Alike known True Eq (fuzzDataLength isFuzzData) (fuzzDataLength isFuzzData) := by
  cases isFuzzData with
  | false => exact fun _ _ _ start => ⟨rfl, { start with lastPacketDataLength := fun _ => rfl }⟩
  | true =>
    refine readInt.andThen fun length => ?_
    exact fun _ _ _ start => ⟨rfl, { start with lastPacketDataLength := fun _ => rfl }⟩

theorem fuzzData (isFuzzWithoutDependency isFuzzOptions isFuzzData : Bool) :
    Alike known True Eq (fuzzData isFuzzWithoutDependency isFuzzOptions isFuzzData)
      (fuzzData isFuzzWithoutDependency isFuzzOptions isFuzzData) := by
  refine (fuzzHeaders _).andThen fun _ => (fuzzTcpOptions _ _).andThen fun _ => (fuzzDataLength _).andThen fun _ => ?_
  intro _ s s' start
  refine ⟨?_, start⟩
  show finishData _ _ s.packetSeq _ = finishData _ _ s'.packetSeq _
  rw [start.packetSeq]

end Alike

def SameBelow (n : Nat) (m m' : Mem) : Prop := ∀ k < n, m'.get8 k = m.get8 k

namespace SameBelow

variable {n : Nat} {m m' : Mem}

theorem put8 (same : SameBelow n m m') (i v : Nat) : SameBelow n (m.put8 i v) (m'.put8 i v) := by
  intro k inside
  rw [get8_put8, get8_put8, same k inside]

theorem putLe16 (same : SameBelow n m m') (i v : Nat) : SameBelow n (m.putLe16 i v) (m'.putLe16 i v) :=
  (same.put8 _ _).put8 _ _

theorem putLe32 (same : SameBelow n m m') (i v : Nat) : SameBelow n (m.putLe32 i v) (m'.putLe32 i v) :=
  (same.putLe16 _ _).putLe16 _ _

theorem write (a a' : Mem) (bs : List UInt8) : SameBelow bs.length (a.write 0 bs) (a'.write 0 bs) := by
  intro k inside
  have into : 0 ≤ k ∧ k < 0 + bs.length := ⟨Nat.zero_le k, by omega⟩
  unfold get8 Mem.write
  rw [if_pos into, if_pos into]

theorem refillLoop (same : SameBelow n m m') (start : Nat) (seq : UInt32) (count : Nat) :
    SameBelow n (refillLoop m start seq count) (refillLoop m' start seq count) := by
  induction count with
  | zero => exact same
  | succ count ih => exact ih.put8 _ _

theorem fillCheck (same : SameBelow n m m') (field : Nat) {sum : Mem → Nat}
    (within : ∀ m m', SameBelow n m m' → sum m' = sum m) : SameBelow n (fillCheck m field sum) (fillCheck m' field sum) := by
  have cleared := same.putLe16 field 0
  unfold TcpFuzz.fillCheck
  simp only [within _ _ cleared]
  exact cleared.putLe16 field _

theorem setIpv4Check (same : SameBelow n m m') (enough : 20 ≤ n) (length : ipv4HeaderLen m 0 = 20) :
    SameBelow n (setIpv4Check m 0) (setIpv4Check m' 0) := by
  have cleared := same.putLe16 (0 + 10) 0
  have lengths : ipv4HeaderLen (m.putLe16 (0 + 10) 0) 0 = 20 ∧ ipv4HeaderLen (m'.putLe16 (0 + 10) 0) 0 = 20 := by
    unfold ipv4HeaderLen at length ⊢
    rw [cleared 0 (by omega), get8_putLe16_ne _ _ (by omega)]
    exact ⟨length, length⟩
  unfold TcpFuzz.setIpv4Check
  simp only [lengths.1, lengths.2]
  rw [ipv4Checksum_congr fun j _ upper => cleared j (by omega)]
  exact cleared.putLe16 _ _

theorem checkedMem {l4Bytes : Nat} (same : SameBelow n m m') (enough : 20 + l4Bytes ≤ n) (length : ipv4HeaderLen m 0 = 20) :
    SameBelow n (checkedMem m l4Bytes) (checkedMem m' l4Bytes) := by
  refine (same.setIpv4Check (by omega) length).fillCheck 36 fun m m' same => ?_
  have addresses : m'.bytes (0 + 12) 8 = m.bytes (0 + 12) 8 := bytes_of_get8 fun k _ upper => same k (by omega)
  unfold tcpUdpV4Checksum tcpUdpV4HeaderChecksumPartial
  rw [addresses]
  exact congrArg ipChecksumFold (ipChecksumPartial_congr (fun j _ upper => same j (by omega)) _)

end SameBelow

structure SamePacket (p p' : Packet) : Prop where
  ipv4 : p.ipv4 = p'.ipv4
  tcp : p.tcp = p'.tcp
  bufferBytes : p.bufferBytes = p'.bufferBytes
  buffer : SameBelow p.bufferBytes p.buffer p'.buffer

theorem SamePacket.bytes {p p' : Packet} (same : SamePacket p p') :
    p.buffer.bytes 0 p.bufferBytes = p'.buffer.bytes 0 p'.bufferBytes := by
  rw [← same.bufferBytes]
  exact bytes_of_get8 fun k _ upper => (same.buffer k (by omega)).symm

theorem Alike.injectIpError {known : Prop} {n ip : Nat} {m m' : Mem} (same : SameBelow n m m') (inside : ip < n) :
    Alike known known (SameBelow n) (injectIpError m ip) (injectIpError m' ip) := by
  refine readByte.andThen fun tmp => ?_
  let later (m : Mem) : StateM Fuzzer Mem := do
    if tmp < 150 then
      let ihl := (← TcpFuzz.readByte).toNat % 16
      addContentToFuzzScript (errorString "ip ihl" 2 ihl)
      return m.put8 ip (m.get8 ip / 16 * 16 + ihl)
    else if tmp < 200 then
      addContentToFuzzScript (errorString "ip checksum" 4 0)
      return m.putLe16 (ip + 10) 0
    else
      let high ← TcpFuzz.readByte
      let low ← TcpFuzz.readByte
      addContentToFuzzScript (errorString "ip frag_off" 4 (high.toNat * 256 + low.toNat))
      return m.putLe16 (ip + 6) (high.toNat * 256 + low.toNat)
  have last {m m' : Mem} (same : SameBelow n m m') : Alike known known (SameBelow n) (later m) (later m') := by
    refine .ite ?_ (.ite ?_ ?_)
    · refine readByte.andThen fun byte => (addContent _ _).andThen fun _ => pure ?_
      rw [same ip inside]
      exact same.put8 _ _
    · exact (addContent _ _).andThen fun _ => pure (same.putLe16 _ _)
    · exact readByte.andThen fun _ => readByte.andThen fun _ => (addContent _ _).andThen fun _ => pure (same.putLe16 _ _)
  -- the second choice is made after either outcome of the first
  refine .ite (readByte.andThen fun byte => last ?_) (last same)
  rw [same ip inside]
  exact same.put8 _ _

theorem Alike.injectTcpError {n tcp bufferBytes : Nat} {m m' : Mem} (same : SameBelow n m m') (inside : tcp + 12 < n) :
    Alike True True (SameBelow n) (injectTcpError m bufferBytes tcp) (injectTcpError m' bufferBytes tcp) := by
  refine readByte.andThen fun tmp => .ite (pure same) (.ite ?_ (.ite ?_ (.ite ?_ ?_)))
  · refine readInt.andThen fun seq => ?_
    have stored := same.putLe32 (tcp + 4) seq.toNat
    have read : (m'.putLe32 (tcp + 4) seq.toNat).be32 (tcp + 4) = (m.putLe32 (tcp + 4) seq.toNat).be32 (tcp + 4) :=
      be32_of_get8 fun k _ upper => stored k (by omega)
    intro _ s s' start
    refine ⟨?_, { start with }⟩
    show SameBelow n (refillLoop _ (UInt32.ofNat bufferBytes - s.lastPacketDataLength).toNat _ s.lastPacketDataLength.toNat)
      (refillLoop _ (UInt32.ofNat bufferBytes - s'.lastPacketDataLength).toNat _ s'.lastPacketDataLength.toNat)
    rw [start.lastPacketDataLength trivial, read]
    exact stored.refillLoop _ _ _
  · exact readInt.andThen fun _ => (addContent _ _).andThen fun _ => pure (same.putLe32 _ _)
  · exact readByte.andThen fun _ => (addContent _ _).andThen fun _ => pure (same.put8 _ _)
  · refine readByte.andThen fun byte => (addContent _ _).andThen fun _ => pure ?_
    rw [same _ inside]
    exact same.put8 _ _

/-- The filling loop stays behind the sequence number and the data offset, or has nothing to do. -/
def Refillable (p : Packet) : Bool :=
  match p.tcp with
  | none => true
  | some tcp =>
    let start := 20 + tcpDoff p.buffer tcp * 4
    decide (tcp + 13 ≤ start) || decide (p.bufferBytes ≤ start)

end TcpFuzz
