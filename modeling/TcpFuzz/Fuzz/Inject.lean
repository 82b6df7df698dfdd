import TcpFuzz.Fuzz.Generated
import TcpFuzz.Live.Stream
import TcpFuzz.Script.PacketToString

/-! `inject_error_to_packet` of `fuzz_test.c` overwrites fields of a generated packet with bytes of the fuzz file. -/

namespace TcpFuzz
open Bytes Mem

def errorString (name : String) (digits value : Nat) : String :=
  "// set " ++ name ++ " to 0x" ++ hexPadded digits value ++ "\n"

/-- The second choice is made whether or not the first has set the version. -/
def injectIpError (m : Mem) (ip : Nat) : StateM Fuzzer Mem := do
  let tmp ← readByte
  let m ← if 50 ≤ tmp ∧ tmp < 100 then
      let version := (← readByte).toNat % 16
      pure (m.put8 ip (m.get8 ip % 16 + version * 16))
    else pure m
  if tmp < 150 then
    let ihl := (← readByte).toNat % 16
    addContentToFuzzScript (errorString "ip ihl" 2 ihl)
    return m.put8 ip (m.get8 ip / 16 * 16 + ihl)
  else if tmp < 200 then
    addContentToFuzzScript (errorString "ip checksum" 4 0)
    return m.putLe16 (ip + 10) 0
  else
    let high ← readByte
    let low ← readByte
    let fragOff := high.toNat * 256 + low.toNat
    addContentToFuzzScript (errorString "ip frag_off" 4 fragOff)
    return m.putLe16 (ip + 6) fragOff

/-- The digits of a payload from `seq` on. -/
def refillLoop (m : Mem) (start : Nat) (seq : UInt32) : Nat → Mem
  | 0 => m
  | n + 1 => (refillLoop m start seq n).put8 (start + n) ((seq + UInt32.ofNat n) % 10).toNat

def injectTcpError (m : Mem) (bufferBytes tcp : Nat) : StateM Fuzzer Mem := do
  let tmp ← readByte
  if tmp < 50 then return m
  else if tmp < 100 then
    let m := m.putLe32 (tcp + 4) (← readInt).toNat
    let lastPacketDataLength := (← get).lastPacketDataLength
    let headerLength := (UInt32.ofNat bufferBytes - lastPacketDataLength).toNat
    let m := refillLoop m headerLength (UInt32.ofNat (m.be32 (tcp + 4))) lastPacketDataLength.toNat
    addContentToFuzzScript (errorString "tcp seq" 8 (m.le32 (tcp + 4)))
    return m
  else if tmp < 150 then
    let ackSeq ← readInt
    addContentToFuzzScript (errorString "tcp ack seq" 8 ackSeq.toNat)
    return m.putLe32 (tcp + 8) ackSeq.toNat
  else if tmp < 200 then
    let flags ← readByte
    addContentToFuzzScript (errorString "tcp flags" 2 flags.toNat)
    return m.put8 (tcp + 13) flags.toNat
  else
    let doff := (← readByte).toNat % 16
    addContentToFuzzScript (errorString "tcp offset" 2 doff)
    return m.put8 (tcp + 12) (doff * 16 + m.get8 (tcp + 12) % 16)

def injectErrorToPacket (p : Packet) (s : Fuzzer) : Run (Packet × Fuzzer) := do
  let ip ← deref p.ipv4
  let (m, s) := injectIpError p.buffer ip s
  let tcp ← deref p.tcp
  let (m, s) := injectTcpError m p.bufferBytes tcp s
  return ({ p with buffer := m }, s)

/-- The half bytes of memory; the high one of a byte comes first. -/
def nibble (m : Mem) (k : Nat) : Nat := if k % 2 = 0 then m.get8 (k / 2) / 16 else m.get8 (k / 2) % 16

theorem nibble_of_get8 {m m' : Mem} {k : Nat} (same : m'.get8 (k / 2) = m.get8 (k / 2)) : nibble m' k = nibble m k := by
  unfold nibble
  rw [same]

theorem nibble_high (m : Mem) (i : Nat) : nibble m (2 * i) = m.get8 i / 16 := by
  have half : 2 * i / 2 = i := by omega
  rw [nibble, half, if_pos (by omega)]

theorem nibble_low (m : Mem) (i : Nat) : nibble m (2 * i + 1) = m.get8 i % 16 := by
  have half : (2 * i + 1) / 2 = i := by omega
  rw [nibble, half, if_neg (by omega)]

theorem get8_of_nibbles {m m' : Mem} {i : Nat} (high : nibble m' (2 * i) = nibble m (2 * i))
    (low : nibble m' (2 * i + 1) = nibble m (2 * i + 1)) : m'.get8 i = m.get8 i := by
  rw [nibble_high, nibble_high] at high
  rw [nibble_low, nibble_low] at low
  omega

inductive ErrorField where
  | version | ihl | check | fragOff | seq | ackSeq | flags | doff
deriving DecidableEq, Repr

namespace ErrorField

def isIp : ErrorField → Bool
  | version | ihl | check | fragOff => true
  | seq | ackSeq | flags | doff => false

def start (ip tcp : Nat) : ErrorField → Nat
  | version => 2 * ip
  | ihl => 2 * ip + 1
  | check => 2 * (ip + 10)
  | fragOff => 2 * (ip + 6)
  | seq => 2 * (tcp + 4)
  | ackSeq => 2 * (tcp + 8)
  | flags => 2 * (tcp + 13)
  | doff => 2 * (tcp + 12)

def width : ErrorField → Nat
  | version | ihl | doff => 1
  | flags => 2
  | check | fragOff => 4
  | seq | ackSeq => 8

def Covers (ip tcp : Nat) (field : ErrorField) (k : Nat) : Prop :=
  field.start ip tcp ≤ k ∧ k < field.start ip tcp + field.width

def value (m : Mem) (ip tcp : Nat) : ErrorField → Nat
  | version => m.get8 ip / 16
  | ihl => m.get8 ip % 16
  | check => m.le16 (ip + 10)
  | fragOff => m.le16 (ip + 6)
  | seq => m.le32 (tcp + 4)
  | ackSeq => m.le32 (tcp + 8)
  | flags => m.get8 (tcp + 13)
  | doff => m.get8 (tcp + 12) / 16

def comment : ErrorField → Nat → String
  | version => errorString "ip version" 2
  | ihl => errorString "ip ihl" 2
  | check => errorString "ip checksum" 4
  | fragOff => errorString "ip frag_off" 4
  | seq => errorString "tcp seq" 8
  | ackSeq => errorString "tcp ack seq" 8
  | flags => errorString "tcp flags" 2
  | doff => errorString "tcp offset" 2

theorem value_congr {m m' : Mem} {ip tcp : Nat} (field : ErrorField)
    (same : ∀ k, field.Covers ip tcp k → nibble m' k = nibble m k) : field.value m' ip tcp = field.value m ip tcp := by
  have byte {i : Nat} (lower : field.start ip tcp ≤ 2 * i) (upper : 2 * i + 2 ≤ field.start ip tcp + field.width) :
      m'.get8 i = m.get8 i :=
    get8_of_nibbles (same _ ⟨lower, by omega⟩) (same _ ⟨by omega, by omega⟩)
  cases field with
  | version =>
    have := same _ ⟨Nat.le_refl _, Nat.lt_succ_self _⟩
    rwa [start, nibble_high, nibble_high] at this
  | ihl =>
    have := same _ ⟨Nat.le_refl _, Nat.lt_succ_self _⟩
    rwa [start, nibble_low, nibble_low] at this
  | doff =>
    have := same _ ⟨Nat.le_refl _, Nat.lt_succ_self _⟩
    rwa [start, nibble_high, nibble_high] at this
  | flags => exact byte (Nat.le_refl _) (Nat.le_refl _)
  | check | fragOff | seq | ackSeq =>
    simp only [start, width] at byte
    simp (disch := omega) only [value, le32, le16, byte]

theorem covers_generated (field : ErrorField) {k : Nat} (covers : field.Covers 0 20 k) :
    if field.isIp then k < 40 else 48 ≤ k := by
  cases field <;> simp only [Covers, start, width, isIp] at covers ⊢ <;> simp <;> omega

end ErrorField

structure Setting where
  field : ErrorField
  value : Nat
  fits : value < 16 ^ field.width

namespace Setting

def halfByte (field : ErrorField) (half : field.width = 1) (byte : UInt8) : Setting :=
  ⟨field, byte.toNat % 16, by rw [half]; exact Nat.mod_lt _ (by decide)⟩

def bytePair (field : ErrorField) (wide : field.width = 4) (high low : UInt8) : Setting :=
  ⟨field, high.toNat * 256 + low.toNat, by
    have := high.toNat_lt
    have := low.toNat_lt
    rw [wide]
    omega⟩

def word (field : ErrorField) (wide : field.width = 8) (n : UInt32) : Setting :=
  ⟨field, n.toNat, by rw [wide]; exact n.toNat_lt⟩

def comment (a : Setting) : String := a.field.comment a.value

def store (ip tcp : Nat) (m : Mem) (a : Setting) : Mem :=
  match a.field with
  | .version => m.put8 ip (m.get8 ip % 16 + a.value * 16)
  | .ihl => m.put8 ip (m.get8 ip / 16 * 16 + a.value)
  | .check => m.putLe16 (ip + 10) a.value
  | .fragOff => m.putLe16 (ip + 6) a.value
  | .seq => m.putLe32 (tcp + 4) a.value
  | .ackSeq => m.putLe32 (tcp + 8) a.value
  | .flags => m.put8 (tcp + 13) a.value
  | .doff => m.put8 (tcp + 12) (a.value * 16 + m.get8 (tcp + 12) % 16)

end Setting

/-- The fields hold what they were set to, and the half bytes outside of them and of `others` are as
they were. -/
structure Sets (m m' : Mem) (ip tcp : Nat) (settings : List Setting) (others : Nat → Prop) : Prop where
  values : ∀ a ∈ settings, a.field.value m' ip tcp = a.value
  frame : ∀ k, (∀ a ∈ settings, ¬a.field.Covers ip tcp k) → ¬others k → nibble m' k = nibble m k

namespace Sets

variable {m m' m'' : Mem} {ip tcp : Nat} {as bs : List Setting} {others : Nat → Prop}

theorem single (m : Mem) (ip tcp : Nat) (a : Setting) : Sets m (a.store ip tcp m) ip tcp [a] fun _ => False := by
  obtain ⟨field, value, fits⟩ := a
  have byteFrame {i v k : Nat} (apart : k / 2 ≠ i) : nibble (m.put8 i v) k = nibble m k :=
    nibble_of_get8 (get8_put8_ne _ _ apart)
  constructor
  · intro a member
    obtain rfl := List.mem_singleton.mp member
    cases field with
    | version | ihl | doff | flags =>
      have bound := get8_lt m ip
      have bound' := get8_lt m (tcp + 12)
      simp only [ErrorField.width] at fits
      simp only [Setting.store, ErrorField.value, get8_put8_self]
      omega
    | check | fragOff => exact le16_putLe16_self _ _ fits
    | seq | ackSeq => exact le32_putLe32_self _ _ fits
  · intro k outside _
    have apart : ¬field.Covers ip tcp k := outside _ (List.mem_singleton.mpr rfl)
    unfold ErrorField.Covers at apart
    cases field with
    | check | fragOff =>
      simp only [ErrorField.start, ErrorField.width] at apart
      exact nibble_of_get8 (get8_putLe16_ne _ _ (by omega))
    | seq | ackSeq =>
      simp only [ErrorField.start, ErrorField.width] at apart
      exact nibble_of_get8 (get8_putLe32_ne _ _ (by omega))
    | flags =>
      simp only [ErrorField.start, ErrorField.width] at apart
      exact byteFrame (by omega)
    | version =>
      simp only [ErrorField.start, ErrorField.width] at apart
      by_cases here : k / 2 = ip
      · obtain rfl : k = 2 * ip + 1 := by omega
        have bound := get8_lt m ip
        rw [nibble_low, nibble_low]
        simp only [Setting.store, get8_put8_self]
        omega
      · exact byteFrame here
    | ihl =>
      simp only [ErrorField.start, ErrorField.width] at apart fits
      by_cases here : k / 2 = ip
      · obtain rfl : k = 2 * ip := by omega
        have bound := get8_lt m ip
        rw [nibble_high, nibble_high]
        simp only [Setting.store, get8_put8_self]
        omega
      · exact byteFrame here
    | doff =>
      simp only [ErrorField.start, ErrorField.width] at apart fits
      by_cases here : k / 2 = tcp + 12
      · obtain rfl : k = 2 * (tcp + 12) + 1 := by omega
        rw [nibble_low, nibble_low]
        simp only [Setting.store, get8_put8_self]
        omega
      · exact byteFrame here

theorem append (first : Sets m m' ip tcp as fun _ => False) (second : Sets m' m'' ip tcp bs others)
    (apart : ∀ a ∈ as, ∀ k, a.field.Covers ip tcp k → (∀ b ∈ bs, ¬b.field.Covers ip tcp k) ∧ ¬others k) :
    Sets m m'' ip tcp (as ++ bs) others := by
  constructor
  · intro a member
    rcases List.mem_append.mp member with early | late
    · rw [← first.values a early]
      exact a.field.value_congr fun k covers => second.frame k (apart a early k covers).1 (apart a early k covers).2
    · exact second.values a late
  · intro k outside away
    rw [second.frame k (fun b member => outside b (List.mem_append_right _ member)) away]
    exact first.frame k (fun a member => outside a (List.mem_append_left _ member)) not_false

theorem weaken {others' : Nat → Prop} (sets : Sets m m' ip tcp as others) (more : ∀ k, others k → others' k) :
    Sets m m' ip tcp as others' :=
  ⟨sets.values, fun k outside away => sets.frame k outside fun other => away (more k other)⟩

theorem refill (m : Mem) (ip tcp start : Nat) (seq : UInt32) (n : Nat) :
    Sets m (refillLoop m start seq n) ip tcp [] fun k => start ≤ k / 2 ∧ k / 2 < start + n := by
  refine ⟨fun _ none => absurd none List.not_mem_nil, fun k _ away => nibble_of_get8 ?_⟩
  induction n with
  | zero => rfl
  | succ n ih => rw [refillLoop, get8_put8_ne _ _ (by omega), ih (by omega)]

end Sets

def versionSettings (tmp : UInt8) : StateM Fuzzer (List Setting) := do
  if 50 ≤ tmp ∧ tmp < 100 then return [.halfByte .version rfl (← readByte)]
  else return []

def laterSetting (tmp : UInt8) : StateM Fuzzer Setting := do
  if tmp < 150 then
    let ihl := Setting.halfByte .ihl rfl (← readByte)
    addContentToFuzzScript ihl.comment
    return ihl
  else if tmp < 200 then
    let check : Setting := ⟨.check, 0, by decide⟩
    addContentToFuzzScript check.comment
    return check
  else
    let high ← readByte
    let low ← readByte
    let fragOff := Setting.bytePair .fragOff rfl high low
    addContentToFuzzScript fragOff.comment
    return fragOff

def ipSettings : StateM Fuzzer (List Setting) := do
  let tmp ← readByte
  let version ← versionSettings tmp
  return version ++ [← laterSetting tmp]

theorem ipSettings_onlyReads : OnlyReads ipSettings := by
  refine OnlyReads.readByte.bind fun tmp => OnlyReads.bind ?_ fun version => OnlyReads.bind ?_ fun last => .pure _
  · unfold versionSettings
    split
    · exact OnlyReads.readByte.bind fun _ => .pure _
    · exact .pure _
  · unfold laterSetting
    split
    · exact OnlyReads.readByte.bind fun _ => (OnlyReads.addContent _).bind fun _ => .pure _
    split
    · exact (OnlyReads.addContent _).bind fun _ => .pure _
    · exact OnlyReads.readByte.bind fun _ => OnlyReads.readByte.bind fun _ => (OnlyReads.addContent _).bind fun _ => .pure _

def tcpSettings : StateM Fuzzer (List Setting) := do
  let tmp ← readByte
  if tmp < 50 then return []
  else if tmp < 100 then return [.word .seq rfl (← readInt)]
  else if tmp < 150 then return [.word .ackSeq rfl (← readInt)]
  else if tmp < 200 then
    let flags ← readByte
    return [⟨.flags, flags.toNat, flags.toNat_lt⟩]
  else return [.halfByte .doff rfl (← readByte)]

/-- The assignments in the IPv4 header are those listed, and the comment is about the last of them;
there are two when the version is set. -/
theorem injectIpError_sets (m : Mem) (ip tcp : Nat) (s : Fuzzer) :
    let settings := (ipSettings s).1
    (injectIpError m ip s).2 = (ipSettings s).2 ∧ Sets m (injectIpError m ip s).1 ip tcp settings (fun _ => False) ∧
      (∀ a ∈ settings, a.field.isIp) ∧
      ∃ earlier last, settings = earlier ++ [last] ∧ (ipSettings s).2.fuzzScript = s.fuzzScript ++ last.comment ∧
        (earlier = [] ↔ ¬(50 ≤ (readByte s).1 ∧ (readByte s).1 < 100)) := by
  have script := readByte_fuzzScript s
  rcases read : readByte s with ⟨tmp, s₁⟩
  rw [read] at script
  simp only [injectIpError, ipSettings, versionSettings, laterSetting, stateM_bind, stateM_ite, read]
  by_cases versioned : 50 ≤ tmp ∧ tmp < 100
  · have low : tmp < 150 := UInt8.lt_trans versioned.2 (by decide)
    simp only [if_pos versioned, if_pos low, stateM_pure]
    let version := Setting.halfByte .version rfl (readByte s₁).1
    let ihl := Setting.halfByte .ihl rfl (readByte (readByte s₁).2).1
    have first := Sets.single m ip tcp version
    have second := Sets.single (version.store ip tcp m) ip tcp ihl
    refine ⟨rfl, first.append second ?_, ?_, [version], ihl, rfl, ?_, ?_⟩
    · intro a member k covers
      obtain rfl := List.mem_singleton.mp member
      refine ⟨fun b later => ?_, not_false⟩
      obtain rfl := List.mem_singleton.mp later
      simp only [ErrorField.Covers, version, Setting.halfByte, ErrorField.start, ErrorField.width] at covers ⊢
      omega
    · intro a member
      rcases List.mem_pair.mp member with rfl | rfl <;> rfl
    · show (readByte (readByte s₁).2).2.fuzzScript ++ _ = _
      rw [readByte_fuzzScript, readByte_fuzzScript, script]
    · simp [versioned]
  · have one (a : Setting) (isIp : a.field.isIp) : ∀ b ∈ [a], b.field.isIp := by
      intro b member
      obtain rfl := List.mem_singleton.mp member
      exact isIp
    simp only [if_neg versioned, stateM_pure]
    split
    · refine ⟨rfl, Sets.single m ip tcp (.halfByte .ihl rfl _), one _ rfl, [], _, rfl, ?_, by simp [versioned]⟩
      show (readByte s₁).2.fuzzScript ++ _ = _
      rw [readByte_fuzzScript, script]
    · split
      · refine ⟨rfl, Sets.single m ip tcp ⟨.check, 0, by decide⟩, one _ rfl, [], _, rfl, ?_, by simp [versioned]⟩
        exact congrArg (· ++ _) script
      · refine ⟨rfl, Sets.single m ip tcp (.bytePair .fragOff rfl _ _), one _ rfl, [], _, rfl, ?_, by simp [versioned]⟩
        show (readByte (readByte s₁).2).2.fuzzScript ++ _ = _
        rw [readByte_fuzzScript, readByte_fuzzScript, script]

theorem tcpSettings_spec (s : Fuzzer) :
    (∀ a ∈ (tcpSettings s).1, a.field.isIp = false) ∧ (tcpSettings s).1.length ≤ 1 := by
  have one (a : Setting) (isTcp : a.field.isIp = false) : (∀ b ∈ [a], b.field.isIp = false) ∧ [a].length ≤ 1 := by
    refine ⟨fun b member => ?_, Nat.le_refl _⟩
    obtain rfl := List.mem_singleton.mp member
    exact isTcp
  simp only [tcpSettings, stateM_bind, stateM_ite]
  split
  · exact ⟨fun _ none => absurd none List.not_mem_nil, Nat.zero_le _⟩
  split
  · exact one (.word .seq rfl _) rfl
  split
  · exact one (.word .ackSeq rfl _) rfl
  split
  · exact one _ rfl
  · exact one (.halfByte .doff rfl _) rfl

theorem Sets.refilled (m : Mem) (ip : Nat) {tcp bufferBytes length : Nat} (fits : tcp + 20 + length ≤ bufferBytes)
    (n first : UInt32) :
    Sets m (refillLoop ((Setting.word .seq rfl n).store ip tcp m) (bufferBytes - length) first length) ip tcp
      [.word .seq rfl n] fun k => bufferBytes - length ≤ k / 2 ∧ k / 2 < bufferBytes := by
  have sequence := Sets.single m ip tcp (.word .seq rfl n)
  have payload := Sets.refill ((Setting.word .seq rfl n).store ip tcp m) ip tcp (bufferBytes - length) first length
  refine (sequence.append payload ?_).weaken fun k inside => ⟨inside.1, by omega⟩
  intro a member k covers
  obtain rfl := List.mem_singleton.mp member
  refine ⟨fun _ none => absurd none List.not_mem_nil, ?_⟩
  simp only [ErrorField.Covers, Setting.word, ErrorField.start, ErrorField.width] at covers
  omega

/-- The assignments in the TCP header are those listed, each with its comment. The payload, which is
at the end of the buffer, is rewritten with the sequence number. -/
theorem injectTcpError_sets (m : Mem) {bufferBytes tcp : Nat} (ip : Nat) (s : Fuzzer) (short : bufferBytes < 2 ^ 32)
    (fits : tcp + 20 + s.lastPacketDataLength.toNat ≤ bufferBytes) :
    let settings := (tcpSettings s).1
    (injectTcpError m bufferBytes tcp s).2.fuzzScript = s.fuzzScript ++ String.join (settings.map Setting.comment) ∧
      Sets m (injectTcpError m bufferBytes tcp s).1 ip tcp settings
        (fun k => (∃ a ∈ settings, a.field = .seq) ∧
          bufferBytes - s.lastPacketDataLength.toNat ≤ k / 2 ∧ k / 2 < bufferBytes) := by
  have script := readByte_fuzzScript s
  have length := OnlyReads.readByte.lastPacketDataLength s
  rcases read : readByte s with ⟨tmp, s₁⟩
  rw [read] at script length
  have joined (a : Setting) : String.join ([a].map Setting.comment) = a.comment := by simp [String.join]
  -- all but the sequence number come alone
  have plain (a : Setting) {before : String} (same : before = s.fuzzScript) :
      before ++ a.comment = s.fuzzScript ++ String.join ([a].map Setting.comment) ∧
        Sets m (a.store ip tcp m) ip tcp [a] (fun k => (∃ b ∈ [a], b.field = .seq) ∧
          bufferBytes - s.lastPacketDataLength.toNat ≤ k / 2 ∧ k / 2 < bufferBytes) := by
    rw [joined, same]
    exact ⟨rfl, (Sets.single m ip tcp a).weaken fun _ => False.elim⟩
  simp only [injectTcpError, tcpSettings, stateM_bind, stateM_ite, read]
  split
  · refine ⟨?_, ⟨fun _ none => absurd none List.not_mem_nil, fun _ _ _ => rfl⟩⟩
    show s₁.fuzzScript = s.fuzzScript ++ String.join []
    rw [String.join_nil, String.append_empty]
    exact script
  split
  · have script' := readInt_fuzzScript s₁
    have length' := OnlyReads.readInt.lastPacketDataLength s₁
    generalize readInt s₁ = read at script' length'
    obtain ⟨n, s₂⟩ := read
    have last : s₂.lastPacketDataLength = s.lastPacketDataLength := length'.trans length
    have start : (UInt32.ofNat bufferBytes - s₂.lastPacketDataLength).toNat = bufferBytes - s.lastPacketDataLength.toNat := by
      have stored : (UInt32.ofNat bufferBytes).toNat = bufferBytes := by
        rw [UInt32.toNat_ofNat']
        omega
      rw [last, UInt32.toNat_sub_of_le, stored]
      rw [UInt32.le_iff_toNat_le, stored]
      omega
    let seq := Setting.word .seq rfl n
    let first := UInt32.ofNat ((seq.store ip tcp m).be32 (tcp + 4))
    have sets := Sets.refilled m ip fits n first
    have printed := sets.values seq (List.mem_singleton.mpr rfl)
    show (s₂.fuzzScript ++ errorString "tcp seq" 8 ((refillLoop (seq.store ip tcp m)
        (UInt32.ofNat bufferBytes - s₂.lastPacketDataLength).toNat first s₂.lastPacketDataLength.toNat).le32 (tcp + 4)) =
          s.fuzzScript ++ String.join ([seq].map Setting.comment)) ∧
      Sets m (refillLoop (seq.store ip tcp m) (UInt32.ofNat bufferBytes - s₂.lastPacketDataLength).toNat first
        s₂.lastPacketDataLength.toNat) ip tcp [seq] _
    rw [joined, start, last]
    refine ⟨?_, sets.weaken fun k inside => ⟨⟨seq, List.mem_singleton.mpr rfl, rfl⟩, inside⟩⟩
    exact congrArg₂ (· ++ ·) (script'.trans script) (congrArg (errorString "tcp seq" 8) printed)
  split
  · exact plain (.word .ackSeq rfl (readInt s₁).1) ((readInt_fuzzScript s₁).trans script)
  split
  · exact plain ⟨.flags, (readByte s₁).1.toNat, (readByte s₁).1.toNat_lt⟩ ((readByte_fuzzScript s₁).trans script)
  · exact plain (.halfByte .doff rfl (readByte s₁).1) ((readByte_fuzzScript s₁).trans script)

def errorSettings : StateM Fuzzer (List Setting) := do return (← ipSettings) ++ (← tcpSettings)

/-- At most one field of each header is set, the payload is rewritten with the sequence number only,
everything else is kept, and the comments are those of the fields that are set. -/
structure LoggedInjection (p q : Packet) (dataLength : Nat) (settings : List Setting) (comments : String) : Prop where
  oneIp : settings.countP (·.field.isIp) ≤ 1
  oneTcp : settings.countP (!·.field.isIp) ≤ 1
  sets : Sets p.buffer q.buffer 0 20 settings fun k =>
    (∃ a ∈ settings, a.field = .seq) ∧ p.bufferBytes - dataLength ≤ k / 2 ∧ k / 2 < p.bufferBytes
  kept : q = { p with buffer := q.buffer }
  log : comments = String.join (settings.map Setting.comment)

def Fuzzer.withFile (s : Fuzzer) (file : List UInt8) (index : UInt32) : Fuzzer :=
  { s with fuzzFileString := file, fuzzFileIndex := index }

theorem injectErrorToPacket_generated (allocated : Mem) (g : Generated) (u : Fuzzer)
    (length : u.lastPacketDataLength.toNat = g.dataLength) :
    let p := generatedPacket allocated g
    let settings := (errorSettings u).1
    ∃ m t comments, injectErrorToPacket p u = .ok ({ p with buffer := m }, t) ∧ t.fuzzScript = u.fuzzScript ++ comments ∧
      Sets p.buffer m 0 20 settings (fun k =>
        (∃ a ∈ settings, a.field = .seq) ∧ p.bufferBytes - g.dataLength ≤ k / 2 ∧ k / 2 < p.bufferBytes) ∧
      settings.countP (!·.field.isIp) ≤ 1 ∧
      if 50 ≤ (readByte u).1 ∧ (readByte u).1 < 100 then 1 < settings.countP (·.field.isIp)
      else settings.countP (·.field.isIp) = 1 ∧ comments = String.join (settings.map Setting.comment) := by
  intro p settings
  obtain ⟨-, bufferBytes, ipv4, tcp, -⟩ := generatedPacket_recorded allocated g
  have size : p.bufferBytes = 40 + g.options.length + g.dataLength := bufferBytes.trans g.data_length
  have few := g.few
  have short := g.short
  obtain ⟨state, first, areIp, earlier, last, ipList, ipScript, alone⟩ := injectIpError_sets p.buffer 0 20 u
  have kept := ipSettings_onlyReads.lastPacketDataLength u
  rcases ip : injectIpError p.buffer 0 u with ⟨m, u₁⟩
  rw [ip] at state first
  subst state
  have fits : 20 + 20 + (ipSettings u).2.lastPacketDataLength.toNat ≤ p.bufferBytes := by
    rw [kept, length]
    omega
  obtain ⟨tcpScript, second⟩ := injectTcpError_sets m 0 (ipSettings u).2 (by omega) fits
  obtain ⟨areTcp, oneTcp⟩ := tcpSettings_spec (ipSettings u).2
  rw [kept, length] at second
  have split : settings = (ipSettings u).1 ++ (tcpSettings (ipSettings u).2).1 := rfl
  have countIp : settings.countP (·.field.isIp) = (ipSettings u).1.length := by
    rw [split, List.countP_append, List.countP_eq_length.mpr areIp, List.countP_eq_zero.mpr, Nat.add_zero]
    intro a member
    simp [areTcp a member]
  have countTcp : settings.countP (!·.field.isIp) = (tcpSettings (ipSettings u).2).1.length := by
    rw [split, List.countP_append, List.countP_eq_zero.mpr, List.countP_eq_length.mpr, Nat.zero_add]
    · intro a member
      simp [areTcp a member]
    · intro a member
      simp [areIp a member]
  let t := (injectTcpError m p.bufferBytes 20 (ipSettings u).2).2
  refine ⟨(injectTcpError m p.bufferBytes 20 (ipSettings u).2).1, t,
    last.comment ++ String.join ((tcpSettings (ipSettings u).2).1.map Setting.comment), ?_, ?_, ?_, ?_, ?_⟩
  · have readIp : deref p.ipv4 = .ok 0 := by
      rw [ipv4]
      rfl
    have readTcp : deref p.tcp = .ok 20 := by
      rw [tcp]
      rfl
    simp only [injectErrorToPacket, readIp, readTcp, ok_bind, ip, run_pure]
    rfl
  · rw [← String.append_assoc, ← ipScript]
    exact tcpScript
  · refine (first.append second ?_).weaken fun k others => ⟨?_, others.2⟩
    · intro a member k covers
      have front := a.field.covers_generated covers
      rw [if_pos (areIp a member)] at front
      refine ⟨fun b later covers' => ?_, fun others => ?_⟩
      · have behind := b.field.covers_generated covers'
        rw [areTcp b later, if_neg Bool.false_ne_true] at behind
        omega
      · omega
    · obtain ⟨⟨a, member, isSeq⟩, -⟩ := others
      exact ⟨a, List.mem_append_right _ member, isSeq⟩
  · rw [countTcp]
    exact oneTcp
  · rw [countIp, ipList, List.length_append]
    split_ifs with versioned
    · have more : earlier ≠ [] := fun none => alone.mp none versioned
      have := List.length_pos_iff.mpr more
      simp only [List.length_singleton]
      omega
    · obtain rfl := alone.mpr versioned
      refine ⟨rfl, ?_⟩
      rw [split, ipList, List.nil_append, List.map_append, String.join_append]
      simp [String.join_cons]

/-- Bytes that set the version to six and the header length to five; the comment is about the latter. -/
theorem version_set_without_comment :
    let s : Fuzzer := ⟨[], 0, "", 1, 0⟩
    ∃ p s' q t, fuzzToPacket (ofList []) false false false s = .ok (p, s') ∧
      injectErrorToPacket p (s'.withFile [50, 6, 5] 0) = .ok (q, t) ∧ ipVersion p.buffer 0 = 4 ∧ ipVersion q.buffer 0 = 6 ∧
      s'.fuzzScript = "" ∧ t.fuzzScript = "// set ip ihl to 0x05\n" ∧
      ¬LoggedInjection p q s'.lastPacketDataLength.toNat (errorSettings (s'.withFile [50, 6, 5] 0)).1 t.fuzzScript := by
  intro s
  have evaluated : (fuzzToPacket (ofList []) false false false s).toOption.map (fun r =>
      (injectErrorToPacket r.1 (r.2.withFile [50, 6, 5] 0)).toOption.map fun r' =>
        decide (ipVersion r.1.buffer 0 = 4 ∧ ipVersion r'.1.buffer 0 = 6 ∧ r.2.fuzzScript = "" ∧
          r'.2.fuzzScript = "// set ip ihl to 0x05\n" ∧
          1 < (errorSettings (r.2.withFile [50, 6, 5] 0)).1.countP (·.field.isIp))) = some (some true) := by
    decide +kernel
  obtain ⟨⟨p, s'⟩, made, facts⟩ := ok_of_toOption evaluated
  obtain ⟨⟨q, t⟩, injected, holds⟩ := ok_of_toOption facts
  obtain ⟨before, after, empty, comment, two⟩ := of_decide_eq_true holds
  exact ⟨p, s', q, t, made, injected, before, after, empty, comment, fun logged => absurd logged.oneIp (Nat.not_le_of_gt two)⟩

/-- An injection is what its comments say just when its first byte does not choose the version. -/
theorem injectErrorToPacket_logged_iff (allocated : Mem) (isFuzzWithoutDependency isFuzzOptions isFuzzData : Bool)
    (s : Fuzzer) (file : List UInt8) (index : UInt32) :
    ∃ p s' q t comments, fuzzToPacket allocated isFuzzWithoutDependency isFuzzOptions isFuzzData s = .ok (p, s') ∧
      injectErrorToPacket p (s'.withFile file index) = .ok (q, t) ∧ t.fuzzScript = s'.fuzzScript ++ comments ∧
      (LoggedInjection p q s'.lastPacketDataLength.toNat (errorSettings (s'.withFile file index)).1 comments ↔
        ¬(50 ≤ (readByte (s'.withFile file index)).1 ∧ (readByte (s'.withFile file index)).1 < 100)) := by
  obtain ⟨g, s', pushed, -, -, isLength, recorded, -⟩ := fuzzData_generated isFuzzWithoutDependency isFuzzOptions isFuzzData s
  have length : s'.lastPacketDataLength.toNat = g.dataLength := by rw [recorded, isLength]
  obtain ⟨m, t, comments, injected, script, sets, oneTcp, cases⟩ :=
    injectErrorToPacket_generated allocated g (s'.withFile file index) length
  refine ⟨generatedPacket allocated g, s', _, t, comments, fuzzToPacket_run allocated pushed, injected, script, ?_⟩
  rw [length]
  constructor
  · intro logged versioned
    rw [if_pos versioned] at cases
    exact absurd logged.oneIp (Nat.not_le_of_gt cases)
  · intro plain
    rw [if_neg plain] at cases
    exact ⟨Nat.le_of_eq cases.1, oneTcp, sets, rfl, cases.2⟩

/-- The header length that the bytes choose; it is left alone by the other choices. -/
def chosenIhl : StateM Fuzzer Nat := do
  let tmp ← readByte
  let _ ← versionSettings tmp
  if tmp < 150 then return (← readByte).toNat % 16
  else return 5

theorem chosenIhl_spec (u : Fuzzer) :
    (∃ a ∈ (ipSettings u).1, a.field = .ihl ∧ a.value = (chosenIhl u).1) ∨
      (∀ a ∈ (ipSettings u).1, a.field ≠ .ihl) ∧ (chosenIhl u).1 = 5 := by
  simp only [ipSettings, chosenIhl, laterSetting, stateM_bind, stateM_ite]
  by_cases low : (readByte u).1 < 150
  · simp only [if_pos low]
    exact .inl ⟨_, List.mem_append_right _ (List.mem_singleton.mpr rfl), rfl, rfl⟩
  · have unversioned : ¬(50 ≤ (readByte u).1 ∧ (readByte u).1 < 100) :=
      fun versioned => low (UInt8.lt_trans versioned.2 (by decide))
    simp only [if_neg low, versionSettings, stateM_ite, if_neg unversioned, stateM_pure]
    refine .inr ⟨fun a member => ?_, trivial⟩
    obtain rfl := List.mem_singleton.mp member
    split <;> exact ErrorField.noConfusion

section Injected

variable {m m' : Mem} {off dataLength : Nat} {u : Fuzzer} {others : Nat → Prop}

theorem Sets.lengths (sets : Sets m m' 0 20 (errorSettings u).1 others) (fields : GeneratedFields m off dataLength)
    (behind : ∀ k, others k → 80 ≤ k) :
    ipv4TotLen m' 0 = 20 + off * 4 + dataLength ∧ ipv4HeaderLen m' 0 = (chosenIhl u).1 * 4 := by
  have apart {field : ErrorField} {k : Nat} (covers : field.Covers 0 20 k) : k < 2 ∨ 12 ≤ k := by
    cases field <;> simp only [ErrorField.Covers, ErrorField.start, ErrorField.width] at covers <;> omega
  have byte {i : Nat} (lower : 1 ≤ i) (upper : i < 6) : m'.get8 i = m.get8 i := by
    have half {k : Nat} (lower : 2 ≤ k) (upper : k < 12) : nibble m' k = nibble m k := by
      refine sets.frame k (fun a _ covers => ?_) fun other => ?_
      · have := apart covers
        omega
      · have := behind k other
        omega
    exact get8_of_nibbles (half (by omega) (by omega)) (half (by omega) (by omega))
  constructor
  · rw [← fields.totLen]
    exact be16_of_get8 (byte (by decide) (by decide)) (byte (by decide) (by decide))
  · have ihl : ErrorField.ihl.value m' 0 20 = (chosenIhl u).1 := by
      rcases chosenIhl_spec u with ⟨a, member, isIhl, value⟩ | ⟨none, five⟩
      · rw [← value, ← isIhl]
        exact sets.values a (List.mem_append_left _ member)
      · have kept : ErrorField.ihl.value m' 0 20 = ErrorField.ihl.value m 0 20 := by
          refine ErrorField.ihl.value_congr fun k covers => ?_
          obtain rfl : k = 1 := by
            simp only [ErrorField.Covers, ErrorField.start, ErrorField.width] at covers
            omega
          refine sets.frame 1 (fun a member covers' => ?_) fun other => absurd (behind 1 other) (by decide)
          have isIhl : a.field = .ihl := by
            revert covers'
            cases a.field <;> simp [ErrorField.Covers, ErrorField.start, ErrorField.width]
          rcases List.mem_append.mp member with early | late
          · exact none a early isIhl
          · have := (tcpSettings_spec _).1 a late
            rw [isIhl] at this
            cases this
        rw [kept, five]
        show m.get8 0 % 16 = 5
        rw [fields.first]
    exact congrArg (· * 4) ihl

end Injected

theorem checksumPacket_ok {c : Packet} {ip tcp : Nat} (ipv4 : c.ipv4 = some ip) (isTcp : c.tcp = some tcp)
    (fits : ipv4TotLen c.buffer ip ≤ c.ipBytes) : ∃ sent, checksumPacket c = .ok sent := by
  have kept : ipv4TotLen (setIpv4Check c.buffer ip) ip = ipv4TotLen c.buffer ip :=
    be16_of_get8 (setIpv4Check_frame _ (by omega)) (setIpv4Check_frame _ (by omega))
  have starts : checksumPacket c = checksumIpv4Packet c ip := by
    unfold checksumPacket
    rw [ipv4]
  rw [starts, checksumIpv4Packet]
  simp only
  rw [kept, assertThat_ok fits, ok_bind]
  split
  · exact ⟨_, rfl⟩
  · unfold checksumLayer4
    simp only [isTcp]
    exact ⟨_, rfl⟩

theorem checksumIpv4Accesses_inside_iff {c : Packet} {ihl : Nat} (tcp : c.tcp = some 20)
    (header : ipv4HeaderLen c.buffer 0 = ihl * 4) (total : ipv4TotLen c.buffer 0 = c.bufferBytes) (long : 40 ≤ c.bufferBytes) :
    (∀ a ∈ checksumIpv4Accesses c 0, a.Inside c.bufferBytes) ↔ 5 ≤ ihl ∧ 4 * ihl ≤ c.bufferBytes := by
  simp only [checksumIpv4Accesses, header, total, tcp]
  have front : (∀ a ∈ (⟨0 + 10, 2⟩ :: ⟨0, 1⟩ :: ipChecksumLoads 0 (ihl * 4) ++ [⟨0 + 2, 2⟩] : List Access),
      a.Inside c.bufferBytes) ↔ 4 * ihl ≤ c.bufferBytes := by
    simp only [List.cons_append, List.forall_mem_cons, List.forall_mem_append, ipChecksumLoads_inside]
    simp only [Access.Inside, List.not_mem_nil, false_implies, implies_true, and_true]
    omega
  split
  · rw [front]
    omega
  · rw [List.forall_mem_append, front]
    simp only [List.forall_mem_cons, ipChecksumLoads_inside]
    simp only [Access.Inside]
    omega

theorem checksum_reads_outside :
    let s : Fuzzer := ⟨[], 0, "", 1, 0⟩
    ∃ p s' q t copy, fuzzToPacket (ofList []) false false false s = .ok (p, s') ∧
      injectErrorToPacket p (s'.withFile [0, 15] 0) = .ok (q, t) ∧ packetCopy (ofList []) q = .ok copy ∧
      copy.ipv4 = some 0 ∧ ∃ a ∈ checksumIpv4Accesses copy 0, ¬a.Inside copy.bufferBytes := by
  intro s
  have evaluated : (fuzzToPacket (ofList []) false false false s).toOption.map (fun r =>
      (injectErrorToPacket r.1 (r.2.withFile [0, 15] 0)).toOption.map fun r' =>
        (packetCopy (ofList []) r'.1).toOption.map fun copy => decide (copy.ipv4 = some 0 ∧
          (checksumIpv4Accesses copy 0).any fun a => copy.bufferBytes < a.start + a.length)) = some (some (some true)) := by
    decide +kernel
  obtain ⟨⟨p, s'⟩, made, rest⟩ := ok_of_toOption evaluated
  obtain ⟨⟨q, t⟩, injected, rest⟩ := ok_of_toOption rest
  obtain ⟨copy, isCopy, holds⟩ := ok_of_toOption rest
  obtain ⟨ipv4, found⟩ := of_decide_eq_true holds
  obtain ⟨a, member, outside⟩ := List.any_eq_true.mp found
  exact ⟨p, s', q, t, copy, made, injected, isCopy, ipv4, a, member, Nat.not_le_of_gt (of_decide_eq_true outside)⟩

/-- The checksums of a packet with errors stay inside of it just when the header length that the
bytes choose is at least that of the IPv4 header and no more than the packet's length. -/
theorem checksum_inside_iff (allocated allocated' : Mem) (isFuzzWithoutDependency isFuzzOptions isFuzzData : Bool)
    (s : Fuzzer) (file : List UInt8) (index : UInt32) :
    ∃ p s' q t copy sent, fuzzToPacket allocated isFuzzWithoutDependency isFuzzOptions isFuzzData s = .ok (p, s') ∧
      injectErrorToPacket p (s'.withFile file index) = .ok (q, t) ∧ packetCopy allocated' q = .ok copy ∧
      copy.ipv4 = some 0 ∧ checksumPacket copy = .ok sent ∧
      ((∀ a ∈ checksumIpv4Accesses copy 0, a.Inside copy.bufferBytes) ↔
        5 ≤ (chosenIhl (s'.withFile file index)).1 ∧
          4 * (chosenIhl (s'.withFile file index)).1 ≤ ipv4TotLen p.buffer 0) := by
  obtain ⟨g, s', pushed, -, -, isLength, recorded, -⟩ := fuzzData_generated isFuzzWithoutDependency isFuzzOptions isFuzzData s
  have length : s'.lastPacketDataLength.toNat = g.dataLength := by rw [recorded, isLength]
  obtain ⟨m, t, comments, injected, -, sets, -⟩ :=
    injectErrorToPacket_generated allocated g (s'.withFile file index) length
  obtain ⟨layout, bufferBytes, ipv4, tcp, ipBytes⟩ := generatedPacket_recorded allocated g
  let p := generatedPacket allocated g
  let q : Packet := { p with buffer := m }
  have size : p.bufferBytes = 40 + g.options.length + g.dataLength := bufferBytes.trans g.data_length
  have fields : GeneratedFields p.buffer g.off g.dataLength := generatedPacket_fields allocated g
  have long : 40 ≤ g.total ∧ g.total < 65536 := by
    have low := g.low
    have high := g.high
    have short := g.short
    unfold Generated.total
    omega
  have behind : ∀ k, p.bufferBytes - g.dataLength ≤ k / 2 → 80 ≤ k := by omega
  obtain ⟨total, header⟩ := sets.lengths fields fun k others => behind k others.2.1
  have start : packetStart q = .ok 0 := by
    show packetStart p = .ok 0
    rw [layout.packetStart]
    rfl
  let copy := copied allocated' q
  have copyBytes : copy.bufferBytes = g.total := ipBytes
  have same (j : Nat) (inside : j < 40) : copy.buffer.get8 j = m.get8 j :=
    get8_copied allocated' (p := q) (Nat.lt_of_lt_of_le inside (ipBytes ▸ long.1))
  have copyTotal : ipv4TotLen copy.buffer 0 = copy.bufferBytes := by
    rw [copyBytes]
    exact (be16_of_get8 (same _ (by decide)) (same _ (by decide))).trans total
  have copyHeader : ipv4HeaderLen copy.buffer 0 = (chosenIhl (s'.withFile file index)).1 * 4 := by
    rw [← header, ipv4HeaderLen, same 0 (by decide)]
    rfl
  have copyTcp : copy.tcp = some 20 := congrArg (Option.map (0 + ·)) tcp
  have copyIp : copy.ipv4 = some 0 := congrArg (Option.map (0 + ·)) ipv4
  obtain ⟨sent, checked⟩ := checksumPacket_ok copyIp copyTcp (copyTotal.trans_le (Nat.le_refl _))
  refine ⟨p, s', q, t, copy, sent, fuzzToPacket_run allocated pushed, injected,
    packetCopy_copied start (ipBytes.symm ▸ long.2) allocated', copyIp, checked, ?_⟩
  rw [checksumIpv4Accesses_inside_iff copyTcp copyHeader copyTotal (copyBytes ▸ long.1), copyBytes, fields.totLen]
  rfl

end TcpFuzz
