import TcpFuzz.Fuzz.Inject
import TcpFuzz.Live.Stream
import TcpFuzz.Script.DumpLength

/-! A packet takes at most a few hundred characters of comments, and a dump that follows the lengths of its options. -/

namespace TcpFuzz
open Bytes Mem

def Grows {α : Type} (n : Nat) (m : StateM Fuzzer α) : Prop := ∀ s, (m s).2.fuzzScript.length ≤ s.fuzzScript.length + n

namespace Grows

variable {α β : Type} {n k : Nat}

theorem pure (a : α) : Grows 0 (Pure.pure a) := fun _ => Nat.le_refl _

theorem bind {m : StateM Fuzzer α} {f : α → StateM Fuzzer β} (first : Grows n m) (rest : ∀ a, Grows k (f a)) :
    Grows (n + k) (m >>= f) := by
  intro s
  have before := first s
  have after := rest (m s).1 (m s).2
  rw [stateM_bind]
  omega

theorem weaken {m : StateM Fuzzer α} (grows : Grows n m) (less : n ≤ k) : Grows k m :=
  fun s => Nat.le_trans (grows s) (Nat.add_le_add_left less _)

theorem andThen {m : StateM Fuzzer α} {f : α → StateM Fuzzer β} (first : Grows 0 m) (rest : ∀ a, Grows k (f a)) :
    Grows k (m >>= f) :=
  (first.bind rest).weaken (Nat.le_of_eq (Nat.zero_add k))

theorem ended {m : StateM Fuzzer α} {f : α → StateM Fuzzer β} (first : Grows n m) (rest : ∀ a, Grows 0 (f a)) :
    Grows n (m >>= f) :=
  first.bind rest

theorem ite {c : Prop} [Decidable c] {m m' : StateM Fuzzer α} (yes : Grows n m) (no : Grows n m') :
    Grows n (if c then m else m') := by
  split
  · exact yes
  · exact no

theorem keeps {m : StateM Fuzzer α} (same : ∀ s, (m s).2.fuzzScript = s.fuzzScript) : Grows 0 m := by
  intro s
  rw [same]
  exact Nat.le_refl _

theorem readByte : Grows 0 readByte := keeps readByte_fuzzScript

theorem readInt : Grows 0 readInt := keeps readInt_fuzzScript

theorem readBytes (n : Nat) : Grows 0 (readBytes n) := by
  induction n with
  | zero => exact pure []
  | succ n ih => exact readByte.bind fun _ => ih.bind fun _ => pure _

theorem addContent {content : String} (short : content.length ≤ n) : Grows n (addContentToFuzzScript content) := by
  intro s
  show (s.fuzzScript ++ content).length ≤ _
  rw [String.length_append]
  exact Nat.add_le_add_left short _

end Grows

theorem fuzzOptionHead_grows : Grows 0 fuzzOptionHead := by
  apply Grows.readByte.andThen
  intro tmp
  have more {f : UInt8 → UInt8 × UInt8} : Grows 0 (do return f (← readByte)) := Grows.readByte.andThen fun _ => .pure _
  split
  case h_6 => exact more
  case h_8 => exact more
  case h_9 => exact more
  case h_10 => exact more
  all_goals exact .pure _

theorem toString_uint8_length (n : UInt8) : (toString n).length ≤ 3 := by
  have small := n.toNat_lt
  exact toString_nat_length (n := n.toNat) (by decide) (by omega)

theorem fuzzOptionComment_length (kind length : UInt8) : (fuzzOptionComment kind length).length ≤ 30 := by
  have first := toString_uint8_length kind
  have second := toString_uint8_length length
  have words : "// kind is ".length = 11 ∧ ", length is ".length = 12 ∧ "\n".length = 1 := ⟨rfl, rfl, rfl⟩
  show (("// kind is " ++ toString kind ++ ", length is ") ++ toString length ++ "\n").length ≤ 30
  simp only [String.length_append, words]
  omega

theorem fuzzOptions_grows (count : Nat) (data : List UInt8) (optionsLength : UInt8) :
    Grows (30 * count) (fuzzOptions count data optionsLength) := by
  induction count generalizing data optionsLength with
  | zero => exact .pure _
  | succ count ih =>
    apply fuzzOptionHead_grows.andThen
    rintro ⟨kind, length⟩
    refine .ite ((Grows.pure _).weaken (Nat.zero_le _)) ?_
    apply (Grows.readBytes _).andThen
    intro content
    refine Grows.weaken (.bind (.addContent (fuzzOptionComment_length kind length)) fun _ => ih _ _) ?_
    omega

theorem fuzzData_grows (isFuzzWithoutDependency isFuzzOptions isFuzzData : Bool) :
    Grows 300 (fuzzData isFuzzWithoutDependency isFuzzOptions isFuzzData) := by
  have seq : Grows 0 (seqBytes isFuzzWithoutDependency) := by
    unfold seqBytes
    exact .ite (.readBytes 4) (.keeps fun _ => rfl)
  have headers : Grows 0 (fuzzHeaders isFuzzWithoutDependency) :=
    seq.andThen fun _ => (Grows.readBytes 2).andThen fun _ => (Grows.readBytes 2).andThen fun _ => .pure _
  have options (data : List UInt8) : Grows 300 (fuzzTcpOptions isFuzzOptions data) := by
    refine .ite (Grows.readByte.andThen fun count => ?_) ((Grows.pure _).weaken (Nat.zero_le _))
    exact (fuzzOptions_grows _ _ _).weaken (by omega)
  have length : Grows 0 (fuzzDataLength isFuzzData) := by
    refine .ite (Grows.readInt.andThen fun n => ?_) ?_
    · exact .keeps fun _ => rfl
    · exact .keeps fun _ => rfl
  apply headers.andThen
  intro data
  apply (options data).ended
  rintro ⟨data, optionsLength⟩
  apply length.andThen
  intro dataLength
  exact .keeps fun _ => rfl

theorem hexPadded_length {width n : Nat} (positive : 0 < width) (small : n < 16 ^ width) : (hexPadded width n).length = width := by
  have digits : (Nat.toDigits 16 n).length ≤ width := (Nat.length_toDigits_le_iff (by decide) positive).mpr small
  rw [hexPadded, String.length_ofList, List.length_leftpad]
  omega

theorem errorString_grows {name : String} {digits value n : Nat} (positive : 0 < digits) (small : value < 16 ^ digits)
    (short : name.length + digits + 14 ≤ n) : Grows n (addContentToFuzzScript (errorString name digits value)) := by
  have words : "// set ".length = 7 ∧ " to 0x".length = 6 ∧ "\n".length = 1 := ⟨rfl, rfl, rfl⟩
  apply Grows.addContent
  simp only [errorString, String.length_append, words, hexPadded_length positive small]
  omega

theorem injectIpError_grows (m : Mem) (ip : Nat) : Grows 29 (injectIpError m ip) := by
  have rest (tmp : UInt8) (m : Mem) : Grows 29 (do
      if tmp < 150 then
        let ihl := (← readByte).toNat % 16
        addContentToFuzzScript (errorString "ip ihl" 2 ihl)
        return m.put8 ip (m.get8 ip / 16 * 16 + ihl)
      else if tmp < 200 then
        addContentToFuzzScript (errorString "ip checksum" 4 0)
        return m.putLe16 (ip + 10) 0
      else
        let high ← readByte
        let low ← readByte
        let fragOff := high.toNat * 256 + low.toNat
        addContentToFuzzScript (errorString "ip frag_off" 4 fragOff)
        return m.putLe16 (ip + 6) fragOff) := by
    refine .ite ?_ (.ite ?_ ?_)
    · apply Grows.readByte.andThen
      intro ihl
      exact (errorString_grows (by decide) (by omega) (by decide)).ended fun _ => .pure _
    · exact (errorString_grows (by decide) (by decide) (by decide)).ended fun _ => .pure _
    · apply Grows.readByte.andThen
      intro high
      apply Grows.readByte.andThen
      intro low
      have bounds := high.toNat_lt
      have bounds' := low.toNat_lt
      exact (errorString_grows (by decide) (by omega) (by decide)).ended fun _ => .pure _
  apply Grows.readByte.andThen
  intro tmp
  refine .ite ?_ (rest tmp m)
  apply Grows.readByte.andThen
  intro version
  exact rest tmp _

theorem injectTcpError_grows (m : Mem) (bufferBytes tcp : Nat) : Grows 33 (injectTcpError m bufferBytes tcp) := by
  apply Grows.readByte.andThen
  intro tmp
  refine .ite ((Grows.pure m).weaken (by decide)) (.ite ?_ (.ite ?_ (.ite ?_ ?_)))
  · apply Grows.readInt.andThen
    intro seq
    have state : Grows 0 (get : StateM Fuzzer Fuzzer) := .keeps fun _ => rfl
    apply state.andThen
    intro s
    have bound (m : Mem) : m.le32 (tcp + 4) < 2 ^ 32 := m.le32_lt _
    exact (errorString_grows (by decide) (Nat.lt_of_lt_of_le (bound _) (by decide)) (by decide)).ended fun _ => .pure _
  · apply Grows.readInt.andThen
    intro ackSeq
    have bound := ackSeq.toNat_lt
    exact (errorString_grows (by decide) (by omega) (by decide)).ended fun _ => .pure _
  · apply Grows.readByte.andThen
    intro flags
    have bound := flags.toNat_lt
    exact (errorString_grows (by decide) (by omega) (by decide)).ended fun _ => .pure _
  · apply Grows.readByte.andThen
    intro doff
    exact (errorString_grows (by decide) (by omega) (by decide)).ended fun _ => .pure _

theorem fuzzToPacket_grows {allocated : Mem} {isFuzzWithoutDependency isFuzzOptions isFuzzData : Bool} {s s' : Fuzzer} {p : Packet}
    (made : fuzzToPacket allocated isFuzzWithoutDependency isFuzzOptions isFuzzData s = .ok (p, s')) :
    s'.fuzzScript.length ≤ s.fuzzScript.length + 300 := by
  have grows := fuzzData_grows isFuzzWithoutDependency isFuzzOptions isFuzzData s
  rcases read : fuzzData isFuzzWithoutDependency isFuzzOptions isFuzzData s with ⟨data, s₁⟩
  rw [read] at grows
  simp only [fuzzToPacket, read] at made
  obtain ⟨⟨result, packet⟩, _, made⟩ := run_bind_ok made
  obtain ⟨packet, _, made⟩ := run_bind_ok made
  obtain ⟨_, _, made⟩ := run_bind_ok made
  cases made
  exact grows

theorem injectErrorToPacket_grows {p q : Packet} {s s' : Fuzzer} (made : injectErrorToPacket p s = .ok (q, s')) :
    s'.fuzzScript.length ≤ s.fuzzScript.length + 62 := by
  obtain ⟨ip, _, made⟩ := run_bind_ok made
  have first := injectIpError_grows p.buffer ip s
  rcases injected : injectIpError p.buffer ip s with ⟨m, s₁⟩
  rw [injected] at first made
  obtain ⟨tcp, _, made⟩ := run_bind_ok made
  have second := injectTcpError_grows m p.bufferBytes tcp s₁
  rcases injected' : injectTcpError m p.bufferBytes tcp s₁ with ⟨m', s₂⟩
  rw [injected'] at second
  simp only [injected'] at made
  cases made
  exact Nat.le_trans second (Nat.add_le_add_right first 33)

theorem fuzzOptionHead_fastOpen (rest : List UInt8) : Consumes (7 :: 0 :: rest) fuzzOptionHead 0 rest (· = (34, 0)) := by
  apply (Consumes.readByte 7 _).andThen
  rintro _ rfl
  apply (Consumes.readByte 0 _).andThen
  rintro _ rfl
  exact .pure rfl

theorem fuzzOptionHead_other (rest : List UInt8) : Consumes (254 :: 2 :: rest) fuzzOptionHead 0 rest (· = (254, 2)) := by
  apply (Consumes.readByte 254 _).andThen
  rintro _ rfl
  apply (Consumes.readByte 2 _).andThen
  rintro _ rfl
  exact .pure rfl

theorem fuzzOptions_bare {bytes rest rest' data head : List UInt8} {kind length optionsLength total : UInt8} {count n k : Nat}
    {result : List UInt8 × UInt8 → Prop} (chosen : Consumes bytes fuzzOptionHead 0 rest (· = (kind, length)))
    (fits : optionsLength.toNat + length.toNat ≤ maxOptionsLength) (bare : length.toNat ≤ 2)
    (pushed : (if 1 < length then [kind, length] else [kind]) = head) (sum : optionsLength + length = total)
    (comment : (fuzzOptionComment kind length).length = k)
    (later : Consumes rest (fuzzOptions count (data ++ head) total) n rest' result) :
    Consumes bytes (fuzzOptions (count + 1) data optionsLength) (k + n) rest' result := by
  apply chosen.andThen
  rintro _ rfl
  show Consumes rest (if _ then _ else _) _ _ _
  have content : length.toNat - 2 = 0 := by omega
  have nothing : Consumes rest (readBytes 0) 0 rest (· = []) := .pure rfl
  rw [if_neg (Nat.not_lt.mpr fits), content]
  apply nothing.andThen
  rintro _ rfl
  rw [← comment]
  apply (Consumes.addContent _).bind
  intro _ _
  rw [List.append_nil, pushed, sum]
  exact later

theorem fuzzOptions_fastOpen (count : Nat) (data rest : List UInt8) {optionsLength : UInt8}
    (fits : optionsLength.toNat ≤ maxOptionsLength) :
    Consumes ((List.replicate count [7, 0]).flatten ++ rest) (fuzzOptions count data optionsLength) (27 * count) rest
      (· = (data ++ List.replicate count 34, optionsLength)) := by
  induction count generalizing data with
  | zero =>
    apply Consumes.pure
    rw [List.replicate_zero, List.append_nil]
  | succ count ih =>
    have more := ih (data ++ [34])
    rw [List.append_assoc, List.singleton_append, ← List.replicate_succ] at more
    rw [Nat.mul_succ, Nat.add_comm (27 * count)]
    exact fuzzOptions_bare (fuzzOptionHead_fastOpen _) fits (Nat.zero_le 2) rfl (UInt8.add_zero _) (by decide +kernel) more

def shiftedOptions (rest : List UInt8) : List UInt8 := 7 :: 0 :: 254 :: 2 :: ((List.replicate 8 [7, 0]).flatten ++ rest)

theorem fuzzTcpOptions_shifted (data rest : List UInt8) :
    Consumes (10 :: shiftedOptions rest) (fuzzTcpOptions true data) 271 rest
      (· = (data ++ 34 :: 254 :: 2 :: List.replicate 8 34, 2)) := by
  apply (Consumes.readByte 10 _).andThen
  rintro _ rfl
  show Consumes _ (fuzzOptions 10 data 0) (27 + (28 + 216)) _ _
  have two : (2 : UInt8).toNat ≤ maxOptionsLength := by decide
  have more := fuzzOptions_fastOpen 8 (data ++ [34] ++ [254, 2]) rest two
  have second := fuzzOptions_bare (k := 28) (fuzzOptionHead_other _) (by decide) (by decide) rfl (UInt8.zero_add 2)
    (by decide +kernel) more
  have first := fuzzOptions_bare (k := 27) (fuzzOptionHead_fastOpen _) (by decide) (by decide) rfl (UInt8.zero_add 0)
    (by decide +kernel) second
  rw [List.append_assoc, List.append_assoc] at first
  exact first

def shiftedPacket (rest : List UInt8) : List UInt8 := 0 :: 0 :: 0 :: 0 :: 10 :: shiftedOptions (0 :: 0 :: 0 :: 250 :: rest)

/-- The header ends after four of the bytes of the options. -/
structure Shifted (g : Generated) : Prop where
  off : g.off = 6
  options : ∃ rest, g.options = 34 :: 254 :: rest

theorem fuzzHeaders_consumes (a b c d : UInt8) (rest : List UInt8) :
    Consumes (a :: b :: c :: d :: rest) (fuzzHeaders false) 0 rest fun data =>
      ∃ seq, seq.length = 4 ∧ data = headerBytes 0 seq [a, b] [c, d] 0 := by
  have seq : Consumes (a :: b :: c :: d :: rest) (seqBytes false) 0 (a :: b :: c :: d :: rest) fun seq => seq.length = 4 :=
    fun s ahead => ⟨ahead, rfl, seqBytes_length false s⟩
  apply seq.andThen
  intro seq length
  apply (Consumes.readBytes [a, b] (c :: d :: rest)).andThen
  rintro _ rfl
  apply (Consumes.readBytes [c, d] rest).andThen
  rintro _ rfl
  exact .pure ⟨seq, length, rfl⟩

theorem fuzzDataLength_consumes (a b c d : UInt8) (rest : List UInt8) :
    Consumes (a :: b :: c :: d :: rest) (fuzzDataLength true) 0 rest
      (· = (((a.toUInt32 <<< 8 ||| b.toUInt32) <<< 8 ||| c.toUInt32) <<< 8 ||| d.toUInt32) % maxPacketDataLength) := by
  apply (Consumes.readInt a b c d rest).andThen
  rintro length rfl
  exact fun s ahead => ⟨ahead, rfl, rfl⟩

theorem fuzzData_shifted (rest : List UInt8) :
    Consumes (shiftedPacket rest) (fuzzData false true true) 271 rest fun data => ∃ g, data = Generated.data g ∧ Shifted g := by
  apply (fuzzHeaders_consumes 0 0 0 0 _).andThen
  rintro _ ⟨seq, seqLength, rfl⟩
  apply (fuzzTcpOptions_shifted _ _).bind (k := 0)
  rintro _ rfl
  apply (fuzzDataLength_consumes 0 0 0 250 rest).andThen
  rintro _ rfl
  intro s ahead
  have finished := @finishData_generated seq [0, 0] [0, 0] (34 :: 254 :: 2 :: List.replicate 8 34) 2 250 s.packetSeq seqLength
    rfl rfl (by decide) (by decide) (by decide) (by decide)
  obtain ⟨g, pushed, _, _, _, options, off⟩ := finished
  refine ⟨ahead, rfl, g, pushed, ?_, _, options⟩
  have padding : g.off * 4 = 24 := off
  omega

theorem generatedPacket_filled (allocated : Mem) (g : Generated) :
    ∃ q, fillPayload (generatedPacket allocated g) = .ok q ∧ Layout q ((generatedExtents g.off g.dataLength).map Extent.header) ∧
      q.ipv4 = some 0 ∧ q.tcp = some 20 ∧
      ∀ j < 20 + g.off * 4, q.buffer.get8 j = (generatedPacket allocated g).buffer.get8 j := by
  obtain ⟨layout, -, ipv4, tcp, -⟩ := generatedPacket_recorded allocated g
  have doff := (generatedPacket_fields allocated g).doff
  generalize generatedPacket allocated g = p at layout ipv4 tcp doff
  let buffer := fillLoop 20 p.buffer (20 + tcpDoff p.buffer 20 * 4) 0 (p.bufferBytes - (20 + tcpDoff p.buffer 20 * 4))
  refine ⟨{ p with buffer }, ?_, ⟨layout.table, layout.used⟩, ipv4, tcp, ?_⟩
  · rw [fillPayload, tcp]
    rfl
  · intro j before
    apply get8_fillLoop_ne
    rw [doff]
    exact .inl before

theorem shifted_dump (encapHeaderToString : Packet → Nat → Run (List Char)) (allocated : Mem) {g : Generated} (shifted : Shifted g) :
    ∃ q printed, fillPayload (generatedPacket allocated g) = .ok q ∧ packetToString encapHeaderToString q = .ok printed ∧
      508 < printed.text.length := by
  obtain ⟨q, filled, layout, ipv4, tcp, kept⟩ := generatedPacket_filled allocated g
  obtain ⟨off, rest, options⟩ := shifted
  rw [off] at kept
  have doff : tcpDoff q.buffer 20 = 6 := by
    have same := (generatedPacket_fields allocated g).doff
    rwa [tcpDoff, ← kept 32 (by decide), off] at same
  have kind : q.buffer.get8 40 = 34 := by
    rw [kept 40 (by decide), generatedPacket_option allocated g (k := 0) (by simp [options]), options]
    rfl
  have length : q.buffer.get8 41 = 254 := by
    rw [kept 41 (by decide), generatedPacket_option allocated g (k := 1) (by simp [options]), options]
    rfl
  have dump := packetToString_fastOpen encapHeaderToString layout rfl ipv4 tcp (by omega) kind
  simp only [Nat.reduceAdd, length, doff] at dump
  obtain ⟨printed, shown, long⟩ := dump (by decide) (by decide)
  exact ⟨q, printed, filled, shown, long⟩

end TcpFuzz
