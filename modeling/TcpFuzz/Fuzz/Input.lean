import TcpFuzz.Lib.Bytes

/-! Everything random is read from a file (`fuzz_test_helper.c`), and what is done with it is recorded in a script
(`fuzz_test_script.c`). -/

namespace TcpFuzz

/-- The globals of the fuzzer that the generator of packets uses. -/
structure Fuzzer where
  fuzzFileString : List UInt8
  fuzzFileIndex : UInt32
  /-- The part of `fuzz_script` before `fuzz_script_index`. -/
  fuzzScript : String
  packetSeq : UInt32
  lastPacketDataLength : UInt32

def readByte : StateM Fuzzer UInt8 := fun s =>
  match s.fuzzFileString[s.fuzzFileIndex.toNat]? with
  | some t => (t, { s with fuzzFileIndex := s.fuzzFileIndex + 1 })
  | none => (0, s)

def readInt : StateM Fuzzer UInt32 := do
  let result := (← readByte).toUInt32
  let result := result <<< 8 ||| (← readByte).toUInt32
  let result := result <<< 8 ||| (← readByte).toUInt32
  return result <<< 8 ||| (← readByte).toUInt32

theorem stateM_bind {σ α β : Type} (m : StateM σ α) (f : α → StateM σ β) (s : σ) : (m >>= f) s = f (m s).1 (m s).2 := rfl

theorem stateM_pure {σ α : Type} (a : α) (s : σ) : (pure a : StateM σ α) s = (a, s) := rfl

theorem stateM_ite {σ α : Type} {c : Prop} [Decidable c] (m m' : StateM σ α) (s : σ) :
    (if c then m else m') s = if c then m s else m' s := by
  split <;> rfl

@[simp] theorem readByte_fuzzScript (s : Fuzzer) : (readByte s).2.fuzzScript = s.fuzzScript := by
  unfold readByte
  split <;> rfl

theorem readInt_fuzzScript (s : Fuzzer) : (readInt s).2.fuzzScript = s.fuzzScript := by
  show (readByte (readByte (readByte (readByte s).2).2).2).2.fuzzScript = _
  simp only [readByte_fuzzScript]

def readBytes : Nat → StateM Fuzzer (List UInt8)
  | 0 => return []
  | n + 1 => do
    let byte ← readByte
    return byte :: (← readBytes n)

theorem readBytes_length (n : Nat) (s : Fuzzer) : (readBytes n s).1.length = n := by
  induction n generalizing s with
  | zero => rfl
  | succ n ih => exact congrArg (· + 1) (ih (readByte s).2)

def addContentToFuzzScript (content : String) : StateM Fuzzer Unit :=
  modify fun s => { s with fuzzScript := s.fuzzScript ++ content }

/-- The program moves in the file and adds to the script, and does nothing else. -/
def OnlyReads {α : Type} (m : StateM Fuzzer α) : Prop :=
  ∀ s, ∃ index script, (m s).2 = { s with fuzzFileIndex := index, fuzzScript := script }

namespace OnlyReads

variable {α β : Type}

theorem pure (a : α) : OnlyReads (Pure.pure a) := fun s => ⟨s.fuzzFileIndex, s.fuzzScript, rfl⟩

theorem bind {m : StateM Fuzzer α} {f : α → StateM Fuzzer β} (first : OnlyReads m) (rest : ∀ a, OnlyReads (f a)) :
    OnlyReads (m >>= f) := by
  intro s
  obtain ⟨_, _, before⟩ := first s
  obtain ⟨index, script, after⟩ := rest (m s).1 (m s).2
  rw [before] at after
  refine ⟨index, script, Eq.trans ?_ after⟩
  rw [← before]
  rfl

theorem readByte : OnlyReads readByte := by
  intro s
  unfold TcpFuzz.readByte
  split
  · exact ⟨_, s.fuzzScript, rfl⟩
  · exact ⟨s.fuzzFileIndex, s.fuzzScript, rfl⟩

theorem readInt : OnlyReads readInt :=
  readByte.bind fun _ => readByte.bind fun _ => readByte.bind fun _ => readByte.bind fun _ => pure _

theorem readBytes (n : Nat) : OnlyReads (readBytes n) := by
  induction n with
  | zero => exact pure []
  | succ n ih => exact readByte.bind fun _ => ih.bind fun _ => pure _

theorem addContent (content : String) : OnlyReads (addContentToFuzzScript content) :=
  fun s => ⟨s.fuzzFileIndex, s.fuzzScript ++ content, rfl⟩

theorem packetSeq {m : StateM Fuzzer α} (reads : OnlyReads m) (s : Fuzzer) : (m s).2.packetSeq = s.packetSeq := by
  obtain ⟨_, _, after⟩ := reads s
  rw [after]

theorem lastPacketDataLength {m : StateM Fuzzer α} (reads : OnlyReads m) (s : Fuzzer) :
    (m s).2.lastPacketDataLength = s.lastPacketDataLength := by
  obtain ⟨_, _, after⟩ := reads s
  rw [after]

end OnlyReads

def Ahead (bytes : List UInt8) (s : Fuzzer) : Prop :=
  s.fuzzFileString.length < 2 ^ 32 ∧ s.fuzzFileString.drop s.fuzzFileIndex.toNat = bytes

/-- Where the file goes on with `bytes`, the program leaves `rest` and adds `n` characters to the script. -/
def Consumes {α : Type} (bytes : List UInt8) (m : StateM Fuzzer α) (n : Nat) (rest : List UInt8) (result : α → Prop) : Prop :=
  ∀ s, Ahead bytes s → Ahead rest (m s).2 ∧ (m s).2.fuzzScript.length = s.fuzzScript.length + n ∧ result (m s).1

namespace Consumes

variable {α β : Type} {bytes rest rest' : List UInt8} {n k : Nat} {result : α → Prop} {final : β → Prop}

theorem pure {a : α} (holds : result a) : Consumes bytes (Pure.pure a) 0 bytes result := fun _ ahead => ⟨ahead, rfl, holds⟩

theorem bind {m : StateM Fuzzer α} {f : α → StateM Fuzzer β} (first : Consumes bytes m n rest result)
    (later : ∀ a, result a → Consumes rest (f a) k rest' final) : Consumes bytes (m >>= f) (n + k) rest' final := by
  intro s ahead
  obtain ⟨ahead, grown, holds⟩ := first s ahead
  obtain ⟨ahead, grown', holds⟩ := later _ holds _ ahead
  refine ⟨ahead, ?_, holds⟩
  rw [stateM_bind, grown', grown, Nat.add_assoc]

theorem andThen {m : StateM Fuzzer α} {f : α → StateM Fuzzer β} (first : Consumes bytes m 0 rest result)
    (later : ∀ a, result a → Consumes rest (f a) n rest' final) : Consumes bytes (m >>= f) n rest' final := by
  have both := first.bind later
  rwa [Nat.zero_add] at both

theorem readByte (b : UInt8) (rest : List UInt8) : Consumes (b :: rest) readByte 0 rest (· = b) := by
  rintro s ⟨short, ahead⟩
  have found : s.fuzzFileString[s.fuzzFileIndex.toNat]? = some b := by
    rw [← List.head?_drop, ahead]
    rfl
  have inside : s.fuzzFileIndex.toNat < s.fuzzFileString.length := (List.getElem?_eq_some_iff.mp found).1
  have next : (s.fuzzFileIndex + 1).toNat = s.fuzzFileIndex.toNat + 1 := by
    rw [UInt32.toNat_add]
    show (_ + 1) % 2 ^ 32 = _
    omega
  unfold TcpFuzz.readByte
  rw [found]
  refine ⟨⟨short, ?_⟩, rfl, rfl⟩
  show s.fuzzFileString.drop (s.fuzzFileIndex + 1).toNat = rest
  rw [next, ← List.tail_drop, ahead]
  rfl

theorem readBytes (bytes rest : List UInt8) : Consumes (bytes ++ rest) (readBytes bytes.length) 0 rest (· = bytes) := by
  induction bytes with
  | nil => exact pure rfl
  | cons b bytes ih =>
    apply (readByte b (bytes ++ rest)).andThen
    rintro _ rfl
    apply ih.andThen
    rintro _ rfl
    exact pure rfl

theorem readInt (a b c d : UInt8) (rest : List UInt8) :
    Consumes (a :: b :: c :: d :: rest) readInt 0 rest
      (· = ((a.toUInt32 <<< 8 ||| b.toUInt32) <<< 8 ||| c.toUInt32) <<< 8 ||| d.toUInt32) := by
  apply (readByte a _).andThen
  rintro _ rfl
  apply (readByte b _).andThen
  rintro _ rfl
  apply (readByte c _).andThen
  rintro _ rfl
  apply (readByte d _).andThen
  rintro _ rfl
  exact pure rfl

theorem addContent (text : String) : Consumes bytes (addContentToFuzzScript text) text.length bytes fun _ => True :=
  fun _ ahead => ⟨ahead, String.length_append _ _, trivial⟩

end Consumes

end TcpFuzz
