import TcpFuzz.Syscall.Args

/-! What system calls return is written to one text for each step (`fuzz_test_result.c`), and the texts of two runs
are compared (`fuzz_test_helper.c`). -/

namespace TcpFuzz
open Syscall (Recording)

structure Results where
  isFuzzStart : Bool
  checker : Bool
  packetdrill : Bool
  /-- The part of the text before `fuzz_result_index`, or `NULL`. -/
  fuzzResult : Option (List UInt8)
  /-- The strings of the steps so far, without their final `NUL`. -/
  fuzzResults : Nat → Option (List UInt8)

def fuzzResultBytes : Nat := 30000
def fuzzResultsCount : Nat := 1000

/-- A store behind the end of `fuzz_result`, or another access to memory that is not there. -/
inductive RecordFault where
  | overflow
  | invalidAccess
deriving DecidableEq, Repr

abbrev Record := Except RecordFault

namespace Results

def reinitFuzzingResults (r : Results) : Results := { r with fuzzResult := some [], fuzzResults := fun _ => none }

def recording (r : Results) : Bool := r.isFuzzStart && r.fuzzResult.isSome && !(r.checker && !r.packetdrill)

def push (text : List UInt8) (r : Results) : Record Results :=
  match r.fuzzResult with
  | none => .error .invalidAccess
  | some old =>
    if fuzzResultBytes < old.length + text.length then .error .overflow
    else .ok { r with fuzzResult := some (old ++ text) }

end Results

def charBytes (text : String) : List UInt8 := text.toList.map fun c => UInt8.ofNat c.toNat

def recordedSyscalls : List String := ["read", "write", "ioctl", "fcntl", "setsockopt"]

def syscallResultText (name : String) (actual : Int) : List UInt8 := charBytes (name ++ " : " ++ toString actual ++ "\n")

def addSyscallResultToFuzzResult (name : String) (actual : Int) (r : Results) : Record Results :=
  if r.recording ∧ name ∈ recordedSyscalls then r.push (syscallResultText name actual) else .ok r

/-- Each byte is moved up by `'0'`, in eight bits. -/
def readResultText (bytes : List UInt8) : List UInt8 :=
  charBytes "read_result :" ++ bytes.map (· + 48) ++ charBytes "\n"

def addReadResultToFuzzResult (buf : Option (List UInt8)) (count : Int) (r : Results) : Record Results :=
  if r.recording ∧ 1 ≤ count then
    match buf with
    | none => .error .invalidAccess
    | some bytes =>
      if bytes.length < count.toNat then .error .invalidAccess
      else r.push (readResultText (bytes.take count.toNat))
  else .ok r

/-- Make one of the calls that the handlers of system calls make. -/
def addToFuzzResult : Recording → Results → Record Results
  | .syscallResult name actual => addSyscallResultToFuzzResult name actual
  | .readResult buf count => addReadResultToFuzzResult buf count

def addAllToFuzzResult : List Recording → Results → Record Results
  | [], r => .ok r
  | recording :: rest, r => do addAllToFuzzResult rest (← addToFuzzResult recording r)

def cString (text : List UInt8) : List UInt8 := text.takeWhile (· ≠ 0)

def updateFuzzResults (fuzzLoopIndex : Nat) (r : Results) : Record Results :=
  match r.fuzzResult with
  | none | some [] => .ok r
  | some text =>
    if fuzzResultBytes ≤ text.length then .error .overflow
    else if fuzzResultsCount ≤ fuzzLoopIndex then .error .invalidAccess
    else .ok { r with
      fuzzResult := some []
      fuzzResults := fun i => if i = fuzzLoopIndex then some (cString text) else r.fuzzResults i }

def recordingText : Recording → List UInt8
  | .syscallResult name actual => if name ∈ recordedSyscalls then syscallResultText name actual else []
  | .readResult (some bytes) count => if 1 ≤ count then readResultText (bytes.take count.toNat) else []
  | .readResult none _ => []

def resultText (recordings : List Recording) : List UInt8 := recordings.flatMap recordingText

theorem push_ok {text old : List UInt8} {r r' : Results} (buffer : r.fuzzResult = some old) (pushed : r.push text = .ok r') :
    r' = { r with fuzzResult := some (old ++ text) } := by
  simp only [Results.push, buffer] at pushed
  split at pushed
  · cases pushed
  · cases pushed
    rfl

theorem push_overflow {text : List UInt8} {r : Results} (failed : r.push text = .error .overflow) :
    ∃ old, r.fuzzResult = some old ∧ fuzzResultBytes < (old ++ text).length := by
  unfold Results.push at failed
  split at failed
  · cases failed
  · rename_i old buffer
    split at failed
    · rename_i long
      exact ⟨old, buffer, by rw [List.length_append]; exact long⟩
    · cases failed

theorem addToFuzzResult_cases (recording : Recording) (r : Results) :
    addToFuzzResult recording r = .ok r ∧ (r.recording → recordingText recording = []) ∨
      addToFuzzResult recording r = .error .invalidAccess ∨
      r.recording ∧ addToFuzzResult recording r = r.push (recordingText recording) := by
  cases recording with
  | syscallResult name actual =>
    show addSyscallResultToFuzzResult name actual r = _ ∧ _ ∨ addSyscallResultToFuzzResult name actual r = _ ∨
      _ ∧ addSyscallResultToFuzzResult name actual r = _
    unfold addSyscallResultToFuzzResult recordingText
    by_cases kept : name ∈ recordedSyscalls <;> by_cases on : r.recording <;> simp [kept, on]
  | readResult buf count =>
    show addReadResultToFuzzResult buf count r = _ ∧ _ ∨ addReadResultToFuzzResult buf count r = _ ∨
      _ ∧ addReadResultToFuzzResult buf count r = _
    unfold addReadResultToFuzzResult recordingText
    by_cases on : r.recording ∧ 1 ≤ count
    · simp only [if_pos on]
      cases buf with
      | none => exact .inr (.inl rfl)
      | some bytes =>
        simp only [if_pos on.2]
        split
        · exact .inr (.inl rfl)
        · exact .inr (.inr ⟨on.1, rfl⟩)
    · simp only [if_neg on, true_and]
      refine .inl fun recording => ?_
      have few : ¬1 ≤ count := fun many => on ⟨recording, many⟩
      cases buf with
      | none => rfl
      | some bytes => exact if_neg few

theorem addAllToFuzzResult_cons (recording : Recording) (rest : List Recording) (r : Results) :
    addAllToFuzzResult (recording :: rest) r = (addToFuzzResult recording r).bind (addAllToFuzzResult rest) := rfl

theorem addAllToFuzzResult_off {recordings : List Recording} {r r' : Results} (off : r.recording = false)
    (added : addAllToFuzzResult recordings r = .ok r') : r' = r := by
  induction recordings with
  | nil => cases added; rfl
  | cons recording rest ih =>
    rw [addAllToFuzzResult_cons] at added
    rcases addToFuzzResult_cases recording r with ⟨same, _⟩ | failed | ⟨on, _⟩
    · rw [same] at added
      exact ih added
    · rw [failed] at added
      cases added
    · rw [off] at on
      cases on

theorem addAllToFuzzResult_on {recordings : List Recording} {r r' : Results} {old : List UInt8} (on : r.recording)
    (buffer : r.fuzzResult = some old) (added : addAllToFuzzResult recordings r = .ok r') :
    r' = { r with fuzzResult := some (old ++ resultText recordings) } := by
  induction recordings generalizing r old with
  | nil =>
    cases added
    rw [resultText, List.flatMap_nil, List.append_nil, ← buffer]
  | cons recording rest ih =>
    rw [addAllToFuzzResult_cons] at added
    rcases addToFuzzResult_cases recording r with ⟨same, empty⟩ | failed | ⟨_, pushes⟩
    · rw [same] at added
      rw [ih on buffer added, resultText, resultText, List.flatMap_cons, empty on, List.nil_append]
    · rw [failed] at added
      cases added
    · rw [pushes] at added
      cases pushed : r.push (recordingText recording) with
      | error fault => rw [pushed] at added; cases added
      | ok r₁ =>
        rw [pushed] at added
        obtain rfl := push_ok buffer pushed
        have on' : Results.recording { r with fuzzResult := some (old ++ recordingText recording) } = true := by
          simpa [Results.recording, buffer] using on
        rw [ih on' rfl added]
        simp only [resultText, List.flatMap_cons, List.append_assoc]

theorem addAllToFuzzResult_overflow {recordings : List Recording} {r : Results} {old : List UInt8}
    (buffer : r.fuzzResult = some old) (failed : addAllToFuzzResult recordings r = .error .overflow) :
    r.recording ∧ fuzzResultBytes < (old ++ resultText recordings).length := by
  induction recordings generalizing r old with
  | nil => cases failed
  | cons recording rest ih =>
    rw [addAllToFuzzResult_cons] at failed
    rcases addToFuzzResult_cases recording r with ⟨same, empty⟩ | invalid | ⟨on, pushes⟩
    · rw [same] at failed
      obtain ⟨on, long⟩ := ih buffer failed
      refine ⟨on, ?_⟩
      rwa [resultText, List.flatMap_cons, empty on, List.nil_append]
    · rw [invalid] at failed
      cases failed
    · refine ⟨on, ?_⟩
      rw [pushes] at failed
      simp only [resultText, List.flatMap_cons, ← List.append_assoc]
      cases pushed : r.push (recordingText recording) with
      | error fault =>
        rw [pushed] at failed
        cases failed
        obtain ⟨old', buffer', long⟩ := push_overflow pushed
        obtain rfl := Option.some.inj (buffer.symm.trans buffer')
        rw [List.length_append]
        omega
      | ok r₁ =>
        rw [pushed] at failed
        obtain rfl := push_ok buffer pushed
        exact (ih rfl failed).2

theorem updateFuzzResults_cases {r : Results} {text : List UInt8} (buffer : r.fuzzResult = some text) (k : Nat) :
    text = [] ∧ updateFuzzResults k r = .ok r ∨
      fuzzResultBytes ≤ text.length ∧ updateFuzzResults k r = .error .overflow ∨
      updateFuzzResults k r = .error .invalidAccess ∨
      text ≠ [] ∧ k < fuzzResultsCount ∧ updateFuzzResults k r = .ok { r with
        fuzzResult := some []
        fuzzResults := fun i => if i = k then some (cString text) else r.fuzzResults i } := by
  cases text with
  | nil => exact .inl ⟨rfl, by simp only [updateFuzzResults, buffer]⟩
  | cons first rest =>
    simp only [updateFuzzResults, buffer]
    split
    · exact .inr (.inl ⟨‹_›, rfl⟩)
    split
    · exact .inr (.inr (.inl rfl))
    · exact .inr (.inr (.inr ⟨List.cons_ne_nil _ _, Nat.not_le.mp ‹_›, rfl⟩))

/-- The first step whose texts differ. A step for which only one run has a text is passed over. -/
def fuzzTestResultCompare (a b : Nat → Option (List UInt8)) : Int :=
  match (List.range fuzzResultsCount).find? fun i => (a i).isSome && (b i).isSome && decide (a i ≠ b i) with
  | some i => i
  | none => -1

theorem fuzzTestResultCompare_differs {a b : Nat → Option (List UInt8)} {k : Nat} (differ : fuzzTestResultCompare a b = k) :
    ∃ x y, a k = some x ∧ b k = some y ∧ x ≠ y := by
  unfold fuzzTestResultCompare at differ
  split at differ
  · rename_i i found
    obtain rfl : i = k := Int.ofNat.inj differ
    have differs := List.find?_some found
    simp only [Bool.and_eq_true, decide_eq_true_eq, Option.isSome_iff_exists] at differs
    obtain ⟨⟨⟨x, left⟩, y, right⟩, different⟩ := differs
    refine ⟨x, y, left, right, ?_⟩
    rintro rfl
    exact different (left.trans right.symm)
  · omega

end TcpFuzz
