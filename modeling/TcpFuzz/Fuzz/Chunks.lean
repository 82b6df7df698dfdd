import TcpFuzz.Fuzz.Driver

/-! While the driver fuzzes, each system call closes a chunk of the script and stores a result under the next index. -/

namespace TcpFuzz
open Traced
open Syscall (Recording SyscallSpec)

variable {past : List Action} {p : Process} {results : Nat → Option (List UInt8)} {e : Halt}

variable {σ α β : Type}

/-! ### Short reads -/

/-- The most bytes of a `read` whose text fits into the buffer. -/
def longestRead : Nat := 29972

theorem charBytes_length (text : String) : (charBytes text).length = text.length := by
  rw [charBytes, List.length_map, String.length_toList]

theorem toString_length {n : Int} {k : Nat} (digits : 0 < k) (small : n.natAbs < 10 ^ k) :
    (toString n).length ≤ (if 0 ≤ n then 0 else 1) + k := by
  rw [Int.toString_eq_repr, Int.repr_eq_if]
  split
  · rw [Nat.zero_add, Nat.length_repr_le_iff digits, ← Int.natAbs_of_nonneg ‹0 ≤ n›, Int.toNat_natCast]
    exact small
  · have magnitude : ((-n).toNat.repr).length ≤ k := by
      rw [Nat.length_repr_le_iff digits]
      exact Nat.lt_of_le_of_lt (by omega) small
    rw [String.length_append]
    exact Nat.add_le_add_left magnitude 1

theorem syscallResultText_length (name : String) (actual : Int) :
    (syscallResultText name actual).length = name.length + 4 + (toString actual).length := by
  have between : " : ".length = 3 := rfl
  have after : "\n".length = 1 := rfl
  rw [syscallResultText, charBytes_length, String.length_append, String.length_append, String.length_append, between, after]
  omega

theorem recordedSyscalls_length {name : String} (kept : name ∈ recordedSyscalls) : name.length ≤ 10 := by
  simp only [recordedSyscalls, List.mem_cons, List.not_mem_nil, or_false] at kept
  rcases kept with rfl | rfl | rfl | rfl | rfl <;> decide

theorem recordingText_length (name : String) {actual : Int} (int : Syscall.IsInt actual) :
    (recordingText (.syscallResult name actual)).length ≤ 25 := by
  simp only [recordingText]
  split
  · rename_i kept
    have short := recordedSyscalls_length kept
    have small : actual.natAbs < 10 ^ 10 := by
      unfold Syscall.IsInt at int
      omega
    have digits := toString_length (by decide) small
    rw [syscallResultText_length]
    split at digits <;> omega
  · exact Nat.zero_le _

theorem readResultText_length (bytes : List UInt8) : (readResultText bytes).length = bytes.length + 14 := by
  have before : (charBytes "read_result :").length = 13 := by decide
  have after : (charBytes "\n").length = 1 := by decide
  rw [readResultText, List.length_append, List.length_append, List.length_map, before, after]
  omega

theorem readText_length (buf : Option (List UInt8)) {count : Int} (int : Syscall.IsInt count) (few : count ≤ longestRead) :
    (recordingText (.readResult buf count)).length + (recordingText (.syscallResult "read" count)).length < fuzzResultBytes := by
  have result := recordingText_length "read" int
  unfold longestRead at few
  unfold fuzzResultBytes
  by_cases positive : 1 ≤ count
  · have digits := toString_length (n := count) (k := 5) (by decide) (by omega)
    rw [if_pos (by omega)] at digits
    have text : (recordingText (.syscallResult "read" count)).length ≤ 13 := by
      have name : "read".length = 4 := rfl
      simp only [recordingText]
      rw [if_pos (by decide), syscallResultText_length, name]
      omega
    cases buf with
    | none => exact Nat.lt_of_le_of_lt (Nat.add_le_add (Nat.zero_le 0) text) (by decide)
    | some bytes =>
      simp only [recordingText, if_pos positive] at text ⊢
      rw [readResultText_length, List.length_take]
      omega
  · have nothing : recordingText (.readResult buf count) = [] := by
      cases buf with
      | none => rfl
      | some bytes => exact if_neg positive
    rw [nothing]
    simp only [List.length_nil]
    omega

theorem resultText_length {name : String} {recordings : List Recording} (recorded : Syscall.Recorded name recordings)
    (short : ∀ buf (count : Int), .readResult buf count ∈ recordings → count ≤ longestRead) :
    (resultText recordings).length < fuzzResultBytes := by
  cases recorded with
  | nothing => decide
  | result int _ =>
    have bound := recordingText_length name int
    simp only [resultText, List.flatMap_cons, List.flatMap_nil, List.append_nil]
    exact Nat.lt_of_le_of_lt bound (by decide)
  | ioctl int isIoctl =>
    rename_i actual param
    have bound := recordingText_length name int
    -- the name of the value is not among the ones that are kept
    have dropped : recordingText (.syscallResult "ioctl_param" param) = [] := by
      simp only [recordingText]
      exact if_neg (by decide)
    simp only [resultText, List.flatMap_cons, List.flatMap_nil, List.append_nil, dropped]
    exact Nat.lt_of_le_of_lt bound (by decide)
  | read int isRead =>
    rename_i buf count
    subst isRead
    have fits := readText_length buf int (short buf count List.mem_cons_self)
    simpa only [resultText, List.flatMap_cons, List.flatMap_nil, List.append_nil, List.length_append] using fits

/-! ### The chunks and the results -/

/-- Each chunk before the index is there, and each result was recorded by the system call of the
chunk before it, right before it was stored. -/
structure Stored (fuzzing : Bool) (past : List Action) (p : Process) : Prop where
  isFuzzStart : p.results.isFuzzStart = fuzzing
  checker : p.results.checker = false
  scripts : ∀ i, (p.fuzzScripts i).isSome ↔ i < p.fuzzLoopIndex
  results : ∀ k result, p.results.fuzzResults k = some result →
    k ≤ p.fuzzLoopIndex ∧ ∃ before chunk recordings after,
      past = before ++ .observed true chunk recordings :: .updated k :: after ∧ k = chunk + 1 ∧
        result = cString (resultText recordings)

/-- What the system calls of the driver recorded is there, under the index that follows the chunk of
each of them. -/
def Kept (index : Nat) (past : List Action) (results : Nat → Option (List UInt8)) : Prop :=
  ∀ chunk recordings, .observed true chunk recordings ∈ past →
    chunk < index ∧ (∃ name, Syscall.Recorded name recordings) ∧
      (resultText recordings ≠ [] →
        chunk + 1 < fuzzResultsCount ∧ results (chunk + 1) = some (cString (resultText recordings)))

/-- Between two system calls nothing is left in the buffer for results. -/
structure InOrder (fuzzing : Bool) (past : List Action) (p : Process) : Prop extends Stored fuzzing past p where
  empty : p.results.fuzzResult = some []
  kept : Kept p.fuzzLoopIndex past p.results.fuzzResults

structure SameRecords (p q : Process) : Prop where
  fuzzScripts : q.fuzzScripts = p.fuzzScripts
  fuzzLoopIndex : q.fuzzLoopIndex = p.fuzzLoopIndex
  results : q.results = p.results

theorem Stored.records {fuzzing : Bool} {q : Process} (stored : Stored fuzzing past p)
    (same : SameRecords p q) : Stored fuzzing past q := by
  refine ⟨?_, ?_, ?_, ?_⟩
  · rw [same.results]
    exact stored.isFuzzStart
  · rw [same.results]
    exact stored.checker
  · rw [same.fuzzScripts, same.fuzzLoopIndex]
    exact stored.scripts
  · rw [same.results, same.fuzzLoopIndex]
    exact stored.results

theorem Stored.later {fuzzing : Bool} (stored : Stored fuzzing past p) (action : Action) :
    Stored fuzzing (past ++ [action]) p := by
  refine ⟨stored.isFuzzStart, stored.checker, stored.scripts, ?_⟩
  intro k result kept
  obtain ⟨below, before, chunk, recordings, after, rfl, index, text⟩ := stored.results k result kept
  refine ⟨below, before, chunk, recordings, after ++ [action], ?_, index, text⟩
  rw [List.append_assoc, List.cons_append, List.cons_append]

theorem Kept.weaken {index index' : Nat}
    (kept : Kept index past results) (more : index ≤ index') : Kept index' past results := by
  intro chunk recordings member
  obtain ⟨below, rest⟩ := kept chunk recordings member
  exact ⟨Nat.lt_of_lt_of_le below more, rest⟩

theorem Kept.later {index : Nat} (kept : Kept index past results)
    {action : Action} (other : ∀ chunk recordings, action ≠ .observed true chunk recordings) :
    Kept index (past ++ [action]) results := by
  intro chunk recordings member
  rcases List.mem_append.mp member with earlier | last
  · exact kept chunk recordings earlier
  · exact absurd (List.mem_singleton.mp last).symm (other chunk recordings)

theorem Kept.observed {chunk : Nat} {results' : Nat → Option (List UInt8)} {recordings : List Recording}
    (kept : Kept chunk past results) (same : ∀ i ≤ chunk, results' i = results i)
    (named : ∃ name, Syscall.Recorded name recordings)
    (stored : resultText recordings ≠ [] →
      chunk + 1 < fuzzResultsCount ∧ results' (chunk + 1) = some (cString (resultText recordings))) :
    Kept (chunk + 1) (past ++ [.observed true chunk recordings]) results' := by
  intro chunk' recordings' member
  rcases List.mem_append.mp member with earlier | last
  · obtain ⟨below, named, stored⟩ := kept chunk' recordings' earlier
    refine ⟨Nat.lt_succ_of_lt below, named, fun some => ?_⟩
    rw [same (chunk' + 1) below]
    exact stored some
  · cases List.mem_singleton.mp last
    exact ⟨Nat.lt_succ_self _, named, stored⟩

/-- What `do_some_fuzz` has recorded of reads so far is short. -/
def ShortReads (past : List Action) : Prop :=
  ∀ chunk recordings, .observed true chunk recordings ∈ past →
    ∀ buf (count : Int), .readResult buf count ∈ recordings → count ≤ longestRead

theorem ShortReads.text (short : ShortReads past) {chunk : Nat} {recordings : List Recording}
    (member : .observed true chunk recordings ∈ past) (named : ∃ name, Syscall.Recorded name recordings) :
    (resultText recordings).length < fuzzResultBytes := by
  obtain ⟨name, recorded⟩ := named
  exact resultText_length recorded (short chunk recordings member)

/-- What a halt may be: with short reads no text is too long for the buffer of results. -/
def Fits (e : Halt) (past : List Action) : Prop := ShortReads past → e ≠ .overflow .fuzzResult

abbrev Leads (before : List Action → Process → Prop) (m : Drive σ α)
    (after : α → List Action → Process → Prop) : Prop :=
  Ensures (fun past w => before past w.1) m (fun a past w => after a past w.1) Fits

structure Orderly (fuzzing : Bool) (m : Drive σ α) : Prop where
  keeps : Leads (InOrder fuzzing) m fun _ => InOrder fuzzing

section

variable {fuzzing : Bool}

theorem silent_ensures {fact : List Action → Process → Prop} (records : ∀ past p q, SameRecords p q → fact past p → fact past q)
    {step : Process × σ → Except Halt (α × Process × σ)} (stops : ∀ w e, step w = .error e → e ≠ .overflow .fuzzResult)
    (keeps : ∀ w a w', step w = .ok (a, w') → SameRecords w.1 w'.1) :
    Leads fact (silent step) fun _ => fact := by
  apply Ensures.silent
  intro past w holds
  exact ⟨fun e failed _ => stops w e failed, fun a w' came => records _ _ _ (keeps w a w' came) holds⟩

namespace Orderly

theorem pure (a : α) : Orderly fuzzing (Pure.pure a : Drive σ α) := ⟨.pure fun _ _ holds => holds⟩

theorem bind {m : Drive σ α} {f : α → Drive σ β} (first : Orderly fuzzing m)
    (rest : ∀ a, Orderly fuzzing (f a)) : Orderly fuzzing (m >>= f) :=
  ⟨first.keeps.bind fun a => (rest a).keeps⟩

theorem before {m : Drive σ α} {f : α → Drive σ β} {after : β → List Action → Process → Prop} (first : Orderly fuzzing m)
    (rest : ∀ a, Leads (InOrder fuzzing) (f a) after) : Leads (InOrder fuzzing) (m >>= f) after :=
  first.keeps.bind rest

theorem ite {c : Prop} [Decidable c] {m m' : Drive σ α} (yes : Orderly fuzzing m) (no : Orderly fuzzing m') :
    Orderly fuzzing (if c then m else m') := by
  split
  · exact yes
  · exact no

theorem silent {step : Process × σ → Except Halt (α × Process × σ)}
    (stops : ∀ w e, step w = .error e → e ≠ .overflow .fuzzResult)
    (keeps : ∀ w a w', step w = .ok (a, w') → SameRecords w.1 w'.1) : Orderly fuzzing (Traced.silent step) := by
  constructor
  apply silent_ensures _ stops keeps
  intro past p q same order
  refine ⟨order.toStored.records same, ?_, ?_⟩
  · rw [same.results]
    exact order.empty
  · rw [same.results, same.fuzzLoopIndex]
    exact order.kept

theorem emit {action : Action} (other : ∀ chunk recordings, action ≠ .observed true chunk recordings) :
    Orderly fuzzing (Traced.emit action : Drive σ Unit) :=
  ⟨.emit fun _ _ order => ⟨order.toStored.later action, order.empty, order.kept.later other⟩⟩

theorem halt (other : e ≠ .overflow .fuzzResult) : Orderly fuzzing (Traced.halt e : Drive σ α) :=
  silent (fun w e' same => by cases same; exact other) fun w a w' came => by cases came

theorem read (f : Process × σ → α) : Orderly fuzzing (Traced.read f) :=
  silent (fun w e failed => by cases failed) fun w a w' came => by cases came; exact ⟨rfl, rfl, rfl⟩

theorem change {f : Process × σ → Process × σ} (keeps : ∀ w, SameRecords w.1 (f w).1) :
    Orderly fuzzing (Traced.change f) :=
  silent (fun w e failed => by cases failed) fun w a w' came => by cases came; exact keeps w

theorem times {m : Drive σ Unit} (once : Orderly fuzzing m) (n : Nat) : Orderly fuzzing (Traced.times m n) :=
  ⟨once.keeps.times n⟩

theorem withFuzzer {w w' : Process × σ} {a b : α} {fuzzer : Fuzzer} (came : withFuzzer w a fuzzer = .ok (b, w')) :
    SameRecords w.1 w'.1 := by
  unfold TcpFuzz.withFuzzer at came
  split at came
  · cases came
  · cases came
    exact ⟨rfl, rfl, rfl⟩

theorem withFuzzer_halts {w : Process × σ} {a : α} {fuzzer : Fuzzer}
    (failed : TcpFuzz.withFuzzer w a fuzzer = .error e) : e ≠ .overflow .fuzzResult := by
  unfold TcpFuzz.withFuzzer at failed
  split at failed <;> cases failed
  intro same
  cases same

theorem input (m : StateM Fuzzer α) : Orderly fuzzing (input m : Drive σ α) :=
  silent (fun _ _ failed => withFuzzer_halts failed) fun _ _ _ came => withFuzzer came

theorem onFuzzer (step : Fuzzer → Run (α × Fuzzer)) : Orderly fuzzing (onFuzzer step : Drive σ α) := by
  apply silent
  · intro w e failed
    split at failed
    · exact withFuzzer_halts failed
    · cases failed
      exact Halt.noConfusion
  · intro w a w' came
    split at came
    · exact withFuzzer came
    · cases came

theorem ofRun (run : Run α) : Orderly fuzzing (ofRun run : Drive σ α) := by
  apply silent
  · intro w e failed
    split at failed
    · cases failed
    · cases failed
      exact Halt.noConfusion
  · intro w a w' came
    split at came
    · cases came
      exact ⟨rfl, rfl, rfl⟩
    · cases came

theorem ask (question : σ → Option (α × σ)) : Orderly fuzzing (ask question) := by
  apply silent
  · intro w e failed
    split at failed
    · cases failed
    · cases failed
      exact Halt.noConfusion
  · intro w a w' came
    split at came
    · cases came
      exact ⟨rfl, rfl, rfl⟩
    · cases came

theorem tell (question : σ → Option σ) : Orderly fuzzing (tell question) := ask _

end Orderly

theorem Stored.closeChunk (stored : Stored fuzzing past p) :
    Stored fuzzing past (closeChunk p) := by
  refine ⟨stored.isFuzzStart, stored.checker, ?_, ?_⟩
  · intro i
    have there := stored.scripts i
    show (if i = _ then _ else _ : Option String).isSome ↔ i < p.fuzzLoopIndex + 1
    split
    · simp only [Option.isSome_some, true_iff]
      omega
    · rw [there]
      omega
  · intro k result kept
    obtain ⟨below, source⟩ := stored.results k result kept
    exact ⟨Nat.le_succ_of_le below, source⟩

theorem updateFuzzScripts_leads {before after : List Action → Process → Prop}
    (empty : ∀ past p, before past p → p.fuzzer.fuzzScript.isEmpty = true → after past p)
    (closes : ∀ past p, before past p → after past (closeChunk p)) :
    Leads before (updateFuzzScripts : Drive σ Unit) fun _ => after := by
  apply Ensures.silent
  intro past w start
  split
  · refine ⟨fun e failed => ?_, fun a w' came => ?_⟩
    · cases failed
    · cases came
      exact empty past w.1 start ‹_›
  split
  · refine ⟨fun e failed _ same => ?_, fun a w' came => ?_⟩
    · cases failed
      cases same
    · cases came
  split
  · refine ⟨fun e failed _ same => ?_, fun a w' came => ?_⟩
    · cases failed
      cases same
    · cases came
  · refine ⟨fun e failed => ?_, fun a w' came => ?_⟩
    · cases failed
    · cases came
      exact closes past w.1 start

theorem updateFuzzScripts_orderly : Orderly fuzzing (updateFuzzScripts : Drive σ Unit) :=
  ⟨updateFuzzScripts_leads (fun _ _ order _ => order) fun _ _ order =>
    ⟨order.toStored.closeChunk, order.empty, order.kept.weaken (Nat.le_succ _)⟩⟩

end

end TcpFuzz
