import TcpFuzz.Fuzz.Choices

/-! With `is_fuzz_once`, the packets and system calls that the driver fuzzes are those that the file chooses. -/

namespace TcpFuzz
open Traced
open Syscall (SyscallSpec)

variable {σ α β : Type} {hasRead : Bool} {lines : List Nat}

theorem readByte_cursor (s : Fuzzer) : ((readByte s).1, (readByte s).2.cursor) = s.cursor.next := by
  unfold readByte Cursor.next Fuzzer.cursor
  cases s.fuzzFileString[s.fuzzFileIndex.toNat]? <;> rfl

theorem input_readByte_ok {w w' : Process × σ} {t : List Action} {b : UInt8} {flag : Bool} {c : Cursor}
    (start : w.1.plan = (flag, c, hasRead, lines)) (ran : input readByte w = (t, .ok (b, w'))) :
    t = [] ∧ b = c.next.1 ∧ w'.1.plan = (flag, c.next.2, hasRead, lines) := by
  obtain ⟨rfl, rfl, rfl, rfl⟩ := Process.plan_eq.mp start
  obtain ⟨rfl, came⟩ := silent_ok ran
  unfold withFuzzer at came
  split at came
  · cases came
  · cases came
    have next := readByte_cursor w.1.fuzzer
    refine ⟨rfl, congrArg Prod.fst next, ?_⟩
    exact Process.plan_eq.mpr ⟨rfl, congrArg Prod.snd next, rfl, rfl⟩

theorem Plays.readByte {later : UInt8 → Choice Unit} {f : UInt8 → Drive σ β} (rest : ∀ b, Plays hasRead lines (later b) (f b)) :
    Plays hasRead lines (nextByte >>= later) (input TcpFuzz.readByte >>= f) := by
  refine ⟨Quiet.bind (Leaves.quiet (.input fun _ => rfl)) fun b => (rest b).toQuiet, ?_⟩
  intro c w t b w' start ran
  obtain ⟨t₁, b, w₁, t₂, ran₁, ran₂, rfl⟩ := bind_ok ran
  obtain ⟨rfl, rfl, start'⟩ := input_readByte_ok start ran₁
  rw [choice_bind]
  exact (rest _).plays _ _ _ _ _ start' ran₂

variable {config : FuzzOptions} {outside : Outside σ}

theorem addContent_leaves (content : String) : Leaves Process.plan (input (addContentToFuzzScript content) : Drive σ Unit) :=
  .input fun _ => rfl

theorem updateFuzzScripts_leaves : Leaves Process.plan (updateFuzzScripts : Drive σ Unit) := by
  apply Leaves.silent
  intro w a w' came
  split at came
  · cases came
    rfl
  split at came
  · cases came
  split at came
  · cases came
  · cases came
    rfl

theorem onResults_leaves (step : Results → Record Results) : Leaves Process.plan (onResults step : Drive σ Unit) := by
  apply Leaves.silent
  intro w a w' came
  split at came
  · cases came
    rfl
  · cases came
  · cases came

theorem storeFuzzResults_leaves : Leaves Process.plan (storeFuzzResults : Drive σ Unit) :=
  (Leaves.read _).bind fun _ => .bind (.emit rfl) fun _ => onResults_leaves _

theorem newFuzzPacket_leaves (isFuzzOptions isFuzzData : Bool) :
    Leaves Process.hasFuzzedOnce (newFuzzPacket config outside isFuzzOptions isFuzzData) :=
  (Leaves.read _).bind fun _ => .onFuzzer fun _ _ _ _ => rfl

theorem injectError_leaves (p : Packet) : Leaves Process.hasFuzzedOnce (injectError p : Drive σ Packet) :=
  .onFuzzer fun _ _ _ _ => rfl

theorem addPacketToFuzzScript_leaves (p : Packet) : Leaves Process.plan (addPacketToFuzzScript outside p) := by
  refine .bind (.emit rfl) fun _ => ?_
  apply (Leaves.ofRun _).bind
  intro printed
  cases printed.error with
  | none => exact addContent_leaves _
  | some error => exact (addContent_leaves _).bind fun _ => addContent_leaves _

theorem runFuzzPacket_loud (p : Packet) : Loud (runFuzzPacket outside p) := by
  refine .before (.emit rfl) fun _ => ?_
  apply (Leaves.ofRun _).bind
  intro p
  exact (Leaves.tell _).bind fun _ => .pure _

theorem injectFuzzNormalPacket_loud : Loud (do
    let p ← newFuzzPacket config outside true true
    let p ← if (← input readByte) < 50 then injectError p else pure p
    let p ← runFuzzPacket outside p
    addPacketToFuzzScript outside p) := by
  apply (Loud.after (newFuzzPacket_leaves true true))
  intro p
  have runs (p : Packet) : Loud (do
      let p ← runFuzzPacket outside p
      addPacketToFuzzScript outside p) :=
    (runFuzzPacket_loud p).before fun p => (addPacketToFuzzScript_leaves p).flag
  refine .after (.input fun _ => rfl) fun tmp => ?_
  split
  · exact .after (injectError_leaves p) runs
  · exact .after (.pure p) runs

theorem injectFuzzErrorPacket_loud : Loud (do
    let p ← newFuzzPacket config outside true true
    let p ← injectError p
    addPacketToFuzzScript outside p
    let _ ← runFuzzPacket outside p) := by
  apply (Loud.after (newFuzzPacket_leaves true true))
  intro p
  apply (Loud.after (injectError_leaves p))
  intro p
  apply (Loud.after (addPacketToFuzzScript_leaves p).flag)
  intro _
  exact (runFuzzPacket_loud p).before fun _ => .pure _

theorem runSystemCallEvent_answer (syscall : SyscallSpec) : Leaves Process.plan (do
    let reply ← ask fun s => outside.systemCall s syscall
    change fun w => ({ w.1 with totalWriteNum := (w.1.totalWriteNum + reply.written) % 2 ^ 64 }, w.2)
    let (isFuzzStart, fuzzLoopIndex) ← read fun w => (w.1.results.isFuzzStart, w.1.fuzzLoopIndex)
    emit (.observed isFuzzStart fuzzLoopIndex reply.recordings)
    onResults (addAllToFuzzResult reply.recordings)) := by
  apply (Leaves.ask _).bind
  intro reply
  refine .bind (.change fun _ => rfl) fun _ => ?_
  apply (Leaves.read _).bind
  rintro ⟨isFuzzStart, fuzzLoopIndex⟩
  exact .bind (.emit rfl) fun _ => onResults_leaves _

theorem runSystemCallEvent_leaves (syscall : SyscallSpec) : Leaves Process.plan (runSystemCallEvent outside false syscall) :=
  (Leaves.read _).bind fun _ => .bind (.emit rfl) fun _ => runSystemCallEvent_answer syscall

theorem runSystemCallEvent_loud (syscall : SyscallSpec) : Loud (runSystemCallEvent outside true syscall) :=
  .after (.read _) fun _ => .before (.emit rfl) fun _ => (runSystemCallEvent_answer syscall).flag

theorem syscallOf_leaves (i : Nat) : Leaves Process.plan (syscallOf i : Drive σ SyscallSpec) := by
  apply (Leaves.read _).bind
  intro event
  split
  · exact .pure _
  · exact .halt _

theorem setBody_leaves (i : Nat) (body : EventBody) : Leaves Process.plan (setBody i body : Drive σ Unit) := by
  apply Leaves.change
  intro w
  have lines : (w.1.script.modify i fun e => { e with body }).map ScriptEvent.lineNumber = w.1.script.map ScriptEvent.lineNumber := by
    apply List.ext_getElem?
    intro j
    rw [List.getElem?_map, List.getElem?_map, List.getElem?_modify]
    cases w.1.script[j]? with
    | none => rfl
    | some e =>
      show some (ite (i = j) _ _ : ScriptEvent).lineNumber = _
      split <;> rfl
  exact congrArg (w.1.hasFuzzedOnce, w.1.fuzzer.cursor, (w.1.predefined .read).isSome, ·) lines

theorem runCountedEvent_loud (i n : Nat) : Loud (runCountedEvent outside true i n) := by
  apply Loud.after (syscallOf_leaves i).flag
  intro syscall
  apply Loud.after (.ofRun _)
  intro syscall
  apply Loud.after (setBody_leaves i _).flag
  intro _
  exact runSystemCallEvent_loud syscall

theorem runFuzzSyscallReadEvent_loud (i : Nat) : Loud (runFuzzSyscallReadEvent outside i) := by
  refine .after (.input fun _ => rfl) fun n => ?_
  exact (runCountedEvent_loud i _).before fun _ => (addContent_leaves _).flag

theorem checkingPacket_loud : Loud (do
    let p ← newFuzzPacket config outside false true
    let p ← runFuzzPacket outside p
    addPacketToFuzzScript outside p
    updateFuzzScripts) := by
  apply Loud.after (newFuzzPacket_leaves false true)
  intro p
  apply (runFuzzPacket_loud p).before
  intro p
  exact ((addPacketToFuzzScript_leaves p).bind fun _ => updateFuzzScripts_leaves).flag

theorem checkingRead_loud : Loud (do
    match ← read fun w => w.1.predefined .read with
    | some i =>
      runCountedEvent outside true i checkingReadNum
      input (addContentToFuzzScript (countText "read" checkingReadNum))
      updateFuzzScripts
    | none => halt (.fault .invalidAccess)) := by
  apply Loud.after (.read _)
  intro index
  cases index with
  | none => exact .halt _
  | some i =>
    apply (runCountedEvent_loud i _).before
    intro _
    exact ((addContent_leaves _).bind fun _ => updateFuzzScripts_leaves).flag

theorem runCloseEvent_leaves (close : Option Nat) : Leaves Process.plan (runCloseEvent outside close) := by
  cases close with
  | none => exact .halt _
  | some i =>
    apply (syscallOf_leaves i).bind
    intro syscall
    apply (runSystemCallEvent_leaves syscall).bind
    intro _
    apply (addContent_leaves _).bind
    intro _
    exact updateFuzzScripts_leaves.bind fun _ => storeFuzzResults_leaves

theorem finishOutbound_leaves (noBackground : Bool) (outbound : Option Packet) :
    Leaves Process.plan (finishOutbound outside noBackground outbound) := by
  cases outbound with
  | none => cases noBackground <;> exact .halt _
  | some p =>
    cases noBackground with
    | false => exact .pure _
    | true => exact .tell _

section

variable (once : config.isFuzzOnce = true)
include once

theorem shouldFuzz_quiet {w w' : Process × σ} {t : List Action} {fuzzes : Bool} (flag : w.1.hasFuzzedOnce = true)
    (ran : shouldFuzz config w = (t, .ok (fuzzes, w'))) : t = [] ∧ fuzzes = false ∧ w' = w := by
  unfold shouldFuzz at ran
  rw [if_pos once] at ran
  obtain ⟨t₁, a, w₁, t₂, ran₁, ran₂, rfl⟩ := bind_ok ran
  obtain ⟨rfl, came⟩ := silent_ok ran₁
  cases came
  rw [if_pos flag] at ran₂
  obtain ⟨rfl, rfl, rfl⟩ := pure_ok ran₂
  exact ⟨rfl, rfl, rfl⟩

theorem shouldFuzz_waiting {w w' : Process × σ} {t : List Action} {fuzzes : Bool} {c : Cursor}
    (start : w.1.plan = (false, c, hasRead, lines)) (ran : shouldFuzz config w = (t, .ok (fuzzes, w'))) :
    t = [] ∧ fuzzes = decide (c.next.1 % 0xff < 0x7f) ∧ w'.1.plan = (fuzzes, c.next.2, hasRead, lines) := by
  have flag : ¬w.1.hasFuzzedOnce = true := by simp [(Process.plan_eq.mp start).1]
  unfold shouldFuzz at ran
  rw [if_pos once] at ran
  obtain ⟨t₁, a, w₁, t₂, ran₁, ran, rfl⟩ := bind_ok ran
  obtain ⟨rfl, came⟩ := silent_ok ran₁
  cases came
  rw [if_neg flag] at ran
  obtain ⟨t₁, b, w₁, t₂, ran₁, ran, rfl⟩ := bind_ok ran
  obtain ⟨rfl, rfl, start'⟩ := input_readByte_ok start ran₁
  split at ran
  · rename_i chosen
    obtain ⟨t₁, b, w₂, t₂, ran₁, ran₂, rfl⟩ := bind_ok ran
    obtain ⟨rfl, came⟩ := silent_ok ran₁
    cases came
    obtain ⟨rfl, rfl, rfl⟩ := pure_ok ran₂
    obtain ⟨-, rest⟩ := Process.plan_eq.mp start'
    exact ⟨rfl, (decide_eq_true chosen).symm, Process.plan_eq.mpr ⟨rfl, rest⟩⟩
  · rename_i passed
    obtain ⟨rfl, rfl, rfl⟩ := pure_ok ran
    exact ⟨rfl, (decide_eq_false passed).symm, start'⟩

theorem guarded_quiet (m : Drive σ Unit) : Quiet (do if ← shouldFuzz config then m) := by
  constructor
  intro w t a w' flag ran
  obtain ⟨t₁, fuzzes, w₁, t₂, ran₁, ran₂, rfl⟩ := bind_ok ran
  obtain ⟨rfl, rfl, rfl⟩ := shouldFuzz_quiet once flag ran₁
  obtain ⟨rfl, -, rfl⟩ := pure_ok ran₂
  exact ⟨rfl, flag⟩

theorem guarded_plays {m : Drive σ Unit} (loud : Loud m) : Plays hasRead lines choosePacket (do if ← shouldFuzz config then m) := by
  refine ⟨guarded_quiet once m, ?_⟩
  intro c w t a w' start ran
  obtain ⟨t₁, fuzzes, w₁, t₂, ran₁, ran₂, rfl⟩ := bind_ok ran
  obtain ⟨rfl, rfl, start'⟩ := shouldFuzz_waiting once start ran₁
  show Chosen hasRead lines ((nextByte >>= fun b => if b % 0xff < 0x7f then throw true else pure ()).run c) ([] ++ t₂) w'.1
  rw [choice_bind]
  show Chosen hasRead lines ((if c.next.1 % 0xff < 0x7f then throw true else pure () : Choice Unit).run c.next.2) t₂ w'.1
  by_cases chosen : c.next.1 % 0xff < 0x7f
  · rw [if_pos chosen]
    rw [if_pos (decide_eq_true chosen)] at ran₂
    rw [decide_eq_true chosen] at start'
    obtain ⟨some, flag⟩ := loud.loud _ _ _ _ (Process.plan_eq.mp start').1 ran₂
    exact ⟨flag, by simp [some]⟩
  · rw [if_neg chosen]
    rw [if_neg (by simpa using chosen)] at ran₂
    rw [decide_eq_false chosen] at start'
    obtain ⟨rfl, -, rfl⟩ := pure_ok ran₂
    exact ⟨rfl, start'⟩

omit once in
/-- The first entry of the table, right after `should_fuzz` has let it through. -/
theorem fuzzSyscallEntry_read {c : Cursor} {w w' : Process × σ} {t : List Action} {a : Unit} (start : w.1.plan = (true, c, hasRead, lines))
    (ran : fuzzSyscallEntry outside .read w = (t, .ok (a, w'))) :
    w'.1.hasFuzzedOnce = true ∧ (selected t = [] ↔ (hasRead && decide (c.next.1 % 100 < 50)) = false) := by
  have flag := (Process.plan_eq.mp start).1
  obtain ⟨t₁, index, w₁, t₂, ran₁, ran, rfl⟩ := bind_ok ran
  obtain ⟨rfl, came⟩ := silent_ok ran₁
  obtain ⟨found, rfl⟩ : w.1.predefined .read = index ∧ w = w₁ := by
    cases came
    exact ⟨rfl, rfl⟩
  have event := (Process.plan_eq.mp start).2.2.1
  rw [found] at event
  cases index with
  | none =>
    obtain ⟨rfl, -, rfl⟩ := pure_ok ran
    refine ⟨flag, ?_⟩
    rw [← event]
    exact ⟨fun _ => rfl, fun _ => rfl⟩
  | some i =>
    obtain ⟨t₁, tmp, w₁, t₂, ran₁, ran, rfl⟩ := bind_ok ran
    obtain ⟨rfl, rfl, start'⟩ := input_readByte_ok start ran₁
    have flag' := (Process.plan_eq.mp start').1
    rw [← event]
    by_cases chosen : c.next.1 % 100 < 50
    · rw [if_pos chosen] at ran
      have loud : Loud (do
          runFuzzSyscall outside i .read
          updateFuzzScripts
          storeFuzzResults) :=
        (runFuzzSyscallReadEvent_loud i).before fun _ => (updateFuzzScripts_leaves.bind fun _ => storeFuzzResults_leaves).flag
      obtain ⟨some, flag⟩ := loud.loud _ _ _ _ flag' ran
      refine ⟨flag, ?_⟩
      rw [decide_eq_true chosen]
      exact ⟨fun none => absurd none some, fun never => by cases never⟩
    · rw [if_neg chosen] at ran
      obtain ⟨rfl, -, rfl⟩ := pure_ok ran
      refine ⟨flag', ?_⟩
      rw [decide_eq_false chosen]
      exact ⟨fun _ => rfl, fun _ => rfl⟩

theorem fuzzSyscalls_quiet (kinds : List FuzzSyscall) : Quiet (fuzzSyscalls config outside kinds) := by
  cases kinds with
  | nil => exact Leaves.quiet (.pure _)
  | cons kind rest => exact guarded_quiet once _

theorem fuzzSyscalls_plays (rest : List FuzzSyscall) :
    Plays hasRead lines (chooseSyscall hasRead) (fuzzSyscalls config outside (.read :: rest)) := by
  refine ⟨fuzzSyscalls_quiet once _, ?_⟩
  intro c w t a w' start ran
  obtain ⟨t₁, fuzzes, w₁, t₂, ran₁, ran₂, rfl⟩ := bind_ok ran
  obtain ⟨rfl, rfl, start'⟩ := shouldFuzz_waiting once start ran₁
  show Chosen hasRead lines ((nextByte >>= fun b => if b % 0xff < 0x7f then nextByte >>= fun tmp =>
    throw (hasRead && decide (tmp % 100 < 50)) else pure ()).run c) ([] ++ t₂) w'.1
  rw [choice_bind]
  show Chosen hasRead lines ((if c.next.1 % 0xff < 0x7f then nextByte >>= fun tmp =>
    throw (hasRead && decide (tmp % 100 < 50)) else pure () : Choice Unit).run c.next.2) t₂ w'.1
  by_cases chosen : c.next.1 % 0xff < 0x7f
  · rw [if_pos chosen, choice_bind]
    rw [if_pos (decide_eq_true chosen)] at ran₂
    rw [decide_eq_true chosen] at start'
    obtain ⟨t₁, u, w₂, t₃, entry, others, rfl⟩ := bind_ok ran₂
    obtain ⟨flag, selects⟩ := fuzzSyscallEntry_read start' entry
    obtain ⟨none, flag'⟩ := (fuzzSyscalls_quiet once rest).quiet _ _ _ _ flag others
    refine ⟨flag', ?_⟩
    rw [selected_append, none, List.append_nil]
    exact selects
  · rw [if_neg chosen]
    rw [if_neg (by simpa using chosen)] at ran₂
    rw [decide_eq_false chosen] at start'
    obtain ⟨rfl, -, rfl⟩ := pure_ok ran₂
    exact ⟨rfl, start'⟩

theorem fuzzPackets_plays : Plays hasRead lines choosePackets (fuzzPackets config outside) := by
  have normal : Plays hasRead lines choosePacket (injectFuzzNormalPacket config outside) := guarded_plays once injectFuzzNormalPacket_loud
  have error : Plays hasRead lines choosePacket (injectFuzzErrorPacket config outside) := guarded_plays once injectFuzzErrorPacket_loud
  have update : ∀ u : Unit, Leaves Process.plan (updateFuzzScripts : Drive σ Unit) := fun _ => updateFuzzScripts_leaves
  apply normal.bind
  intro _
  refine .after (.change fun _ => rfl) fun _ => ?_
  apply Plays.after updateFuzzScripts_leaves
  intro _
  apply Plays.readByte
  intro tmp
  refine .ite (update ()).plays (.ite ?_ ?_)
  · exact .after (addContent_leaves _) fun _ => error.before update
  · exact .after (addContent_leaves _) fun _ => (normal.times 4).before update

theorem fuzzRound_plays : Plays hasRead lines (chooseRound config hasRead) (fuzzRound config outside) := by
  have calls : ∀ u : Unit, Plays hasRead lines (if !config.isNoFuzzSyscall then chooseSyscall hasRead else pure ())
      (if !config.isNoFuzzSyscall then fuzzSyscalls config outside (predefinedSyscallEvents.map Prod.snd) else pure ()) :=
    fun _ => .ite (fuzzSyscalls_plays once _) (Leaves.pure ()).plays
  exact .ite ((fuzzPackets_plays once).bind calls) (calls ())

theorem doSomeFuzz_plays (fuzzLoop : Nat) :
    Plays hasRead lines (chooseTimes (chooseRound config hasRead) fuzzLoop) (doSomeFuzz config outside fuzzLoop) := by
  refine .after (.change fun _ => rfl) fun _ => ?_
  exact ((fuzzRound_plays once).times fuzzLoop).before fun _ => .change fun _ => rfl

theorem checkingRound_plays : Plays hasRead lines (chooseChecking config) (checkingRound config outside) := by
  have reads : ∀ u : Unit, Plays hasRead lines (if !config.isNoFuzzSyscall then choosePacket else pure ())
      (if !config.isNoFuzzSyscall then checkingRead config outside else pure ()) :=
    fun _ => .ite (guarded_plays once checkingRead_loud) (Leaves.pure ()).plays
  exact .ite ((guarded_plays once checkingPacket_loud).bind reads) (reads ())

end

end TcpFuzz
