import TcpFuzz.Fuzz.Chunks

/-! Every part of a run keeps the chunks of the script and the stored results in step. -/

namespace TcpFuzz
open Traced
open Syscall (Recording SyscallSpec)

variable {past : List Action} {p : Process} {results : Nat → Option (List UInt8)} {e : Halt} {σ α β : Type}

section

variable (config : FuzzOptions) (outside : Outside σ) {fuzzing : Bool}

/-! ### Packets -/

theorem shouldFuzz_orderly : Orderly fuzzing (shouldFuzz config : Drive σ Bool) := by
  unfold shouldFuzz
  refine .ite ?_ (.pure _)
  apply (Orderly.read _).bind
  intro fuzzed
  refine .ite (.pure _) ?_
  apply (Orderly.input _).bind
  intro tmp
  refine .ite ?_ (.pure _)
  exact .bind (.change fun _ => ⟨rfl, rfl, rfl⟩) fun _ => .pure _

theorem newFuzzPacket_orderly (isFuzzOptions isFuzzData : Bool) :
    Orderly fuzzing (newFuzzPacket config outside isFuzzOptions isFuzzData) :=
  (Orderly.read _).bind fun _ => .onFuzzer _

theorem addPacketToFuzzScript_orderly (p : Packet) : Orderly fuzzing (addPacketToFuzzScript outside p) := by
  refine .bind (.emit nofun) fun _ => ?_
  apply (Orderly.ofRun _).bind
  intro printed
  cases printed.error with
  | none => exact .bind (.pure _) fun _ => .input _
  | some error => exact .bind (.input _) fun _ => .input _

theorem runFuzzPacket_orderly (p : Packet) : Orderly fuzzing (runFuzzPacket outside p) := by
  refine .bind (.emit nofun) fun _ => ?_
  apply (Orderly.ofRun _).bind
  intro p
  exact (Orderly.tell _).bind fun _ => .pure _

theorem injectFuzzNormalPacket_orderly : Orderly fuzzing (injectFuzzNormalPacket config outside) := by
  unfold injectFuzzNormalPacket
  apply (shouldFuzz_orderly config).bind
  intro fuzzes
  refine .ite ?_ (.pure _)
  apply (newFuzzPacket_orderly config outside true true).bind
  intro p
  apply (Orderly.input _).bind
  intro tmp
  have rest (p : Packet) : Orderly fuzzing (do
      let p ← runFuzzPacket outside p
      addPacketToFuzzScript outside p) :=
    (runFuzzPacket_orderly outside p).bind fun p => addPacketToFuzzScript_orderly outside p
  exact .ite (.bind (.onFuzzer _) rest) (.bind (.pure _) rest)

theorem injectFuzzErrorPacket_orderly : Orderly fuzzing (injectFuzzErrorPacket config outside) := by
  unfold injectFuzzErrorPacket
  apply (shouldFuzz_orderly config).bind
  intro fuzzes
  refine .ite ?_ (.pure _)
  apply (newFuzzPacket_orderly config outside true true).bind
  intro p
  apply Orderly.bind (.onFuzzer _)
  intro p
  apply (addPacketToFuzzScript_orderly outside p).bind
  intro _
  exact (runFuzzPacket_orderly outside p).bind fun _ => .pure _

theorem fuzzPackets_orderly : Orderly fuzzing (fuzzPackets config outside) := by
  unfold fuzzPackets
  apply (injectFuzzNormalPacket_orderly config outside).bind
  intro _
  refine .bind (.change fun _ => ⟨rfl, rfl, rfl⟩) fun _ => ?_
  apply updateFuzzScripts_orderly.bind
  intro _
  apply (Orderly.input _).bind
  intro tmp
  refine .ite updateFuzzScripts_orderly (.ite ?_ ?_)
  · apply (Orderly.input _).bind
    intro _
    exact (injectFuzzErrorPacket_orderly config outside).bind fun _ => updateFuzzScripts_orderly
  · apply (Orderly.input _).bind
    intro _
    exact ((injectFuzzNormalPacket_orderly config outside).times 4).bind fun _ => updateFuzzScripts_orderly

/-! ### Events -/

theorem exitOnTldkError_orderly (p : Packet) : Orderly fuzzing (exitOnTldkError p : Drive σ Packet) :=
  (Orderly.ofRun _).bind fun _ => .ite (.halt Halt.noConfusion) (.pure _)

theorem fuzzThreeWayHandshakePackets_orderly (p : Packet) :
    Orderly fuzzing (fuzzThreeWayHandshakePackets config outside p) := by
  apply (Orderly.input _).bind
  intro tmp
  apply (newFuzzPacket_orderly config outside true _).bind
  intro q
  apply (Orderly.ofRun _).bind
  intro tcp
  exact (Orderly.ofRun _).bind fun tcp' => exitOnTldkError_orderly _

theorem runPacketEvent_orderly (i lineNumber : Nat) (p : Packet) :
    Orderly fuzzing (runPacketEvent config outside i lineNumber p) := by
  have rest (p : Packet) : Orderly fuzzing (do
      setBody i (.packet p)
      addPacketToFuzzScript outside p) :=
    .bind (.change fun _ => ⟨rfl, rfl, rfl⟩) fun _ => addPacketToFuzzScript_orderly outside p
  unfold runPacketEvent
  cases p.direction with
  | inbound =>
    refine .ite ?_ ?_
    · apply (fuzzThreeWayHandshakePackets_orderly config outside p).bind
      intro p
      exact (runFuzzPacket_orderly outside p).bind rest
    · apply (Orderly.ofRun _).bind
      intro p
      refine .bind (.emit nofun) fun _ => ?_
      apply (Orderly.tell _).bind
      intro _
      exact .bind (.pure p) rest
  | outbound | invalid => exact .bind (.emit nofun) fun _ => .tell _

/-! ### System calls -/

theorem syscallOf_orderly (i : Nat) : Orderly fuzzing (syscallOf i : Drive σ SyscallSpec) := by
  apply (Orderly.read _).bind
  intro event
  split
  · exact .pure _
  · exact .halt Halt.noConfusion

theorem onResults_halts {step : Results → Record Results} {w : Process × σ} {bound : Prop}
    (overflow : step w.1.results = .error .overflow → ¬bound)
    (failed : (match step w.1.results with
      | .ok results => .ok ((), { w.1 with results }, w.2)
      | .error .overflow => .error (.overflow .fuzzResult)
      | .error .invalidAccess => .error (.fault .invalidAccess) : Except Halt (Unit × Process × σ)) = .error e) :
    bound → e ≠ .overflow .fuzzResult := by
  intro fits
  split at failed
  · cases failed
  · exact absurd fits (overflow ‹_›)
  · cases failed
    exact Halt.noConfusion

/-- Outside of `do_some_fuzz` nothing is recorded. -/
theorem runSystemCallEvent_orderly (selected : Bool) (syscall : SyscallSpec) :
    Orderly false (runSystemCallEvent outside selected syscall) := by
  apply (Orderly.read _).bind
  intro totalWriteNum
  refine .bind (.emit nofun) fun _ => ?_
  apply (Orderly.ask _).bind
  intro reply
  refine .bind (.change fun _ => ⟨rfl, rfl, rfl⟩) fun _ => ?_
  have flags : Leads (InOrder false) (read fun w : Process × σ => (w.1.results.isFuzzStart, w.1.fuzzLoopIndex)) fun flags past p =>
      flags.1 = false ∧ InOrder false past p :=
    .read fun past w order => ⟨order.isFuzzStart, order⟩
  constructor
  apply flags.bind
  rintro ⟨isFuzzStart, fuzzLoopIndex⟩
  apply Ensures.assume
  rintro rfl
  refine Orderly.before (.emit nofun) fun _ => ?_
  apply Ensures.silent
  intro past w order
  have off : w.1.results.recording = false := by
    rw [Results.recording, order.isFuzzStart]
    rfl
  refine ⟨fun e failed => onResults_halts ?_ failed, fun a w' came => ?_⟩
  · intro overflow
    have on := (addAllToFuzzResult_overflow order.empty overflow).1
    rw [off] at on
    cases on
  · split at came
    · cases came
      rename_i results added
      rw [addAllToFuzzResult_off off added]
      exact order
    · cases came
    · cases came

/-- A system call of the driver has left its text; the chunk of it is closed already, or not yet. -/
structure Called (closed : Nat) (past : List Action) (p : Process) : Prop
    extends Stored true past p where
  text : ∃ before chunk recordings text, past = before ++ [.observed true chunk recordings] ∧
    p.fuzzLoopIndex = chunk + closed ∧ p.results.fuzzResult = some text ∧ text = resultText recordings ∧
    (∃ name, Syscall.Recorded name recordings) ∧
    Kept chunk before p.results.fuzzResults

theorem runSystemCallEvent_called (selected : Bool) (syscall : SyscallSpec) :
    Leads (InOrder true) (runSystemCallEvent outside selected syscall) fun _ => Called 0 := by
  apply (Orderly.read _).keeps.bind
  intro totalWriteNum
  refine Orderly.before (.emit nofun) fun _ => ?_
  apply (Orderly.ask _).keeps.bind
  intro reply
  refine Orderly.before (.change fun _ => ⟨rfl, rfl, rfl⟩) fun _ => ?_
  have flags : Leads (InOrder true) (read fun w : Process × σ => (w.1.results.isFuzzStart, w.1.fuzzLoopIndex)) fun flags past p =>
      flags.1 = true ∧ InOrder true past p ∧ p.fuzzLoopIndex = flags.2 :=
    .read fun past w order => ⟨order.isFuzzStart, order, rfl⟩
  apply flags.bind
  rintro ⟨isFuzzStart, fuzzLoopIndex⟩
  apply Ensures.assume
  rintro rfl
  have observed : Leads (fun past p => InOrder true past p ∧ p.fuzzLoopIndex = fuzzLoopIndex)
      (emit (.observed true fuzzLoopIndex reply.recordings) : Drive σ Unit) fun _ past p =>
        ∃ before, past = before ++ [.observed true fuzzLoopIndex reply.recordings] ∧ InOrder true before p ∧
          p.fuzzLoopIndex = fuzzLoopIndex :=
    .emit fun past w known => ⟨past, rfl, known⟩
  apply observed.bind
  intro _
  apply Ensures.silent
  rintro past w ⟨before, rfl, order, index⟩
  have on : w.1.results.recording = true := by
    simp [Results.recording, order.isFuzzStart, order.checker, order.empty]
  have stored := order.toStored.later (.observed true fuzzLoopIndex reply.recordings)
  refine ⟨fun e failed => onResults_halts ?_ failed, fun a w' came => ?_⟩
  · intro overflow short
    have long := (addAllToFuzzResult_overflow order.empty overflow).2
    have few := short.text (List.mem_append_right before List.mem_cons_self) ⟨_, reply.recorded⟩
    rw [List.nil_append] at long
    omega
  · split at came
    · cases came
      rename_i results added
      rw [addAllToFuzzResult_on on order.empty added]
      refine ⟨⟨stored.isFuzzStart, stored.checker, stored.scripts, stored.results⟩, before, fuzzLoopIndex, reply.recordings, _, rfl,
        index, rfl, rfl, ⟨_, reply.recorded⟩, ?_⟩
      rw [← index]
      exact order.kept
    · cases came
    · cases came

theorem Called.records {closed : Nat} {q : Process} (called : Called closed past p)
    (same : SameRecords p q) : Called closed past q := by
  refine ⟨called.toStored.records same, ?_⟩
  rw [same.results, same.fuzzLoopIndex]
  exact called.text

theorem runCountedEvent_called (selected : Bool) (i n : Nat) :
    Leads (InOrder true) (runCountedEvent outside selected i n) fun _ => Called 0 := by
  apply (syscallOf_orderly i).keeps.bind
  intro syscall
  apply (Orderly.ofRun _).keeps.bind
  intro syscall
  refine Orderly.before (.change fun _ => ⟨rfl, rfl, rfl⟩) fun _ => ?_
  exact runSystemCallEvent_called outside selected syscall

theorem addLine_called {line : String} (some : line ≠ "") :
    Leads (Called 0) (input (addContentToFuzzScript line) : Drive σ Unit) fun _ past p =>
      p.fuzzer.fuzzScript.isEmpty = false ∧ Called 0 past p := by
  apply Ensures.silent
  intro past w called
  refine ⟨fun e failed _ => Orderly.withFuzzer_halts failed, fun a w' came => ?_⟩
  refine ⟨?_, called.records (Orderly.withFuzzer came)⟩
  unfold withFuzzer at came
  split at came
  · cases came
  · cases came
    show (w.1.fuzzer.fuzzScript ++ line).isEmpty = false
    rw [String.isEmpty_eq_false_iff]
    intro empty
    exact some (String.append_eq_empty_iff.mp empty).2

theorem updateFuzzScripts_called :
    Leads (fun past p => p.fuzzer.fuzzScript.isEmpty = false ∧ Called 0 past p) (updateFuzzScripts : Drive σ Unit)
      fun _ => Called 1 := by
  apply updateFuzzScripts_leads
  · rintro past p ⟨some, _⟩ empty
    rw [some] at empty
    cases empty
  · rintro past p ⟨_, called⟩
    obtain ⟨before, chunk, recordings, text, last, index, rest⟩ := called.text
    exact ⟨called.toStored.closeChunk, before, chunk, recordings, text, last, congrArg (· + 1) index, rest⟩

/-- The result goes to the index behind the chunk of the system call that was made last. -/
theorem Stored.store {chunk : Nat} {before : List Action} {recordings : List Recording} (stored : Stored fuzzing past p)
    (index : p.fuzzLoopIndex = chunk + 1)
    (last : past = before ++ [.observed true chunk recordings] ++ [.updated (chunk + 1)]) :
    Stored fuzzing past { p with results := { p.results with
      fuzzResult := some []
      fuzzResults := fun i => if i = chunk + 1 then some (cString (resultText recordings)) else p.results.fuzzResults i } } := by
  refine ⟨stored.isFuzzStart, stored.checker, stored.scripts, ?_⟩
  intro i result found
  by_cases here : i = chunk + 1
  · simp only [here, if_pos, Option.some.injEq] at found
    refine ⟨(here.trans index.symm).le, before, chunk, recordings, [], ?_, here, found.symm⟩
    rw [last, here, List.append_assoc, List.singleton_append]
  · simp only [if_neg here] at found
    exact stored.results i result found

theorem storeFuzzResults_called : Leads (Called 1) (storeFuzzResults : Drive σ Unit) fun _ => InOrder true := by
  have indexed : Leads (Called 1) (read fun w : Process × σ => w.1.fuzzLoopIndex) fun k past p =>
      Called 1 past p ∧ p.fuzzLoopIndex = k :=
    .read fun past w called => ⟨called, rfl⟩
  apply indexed.bind
  intro k
  have marked : Leads (fun past p => Called 1 past p ∧ p.fuzzLoopIndex = k) (emit (.updated k) : Drive σ Unit)
      fun _ past p => ∃ earlier, past = earlier ++ [.updated k] ∧ Called 1 earlier p ∧ p.fuzzLoopIndex = k :=
    .emit fun past w known => ⟨past, rfl, known⟩
  apply marked.bind
  intro _
  apply Ensures.silent
  rintro past w ⟨earlier, rfl, called, index⟩
  obtain ⟨before, chunk, recordings, text, last, follows, buffer, rfl, named, kept⟩ := called.text
  obtain rfl : k = chunk + 1 := index.symm.trans follows
  have stored := called.toStored.later (.updated (chunk + 1))
  rcases updateFuzzResults_cases buffer (chunk + 1) with ⟨nothing, unchanged⟩ | ⟨long, overflow⟩ | invalid | ⟨some, small, stores⟩
  · rw [unchanged]
    refine ⟨fun e failed => ?_, fun a w' came => ?_⟩
    · cases failed
    · cases came
      refine ⟨stored, nothing ▸ buffer, ?_⟩
      rw [index, last]
      refine Kept.later (kept.observed ?_ named fun some => absurd nothing some) nofun
      exact fun _ _ => rfl
  · rw [overflow]
    refine ⟨fun e failed short => ?_, fun a w' came => ?_⟩
    · have observed : .observed true chunk recordings ∈ earlier := last ▸ List.mem_append_right before List.mem_cons_self
      have few := short.text (List.mem_append_left _ observed) named
      exact absurd few (Nat.not_lt.mpr long)
    · cases came
  · rw [invalid]
    refine ⟨fun e failed _ same => ?_, fun a w' came => ?_⟩
    · cases failed
      cases same
    · cases came
  · rw [stores]
    refine ⟨fun e failed => ?_, fun a w' came => ?_⟩
    · cases failed
    · cases came
      refine ⟨stored.store index (by rw [last]), rfl, ?_⟩
      show Kept w.1.fuzzLoopIndex _ _
      rw [index, last]
      refine Kept.later (kept.observed ?_ named fun _ => ⟨small, if_pos rfl⟩) nofun
      intro i below
      exact if_neg (by omega)

theorem storeFuzzResults_orderly : Orderly fuzzing (storeFuzzResults : Drive σ Unit) := by
  apply (Orderly.read _).bind
  intro k
  refine .bind (.emit nofun) fun _ => ?_
  constructor
  apply Ensures.silent
  intro past w order
  have same : updateFuzzResults k w.1.results = .ok w.1.results := by
    simp only [updateFuzzResults, order.empty]
  rw [same]
  refine ⟨fun e failed => ?_, fun a w' came => ?_⟩
  · cases failed
  · cases came
    exact order

/-! ### The run -/

theorem runPlainEvent_called {line : String} (some : line ≠ "") (i : Nat) :
    Leads (InOrder true) (runPlainEvent outside i line) fun _ past p =>
      p.fuzzer.fuzzScript.isEmpty = false ∧ Called 0 past p := by
  apply (syscallOf_orderly i).keeps.bind
  intro syscall
  apply (runSystemCallEvent_called outside true syscall).bind
  intro _
  exact addLine_called some

theorem countText_ne (name : String) (n : Nat) : countText name n ≠ "" := by
  intro empty
  have last := (String.append_eq_empty_iff.mp empty).2
  exact absurd last (by decide)

theorem fuzzSyscallEntry_orderly (kind : FuzzSyscall) : Orderly true (fuzzSyscallEntry outside kind) := by
  apply (Orderly.read _).bind
  intro index
  cases index with
  | none => exact .pure _
  | some i =>
    apply (Orderly.input _).bind
    intro tmp
    refine .ite ?_ (.pure _)
    have rest {m : Drive σ Unit} (called : Leads (InOrder true) m fun _ past p =>
          p.fuzzer.fuzzScript.isEmpty = false ∧ Called 0 past p) :
        Orderly true (do m; updateFuzzScripts; storeFuzzResults) :=
      ⟨called.bind fun _ => (updateFuzzScripts_called).bind fun _ => storeFuzzResults_called⟩
    cases kind with
    | read | write =>
      apply rest
      apply (Orderly.input _).keeps.bind
      intro n
      apply (runCountedEvent_called outside true i _).bind
      intro _
      exact addLine_called (countText_ne _ _)
    | fcntlSetflBlock =>
      apply (Orderly.pure ()).bind
      intro _
      exact updateFuzzScripts_orderly.bind fun _ => storeFuzzResults_orderly
    | _ => exact rest (runPlainEvent_called outside (by decide) i)

theorem fuzzSyscalls_orderly (kinds : List FuzzSyscall) : Orderly true (fuzzSyscalls config outside kinds) := by
  induction kinds with
  | nil => exact .pure _
  | cons kind rest ih =>
    apply (shouldFuzz_orderly config).bind
    intro fuzzes
    exact .ite ((fuzzSyscallEntry_orderly outside kind).bind fun _ => ih) (.pure _)

theorem fuzzRound_orderly : Orderly true (fuzzRound config outside) := by
  have calls : ∀ u : Unit, Orderly true (if !config.isNoFuzzSyscall then
      fuzzSyscalls config outside (predefinedSyscallEvents.map Prod.snd) else pure ()) :=
    fun _ => .ite (fuzzSyscalls_orderly config outside _) (.pure _)
  unfold fuzzRound
  exact .ite ((fuzzPackets_orderly config outside).bind calls) (calls ())

theorem setIsFuzzStart_leads (value : Bool) : Leads (InOrder fuzzing) (setIsFuzzStart value : Drive σ Unit) fun _ =>
    InOrder value :=
  .change fun _ _ order => ⟨⟨rfl, order.checker, order.scripts, order.results⟩, order.empty, order.kept⟩

theorem doSomeFuzz_orderly (fuzzLoop : Nat) : Orderly false (doSomeFuzz config outside fuzzLoop) := by
  constructor
  apply (setIsFuzzStart_leads true).bind
  intro _
  apply ((fuzzRound_orderly config outside).times fuzzLoop).keeps.bind
  intro _
  exact setIsFuzzStart_leads false

theorem runEvent_orderly (noBackground : Bool) (i : Nat) (e : ScriptEvent) (aside : SetAside) :
    Orderly false (runEvent config outside noBackground i e aside) := by
  unfold runEvent
  refine .ite ?_ (.ite (.pure _) ?_)
  · unfold setOutboundAside
    cases e.body with
    | packet p => exact .ite (.bind (.tell _) fun _ => .pure _) (.pure _)
    | syscall syscall => exact .halt Halt.noConfusion
    | bogus => exact .halt Halt.noConfusion
  · split
    · exact .bind (.change fun _ => ⟨rfl, rfl, rfl⟩) fun _ => .pure _
    · cases e.body with
      | packet p => exact (runPacketEvent_orderly config outside i _ p).bind fun _ => .pure _
      | syscall syscall => exact (runSystemCallEvent_orderly outside false syscall).bind fun _ => .pure _
      | bogus => exact Orderly.bind (.halt Halt.noConfusion) fun _ => .pure _

theorem runEvents_orderly (noBackground : Bool) (indices : List Nat) (aside : SetAside) :
    Orderly false (runEvents config outside noBackground indices aside) := by
  induction indices generalizing aside with
  | nil => exact .pure _
  | cons i rest ih =>
    apply (Orderly.tell _).bind
    intro _
    apply (Orderly.read _).bind
    intro event
    cases event with
    | none => exact .halt Halt.noConfusion
    | some e => exact (runEvent_orderly config outside noBackground i e aside).bind fun aside => ih aside

theorem checkingPacket_orderly : Orderly fuzzing (checkingPacket config outside) := by
  apply (shouldFuzz_orderly config).bind
  intro fuzzes
  refine .ite ?_ (.pure _)
  apply (newFuzzPacket_orderly config outside false true).bind
  intro p
  apply (runFuzzPacket_orderly outside p).bind
  intro p
  exact (addPacketToFuzzScript_orderly outside p).bind fun _ => updateFuzzScripts_orderly

theorem runCountedEvent_orderly (selected : Bool) (i n : Nat) :
    Orderly false (runCountedEvent outside selected i n) := by
  apply (syscallOf_orderly i).bind
  intro syscall
  apply (Orderly.ofRun _).bind
  intro syscall
  refine .bind (.change fun _ => ⟨rfl, rfl, rfl⟩) fun _ => ?_
  exact runSystemCallEvent_orderly outside selected syscall

theorem checkingRead_orderly : Orderly false (checkingRead config outside) := by
  apply (shouldFuzz_orderly config).bind
  intro fuzzes
  refine .ite ?_ (.pure _)
  apply (Orderly.read _).bind
  intro index
  cases index with
  | none => exact .halt Halt.noConfusion
  | some i =>
    apply (runCountedEvent_orderly outside true i _).bind
    intro _
    exact (Orderly.input _).bind fun _ => updateFuzzScripts_orderly

theorem checkingRound_orderly : Orderly false (checkingRound config outside) := by
  have reads : ∀ u : Unit, Orderly false (if !config.isNoFuzzSyscall then checkingRead config outside else pure ()) :=
    fun _ => .ite (checkingRead_orderly config outside) (.pure _)
  unfold checkingRound
  exact .ite ((checkingPacket_orderly config outside).bind reads) (reads ())

theorem runCloseEvent_orderly (close : Option Nat) : Orderly false (runCloseEvent outside close) := by
  cases close with
  | none => exact .halt Halt.noConfusion
  | some i =>
    apply (syscallOf_orderly i).bind
    intro syscall
    apply (runSystemCallEvent_orderly outside false syscall).bind
    intro _
    apply (Orderly.input _).bind
    intro _
    exact updateFuzzScripts_orderly.bind fun _ => storeFuzzResults_orderly

theorem finishOutbound_orderly (noBackground : Bool) (outbound : Option Packet) :
    Orderly fuzzing (finishOutbound outside noBackground outbound) := by
  cases outbound with
  | none => cases noBackground <;> exact .halt Halt.noConfusion
  | some p =>
    cases noBackground with
    | false => exact .pure _
    | true => exact .tell _

theorem fuzzAndClose_orderly (config : FuzzConfig) (aside : SetAside) :
    Orderly false (fuzzAndClose config outside aside) := by
  apply (doSomeFuzz_orderly _ outside 10).bind
  intro _
  apply ((checkingRound_orderly _ outside).times 3).bind
  intro _
  apply (runCloseEvent_orderly outside aside.close).bind
  intro _
  apply (doSomeFuzz_orderly _ outside 3).bind
  intro _
  exact finishOutbound_orderly outside _ _

structure Idle (past : List Action) (p : Process) : Prop where
  past : past = []
  isFuzzStart : p.results.isFuzzStart = false
  checker : p.results.checker = false

theorem Idle.reinit (idle : Idle past p) : InOrder false past (reinit p) := by
  obtain ⟨rfl, isFuzzStart, checker⟩ := idle
  refine ⟨⟨isFuzzStart, checker, ?_, ?_⟩, rfl, ?_⟩
  · intro i
    constructor
    · intro there
      cases there
    · intro below
      exact absurd below (Nat.not_lt_zero i)
  · intro k result kept
    cases kept
  · intro chunk recordings member
    cases member

theorem myRunScript_leads (config : FuzzConfig) :
    Leads Idle (myRunScript config outside) fun _ => InOrder false := by
  have started : Leads Idle (change fun w : Process × σ => (reinit w.1, w.2)) fun _ => InOrder false :=
    .change fun _ _ idle => idle.reinit
  apply started.bind
  intro _
  refine Orderly.keeps ?_
  apply (Orderly.read _).bind
  intro count
  refine .ite (.halt Halt.noConfusion) ?_
  apply (runEvents_orderly _ outside _ _ _).bind
  intro aside
  exact fuzzAndClose_orderly outside config aside

end

end TcpFuzz
