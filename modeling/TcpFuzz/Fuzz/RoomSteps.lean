import TcpFuzz.Fuzz.Room

/-! What the packets and the system calls of a fuzzing round write to `fuzz_script`. -/

namespace TcpFuzz
open Bytes Mem Traced
open Syscall (SyscallSpec)

variable {past : List Action} {script : List ScriptEvent} {k i n : Nat} {p : Process} {σ α β : Type}

/-! ### Packets -/

section

variable (config : FuzzOptions) (outside : Outside σ) {fixed : Nat → Prop}

theorem shouldFuzz_writes : Writes fixed 0 (shouldFuzz config : Drive σ Bool) := by
  unfold shouldFuzz
  refine .ite ?_ (.pure _)
  apply (Writes.read _).andThen
  intro fuzzed
  refine .ite (.pure _) ?_
  apply (Writes.input .readByte).andThen
  intro tmp
  refine .ite ?_ (.pure _)
  exact .andThen (.change fun _ => ⟨rfl, rfl⟩) fun _ => .pure _

theorem newFuzzPacket_writes (isFuzzOptions isFuzzData : Bool) :
    Writes fixed 300 (newFuzzPacket config outside isFuzzOptions isFuzzData) :=
  (Writes.read _).andThen fun _ => .fuzzer fun _ _ _ made => fuzzToPacket_grows made

theorem injectError_writes (p : Packet) : Writes fixed 62 (injectError p : Drive σ Packet) :=
  .fuzzer fun _ _ _ made => injectErrorToPacket_grows made

theorem runFuzzPacket_writes (p : Packet) : Writes fixed 0 (runFuzzPacket outside p) := by
  apply (Writes.emit _).andThen
  intro _
  apply (Writes.ofRun _).andThen
  intro p
  exact (Writes.tell _).andThen fun _ => .pure _

theorem addPrinted_writes {printed : Printed} (text : printed.text.length ≤ 230) (error : ShortError printed.error) :
    Writes fixed 289 (do
      match printed.error with
      | some error => input (addContentToFuzzScript ("// " ++ error ++ "\n"))
      | none => pure ()
      input (addContentToFuzzScript ("+0 < " ++ String.ofList printed.text ++ "\n")) : Drive σ Unit) := by
  have words : "+0 < ".length = 5 ∧ "// ".length = 3 ∧ "\n".length = 1 := ⟨rfl, rfl, rfl⟩
  have line : Writes fixed 236 (input (addContentToFuzzScript ("+0 < " ++ String.ofList printed.text ++ "\n")) : Drive σ Unit) := by
    apply Writes.input
    apply Grows.addContent
    have dump : (String.ofList printed.text).length = printed.text.length := String.length_ofList
    rw [String.length_append, String.length_append, dump, words.1, words.2.2]
    omega
  cases isError : printed.error with
  | none => exact ((Writes.pure ()).andThen fun _ => line).weaken (by decide)
  | some e =>
    have short := error e isError
    have comment : Writes fixed 53 (input (addContentToFuzzScript ("// " ++ e ++ "\n")) : Drive σ Unit) := by
      apply Writes.input
      apply Grows.addContent
      rw [String.length_append, String.length_append, words.2.1, words.2.2]
      unfold longestError at short
      omega
    exact (comment.bind fun _ => line).weaken (by decide)

/-- Once a dump was not plain nothing more is said about the length. -/
structure OddDump (fixed : Nat → Prop) (script : List ScriptEvent) (past : List Action) (p : Process) : Prop where
  odd : ¬PlainDumps past
  events : ∀ i, fixed i → p.script[i]? = script[i]?

theorem OddDump.room (odd : OddDump fixed script past p) (k : Nat) :
    Room fixed script k past p :=
  ⟨fun plain => absurd plain odd.odd, odd.events⟩

theorem silent_odd {step : Process × σ → Except Halt (α × Process × σ)}
    (keeps : ∀ w a w', step w = .ok (a, w') → w'.1.script = w.1.script) :
    Roomed (OddDump fixed script) (silent step) (OddDump fixed script) := by
  apply Ensures.silent
  intro past w before
  refine ⟨fun e _ plain => absurd plain before.odd, fun a w' came => ⟨before.odd, ?_⟩⟩
  rw [keeps w a w' came]
  exact before.events

theorem input_odd (m : StateM Fuzzer α) :
    Roomed (OddDump fixed script) (input m : Drive σ α) (OddDump fixed script) := by
  apply silent_odd
  intro w a w' came
  unfold withFuzzer at came
  split at came
  · cases came
  · cases came
    rfl

theorem addPacketToFuzzScript_writes (p : Packet) : Writes fixed 289 (addPacketToFuzzScript outside p) := by
  by_cases plain : PlainDump p
  · apply (Writes.emit _).andThen
    intro _
    apply Writes.ofRun_bind
    intro printed ran
    obtain ⟨text, error⟩ := packetToString_length plain ran
    exact addPrinted_writes text error
  · constructor
    intro script k enough
    have odd : Roomed (Room fixed script k) (emit (.printed p) : Drive σ Unit) (OddDump fixed script) :=
      .emit fun past w room => ⟨fun dumps => plain (dumps p (List.mem_append_right _ (List.mem_singleton_self _))), room.events⟩
    have rest : Roomed (Room fixed script k) (addPacketToFuzzScript outside p) (OddDump fixed script) := by
      refine odd.bind fun _ => ?_
      refine .bind (silent_odd fun w a w' came => ?_) fun printed => ?_
      · split at came
        · cases came
          rfl
        · cases came
      cases printed.error with
      | none => exact input_odd _
      | some e => exact (input_odd _).bind fun _ => input_odd _
    exact rest.weaken (fun _ _ room => room) fun _ _ _ after => after.room _

def packetBudget : Nat := 651

theorem injectFuzzNormalPacket_writes : Writes fixed packetBudget (injectFuzzNormalPacket config outside) := by
  have rest (p : Packet) : Writes fixed 289 (do
      let p ← runFuzzPacket outside p
      addPacketToFuzzScript outside p) :=
    (runFuzzPacket_writes outside p).andThen fun p => addPacketToFuzzScript_writes outside p
  apply (shouldFuzz_writes config).andThen
  intro fuzzes
  refine .ite ?_ ((Writes.pure _).weaken (Nat.zero_le _))
  apply Writes.weaken _ (Nat.le_refl (300 + (62 + 289)))
  apply (newFuzzPacket_writes config outside true true).bind
  intro p
  apply (Writes.input .readByte).andThen
  intro tmp
  refine .ite ((injectError_writes p).bind rest) ?_
  exact ((Writes.pure p).andThen rest).weaken (by decide)

theorem injectFuzzErrorPacket_writes : Writes fixed packetBudget (injectFuzzErrorPacket config outside) := by
  apply (shouldFuzz_writes config).andThen
  intro fuzzes
  refine .ite ?_ ((Writes.pure _).weaken (Nat.zero_le _))
  apply Writes.weaken _ (Nat.le_refl (300 + (62 + (289 + 0))))
  apply (newFuzzPacket_writes config outside true true).bind
  intro p
  apply (injectError_writes p).bind
  intro p
  apply (addPacketToFuzzScript_writes outside p).bind
  intro _
  exact (runFuzzPacket_writes outside p).andThen fun _ => .pure _

/-! ### The run -/

def handshakeBudget : Nat := 3 * packetBudget

abbrev KeepsRoom (m : Drive σ α) : Prop := Takes (fun _ => False) handshakeBudget handshakeBudget m

theorem Writes.keepsRoom {m : Drive σ α} (writes : Writes (fun _ => False) 0 m) : KeepsRoom m :=
  .of_writes writes (by decide) (Nat.le_refl _)

theorem fuzzPackets_room : KeepsRoom (fuzzPackets config outside) := by
  have comment {text : String} (short : text.length ≤ 28) :
      Takes (fun _ => False) 0 28 (input (addContentToFuzzScript text) : Drive σ Unit) :=
    .of_writes (.input (.addContent short)) (by decide) (by decide)
  apply ((injectFuzzNormalPacket_writes config outside).takes (by decide)).bind
  intro _
  refine .bind (Writes.takes (.change fun _ => ⟨rfl, rfl⟩) (by decide)) fun _ => ?_
  apply (updateFuzzScripts_takes (by decide) 0).bind
  intro _
  apply ((Writes.input .readByte).takes (by decide)).bind
  intro tmp
  refine .ite (updateFuzzScripts_takes (by decide) _) (.ite ?_ ?_)
  · apply (comment (by decide)).bind
    intro _
    apply ((injectFuzzErrorPacket_writes config outside).takes (by decide)).bind
    intro _
    exact updateFuzzScripts_takes (by decide) _
  · apply (comment (by decide)).bind
    intro _
    apply (((injectFuzzNormalPacket_writes config outside).times 4).takes (by decide)).bind
    intro _
    exact updateFuzzScripts_takes (by decide) _

/-! ### System calls -/

theorem runSystemCallEvent_writes (selected : Bool) (syscall : SyscallSpec) :
    Writes fixed 0 (runSystemCallEvent outside selected syscall) := by
  apply (Writes.read _).andThen
  intro totalWriteNum
  apply (Writes.emit _).andThen
  intro _
  apply (Writes.ask _).andThen
  intro reply
  refine .andThen (.change fun _ => ⟨rfl, rfl⟩) fun _ => ?_
  apply (Writes.read _).andThen
  intro flags
  exact (Writes.emit _).andThen fun _ => .onResults _

theorem syscallOf_writes (i : Nat) : Writes fixed 0 (syscallOf i : Drive σ SyscallSpec) := by
  apply (Writes.read _).andThen
  intro event
  split
  · exact .pure _
  · exact .halt Halt.noConfusion

theorem runCountedEvent_writes (selected : Bool) (free : ¬fixed i) (n : Nat) :
    Writes fixed 0 (runCountedEvent outside selected i n) := by
  apply (syscallOf_writes i).andThen
  intro syscall
  apply (Writes.ofRun _).andThen
  intro syscall
  apply (Writes.setBody (.syscall syscall) free).andThen
  intro _
  exact runSystemCallEvent_writes outside selected syscall

theorem storeFuzzResults_writes : Writes fixed 0 (storeFuzzResults : Drive σ Unit) := by
  apply (Writes.read _).andThen
  intro k
  exact (Writes.emit _).andThen fun _ => .onResults _

def lineBudget : Nat := 100

theorem addLine_writes {line : String} (short : line.length ≤ lineBudget) :
    Writes fixed lineBudget (input (addContentToFuzzScript line) : Drive σ Unit) :=
  .input (.addContent short)

theorem runPlainEvent_writes (i : Nat) {line : String} (short : line.length ≤ lineBudget) :
    Writes fixed lineBudget (runPlainEvent outside i line) := by
  apply (syscallOf_writes i).andThen
  intro syscall
  apply (runSystemCallEvent_writes outside true syscall).andThen
  intro _
  exact addLine_writes short

theorem countText_length {name : String} (short : name.length ≤ 5) (small : n < 100000) :
    (countText name n).length ≤ lineBudget := by
  have digits : (toString n).length ≤ 5 := toString_nat_length (by decide) small
  have words : "+0.1 ".length = 5 ∧ "(4, ..., ".length = 9 ∧ ") =  ".length = 5 ∧ "\n".length = 1 := ⟨rfl, rfl, rfl, rfl⟩
  show ("+0.1 " ++ name ++ "(4, ..., " ++ toString n ++ ") =  " ++ toString n ++ "\n").length ≤ lineBudget
  simp only [String.length_append, words]
  unfold lineBudget
  omega

theorem runFuzzSyscall_writes (i : Nat) (kind : FuzzSyscall) :
    Writes (fun _ => False) lineBudget (runFuzzSyscall outside i kind) := by
  have counted {name : String} (short : name.length ≤ 5) {n : Nat} (small : n < 100000) :
      Writes (fun _ => False) lineBudget (do
        runCountedEvent outside true i n
        input (addContentToFuzzScript (countText name n))) :=
    (runCountedEvent_writes outside true id n).andThen fun _ => addLine_writes (countText_length short small)
  cases kind with
  | read | write =>
    apply (Writes.input .readInt).andThen
    intro n
    exact counted (by decide) (Nat.lt_trans (Nat.mod_lt _ (by decide)) (by decide))
  | fcntlSetflBlock => exact (Writes.pure ()).weaken (Nat.zero_le _)
  | _ => exact runPlainEvent_writes outside i (by decide)

theorem fuzzSyscallEntry_room (kind : FuzzSyscall) : KeepsRoom (fuzzSyscallEntry outside kind) := by
  apply (Writes.read _).keepsRoom.bind
  intro index
  cases index with
  | none => exact .pure _
  | some i =>
    apply (Writes.input .readByte).keepsRoom.bind
    intro tmp
    refine .ite ?_ (.pure _)
    apply ((runFuzzSyscall_writes outside i kind).takes (by decide)).bind
    intro _
    apply (updateFuzzScripts_takes (by decide) handshakeBudget).bind
    intro _
    exact storeFuzzResults_writes.keepsRoom

theorem fuzzSyscalls_room (kinds : List FuzzSyscall) : KeepsRoom (fuzzSyscalls config outside kinds) := by
  induction kinds with
  | nil => exact .pure _
  | cons kind rest ih =>
    apply (shouldFuzz_writes config).keepsRoom.bind
    intro fuzzes
    exact .ite ((fuzzSyscallEntry_room outside kind).bind fun _ => ih) (.pure _)

theorem fuzzRound_room : KeepsRoom (fuzzRound config outside) := by
  have calls : ∀ u : Unit, KeepsRoom (if !config.isNoFuzzSyscall then
      fuzzSyscalls config outside (predefinedSyscallEvents.map Prod.snd) else pure ()) :=
    fun _ => .ite (fuzzSyscalls_room config outside _) (.pure _)
  exact .ite ((fuzzPackets_room config outside).bind calls) (calls ())

theorem doSomeFuzz_room (fuzzLoop : Nat) : KeepsRoom (doSomeFuzz config outside fuzzLoop) := by
  have sets (value : Bool) : Writes (fun _ => False) 0 (setIsFuzzStart value : Drive σ Unit) := .change fun _ => ⟨rfl, rfl⟩
  apply (sets true).keepsRoom.bind
  intro _
  exact ((fuzzRound_room config outside).times fuzzLoop).bind fun _ => (sets false).keepsRoom

theorem checkingPacket_room : KeepsRoom (checkingPacket config outside) := by
  apply (shouldFuzz_writes config).keepsRoom.bind
  intro fuzzes
  refine .ite ?_ (.pure _)
  apply ((newFuzzPacket_writes config outside false true).takes (by decide)).bind
  intro p
  apply ((runFuzzPacket_writes outside p).takes (by decide)).bind
  intro p
  apply ((addPacketToFuzzScript_writes outside p).takes (by decide)).bind
  intro _
  exact updateFuzzScripts_takes (by decide) _

theorem checkingRead_room : KeepsRoom (checkingRead config outside) := by
  apply (shouldFuzz_writes config).keepsRoom.bind
  intro fuzzes
  refine .ite ?_ (.pure _)
  apply (Writes.read _).keepsRoom.bind
  intro index
  cases index with
  | none => exact (Writes.halt Halt.noConfusion).keepsRoom
  | some i =>
    apply (runCountedEvent_writes outside true id _).keepsRoom.bind
    intro _
    apply ((addLine_writes (countText_length (by decide) (by decide))).takes (by decide)).bind
    intro _
    exact updateFuzzScripts_takes (by decide) _

theorem checkingRound_room : KeepsRoom (checkingRound config outside) := by
  have reads : ∀ u : Unit, KeepsRoom (if !config.isNoFuzzSyscall then checkingRead config outside else pure ()) :=
    fun _ => .ite (checkingRead_room config outside) (.pure _)
  exact .ite ((checkingPacket_room config outside).bind reads) (reads ())

theorem runCloseEvent_room (close : Option Nat) : KeepsRoom (runCloseEvent outside close) := by
  cases close with
  | none => exact (Writes.halt Halt.noConfusion).keepsRoom
  | some i =>
    apply (syscallOf_writes i).keepsRoom.bind
    intro syscall
    apply (runSystemCallEvent_writes outside false syscall).keepsRoom.bind
    intro _
    apply ((addLine_writes (by decide)).takes (by decide)).bind
    intro _
    apply (updateFuzzScripts_takes (by decide) handshakeBudget).bind
    intro _
    exact storeFuzzResults_writes.keepsRoom

theorem finishOutbound_room (noBackground : Bool) (outbound : Option Packet) :
    KeepsRoom (finishOutbound outside noBackground outbound) := by
  cases outbound with
  | none => cases noBackground <;> exact (Writes.halt Halt.noConfusion).keepsRoom
  | some p =>
    cases noBackground with
    | false => exact .pure _
    | true => exact (Writes.tell _).keepsRoom

end

end TcpFuzz
