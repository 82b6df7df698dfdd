import TcpFuzz.Fuzz.RoomSteps

/-! A run with at most three inbound packets in its script and only plain dumps stays within the 3000 bytes of
`fuzz_script`; a file can be chosen so that the dumps of its packets go past them. -/

namespace TcpFuzz
open Bytes Mem Traced
open Syscall (SyscallSpec)

variable {past : List Action} {i : Nat} {σ α β : Type}

/-! ### Events -/

section

variable (config : FuzzOptions) (outside : Outside σ) {fixed : Nat → Prop}

/-- The event is an inbound packet that is not set aside; its dump is added to the script. -/
def ScriptEvent.printsPacket (e : ScriptEvent) : Bool :=
  match e.body with
  | .packet p =>
    decide (p.direction = .inbound ∧ e.lineNumber ≠ outboundEventLineNumber ∧ e.lineNumber ≠ syscallCloseEventNumber) &&
      (predefinedSyscallEvents.find? (·.1 = e.lineNumber)).isNone
  | _ => false

theorem exitOnTldkError_writes (p : Packet) : Writes fixed 0 (exitOnTldkError p : Drive σ Packet) :=
  (Writes.ofRun _).andThen fun _ => .ite (.halt Halt.noConfusion) (.pure _)

theorem fuzzThreeWayHandshakePackets_writes (p : Packet) :
    Writes fixed 300 (fuzzThreeWayHandshakePackets config outside p) := by
  apply (Writes.input .readByte).andThen
  intro tmp
  apply (newFuzzPacket_writes config outside true _).ended
  intro q
  apply (Writes.ofRun _).andThen
  intro tcp
  exact (Writes.ofRun _).andThen fun tcp' => exitOnTldkError_writes _

theorem runInboundPacket_writes (free : ¬fixed i) (lineNumber : Nat) {p : Packet} (inbound : p.direction = .inbound) :
    Writes fixed packetBudget (runPacketEvent config outside i lineNumber p) := by
  have rest (p : Packet) : Writes fixed 289 (do
      setBody i (.packet p)
      addPacketToFuzzScript outside p) :=
    (Writes.setBody _ free).andThen fun _ => addPacketToFuzzScript_writes outside p
  unfold runPacketEvent
  rw [inbound]
  apply Writes.weaken _ (Nat.le_add_right (300 + 289) 62)
  refine .ite ?_ ?_
  · apply (fuzzThreeWayHandshakePackets_writes config outside p).bind
    intro p
    exact (runFuzzPacket_writes outside p).andThen rest
  · apply Writes.weaken _ (Nat.le_add_left 289 300)
    apply (Writes.ofRun _).andThen
    intro p
    apply (Writes.emit _).andThen
    intro _
    apply (Writes.tell _).andThen
    intro _
    exact (Writes.pure p).andThen rest

theorem runOtherPacket_writes (i lineNumber : Nat) {p : Packet} (other : p.direction ≠ .inbound) :
    Writes fixed 0 (runPacketEvent config outside i lineNumber p) := by
  unfold runPacketEvent
  split
  · exact absurd ‹_› other
  · exact (Writes.emit _).andThen fun _ => .tell _

theorem runEvent_writes (noBackground : Bool) (free : ¬fixed i) (e : ScriptEvent) (aside : SetAside) :
    Writes fixed (if e.printsPacket then packetBudget else 0) (runEvent config outside noBackground i e aside) := by
  have silent {m : Drive σ SetAside} (writes : Writes fixed 0 m) :
      Writes fixed (if e.printsPacket then packetBudget else 0) m := writes.weaken (Nat.zero_le _)
  unfold runEvent
  by_cases outbound : e.lineNumber = outboundEventLineNumber
  · rw [if_pos outbound]
    apply silent
    unfold setOutboundAside
    cases e.body with
    | packet p => exact .ite ((Writes.tell _).andThen fun _ => .pure _) (.pure _)
    | syscall syscall => exact .halt Halt.noConfusion
    | bogus => exact .halt Halt.noConfusion
  rw [if_neg outbound]
  by_cases close : e.lineNumber = syscallCloseEventNumber
  · rw [if_pos close]
    exact silent (.pure _)
  rw [if_neg close]
  cases found : predefinedSyscallEvents.find? (·.1 = e.lineNumber) with
  | some entry =>
    apply silent
    exact .andThen (.change fun _ => ⟨rfl, rfl⟩) fun _ => .pure _
  | none =>
    cases isPacket : e.body with
    | packet p =>
      by_cases inbound : p.direction = .inbound
      · have prints : e.printsPacket = true := by
          simp [ScriptEvent.printsPacket, isPacket, inbound, outbound, close, found]
        rw [if_pos prints]
        exact (runInboundPacket_writes config outside free _ inbound).bind fun _ => .pure _
      · exact silent ((runOtherPacket_writes config outside i _ inbound).andThen fun _ => .pure _)
    | syscall syscall => exact silent ((runSystemCallEvent_writes outside false syscall).andThen fun _ => .pure _)
    | bogus => exact silent (Writes.andThen (.halt Halt.noConfusion) fun _ => .pure _)

theorem runEvents_room (noBackground : Bool) (script : List ScriptEvent) {indices : List Nat} (distinct : indices.Nodup)
    (aside : SetAside) (k : Nat)
    (fits : k + packetBudget * indices.countP (fun i => script[i]?.any ScriptEvent.printsPacket) < fuzzScriptBytes) :
    Roomed (Room (· ∈ indices) script k) (runEvents config outside noBackground indices aside) (Room (fun _ => False) script
      (k + packetBudget * indices.countP fun i => script[i]?.any ScriptEvent.printsPacket)) := by
  induction indices generalizing aside k with
  | nil =>
    apply Ensures.pure
    intro past w room
    exact ⟨room.length, fun i isFixed => absurd isFixed id⟩
  | cons i rest ih =>
    obtain ⟨isNew, distinct⟩ := List.nodup_cons.mp distinct
    apply ((Writes.tell _).room script k (by omega)).bind
    intro _
    have event : Ensures (fun past w => Room (· ∈ i :: rest) script (k + 0) past w.1)
        (read fun w => w.1.script[i]? : Drive σ (Option ScriptEvent))
        (fun e past w => e = script[i]? ∧ Room (· ∈ rest) script k past w.1) Roomy :=
      .read fun past w room => ⟨room.events i List.mem_cons_self, room.length,
        fun j later => room.events j (List.mem_cons_of_mem _ later)⟩
    apply event.bind
    intro e
    apply Ensures.assume
    intro isEvent
    cases e with
    | none => exact .halt fun _ _ _ _ same => by cases same
    | some e =>
      have cost : packetBudget * (i :: rest).countP (fun i => script[i]?.any ScriptEvent.printsPacket) =
          (if e.printsPacket then packetBudget else 0) +
            packetBudget * rest.countP fun i => script[i]?.any ScriptEvent.printsPacket := by
        rw [List.countP_cons, ← isEvent, Option.any_some, Nat.mul_add, Nat.add_comm]
        split <;> rfl
      rw [cost, ← Nat.add_assoc] at fits ⊢
      apply ((runEvent_writes config outside noBackground isNew e aside).room script k (by omega)).bind
      intro aside
      exact ih distinct aside _ fits

theorem countP_range {l : List α} {f : α → Bool} : (List.range l.length).countP (fun i => l[i]?.any f) = l.countP f := by
  have entries : (List.range l.length).map (fun i => l[i]?) = l.map some := by
    apply List.ext_getElem?
    intro i
    by_cases inside : i < l.length <;> simp [inside]
  calc (List.range l.length).countP (fun i => l[i]?.any f)
      = ((List.range l.length).map fun i => l[i]?).countP (·.any f) := by rw [List.countP_map]; rfl
    _ = l.countP f := by rw [entries, List.countP_map]; rfl

theorem fuzzAndClose_room (config : FuzzConfig) (aside : SetAside) : KeepsRoom (fuzzAndClose config outside aside) := by
  apply (doSomeFuzz_room _ outside 10).bind
  intro _
  apply ((checkingRound_room _ outside).times 3).bind
  intro _
  apply (runCloseEvent_room outside aside.close).bind
  intro _
  apply (doSomeFuzz_room _ outside 3).bind
  intro _
  exact finishOutbound_room outside _ _

theorem myRunScript_room (config : FuzzConfig)
    (few : script.countP ScriptEvent.printsPacket ≤ 3) :
    Ensures (fun _ w => w.1.script = script) (myRunScript config outside) (fun _ _ _ => True) Roomy := by
  have started : Ensures (fun _ w => w.1.script = script) (change fun w => (reinit w.1, w.2) : Drive σ Unit)
      (fun _ past w => w.1.script = script ∧ Room (fun _ => True) script 0 past w.1) Roomy :=
    .change fun past w same => ⟨same, fun _ => Nat.le_refl 0, fun i _ => congrArg (·[i]?) same⟩
  apply started.bind
  intro _
  have counted : Ensures (fun past w => w.1.script = script ∧ Room (fun _ => True) script 0 past w.1)
      (read fun w => w.1.script.length : Drive σ Nat)
      (fun count past w => count = script.length ∧ Room (· ∈ List.range script.length) script 0 past w.1) Roomy :=
    .read fun past w known => ⟨congrArg List.length known.1, known.2.length, fun i _ => known.2.events i trivial⟩
  apply counted.bind
  intro count
  apply Ensures.assume
  rintro rfl
  have budget : 0 + packetBudget * script.countP ScriptEvent.printsPacket ≤ handshakeBudget := by
    unfold handshakeBudget packetBudget
    omega
  have ran (noBackground : Bool) : Roomed (Room (· ∈ List.range script.length) script 0)
      (runEvents config.toFuzzOptions outside noBackground (List.range script.length) ⟨none, none⟩)
      (Room (fun _ => False) script handshakeBudget) := by
    have room := runEvents_room config.toFuzzOptions outside noBackground script (List.nodup_range (n := script.length)) ⟨none, none⟩ 0
    rw [countP_range] at room
    apply (room (Nat.lt_of_le_of_lt budget (by decide))).weaken
    · exact fun _ _ room => room
    · exact fun _ _ _ room => room.weaken budget
  split
  · exact .halt fun _ _ _ _ same => by cases same
  · apply (ran _).bind
    intro aside
    exact ((fuzzAndClose_room outside config aside).room script).weaken (fun _ _ room => room) fun _ _ _ _ => trivial

end

/-- If the script has at most three inbound packets to run, and every packet that is dumped is
plain, the buffer of the script does not overflow. -/
theorem fuzzScript_fits {outside : Outside σ} {config : FuzzConfig} {p : Process} {s : σ}
    (few : p.script.countP ScriptEvent.printsPacket ≤ 3) (plain : PlainDumps (myRunScript config outside (p, s)).1) :
    ¬Overflows .fuzzScript (myRunScript config outside) (p, s) := by
  rintro ⟨t, halted⟩
  have fits := (myRunScript_room outside config few).error (s := (p, s)) rfl halted
  rw [halted] at plain
  exact fits plain rfl

def synArgs : TcpArgs where
  family := .inet
  direction := .inbound
  ipInfo := { tos := { check := .none, value := 0 }, flowLabel := 0, ttl := 0 }
  srcPort := 7
  dstPort := 8
  flags := ['S']
  startSequence := 0
  tcpPayloadBytes := 0
  ackSequence := 0
  window := 1000
  urgPtr := 0
  tcpOptions := some []

def Action.isBareDump : Action → Bool
  | .printed p => packetHeaderCount p ≤ 2 && p.tcp.all fun tcp => optionsEnd p.buffer tcp ≤ tcp + 20
  | _ => true

theorem plainDumps_of_bare (bare : past.all Action.isBareDump = true) : PlainDumps past := by
  intro p member
  have here := List.all_eq_true.mp bare _ member
  simp only [Action.isBareDump, Bool.and_eq_true, decide_eq_true_eq, Option.all_eq_true] at here
  refine ⟨here.1, fun tcp isTcp o visited => ?_⟩
  rw [optionOffsets_nil (Nat.not_lt.mpr (here.2 tcp isTcp))] at visited
  cases visited

theorem fuzzScript_fits_syn :
    ∃ p, newTcpPacket (fun _ => 0) synArgs = .ok (.ok p) ∧
      PlainDumps (myRunScript noFuzzPacket (readingStack emptyRead) (.start (⟨1, .packet p⟩ :: readAndClose) [], ())).1 ∧
      ¬Overflows .fuzzScript (myRunScript noFuzzPacket (readingStack emptyRead))
        (.start (⟨1, .packet p⟩ :: readAndClose) [], ()) := by
  have evaluated : (newTcpPacket (fun _ => 0) synArgs).toOption.map (fun built => built.toOption.map fun p =>
      (myRunScript noFuzzPacket (readingStack emptyRead) (.start (⟨1, .packet p⟩ :: readAndClose) [], ())).1.all
        Action.isBareDump && decide (List.countP ScriptEvent.printsPacket (⟨1, .packet p⟩ :: readAndClose) ≤ 3)) =
          some (some true) := by
    decide +kernel
  obtain ⟨built, returned, facts⟩ := ok_of_toOption evaluated
  cases built with
  | error => cases facts
  | ok p =>
    obtain ⟨bare, few⟩ := Bool.and_eq_true_iff.mp (Option.some.inj facts)
    have plain := plainDumps_of_bare bare
    exact ⟨p, returned, plain, fuzzScript_fits (of_decide_eq_true few) plain⟩

/-! ### Overflow -/

def fuzzAll : FuzzConfig := ⟨⟨false, false, false, false⟩, false⟩

section

variable {answer : Nat → ReadAnswer} {rest : List UInt8} {n chunk : Nat}

theorem fuzzToPacket_shifted (allocated : Mem) {s : Fuzzer} (ahead : Ahead (shiftedPacket rest) s) :
    ∃ g s', Shifted g ∧ fuzzToPacket allocated false true true s = .ok (generatedPacket allocated g, s') ∧ Ahead rest s' ∧
      s'.fuzzScript.length = s.fuzzScript.length + 271 := by
  have consumed := fuzzData_shifted rest s ahead
  rcases read : fuzzData false true true s with ⟨data, s'⟩
  rw [read] at consumed
  obtain ⟨ahead, grown, g, rfl, shifted⟩ := consumed
  exact ⟨g, s', shifted, fuzzToPacket_run allocated read, ahead, grown⟩

theorem newFuzzPacket_shifted :
    Fills ⟨shiftedPacket rest, n, chunk⟩ (newFuzzPacket fuzzAll.toFuzzOptions (readingStack answer) true true)
      ⟨rest, n + 271, chunk⟩ fun p => ∃ allocated g, Shifted g ∧ p = generatedPacket allocated g := by
  apply Fills.read.bind
  intro heap _
  refine .onFuzzer fun s ahead => ?_
  obtain ⟨g, s', shifted, ran, ahead, grown⟩ := fuzzToPacket_shifted heap ahead
  exact ⟨_, s', ran, ahead, grown, heap, g, shifted, rfl⟩

theorem addPacketToFuzzScript_fills {q : Packet} {printed : Printed} {bytes : List UInt8} (long : 508 < printed.text.length)
    (shown : packetToString (readingStack answer).encapHeaderToString q = .ok printed) :
    Fills ⟨bytes, n, chunk⟩ (addPacketToFuzzScript (readingStack answer) q) ⟨bytes, n + 515, chunk⟩ fun _ => True := by
  have line : n + 515 ≤ n + ("+0 < " ++ String.ofList printed.text ++ "\n").length := by
    have words : "+0 < ".length = 5 ∧ "\n".length = 1 := ⟨rfl, rfl⟩
    have dump : (String.ofList printed.text).length = printed.text.length := String.length_ofList
    rw [String.length_append, String.length_append, words.1, words.2, dump]
    omega
  apply (Fills.emit _).bind
  intro _ _
  apply (Fills.ofRun shown).bind
  intro _ same
  rw [same]
  cases printed.error with
  | none => exact (Fills.input (.addContent _)).weaken line
  | some error =>
    refine .bind ((Fills.input (.addContent _)).weaken (Nat.le_add_right n _)) fun _ _ => ?_
    exact (Fills.input (.addContent _)).weaken line

theorem runFuzzPacket_fills {p q : Packet} {bytes : List UInt8} (filled : fillPayload p = .ok q) :
    Fills ⟨bytes, n, chunk⟩ (runFuzzPacket (readingStack answer) p) ⟨bytes, n, chunk⟩ (· = q) := by
  apply (Fills.emit _).bind
  intro _ _
  apply (Fills.ofRun filled).bind
  rintro _ rfl
  exact .pure rfl

theorem injectFuzzNormalPacket_shifted :
    Fills ⟨shiftedPacket (99 :: rest), n, chunk⟩ (injectFuzzNormalPacket fuzzAll.toFuzzOptions (readingStack answer))
      ⟨rest, n + 786, chunk⟩ fun _ => True := by
  refine Fills.bind (Fills.pure (Eq.refl true)) fun _ allowed => ?_
  subst allowed
  apply newFuzzPacket_shifted.bind
  rintro _ ⟨allocated, g, shifted, rfl⟩
  obtain ⟨q, printed, filled, shown, long⟩ := shifted_dump (readingStack answer).encapHeaderToString allocated shifted
  apply (Fills.input (.readByte 99 rest)).bind
  rintro _ rfl
  refine .bind (Fills.pure (Eq.refl (generatedPacket allocated g))) fun _ unchanged => ?_
  subst unchanged
  apply (runFuzzPacket_fills filled).bind
  rintro _ rfl
  exact addPacketToFuzzScript_fills long shown

def overflowFile : List UInt8 :=
  shiftedPacket (99 :: 200 :: shiftedPacket (99 :: shiftedPacket (99 :: shiftedPacket (99 :: shiftedPacket [99]))))

theorem fuzzPackets_overflow :
    Fills ⟨overflowFile, 0, 0⟩ (fuzzPackets fuzzAll.toFuzzOptions (readingStack answer)) ⟨[], 0, 0⟩ fun _ => False := by
  have packet {rest : List UInt8} {n : Nat} : Fills ⟨shiftedPacket (99 :: rest), n, 1⟩
      (injectFuzzNormalPacket fuzzAll.toFuzzOptions (readingStack answer)) ⟨rest, n + 786, 1⟩ fun _ => True :=
    injectFuzzNormalPacket_shifted
  have four : Fills ⟨shiftedPacket (99 :: shiftedPacket (99 :: shiftedPacket (99 :: shiftedPacket [99]))), 27, 1⟩
      (times (injectFuzzNormalPacket fuzzAll.toFuzzOptions (readingStack answer)) 4) ⟨[], 3171, 1⟩ fun _ => True :=
    packet.bind fun _ _ => packet.bind fun _ _ => packet.bind fun _ _ => packet.bind fun _ _ => .pure trivial
  apply injectFuzzNormalPacket_shifted.bind
  intro _ _
  refine .bind (.change fun _ => ⟨rfl, rfl, rfl, rfl⟩) fun _ _ => ?_
  apply (Fills.updateFuzzScripts (by decide) (by decide)).bind
  intro _ _
  apply (Fills.input (.readByte 200 _)).bind
  rintro _ rfl
  apply (Fills.input (.addContent _)).bind
  intro _ _
  exact (four.overflow (by decide)).andOn

theorem doSomeFuzz_overflow (fuzzLoop : Nat) :
    Fills ⟨overflowFile, 0, 0⟩ (doSomeFuzz fuzzAll.toFuzzOptions (readingStack answer) (fuzzLoop + 1)) ⟨[], 0, 0⟩
      fun _ => False := by
  have round : Fills ⟨overflowFile, 0, 0⟩ (fuzzRound fuzzAll.toFuzzOptions (readingStack answer)) ⟨[], 0, 0⟩ fun _ => False :=
    fuzzPackets_overflow.andOn
  have rounds : Fills ⟨overflowFile, 0, 0⟩
      (times (fuzzRound fuzzAll.toFuzzOptions (readingStack answer)) (fuzzLoop + 1)) ⟨[], 0, 0⟩ fun _ => False := round.andOn
  refine .bind (.change fun _ => ⟨rfl, rfl, rfl, rfl⟩) fun _ _ => ?_
  exact rounds.andOn

end

theorem overflowFile_overflows :
    Overflows .fuzzScript (myRunScript fuzzAll (readingStack emptyRead)) (.start readAndClose overflowFile, ()) := by
  apply Overflows.after rfl
  apply Overflows.after rfl
  show Overflows .fuzzScript (runEvents fuzzAll.toFuzzOptions (readingStack emptyRead) false [0, 1, 2, 3, 4, 5] ⟨none, none⟩ >>= _) _
  apply Overflows.after rfl
  apply Overflows.bind
  apply (doSomeFuzz_overflow 9).overflows
  exact ⟨⟨by decide +kernel, rfl⟩, Nat.zero_le _, Nat.zero_le _, rfl⟩

end TcpFuzz
