import TcpFuzz.Fuzz.Steps

/-! `print_scripts` prints the chunks up to the step whose results differ. The result of a chunk stands under the
index of the next one. -/

namespace TcpFuzz
open Traced
open Syscall (Recording SyscallSpec)

variable {σ σ' : Type} {config : FuzzConfig} {script : List ScriptEvent} {fuzzFileString : List UInt8}

theorem Process.start_idle : Idle [] (.start script fuzzFileString) := ⟨rfl, rfl, rfl⟩

theorem InOrder.idle {past : List Action} {p : Process} (order : InOrder false past p) : Idle [] p :=
  ⟨rfl, order.isFuzzStart, order.checker⟩

theorem Completed.inOrder {stack : Outside σ} {linux : Outside σ'} {t t' : List Action} {p p' : Process}
    (runs : Completed config script fuzzFileString stack linux t t' p p') : InOrder false t p ∧ InOrder false t' p' := by
  obtain ⟨s, s₁, first⟩ := runs.first
  obtain ⟨s', s₁', second⟩ := runs.second
  have order : InOrder false t p := (myRunScript_leads stack config).ok Process.start_idle first
  exact ⟨order, (myRunScript_leads linux config.forLinux).ok order.idle second⟩

theorem printScripts_getLast {p : Process} {n : Nat} (there : (p.fuzzScripts n).isSome) :
    (((List.range (n + 1)).filterMap fun i => (p.fuzzScripts i).map (i, ·)).getLast?).map Prod.fst = some n := by
  obtain ⟨chunk, kept⟩ := Option.isSome_iff_exists.mp there
  rw [List.range_succ, List.filterMap_append]
  simp [kept]

theorem printScripts_last {fuzzing : Bool} {past : List Action} {p : Process} (stored : Stored fuzzing past p) {chunk : Nat}
    (below : chunk + 1 ≤ p.fuzzLoopIndex) :
    ((printScripts (chunk + 1) p).getLast?).map Prod.fst = some (if chunk + 1 = p.fuzzLoopIndex then chunk else chunk + 1) := by
  unfold printScripts
  rw [Nat.min_eq_left below]
  split
  · rename_i last
    have absent : p.fuzzScripts (chunk + 1) = none := by
      rw [← Option.not_isSome_iff_eq_none, stored.scripts]
      omega
    rw [List.range_succ, List.filterMap_append]
    simp only [List.filterMap_cons, absent, Option.map_none, List.filterMap_nil, List.append_nil]
    exact printScripts_getLast ((stored.scripts chunk).mpr (by omega))
  · exact printScripts_getLast ((stored.scripts (chunk + 1)).mpr (by omega))

/-- The result that differs was recorded by a system call of the second run, and the last chunk that
is printed is the one of this call just when it is the last one of the run. -/
theorem printScripts_minimal_iff {stack : Outside σ} {linux : Outside σ'} {t t' : List Action} {p p' : Process}
    (runs : Completed config script fuzzFileString stack linux t t' p p') {k : Nat}
    (differ : fuzzTestResultCompare p.results.fuzzResults p'.results.fuzzResults = k) :
    ∃ before chunk recordings after, t' = before ++ .observed true chunk recordings :: .updated k :: after ∧
      p'.results.fuzzResults k = some (cString (resultText recordings)) ∧
      (((printScripts k p').getLast?).map Prod.fst = some chunk ↔ p'.fuzzLoopIndex = k) := by
  have order := runs.inOrder.2
  obtain ⟨_, result, _, kept, _⟩ := fuzzTestResultCompare_differs differ
  obtain ⟨below, before, chunk, recordings, after, trace, rfl, text⟩ := order.results k result kept
  refine ⟨before, chunk, recordings, after, trace, by rw [kept, text], ?_⟩
  rw [printScripts_last order.toStored below, Option.some.injEq]
  split
  · exact ⟨fun _ => Eq.symm ‹_›, fun _ => rfl⟩
  · constructor
    · intro same
      omega
    · intro last
      exact absurd last.symm ‹_›

def requested (syscall : SyscallSpec) : Nat :=
  match syscall.arguments with
  | _ :: _ :: .integer count :: _ => count.toNat
  | _ => 0

structure ReadAnswer where
  buf : Option (List UInt8)
  count : Int
  int : Syscall.IsInt count

/-- Reads are answered; other calls return what the script expects. -/
def readingStack (answer : Nat → ReadAnswer) : Outside Unit where
  heap _ := fun _ => 0
  encapHeaderToString _ _ := .ok []
  nextEvent _ _ := some ()
  packetEvent _ _ := some ()
  systemCall _ syscall :=
    let a := answer (requested syscall)
    if isRead : syscall.name = "read" then some (⟨_, @Syscall.Recorded.read _ a.buf a.count a.int isRead, 0⟩, ())
    else
      match syscall.result with
      | .integer n => if int : Syscall.IsInt n then some (⟨_, .result int isRead, 0⟩, ()) else none
      | _ => none
  validateOutbound _ _ := some ()

theorem readingStack_recordings {answer : Nat → ReadAnswer} (bound : Nat → Int) (within : ∀ n, (answer n).count ≤ bound n)
    {s s' : Unit} {syscall : SyscallSpec} {reply : Reply syscall.name}
    (answered : (readingStack answer).systemCall s syscall = some (reply, s')) (buf : Option (List UInt8)) (count : Int)
    (recorded : .readResult buf count ∈ reply.recordings) : count ≤ bound (requested syscall) := by
  simp only [readingStack] at answered
  split at answered
  · cases answered
    simp only [List.mem_cons, List.not_mem_nil, or_false, reduceCtorEq, Recording.readResult.injEq] at recorded
    rw [recorded.2]
    exact within _
  · split at answered
    · split at answered
      · cases answered
        simp only [List.mem_cons, List.not_mem_nil, or_false, reduceCtorEq] at recorded
      · cases answered
    · cases answered

/-- `> . 1:1(0) ack 21` -/
def outboundAck : TcpArgs where
  family := .inet
  direction := .outbound
  ipInfo := { tos := { check := .none, value := 0 }, flowLabel := 0, ttl := 0 }
  srcPort := 8
  dstPort := 7
  flags := ['.']
  startSequence := 1
  tcpPayloadBytes := 0
  ackSequence := 21
  window := -1
  urgPtr := 0
  tcpOptions := some []

def segmentEvent (a : TcpArgs) : EventBody :=
  match newTcpPacket (fun _ => 0) a with
  | .ok (.ok p) => .packet p
  | _ => .bogus

/-- A socket is opened and connects, and a packet is there for the thread that validates. -/
def readAndClose : List ScriptEvent :=
  [⟨2, .syscall ⟨"socket", [.ellipsis, .word "SOCK_STREAM", .word "IPPROTO_TCP"], .integer 4, none⟩⟩,
    ⟨4, .syscall ⟨"fcntl", [.integer 4, .word "F_SETFL", .word "O_NONBLOCK"], .integer 0, none⟩⟩,
    ⟨7, .syscall ⟨"connect", [.integer 4, .ellipsis, .ellipsis], .integer (-1), some "EINPROGRESS"⟩⟩,
    ⟨20, segmentEvent outboundAck⟩,
    ⟨30, .syscall ⟨"read", [.integer 4, .ellipsis, .integer 20], .integer 20, none⟩⟩,
    ⟨32, .syscall ⟨"close", [.integer 4], .integer 0, none⟩⟩]

def noFuzzPacket : FuzzConfig := ⟨⟨false, true, false, false⟩, false⟩

def emptyRead : Nat → ReadAnswer := fun _ => ⟨some [], 0, by decide⟩
def failedRead : Nat → ReadAnswer := fun _ => ⟨none, -1, by decide⟩

/-- The traces of both runs and the processes that they leave, if both are completed. -/
def bothRuns (config : FuzzConfig) (script : List ScriptEvent) (fuzzFileString : List UInt8) (stack linux : Outside Unit) :
    Option (List Action × List Action × Process × Process) :=
  match myRunScript config stack (.start script fuzzFileString, ()) with
  | (_, .error _) => none
  | (t, .ok (_, p, _)) =>
    match myRunScript config.forLinux linux (p, ()) with
    | (_, .error _) => none
    | (t', .ok (_, p', _)) => some (t, t', p, p')

theorem completed_of_bothRuns {stack linux : Outside Unit} {check : List Action × List Action × Process × Process → Bool}
    (evaluated : (bothRuns config script fuzzFileString stack linux).map check = some true) :
    ∃ t t' p p', Completed config script fuzzFileString stack linux t t' p p' ∧ check (t, t', p, p') = true := by
  obtain ⟨⟨t, t', p, p'⟩, ran, checked⟩ := Option.map_eq_some_iff.mp evaluated
  refine ⟨t, t', p, p', ?_, checked⟩
  unfold bothRuns at ran
  split at ran
  · cases ran
  · rename_i first
    split at ran
    · cases ran
    · rename_i second
      cases ran
      exact ⟨⟨_, _, first⟩, _, _, second⟩

theorem readAndClose_differs :
    ∃ t t' p p', Completed noFuzzPacket readAndClose [] (readingStack emptyRead) (readingStack failedRead) t t' p p' ∧
      fuzzTestResultCompare p.results.fuzzResults p'.results.fuzzResults = 1 ∧ p'.fuzzLoopIndex = 17 := by
  have evaluated : (bothRuns noFuzzPacket readAndClose [] (readingStack emptyRead) (readingStack failedRead)).map
      (fun (_, _, p, p') => decide (fuzzTestResultCompare p.results.fuzzResults p'.results.fuzzResults = 1 ∧ p'.fuzzLoopIndex = 17)) =
        some true := by
    decide +kernel
  obtain ⟨t, t', p, p', runs, checked⟩ := completed_of_bothRuns evaluated
  exact ⟨t, t', p, p', runs, of_decide_eq_true checked⟩

theorem printScripts_minimal_readAndClose :
    ∃ t t' p p', Completed noFuzzPacket readAndClose [] (readingStack emptyRead) (readingStack failedRead) t t' p p' ∧
      ∃ before chunk recordings after, t' = before ++ .observed true chunk recordings :: .updated 1 :: after ∧
        p'.results.fuzzResults 1 = some (cString (resultText recordings)) ∧
        (((printScripts 1 p').getLast?).map Prod.fst = some chunk ↔ p'.fuzzLoopIndex = 1) := by
  obtain ⟨t, t', p, p', runs, differ, _⟩ := readAndClose_differs
  exact ⟨t, t', p, p', runs, printScripts_minimal_iff runs differ⟩

theorem printScripts_prints_later :
    ∃ t t' p p', Completed noFuzzPacket readAndClose [] (readingStack emptyRead) (readingStack failedRead) t t' p p' ∧
      fuzzTestResultCompare p.results.fuzzResults p'.results.fuzzResults = 1 ∧
      (∃ before recordings after, t' = before ++ .observed true 0 recordings :: .updated 1 :: after) ∧
      ((printScripts 1 p').getLast?).map Prod.fst = some 1 := by
  obtain ⟨t, t', p, p', runs, differ, index⟩ := readAndClose_differs
  have order := runs.inOrder.2
  obtain ⟨_, result, _, kept, _⟩ := fuzzTestResultCompare_differs differ
  obtain ⟨below, before, chunk, recordings, after, trace, first, text⟩ := order.results 1 result kept
  obtain rfl : chunk = 0 := by omega
  refine ⟨t, t', p, p', runs, differ, ⟨before, recordings, after, trace⟩, ?_⟩
  rw [printScripts_last order.toStored below, index]
  rfl

def Overflows {α : Type} (buffer : TextBuffer) (m : Drive σ α) (w : Process × σ) : Prop :=
  ∃ t, m w = (t, .error (.overflow buffer))

def Halt.isOverflow (buffer : TextBuffer) : Halt → Bool
  | .overflow buffer' => buffer' = buffer
  | _ => false

theorem overflows_iff {α : Type} {buffer : TextBuffer} {m : Drive σ α} {w : Process × σ} :
    Overflows buffer m w ↔ (match (m w).2 with | .error e => e.isOverflow buffer | .ok _ => false) = true := by
  constructor
  · rintro ⟨t, halted⟩
    rw [halted]
    exact decide_eq_true rfl
  · intro halted
    rcases ran : m w with ⟨t, e | r⟩
    · rw [ran] at halted
      cases e with
      | overflow other =>
        obtain rfl := of_decide_eq_true halted
        exact ⟨t, ran⟩
      | terminated => cases halted
      | fault fault => cases halted
    · rw [ran] at halted
      cases halted

section

variable {σ α β : Type} {buffer : TextBuffer} {m : Drive σ α} {f : α → Drive σ β} {w w' : Process × σ}

theorem Overflows.bind (first : Overflows buffer m w) : Overflows buffer (m >>= f) w := by
  obtain ⟨t, halted⟩ := first
  exact ⟨t, bind_of_error halted⟩

theorem Overflows.after {t : List Action} {a : α} (first : m w = (t, .ok (a, w'))) (later : Overflows buffer (f a) w') :
    Overflows buffer (m >>= f) w := by
  obtain ⟨t', halted⟩ := later
  refine ⟨t ++ t', ?_⟩
  rw [bind_of_ok first, halted]

end

theorem myRunScript_fits {outside : Outside σ} {p : Process} (idle : Idle [] p) {s : σ}
    (short : ShortReads (myRunScript config outside (p, s)).1) : ¬Overflows .fuzzResult (myRunScript config outside) (p, s) := by
  rintro ⟨t, halted⟩
  rw [halted] at short
  exact (myRunScript_leads outside config).error idle halted short rfl

/-- A run of a test that records short reads only does not overflow the buffer for results. -/
theorem fuzzResult_fits (stack : Outside σ) (linux : Outside σ') (config : FuzzConfig) (script : List ScriptEvent)
    (fuzzFileString : List UInt8) (s : σ) (s' : σ') :
    (ShortReads (myRunScript config stack (.start script fuzzFileString, s)).1 →
      ¬Overflows .fuzzResult (myRunScript config stack) (.start script fuzzFileString, s)) ∧
      ∀ t p s₁, myRunScript config stack (.start script fuzzFileString, s) = (t, .ok ((), p, s₁)) →
        ShortReads (myRunScript config.forLinux linux (p, s')).1 →
        ¬Overflows .fuzzResult (myRunScript config.forLinux linux) (p, s') := by
  refine ⟨myRunScript_fits Process.start_idle, ?_⟩
  intro t p s₁ first
  have order : InOrder false t p := (myRunScript_leads stack config).ok Process.start_idle first
  exact myRunScript_fits order.idle

def fullRead (count : Nat) : ReadAnswer :=
  if int : Syscall.IsInt count then ⟨some (List.replicate count 0), count, int⟩ else ⟨none, -1, by decide⟩

deriving instance DecidableEq for Recording

def Action.observes (isFuzzStart : Bool) (chunk : Nat) (recordings : List Recording) : Action → Bool
  | .observed isFuzzStart' chunk' recordings' => isFuzzStart' = isFuzzStart && chunk' = chunk && recordings' = recordings
  | _ => false

theorem mem_of_observes {isFuzzStart : Bool} {chunk : Nat} {recordings : List Recording} {t : List Action}
    (found : t.any (Action.observes isFuzzStart chunk recordings) = true) : .observed isFuzzStart chunk recordings ∈ t := by
  obtain ⟨action, member, observed⟩ := List.any_eq_true.mp found
  cases action with
  | observed _ _ _ =>
    simp only [Action.observes, Bool.and_eq_true, decide_eq_true_eq] at observed
    obtain ⟨⟨rfl, rfl⟩, rfl⟩ := observed
    exact member
  | _ => cases observed

def Action.isShort : Action → Bool
  | .observed true _ recordings => recordings.all fun
    | .readResult _ count => decide (count ≤ longestRead)
    | _ => true
  | _ => true

theorem shortReads_of_all {t : List Action} (all : t.all Action.isShort = true) : ShortReads t := by
  intro chunk recordings member buf count recorded
  have short := List.all_eq_true.mp (List.all_eq_true.mp all _ member) _ recorded
  exact of_decide_eq_true short

/-- A `read` of three bytes; the bytes that follow select nothing more. -/
def readThree : List UInt8 := [0, 0, 0, 0, 3] ++ List.replicate 12 99

/-- Three bytes are read in `do_some_fuzz`, and twenty in the reads that check. -/
theorem fuzzResult_fits_readThree :
    .observed true 0 [.readResult (some [0, 0, 0]) 3, .syscallResult "read" 3] ∈
        (myRunScript noFuzzPacket (readingStack fullRead) (.start readAndClose readThree, ())).1 ∧
      ShortReads (myRunScript noFuzzPacket (readingStack fullRead) (.start readAndClose readThree, ())).1 ∧
      ¬Overflows .fuzzResult (myRunScript noFuzzPacket (readingStack fullRead)) (.start readAndClose readThree, ()) := by
  have evaluated : ((myRunScript noFuzzPacket (readingStack fullRead) (.start readAndClose readThree, ())).1.any
      (Action.observes true 0 [.readResult (some [0, 0, 0]) 3, .syscallResult "read" 3]) &&
        (myRunScript noFuzzPacket (readingStack fullRead) (.start readAndClose readThree, ())).1.all Action.isShort) = true := by
    decide +kernel
  obtain ⟨found, all⟩ := Bool.and_eq_true_iff.mp evaluated
  have short := shortReads_of_all all
  exact ⟨mem_of_observes found, short,
    (fuzzResult_fits (readingStack fullRead) (readingStack fullRead) noFuzzPacket readAndClose readThree () ()).1 short⟩

def ReadsWithin (outside : Outside σ) : Prop :=
  ∀ s syscall reply s', outside.systemCall s syscall = some (reply, s') →
    ∀ buf (count : Int), .readResult buf count ∈ reply.recordings → count ≤ requested syscall

theorem fullRead_overflows :
    ReadsWithin (readingStack fullRead) ∧
      Overflows .fuzzResult (myRunScript noFuzzPacket (readingStack fullRead)) (.start readAndClose [0, 0, 0, 0x75, 0x2f], ()) := by
  constructor
  · intro s syscall reply s' answered
    apply readingStack_recordings (fun n => n) _ answered
    intro n
    unfold fullRead
    split
    · exact Int.le_refl _
    · show (-1 : Int) ≤ n
      omega
  · rw [overflows_iff]
    decide +kernel

end TcpFuzz
