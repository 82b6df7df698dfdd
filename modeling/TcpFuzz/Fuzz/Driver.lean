import TcpFuzz.Fuzz.Inject
import TcpFuzz.Fuzz.Result
import TcpFuzz.Lib.Traced
import TcpFuzz.Live.Inbound
import TcpFuzz.Script.PacketToString
import TcpFuzz.Syscall.Invoke

/-! `my_run_script` of `fuzz_test.c`. `main` calls it for the stack under test and then for Linux, with the script
and the globals that the first call leaves. -/

namespace TcpFuzz
open Bytes Mem Traced
open Syscall (Recording SyscallSpec)

inductive EventBody where
  | packet (packet : Packet)
  | syscall (syscall : SyscallSpec)
  /-- A command or code. -/
  | bogus

structure ScriptEvent where
  lineNumber : Nat
  body : EventBody

/-- The system calls of the table `predefined_syscall_events`, in its order. -/
inductive FuzzSyscall where
  | read | write | ioctlSiocinq | fcntlGetfl | fcntlSetflNonblock | fcntlSetflBlock
  | setsockopt1 | setsockopt2 | setsockopt3 | setsockopt4 | setsockopt5
deriving DecidableEq, Repr

def predefinedSyscallEvents : List (Nat × FuzzSyscall) :=
  [(30, .read), (31, .write), (34, .ioctlSiocinq), (36, .fcntlGetfl), (37, .fcntlSetflNonblock), (38, .fcntlSetflBlock),
    (40, .setsockopt1), (41, .setsockopt2), (42, .setsockopt3), (43, .setsockopt4), (44, .setsockopt5)]

def outboundEventLineNumber : Nat := 20

def syscallCloseEventNumber : Nat := 32

structure FuzzOptions where
  isFuzzOnce : Bool
  isNoFuzzPacket : Bool
  isNoFuzzSyscall : Bool
  isFuzzWithoutDependency : Bool

/-- The option that `main` changes between the two runs stands apart. -/
structure FuzzConfig extends FuzzOptions where
  isNoFuzzReceivePacketsInBackground : Bool

/-- The events of the script, which the runs change in place, and the globals of the driver. -/
structure Process where
  script : List ScriptEvent
  fuzzer : Fuzzer
  hasFuzzedOnce : Bool
  /-- The field `e` of the table, as an index into the script. -/
  predefined : FuzzSyscall → Option Nat
  fuzzLoopIndex : Nat
  fuzzScripts : Nat → Option String
  totalWriteNum : Nat
  results : Results

/-- What is done to the stack, what the handlers of system calls record, and which texts are kept. -/
inductive Action where
  | scripted (lineNumber : Nat) (bytes : List UInt8)
  | outbound (lineNumber : Nat)
  | generated (bytes : List UInt8)
  /-- A system call with the data that `write` is given. -/
  | syscall (selected : Bool) (name : String) (arguments : List Expression) (data : List UInt8)
  /-- With the number of the chunk of the script that is being written. -/
  | observed (isFuzzStart : Bool) (fuzzLoopIndex : Nat) (recordings : List Recording)
  | printed (packet : Packet)
  | updated (fuzzLoopIndex : Nat)

/-- What a system call records, and how many bytes a `write` took. -/
structure Reply (name : String) where
  recordings : List Recording
  recorded : Syscall.Recorded name recordings
  written : Nat

inductive TextBuffer where
  | fuzzResult
  | fuzzScript
deriving DecidableEq, Repr

inductive Halt where
  | terminated
  | fault (fault : Fault)
  | overflow (buffer : TextBuffer)

/-- The stack under test with everything else that the driver does not decide. It may end the
process whenever it is asked. -/
structure Outside (σ : Type) where
  /-- What `malloc` finds in the memory that it returns. -/
  heap : σ → Mem
  encapHeaderToString : Packet → Nat → Run (List Char)
  /-- The times of the script in `get_next_event`. -/
  nextEvent : σ → Nat → Option σ
  packetEvent : σ → Packet → Option σ
  systemCall : σ → (syscall : SyscallSpec) → Option (Reply syscall.name × σ)
  /-- The thread that validates outbound packets, or the validation after the last event. -/
  validateOutbound : σ → Packet → Option σ

abbrev Drive (σ : Type) := Traced Action Halt (Process × σ)

section

variable {σ : Type}

def fuzzScriptBytes : Nat := 3000

/-- Go on with the fuzzer, unless its script has outgrown the buffer. -/
def withFuzzer {α : Type} (w : Process × σ) (a : α) (fuzzer : Fuzzer) : Except Halt (α × Process × σ) :=
  if fuzzScriptBytes < fuzzer.fuzzScript.length then .error (.overflow .fuzzScript)
  else .ok (a, { w.1 with fuzzer }, w.2)

def input {α : Type} (m : StateM Fuzzer α) : Drive σ α :=
  silent fun w => withFuzzer w (m w.1.fuzzer).1 (m w.1.fuzzer).2

def ask {α : Type} (question : σ → Option (α × σ)) : Drive σ α :=
  silent fun w =>
    match question w.2 with
    | some (a, s) => .ok (a, w.1, s)
    | none => .error .terminated

def tell (question : σ → Option σ) : Drive σ Unit := ask fun s => (question s).map ((), ·)

def ofRun {α : Type} (run : Run α) : Drive σ α :=
  silent fun w =>
    match run with
    | .ok a => .ok (a, w)
    | .error fault => .error (.fault fault)

def onFuzzer {α : Type} (step : Fuzzer → Run (α × Fuzzer)) : Drive σ α :=
  silent fun w =>
    match step w.1.fuzzer with
    | .ok (a, fuzzer) => withFuzzer w a fuzzer
    | .error fault => .error (.fault fault)

def onResults (step : Results → Record Results) : Drive σ Unit :=
  silent fun w =>
    match step w.1.results with
    | .ok results => .ok ((), { w.1 with results }, w.2)
    | .error .overflow => .error (.overflow .fuzzResult)
    | .error .invalidAccess => .error (.fault .invalidAccess)

def setIsFuzzStart (value : Bool) : Drive σ Unit :=
  change fun w => ({ w.1 with results := { w.1.results with isFuzzStart := value } }, w.2)

def fuzzScriptsCount : Nat := 1000

def closeChunk (p : Process) : Process :=
  { p with
    fuzzScripts := fun i => if i = p.fuzzLoopIndex then some p.fuzzer.fuzzScript else p.fuzzScripts i
    fuzzer := { p.fuzzer with fuzzScript := "" }
    fuzzLoopIndex := p.fuzzLoopIndex + 1 }

def updateFuzzScripts : Drive σ Unit :=
  silent fun w =>
    if w.1.fuzzer.fuzzScript.isEmpty then .ok ((), w)
    else if fuzzScriptBytes ≤ w.1.fuzzer.fuzzScript.length then .error (.overflow .fuzzScript)
    else if fuzzScriptsCount ≤ w.1.fuzzLoopIndex then .error (.fault .invalidAccess)
    else .ok ((), closeChunk w.1, w.2)

def storeFuzzResults : Drive σ Unit := do
  let fuzzLoopIndex ← read fun w => w.1.fuzzLoopIndex
  emit (.updated fuzzLoopIndex)
  onResults (updateFuzzResults fuzzLoopIndex)

variable (config : FuzzOptions) (outside : Outside σ)

def shouldFuzz : Drive σ Bool := do
  if config.isFuzzOnce then
    if ← read fun w => w.1.hasFuzzedOnce then return false
    if (← input readByte) % 0xff < 0x7f then
      change fun w => ({ w.1 with hasFuzzedOnce := true }, w.2)
      return true
    return false
  else return true

def newFuzzPacket (isFuzzOptions isFuzzData : Bool) : Drive σ Packet := do
  let heap ← read fun w => outside.heap w.2
  onFuzzer (fuzzToPacket heap config.isFuzzWithoutDependency isFuzzOptions isFuzzData)

def injectError (p : Packet) : Drive σ Packet := onFuzzer (injectErrorToPacket p)

def addPacketToFuzzScript (p : Packet) : Drive σ Unit := do
  emit (.printed p)
  let printed ← ofRun (packetToString outside.encapHeaderToString p)
  match printed.error with
  | some error => input (addContentToFuzzScript ("// " ++ error ++ "\n"))
  | none => pure ()
  input (addContentToFuzzScript ("+0 < " ++ String.ofList printed.text ++ "\n"))

def runFuzzPacket (p : Packet) : Drive σ Packet := do
  emit (.generated (p.buffer.bytes 0 p.bufferBytes))
  let p ← ofRun (fillPayload p)
  tell fun s => outside.packetEvent s p
  return p

def injectFuzzNormalPacket : Drive σ Unit := do
  if ← shouldFuzz config then
    let p ← newFuzzPacket config outside true true
    let p ← if (← input readByte) < 50 then injectError p else pure p
    let p ← runFuzzPacket outside p
    addPacketToFuzzScript outside p

def injectFuzzErrorPacket : Drive σ Unit := do
  if ← shouldFuzz config then
    let p ← newFuzzPacket config outside true true
    let p ← injectError p
    addPacketToFuzzScript outside p
    let _ ← runFuzzPacket outside p

/-- The data of `write`: digits that go on where the last one stopped. -/
def writeData (syscall : SyscallSpec) (totalWriteNum : Nat) : List UInt8 :=
  match syscall.arguments with
  | _ :: _ :: .integer count :: _ => if syscall.name = "write" then Syscall.digits totalWriteNum count else []
  | _ => []

def runSystemCallEvent (selected : Bool) (syscall : SyscallSpec) : Drive σ Unit := do
  let totalWriteNum ← read fun w => w.1.totalWriteNum
  emit (.syscall selected syscall.name syscall.arguments (writeData syscall totalWriteNum))
  let reply ← ask fun s => outside.systemCall s syscall
  change fun w => ({ w.1 with totalWriteNum := (w.1.totalWriteNum + reply.written) % 2 ^ 64 }, w.2)
  let (isFuzzStart, fuzzLoopIndex) ← read fun w => (w.1.results.isFuzzStart, w.1.fuzzLoopIndex)
  emit (.observed isFuzzStart fuzzLoopIndex reply.recordings)
  onResults (addAllToFuzzResult reply.recordings)

/-- Store into `value.num`, which an ellipsis does not use and others use for a pointer. -/
def Expression.setNum (n : Nat) : Expression → Run Expression
  | .integer _ => .ok (.integer n)
  | .ellipsis => .ok .ellipsis
  | _ => .error .invalidAccess

def setCount (n : Nat) (syscall : SyscallSpec) : Run SyscallSpec :=
  match syscall.arguments with
  | first :: second :: third :: rest => do
    let third ← third.setNum n
    let result ← syscall.result.setNum n
    return { syscall with arguments := first :: second :: third :: rest, result }
  | _ => .error .invalidAccess

def syscallOf (i : Nat) : Drive σ SyscallSpec := do
  match ← read fun w => w.1.script[i]? with
  | some ⟨_, .syscall syscall⟩ => return syscall
  | _ => halt (.fault .invalidAccess)

def setBody (i : Nat) (body : EventBody) : Drive σ Unit :=
  change fun w => ({ w.1 with script := w.1.script.modify i fun e => { e with body } }, w.2)

def runCountedEvent (selected : Bool) (i n : Nat) : Drive σ Unit := do
  let syscall ← ofRun (setCount n (← syscallOf i))
  setBody i (.syscall syscall)
  runSystemCallEvent outside selected syscall

def countText (name : String) (n : Nat) : String := s!"+0.1 {name}(4, ..., {n}) =  {n}\n"

def runPlainEvent (i : Nat) (text : String) : Drive σ Unit := do
  runSystemCallEvent outside true (← syscallOf i)
  input (addContentToFuzzScript text)

def maxWriteReadNum : Nat := 3000

def runFuzzSyscallReadEvent (i : Nat) : Drive σ Unit := do
  let readNum := (← input readInt).toNat % 30000
  runCountedEvent outside true i readNum
  input (addContentToFuzzScript (countText "read" readNum))

def runFuzzSyscallWriteEvent (i : Nat) : Drive σ Unit := do
  let writeNum := (← input readInt).toNat % maxWriteReadNum
  runCountedEvent outside true i writeNum
  input (addContentToFuzzScript (countText "write" writeNum))

/-- The functions of the table. The one that would make the socket blocking does nothing. -/
def runFuzzSyscall (i : Nat) : FuzzSyscall → Drive σ Unit
  | .read => runFuzzSyscallReadEvent outside i
  | .write => runFuzzSyscallWriteEvent outside i
  | .ioctlSiocinq => runPlainEvent outside i "+0.1 ioctl(4, SIOCINQ, [0]) = 0\n"
  | .fcntlGetfl => runPlainEvent outside i "+0 fcntl(4, F_GETFL) = 2050\n"
  | .fcntlSetflNonblock => runPlainEvent outside i "+0 fcntl(4, F_SETFL, O_RDWR|O_NONBLOCK) = 0\n"
  | .fcntlSetflBlock => pure ()
  | .setsockopt1 => runPlainEvent outside i "+0 setsockopt(4, SOL_SOCKET, SO_REUSEADDR, [1], 4) = 0\n"
  | .setsockopt2 => runPlainEvent outside i "+0 setsockopt(4, SOL_SOCKET, SO_KEEPALIVE, [1], 4) = 0\n"
  | .setsockopt3 => runPlainEvent outside i "+0 setsockopt(4, IPPROTO_TCP, TCP_KEEPIDLE, [5], 4) = 0\n"
  | .setsockopt4 => runPlainEvent outside i "+0 setsockopt(4, IPPROTO_TCP, TCP_KEEPINTVL, [2], 4) = 0\n"
  | .setsockopt5 => runPlainEvent outside i "+0 setsockopt(4, IPPROTO_TCP, TCP_KEEPCNT, [2], 4) = 0\n"

def fuzzSyscallEntry (kind : FuzzSyscall) : Drive σ Unit := do
  match ← read fun w => w.1.predefined kind with
  | none => pure ()
  | some i =>
    if (← input readByte) % 100 < 50 then
      runFuzzSyscall outside i kind
      updateFuzzScripts
      storeFuzzResults

def fuzzSyscalls : List FuzzSyscall → Drive σ Unit
  | [] => pure ()
  | kind :: rest => do
    if ← shouldFuzz config then
      fuzzSyscallEntry outside kind
      fuzzSyscalls rest

def fuzzPackets : Drive σ Unit := do
  injectFuzzNormalPacket config outside
  change fun w => ({ w.1 with fuzzer :=
    { w.1.fuzzer with packetSeq := w.1.fuzzer.packetSeq + w.1.fuzzer.lastPacketDataLength } }, w.2)
  updateFuzzScripts
  let tmp ← input readByte
  if tmp < 50 then pure ()
  else if tmp < 150 then
    input (addContentToFuzzScript "// inject fuzz error packet\n")
    injectFuzzErrorPacket config outside
  else
    input (addContentToFuzzScript "// inject fuzz dup packets\n")
    times (injectFuzzNormalPacket config outside) 4
  updateFuzzScripts

def fuzzRound : Drive σ Unit := do
  if !config.isNoFuzzPacket then fuzzPackets config outside
  if !config.isNoFuzzSyscall then fuzzSyscalls config outside (predefinedSyscallEvents.map Prod.snd)

def doSomeFuzz (fuzzLoop : Nat) : Drive σ Unit := do
  setIsFuzzStart true
  times (fuzzRound config outside) fuzzLoop
  setIsFuzzStart false

def handshakeFlags (flags : Nat) : Nat := flags / 2 % 2 * 2 + flags / 16 % 2 * 16

def withHandshakeFlags (flags other : Nat) : Nat := other - handshakeFlags other + handshakeFlags flags

/-- The two errors of TLDK that the code built for it does not want to see again: an echo that is not
zero, and two fields that are. -/
def Packet.showsTldkError (p : Packet) : Bool :=
  match p.tcpTsVal, p.tcpTsEcr with
  | some val, some ecr => p.buffer.be32 ecr != 0 || p.buffer.be32 val == 0
  | _, _ => false

def exitOnTldkError (p : Packet) : Drive σ Packet := do
  -- the status is not looked at; `error`, which is not initialised, is taken for `NULL`
  let found ← ofRun (findTcpTimestamp p)
  if (found.toOption.getD p).showsTldkError then halt .terminated else return found.toOption.getD p

/-- A generated packet that only keeps two flags of the one in the script. -/
def fuzzThreeWayHandshakePackets (p : Packet) : Drive σ Packet := do
  let isFuzzData := decide (50 ≤ (← input readByte) % 100)
  let q ← newFuzzPacket config outside true isFuzzData
  let tcp ← ofRun (deref p.tcp)
  let tcp' ← ofRun (deref q.tcp)
  exitOnTldkError { q with
    buffer := q.buffer.put8 (tcp' + 13) (withHandshakeFlags (p.buffer.get8 (tcp + 13)) (q.buffer.get8 (tcp' + 13))) }

def FuzzOptions.fuzzesHandshake (config : FuzzOptions) : Bool :=
  !config.isNoFuzzPacket && !config.isFuzzOnce && !config.isFuzzWithoutDependency

def runPacketEvent (i lineNumber : Nat) (p : Packet) : Drive σ Unit :=
  match p.direction with
  | .inbound => do
    let p ← if config.fuzzesHandshake then
        let p ← fuzzThreeWayHandshakePackets config outside p
        runFuzzPacket outside p
      else
        let p ← ofRun (fillPayload p)
        emit (.scripted lineNumber (p.buffer.bytes 0 p.bufferBytes))
        tell fun s => outside.packetEvent s p
        pure p
    setBody i (.packet p)
    addPacketToFuzzScript outside p
  | _ => do
    emit (.outbound lineNumber)
    tell fun s => outside.packetEvent s p

structure SetAside where
  outbound : Option Packet
  close : Option Nat

def setOutboundAside (noBackground : Bool) (body : EventBody) (aside : SetAside) : Drive σ SetAside :=
  match body with
  | .packet p => do
    if !noBackground then tell fun s => outside.validateOutbound s p
    return { aside with outbound := some p }
  | _ => halt (.fault .invalidAccess)

def setSyscallAside (kind : FuzzSyscall) (i : Nat) : Drive σ Unit :=
  change fun w => ({ w.1 with predefined := fun k => if k = kind then some i else w.1.predefined k }, w.2)

def runEvent (noBackground : Bool) (i : Nat) (e : ScriptEvent) (aside : SetAside) : Drive σ SetAside := do
  if e.lineNumber = outboundEventLineNumber then setOutboundAside outside noBackground e.body aside
  else if e.lineNumber = syscallCloseEventNumber then return { aside with close := some i }
  else
    match predefinedSyscallEvents.find? (·.1 = e.lineNumber) with
    | some (_, kind) =>
      setSyscallAside kind i
      return aside
    | none =>
      match e.body with
      | .packet p => runPacketEvent config outside i e.lineNumber p
      | .syscall syscall => runSystemCallEvent outside false syscall
      | .bogus => halt (.fault .assertion)
      return aside

def runEvents (noBackground : Bool) : List Nat → SetAside → Drive σ SetAside
  | [], aside => pure aside
  | i :: rest, aside => do
    tell fun s => outside.nextEvent s i
    match ← read fun w => w.1.script[i]? with
    | some e => runEvents noBackground rest (← runEvent config outside noBackground i e aside)
    | none => halt (.fault .invalidAccess)

def checkingPacket : Drive σ Unit := do
  if ← shouldFuzz config then
    let p ← newFuzzPacket config outside false true
    let p ← runFuzzPacket outside p
    addPacketToFuzzScript outside p
    updateFuzzScripts

def checkingReadNum : Nat := 20

def checkingRead : Drive σ Unit := do
  if ← shouldFuzz config then
    match ← read fun w => w.1.predefined .read with
    | some i =>
      runCountedEvent outside true i checkingReadNum
      input (addContentToFuzzScript (countText "read" checkingReadNum))
      updateFuzzScripts
    | none => halt (.fault .invalidAccess)

def checkingRound : Drive σ Unit := do
  if !config.isNoFuzzPacket then checkingPacket config outside
  if !config.isNoFuzzSyscall then checkingRead config outside

def runCloseEvent (close : Option Nat) : Drive σ Unit :=
  match close with
  | none => halt (.fault .invalidAccess)
  | some i => do
    runSystemCallEvent outside false (← syscallOf i)
    input (addContentToFuzzScript "+0 close(4) = 0\n")
    updateFuzzScripts
    storeFuzzResults

def finishOutbound (noBackground : Bool) (outbound : Option Packet) : Drive σ Unit :=
  match noBackground, outbound with
  | false, some _ => pure ()
  | true, some p => tell fun s => outside.validateOutbound s p
  -- no thread to cancel: `tid` is still 0; or no event to run
  | _, none => halt (.fault .invalidAccess)

/-- The three `reinit` functions. The length of the last payload and the flag of `should_fuzz` stay. -/
def reinit (p : Process) : Process :=
  { p with
    fuzzer := { p.fuzzer with fuzzFileIndex := 0, packetSeq := 1, fuzzScript := "" }
    fuzzLoopIndex := 0
    fuzzScripts := fun _ => none
    totalWriteNum := 0
    results := p.results.reinitFuzzingResults }

/-- The part of `my_run_script` behind the loop over the events. -/
def fuzzAndClose (config : FuzzConfig) (outside : Outside σ) (aside : SetAside) : Drive σ Unit := do
  doSomeFuzz config.toFuzzOptions outside 10
  times (checkingRound config.toFuzzOptions outside) 3
  runCloseEvent outside aside.close
  doSomeFuzz config.toFuzzOptions outside 3
  finishOutbound outside config.isNoFuzzReceivePacketsInBackground aside.outbound

def myRunScript (config : FuzzConfig) (outside : Outside σ) : Drive σ Unit := do
  change fun w => (reinit w.1, w.2)
  let count ← read fun w => w.1.script.length
  -- an empty script has no first event
  if count = 0 then halt (.fault .invalidAccess)
  let aside ← runEvents config.toFuzzOptions outside config.isNoFuzzReceivePacketsInBackground (List.range count) ⟨none, none⟩
  fuzzAndClose config outside aside

end

/-- The globals when `main` runs the script for the first time: it has read the byte that selects it. -/
def Process.start (script : List ScriptEvent) (fuzzFileString : List UInt8) : Process where
  script
  fuzzer := (readByte ⟨fuzzFileString, 0, "", 1, 0⟩).2
  hasFuzzedOnce := false
  predefined _ := none
  fuzzLoopIndex := 0
  fuzzScripts _ := none
  totalWriteNum := 0
  results := ⟨false, false, false, none, fun _ => none⟩

/-- For Linux `main` always receives in the background. -/
def FuzzConfig.forLinux (config : FuzzConfig) : FuzzConfig := { config with isNoFuzzReceivePacketsInBackground := false }

/-- A test in which both runs are completed, with what each of them leaves. -/
structure Completed {σ σ' : Type} (config : FuzzConfig) (script : List ScriptEvent) (fuzzFileString : List UInt8)
    (stack : Outside σ) (linux : Outside σ') (t t' : List Action) (p p' : Process) : Prop where
  first : ∃ s s₁, myRunScript config stack (.start script fuzzFileString, s) = (t, .ok ((), p, s₁))
  second : ∃ s s₁, myRunScript config.forLinux linux (p, s) = (t', .ok ((), p', s₁))

def printScripts (maxIndex : Nat) (p : Process) : List (Nat × String) :=
  (List.range (min maxIndex p.fuzzLoopIndex + 1)).filterMap fun i => (p.fuzzScripts i).map (i, ·)

end TcpFuzz
