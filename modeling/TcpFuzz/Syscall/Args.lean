import TcpFuzz.Script.Expression
import TcpFuzz.Syscall.Fds

/-! The checks of `run_system_call.c` that turn the arguments of a scripted call into what the live call takes. -/

namespace TcpFuzz.Syscall
open Bytes

inductive Stop where
  | fault (fault : Fault)
  | died (message : String)
  /-- The thread waits for a lock that it holds itself. -/
  | deadlock

inductive Recording where
  | syscallResult (name : String) (actual : Int)
  | readResult (buf : Option (List UInt8)) (count : Int)

/-- What the handlers read and change besides `struct syscalls`. -/
structure Session where
  fds : Fds
  totalWriteNum : Nat
  recorded : List Recording

/-- What may stop the process but reports no error. -/
abbrev Effect := StateT Session (Except Stop)

/-- A part of a handler: it stops, reports an error or goes on. -/
abbrev Routine := ExceptT String Effect

def stop {α : Type} (reason : Stop) : Routine α := ExceptT.mk fun _ => .error reason

def die {α : Type} (message : String) : Routine α := stop (.died message)

def ofRun {α : Type} : Run α → Routine α
  | .ok a => pure a
  | .error fault => stop (.fault fault)

instance : MonadLift Run Routine := ⟨ofRun⟩

def s32 (n : Int) : Int := n.bmod (2 ^ 32)

def s16 (n : Int) : Int := n.bmod (2 ^ 16)

def sizeT (n : Int) : Nat := (n % 2 ^ 64).toNat

section

variable (args : List Expression)

def getArgCount : Nat := args.length

def checkArgCount (expected : Nat) : Routine Unit :=
  if getArgCount args ≠ expected then throw s!"Expected {expected} args but got {getArgCount args}" else pure ()

def getArg (index : Nat) : Routine Expression :=
  match args[index]? with
  | some e => pure e
  | none => throw "Argument list too short"

def checkType (e : Expression) (expected : ExpressionType) : Routine Unit :=
  if e.type = expected then pure ()
  else throw ("Bad type; actual: " ++ expressionTypeToString e.type ++ " expected: " ++ expressionTypeToString expected)

def getNum (e : Expression) : Routine Int := do
  checkType e .integer
  match e with
  | .integer num => return num
  | _ => stop (.fault .invalidAccess)

/-- `get_s32` takes signed and unsigned numbers of 32 bits. -/
def getS32 (e : Expression) : Routine Int := do
  let num ← getNum e
  if num > 2 ^ 32 - 1 ∨ num < -2 ^ 31 then throw s!"Value out of range for 32-bit integer: {num}"
  return s32 num

def getS64 (e : Expression) : Routine Int := getNum e

def s32Arg (index : Nat) : Routine Int := do getS32 (← getArg args index)

def s64Arg (index : Nat) : Routine Int := do getS64 (← getArg args index)

def getList (e : Expression) : Routine (List Expression) := do
  checkType e .list
  match e with
  | .list list => return list
  | _ => stop (.fault .invalidAccess)

def bracketedArg (index : Nat) : Routine Expression := do
  match ← getList (← getArg args index) with
  | [element] => return element
  | _ => throw "Expected [<element>] but got multiple elements"

def s32BracketedArg (index : Nat) : Routine Int := do getS32 (← bracketedArg args index)

def s64BracketedArg (index : Nat) : Routine Int := do getS64 (← bracketedArg args index)

def ellipsisArg (index : Nat) : Routine Unit := do checkType (← getArg args index) .ellipsis

def familyArg (index : Nat) : Routine Int :=
  tryCatch (do ellipsisArg args index; return -1) fun _ => s32Arg args index

def bufferArg (index : Nat) : Routine Bool :=
  match args[index]? with
  | some .ellipsis => pure false
  | some (.integer 0) => pure true
  | _ => throw "Expected ... or NULL for buffer"

end

def iovecNew (e : Expression) : Routine (List Nat) := do
  (← getList e).mapM fun element => do
    checkType element .iovec
    match element with
    | .iovec iovBase (.integer len) =>
      assertThat (iovBase.type = .ellipsis)
      return sizeT len
    | _ => stop (.fault .assertion)

def tcpNla : List Nat := [4, 8, 8, 8, 8, 8, 8, 8, 4, 4, 4, 1, 1, 4, 1]

/-- The size of one attribute `key = value` in a control message. -/
def nlaExprToNla (element : Expression) : Routine Nat := do
  checkType element .binary
  match element with
  | .binary op key value =>
    -- no error text is set here
    if op ≠ "=" then throw "(null)"
    let keyNum ← getNum key
    if value.type ≠ .integer ∧ value.type ≠ .ellipsis then throw "values must be numeric or ellipsis"
    if keyNum < 0 then stop (.fault .invalidAccess)
    match tcpNla[keyNum.toNat]? with
    | none => stop (.fault .invalidAccess)
    | some numBytes =>
      match value with
      | .integer num =>
        if numBytes = 1 ∧ ¬(0 ≤ num ∧ num < 2 ^ 8) then die "out of bound u8 value specified\n"
        if numBytes = 4 ∧ ¬(0 ≤ num ∧ num < 2 ^ 32) then die "out of bound u32 value specified\n"
      | _ => pure ()
      return (4 + numBytes + 3) / 4 * 4
  | _ => stop (.fault .invalidAccess)

def nlaExprListToNla (list : List Expression) : Routine Nat := return (← list.mapM nlaExprToNla).sum

def newExtendedErr (fields : List Expression) : Routine Unit := fields.forM fun field => discard (getS32 field)

structure Cmsg where
  level : Int
  type : Int
  len : Nat
  data : Expression

def msghdrMaxControllen : Nat := 1000

def cmsghdrBytes : Nat := 16

def cmsgSpace (len : Nat) : Nat := cmsghdrBytes + (len + 7) / 8 * 8

def cmsgDataLen (level : Int) (data : Expression) : Routine Nat :=
  match data with
  | .integer _ => do
    discard (getS32 data)
    return 4
  | .scmTimestamping _ _ => return 48
  | .list stats => nlaExprListToNla stats
  | .sockExtendedErr eeErrno eeOrigin eeType eeCode eeInfo eeData => do
    newExtendedErr [eeErrno, eeOrigin, eeType, eeCode, eeInfo, eeData]
    -- the error is followed by an address, of IPv4 for `SOL_IP`
    return 16 + if level = 0 then 16 else 28
  | _ => throw "Unrecognized type for cmsg_data"

/-- Adds the control messages to those before them, which take `sum` bytes of the buffer. -/
def cmsgsNew (sum : Nat) : List Expression → Routine (List Cmsg)
  | [] => return []
  | e :: rest => do
    checkType e .cmsg
    match e with
    | .cmsg cmsgLevel cmsgType data =>
      let level ← getS32 cmsgLevel
      -- without room for another header `CMSG_NXTHDR` is `NULL`
      if sum + cmsghdrBytes > msghdrMaxControllen then stop (.fault .invalidAccess)
      let type ← getS32 cmsgType
      let len ← cmsgDataLen level data
      if sum + cmsghdrBytes + len > msghdrMaxControllen then stop (.fault .invalidAccess)
      return ⟨level, type, len, data⟩ :: (← cmsgsNew (sum + cmsgSpace len) rest)
    | _ => stop (.fault .invalidAccess)

def cmsgNew (e : Expression) : Routine (List Cmsg) :=
  match e with
  | .list list => cmsgsNew 0 list
  | _ => stop (.fault .assertion)

structure Msghdr where
  iov : List Nat
  control : List Cmsg
  flags : Int

def msghdrNew (e : Expression) : Routine Msghdr := do
  checkType e .msghdr
  match e with
  | .msghdr msgName msgNamelen msgIov msgIovlen msgControl msgFlags =>
    assertThat (msgName.type = .ellipsis)
    assertThat (msgNamelen.type = .ellipsis)
    let iov ← iovecNew msgIov
    let iovlen ← getS32 msgIovlen
    if iovlen ≠ iov.length then throw s!"msg_iovlen {iovlen} does not match {iov.length}-element iovec array"
    let control ← cmsgNew msgControl
    let flags ← getS32 msgFlags
    return ⟨iov, control, flags⟩
  | _ => stop (.fault .invalidAccess)

def getFds : Routine Fds := return (← get).fds

def setFds (fds : Fds) : Routine Unit := modify fun s => { s with fds }

def runFds (handler : Fds → FdHandler) : Routine Unit := do
  match ← (handler (← getFds) : Run (Except String Fds)) with
  | .ok fds => setFds fds
  | .error error => throw error

def toLiveFd (scriptFd : Int) : Routine Int := do
  match ← (findByScriptFd (← getFds) scriptFd : Run (Option FdState)) with
  | some fd => return fd.liveFd
  | none => throw s!"unable to find fd with script fd {scriptFd}"

structure Pollfd where
  fd : Int
  events : Int
  revents : Int

def pollfdsNew (e : Expression) : Routine (List Pollfd) := do
  (← getList e).mapM fun element => do
    checkType element .pollfd
    match element with
    | .pollfd fd events revents =>
      let fd ← getNum fd
      let events ← getNum events
      let revents ← getNum revents
      return ⟨← toLiveFd (s32 fd), s16 events, s16 revents⟩
    | _ => stop (.fault .invalidAccess)

inductive EpollData where
  | ptr (ptr : Nat)
  | fd (fd : Int)
  | u32 (u32 : Nat)
  | u64 (u64 : Nat)

structure EpollEvent where
  events : Nat
  data : EpollData

/-- Without a script fd of its own the event is about the fd that it names. -/
def getEpollEventFromExpr (e : Expression) (scriptFd liveFd : Int) : Routine EpollEvent := do
  checkType e .epollev
  match e with
  | .epollev events kind data =>
    let events := TcpFuzz.u32 (← getNum events)
    let num ← getNum data
    match kind with
    | .ptr => return ⟨events, .ptr (sizeT num)⟩
    | .fd =>
      if scriptFd = -1 then return ⟨events, .fd (← toLiveFd (s32 num))⟩
      if num ≠ scriptFd then throw "wrong fd specified in epoll_event\n"
      return ⟨events, .fd liveFd⟩
    | .u32 => return ⟨events, .u32 (TcpFuzz.u32 num)⟩
    | .u64 => return ⟨events, .u64 (sizeT num)⟩
  | _ => stop (.fault .invalidAccess)

def getPipeExpression (e : Expression) : Routine (Int × Int) := do
  match ← getList e with
  | [first, second] =>
    let first ← getNum first
    let second ← getNum second
    return (s32 first, s32 second)
  | list => throw s!"{list.length} pipe file descriptors instead of 2\n"

end TcpFuzz.Syscall
