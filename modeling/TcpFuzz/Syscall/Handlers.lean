import TcpFuzz.Syscall.Args

/-! The handlers of `run_system_call.c`; `begin_syscall` and `end_syscall` stand around the live call. -/

namespace TcpFuzz.Syscall
open Bytes

structure SockAddr where
  family : Nat
  endpoint : Endpoint

def afUnspec : Nat := 0

/-- The options that the handlers read, and the global `checker`. -/
structure Config where
  scriptPath : String
  socketDomain : Int
  wireProtocol : Nat
  isWireClient : Bool
  liveBind : SockAddr
  liveConnect : SockAddr
  liveRemote : Endpoint
  checker : Bool

inductive LiveCall where
  | socket (domain type protocol : Int)
  | bind (fd : Int) (addr : SockAddr)
  | listen (fd backlog : Int)
  | accept (fd : Int)
  | connect (fd : Int) (addr : SockAddr)
  | read (fd : Int) (isNull : Bool) (count : Int)
  | readv (fd : Int) (iov : List Nat) (count : Int)
  | recv (fd : Int) (isNull : Bool) (count flags : Int)
  | recvfrom (fd : Int) (isNull : Bool) (count flags : Int)
  | recvmsg (fd : Int) (msg : Msghdr) (flags : Int)
  | write (fd : Int) (buf : Option (List UInt8)) (count : Int)
  | writev (fd : Int) (iov : List Nat) (count : Int)
  | send (fd : Int) (buf : Option (List UInt8)) (count flags : Int)
  | sendto (fd : Int) (buf : Option (List UInt8)) (count flags : Int) (addr : SockAddr)
  | sendmsg (fd : Int) (msg : Msghdr) (addr : SockAddr) (flags : Int)
  | fcntl (fd command : Int) (arg : Option Int)
  | ioctl (fd command : Int) (hasOptval : Bool)
  | close (fd : Int)
  | shutdown (fd how : Int)
  | getsockopt (fd level optname optlen : Int)
  | setsockopt (fd level optname : Int) (optval : Expression) (optlen : Int)
  | poll (fds : List Pollfd) (nfds timeout : Int)
  | capSetProc (flag value op : Int)
  | open (name : String) (flags : Int)
  | sendfile (outfd infd offset count : Int)
  | epollCreate (size : Int)
  | epollCtl (epfd op fd : Int) (event : EpollEvent)
  | epollWait (epfd maxevents timeout : Int)
  | pipe
  | splice (fdIn offIn fdOut offOut len flags : Int)

/-- What a live call gives back; a call fills in what it has. -/
structure Answer where
  result : Int
  errno : Int
  /-- The time when the call returns, not before the epoch. -/
  endUsecs : Nat
  /-- What the main thread makes of the descriptors while the call blocks. -/
  meanwhile : Fds → Fds
  peer : Endpoint
  data : List UInt8
  msgFlags : Int
  /-- What `cmsg_expect_eq` says about the control messages. -/
  cmsgs : Except String Unit
  optval : Int
  optBytes : List UInt8
  optlen : Int
  revents : Nat → Int
  events : Nat
  epollData : Nat
  pipe : Int × Int

/-- The fields of `struct socket` that the table of descriptors does not hold. -/
structure SocketInfo where
  addressFamily : Int
  type : Int
  protocol : Int

/-- What the handlers use of the C library and of the kernel. -/
structure Environment where
  platformSymbols : List (String × Int)
  strerror : Int → String
  inetNtop : Vector UInt8 16 → String
  malloc : Nat → Bool
  socketInfo : FdState → SocketInfo
  capGetProc : Bool
  capSetFlag : Int → Int → Int → Int
  capFree : Int
  kernel : LiveCall → Answer

inductive ResultCheck where
  | exact
  | fd
deriving DecidableEq, Repr

/-- The parts of a handler around `begin_syscall` and `end_syscall`. -/
structure Handler (α : Type) where
  checks : List Expression → Routine α
  call : α → Effect Answer
  mode : ResultCheck
  /-- After an `end_syscall` that reports no error; `result` is the expected one. -/
  after : α → Answer → (result : Expression) → Routine Unit

section

variable (config : Config) (env : Environment)

def live (call : LiveCall) : Effect Answer := pure (env.kernel call)

def plainHandler (mode : ResultCheck) (checks : List Expression → Routine LiveCall) : Handler LiveCall where
  checks
  call := live env
  mode
  after _ _ _ := pure ()

def creatingHandler (checks : List Expression → Routine LiveCall) (create : Answer → Fds → Int → Int → FdHandler) :
    Handler LiveCall where
  checks
  call := live env
  mode := .fd
  after _ answer result := do
    if 0 ≤ answer.result then
      let scriptFd ← getS32 result
      runFds fun fds => create answer fds scriptFd answer.result

def allocBuffer (isNull : Bool) (count : Int) : Routine Unit :=
  if isNull then pure () else assertThat (env.malloc (sizeT count) = true)

def zeroBuffer (isNull : Bool) (count : Int) : Option (List UInt8) :=
  if isNull then none else some (List.replicate count.toNat 0)

def findSocket (scriptFd : Int) : Routine (Option (FdState × SocketPhase)) := do
  match ← (findByScriptFd (← getFds) scriptFd : Run (Option FdState)) with
  | some fd =>
    match fd.kind with
    | .socket state _ => return some (fd, state)
    | _ => return none
  | none => return none

def setKind (scriptFd : Int) (change : FdState → FdState) : Routine Unit := do
  setFds ((← getFds).replaceF fun fd => if fd.scriptFd = scriptFd then some (change fd) else none)

def runSyscallListen (scriptFd liveFd : Int) : Routine Unit := do
  match ← findSocket scriptFd with
  | some (fd, _) =>
    assertThat (fd.scriptFd = scriptFd)
    assertThat (fd.liveFd = liveFd)
    setKind scriptFd (FdState.setPhase .passiveListening)
  | none => throw s!"unable to find socket with script fd {scriptFd}"

def runSyscallConnect (scriptFd : Int) (mustBeNewSocket : Bool) (saFamily : Int) : Routine SockAddr := do
  let addr := if saFamily ≠ -1 then ⟨(saFamily % 2 ^ 16).toNat, noEndpoint⟩ else config.liveConnect
  match ← findSocket scriptFd with
  | none => stop (.fault .assertion)
  | some (_, state) =>
    if addr.family = afUnspec then setKind scriptFd (FdState.setPhase .new)
    else if state ≠ .new then
      if mustBeNewSocket then throw "socket is not new"
    else setKind scriptFd fun fd => { fd with kind := .socket .activeConnecting config.liveRemote }
    return addr

def syscallSocket : Handler LiveCall :=
  creatingHandler env
    (fun args => do
      checkArgCount args 3
      ellipsisArg args 0
      let type ← s32Arg args 1
      let protocol ← s32Arg args 2
      return .socket config.socketDomain type protocol)
    (fun _ => runSyscallSocket)

/-- A `bind` that fails ends the process. -/
def syscallBind : Handler LiveCall where
  checks args := do
    checkArgCount args 3
    let scriptFd ← s32Arg args 0
    let liveFd ← toLiveFd scriptFd
    ellipsisArg args 1
    ellipsisArg args 2
    return .bind liveFd config.liveBind
  call c := do
    let answer ← live env c
    if answer.result < 0 then throw (.died ("bind fail: " ++ env.strerror answer.errno))
    return answer
  mode := .exact
  after _ _ _ := pure ()

def syscallListen : Handler (Int × Int × Int) where
  checks args := do
    checkArgCount args 2
    let scriptFd ← s32Arg args 0
    let liveFd ← toLiveFd scriptFd
    let backlog ← s32Arg args 1
    return (scriptFd, liveFd, backlog)
  call := fun (_, liveFd, backlog) => live env (.listen liveFd backlog)
  mode := .exact
  after := fun (scriptFd, liveFd, _) _ _ => runSyscallListen scriptFd liveFd

def syscallAccept : Handler LiveCall :=
  creatingHandler env
    (fun args => do
      checkArgCount args 3
      let scriptFd ← s32Arg args 0
      let liveFd ← toLiveFd scriptFd
      ellipsisArg args 1
      ellipsisArg args 2
      return .accept liveFd)
    (fun answer fds scriptFd liveFd => runSyscallAccept config.isWireClient fds scriptFd liveFd answer.peer)

def syscallConnect : Handler LiveCall :=
  plainHandler env .exact fun args => do
    checkArgCount args 3
    let scriptFd ← s32Arg args 0
    let liveFd ← toLiveFd scriptFd
    let saFamily ← familyArg args 1
    ellipsisArg args 2
    let addr ← runSyscallConnect config scriptFd false saFamily
    return .connect liveFd addr

def record (recording : Recording) : Effect Unit := modify fun s => { s with recorded := s.recorded ++ [recording] }

def syscallRead : Handler (Int × Bool × Int) where
  checks args := do
    checkArgCount args 3
    let scriptFd ← s32Arg args 0
    let liveFd ← toLiveFd scriptFd
    let isNull ← bufferArg args 1
    let count ← s32Arg args 2
    allocBuffer env isNull count
    return (liveFd, isNull, count)
  call := fun (liveFd, isNull, count) => do
    let answer ← live env (.read liveFd isNull count)
    record (.readResult (if isNull then none else some answer.data) answer.result)
    return answer
  mode := .exact
  after _ _ _ := pure ()

def vectorHandler (call : Int → List Nat → Int → LiveCall) : Handler LiveCall :=
  plainHandler env .exact fun args => do
    checkArgCount args 3
    let scriptFd ← s32Arg args 0
    let liveFd ← toLiveFd scriptFd
    let iov ← iovecNew (← getArg args 1)
    let iovCount ← s32Arg args 2
    if iovCount ≠ iov.length then throw s!"iov_count {iovCount} does not match {iov.length}-element iovec array"
    return call liveFd iov iovCount

def syscallReadv : Handler LiveCall := vectorHandler env .readv

def syscallRecv : Handler LiveCall :=
  plainHandler env .exact fun args => do
    checkArgCount args 4
    let scriptFd ← s32Arg args 0
    let liveFd ← toLiveFd scriptFd
    let isNull ← bufferArg args 1
    let count ← s32Arg args 2
    let flags ← s32Arg args 3
    allocBuffer env isNull count
    return .recv liveFd isNull count flags

def syscallRecvfrom : Handler LiveCall :=
  plainHandler env .exact fun args => do
    checkArgCount args 6
    let scriptFd ← s32Arg args 0
    let liveFd ← toLiveFd scriptFd
    let isNull ← bufferArg args 1
    let count ← s32Arg args 2
    let flags ← s32Arg args 3
    ellipsisArg args 4
    ellipsisArg args 5
    allocBuffer env isNull count
    return .recvfrom liveFd isNull count flags

def hexFlags (flags : Int) : String := "0x" ++ (hexPadded 8 (u32 flags)).toUpper

def syscallRecvmsg : Handler (Int × Msghdr × Msghdr × Int) where
  checks args := do
    checkArgCount args 3
    let scriptFd ← s32Arg args 0
    let liveFd ← toLiveFd scriptFd
    let msgExpression ← getArg args 1
    let msg ← msghdrNew msgExpression
    let expectedMsg ← msghdrNew msgExpression
    let flags ← s32Arg args 2
    return (liveFd, msg, expectedMsg, flags)
  call := fun (liveFd, msg, _, flags) => live env (.recvmsg liveFd msg flags)
  mode := .exact
  after := fun (_, _, expectedMsg, _) answer _ => do
    if answer.msgFlags ≠ expectedMsg.flags then
      throw ("Expected msg_flags " ++ hexFlags expectedMsg.flags ++ " but got " ++ hexFlags answer.msgFlags)
    liftExcept answer.cmsgs

def digits (totalWriteNum : Nat) (count : Int) : List UInt8 :=
  (List.range count.toNat).map fun i => UInt8.ofNat ((i + totalWriteNum) % 2 ^ 64 % 10)

def syscallWrite : Handler (Int × Option (List UInt8) × Int) where
  checks args := do
    checkArgCount args 3
    let scriptFd ← s32Arg args 0
    let liveFd ← toLiveFd scriptFd
    let isNull ← bufferArg args 1
    let count ← s32Arg args 2
    allocBuffer env isNull count
    -- the digits are stored in a buffer that may be `NULL`
    if isNull ∧ 0 < count then stop (.fault .invalidAccess)
    let totalWriteNum := (← get).totalWriteNum
    return (liveFd, if isNull then none else some (digits totalWriteNum count), count)
  call := fun (liveFd, buf, count) => do
    let answer ← live env (.write liveFd buf count)
    if 0 < answer.result then
      modify fun s => { s with totalWriteNum := (s.totalWriteNum + answer.result.toNat) % 2 ^ 64 }
    return answer
  mode := .exact
  after _ _ _ := pure ()

def syscallWritev : Handler LiveCall := vectorHandler env .writev

def syscallSend : Handler LiveCall :=
  plainHandler env .exact fun args => do
    checkArgCount args 4
    let scriptFd ← s32Arg args 0
    let liveFd ← toLiveFd scriptFd
    let isNull ← bufferArg args 1
    let count ← s32Arg args 2
    let flags ← s32Arg args 3
    allocBuffer env isNull count
    return .send liveFd (zeroBuffer isNull count) count flags

def icmpEcho : UInt8 := 8

def icmpv6EchoRequest : UInt8 := 128

def icmpBytes : Nat := 8

/-- The type of an echo request, where the message has room for a header. -/
def icmpBuffer (buf : Option (List UInt8)) (count : Int) : Routine (Option (List UInt8)) :=
  let withType (type : UInt8) : Routine (Option (List UInt8)) :=
    match buf with
    | none => stop (.fault .invalidAccess)
    | some bytes => pure (some (bytes.set 0 type))
  if config.wireProtocol = 2 ∧ icmpBytes ≤ sizeT count then withType icmpEcho
  else if config.wireProtocol = 10 ∧ icmpBytes ≤ sizeT count then withType icmpv6EchoRequest
  else pure buf

def syscallIcmpSendto : Handler LiveCall :=
  plainHandler env .exact fun args => do
    checkArgCount args 6
    let scriptFd ← s32Arg args 0
    let liveFd ← toLiveFd scriptFd
    let isNull ← bufferArg args 1
    let count ← s32Arg args 2
    let flags ← s32Arg args 3
    ellipsisArg args 4
    ellipsisArg args 5
    let addr ← runSyscallConnect config scriptFd false (-1)
    allocBuffer env isNull count
    let buf ← icmpBuffer config (zeroBuffer isNull count) count
    return .sendto liveFd buf count flags addr

def SocketInfo.isIcmp (socket : SocketInfo) : Bool :=
  socket.type == 2 &&
    (socket.addressFamily == 2 && socket.protocol == 1 || socket.addressFamily == 10 && socket.protocol == 58)

/-- A socket for ICMP is handed on to `syscall_icmp_sendto`, which ends in the same way. -/
def syscallSendto : Handler LiveCall :=
  plainHandler env .exact fun args => do
    checkArgCount args 6
    let scriptFd ← s32Arg args 0
    let liveFd ← toLiveFd scriptFd
    let isNull ← bufferArg args 1
    let count ← s32Arg args 2
    let flags ← s32Arg args 3
    let saFamily ← familyArg args 4
    ellipsisArg args 5
    let socket ← findSocket scriptFd
    if socket.any fun (fd, _) => (env.socketInfo fd).isIcmp then (syscallIcmpSendto config env).checks args
    else
      let addr ← runSyscallConnect config scriptFd false saFamily
      allocBuffer env isNull count
      return .sendto liveFd (zeroBuffer isNull count) count flags addr

def syscallSendmsg : Handler LiveCall :=
  plainHandler env .exact fun args => do
    checkArgCount args 3
    let scriptFd ← s32Arg args 0
    let liveFd ← toLiveFd scriptFd
    let msg ← msghdrNew (← getArg args 1)
    let flags ← s32Arg args 2
    let addr ← runSyscallConnect config scriptFd false (-1)
    if msg.flags ≠ 0 then throw "sendmsg ignores msg_flags field in msghdr"
    return .sendmsg liveFd msg addr flags

def syscallFcntl : Handler LiveCall :=
  plainHandler env .exact fun args => do
    let actualArgCount := getArgCount args
    if actualArgCount ≠ 2 ∧ actualArgCount ≠ 3 then throw s!"fcntl expected 2-3 args but got {actualArgCount}"
    let scriptFd ← s32Arg args 0
    let liveFd ← toLiveFd scriptFd
    let command ← s32Arg args 1
    if actualArgCount = 2 then return .fcntl liveFd command none
    else return .fcntl liveFd command (some (← s32Arg args 2))

def syscallIoctl : Handler (Int × Int × Option Int) where
  checks args := do
    let actualArgCount := getArgCount args
    if actualArgCount ≠ 2 ∧ actualArgCount ≠ 3 then throw s!"ioctl expected 2-3 args but got {actualArgCount}"
    let scriptFd ← s32Arg args 0
    let liveFd ← toLiveFd scriptFd
    let command ← s32Arg args 1
    if actualArgCount = 2 then return (liveFd, command, none)
    else return (liveFd, command, some (← s32BracketedArg args 2))
  call := fun (liveFd, command, scriptOptval) => live env (.ioctl liveFd command scriptOptval.isSome)
  mode := .exact
  after := fun (_, _, scriptOptval) answer _ => do
    match scriptOptval with
    | none => pure ()
    | some scriptOptval =>
      record (.syscallResult "ioctl_param" answer.optval)
      if answer.optval ≠ scriptOptval ∧ config.checker then
        throw s!"Bad ioctl optval: expected: {scriptOptval} actual: {answer.optval}"

def syscallClose : Handler (Int × Int) where
  checks args := do
    checkArgCount args 1
    let scriptFd ← s32Arg args 0
    let liveFd ← toLiveFd scriptFd
    return (scriptFd, liveFd)
  call := fun (_, liveFd) => live env (.close liveFd)
  mode := .exact
  after := fun (scriptFd, liveFd) _ _ => runFds fun fds => runSyscallClose fds scriptFd liveFd

def syscallShutdown : Handler LiveCall :=
  plainHandler env .exact fun args => do
    checkArgCount args 2
    let scriptFd ← s32Arg args 0
    let liveFd ← toLiveFd scriptFd
    let how ← s32Arg args 1
    return .shutdown liveFd how

def cString (bytes : List UInt8) : List Char := (bytes.takeWhile (· ≠ 0)).map fun b => Char.ofNat b.toNat

/-- The fields of a GRE header that are compared: all but the protocol. -/
def greFields (bytes : List UInt8) : List UInt8 := bytes.take 2 ++ (bytes.drop 4).take 12

def unsupportedOptlen (scriptOptlen : Int) : String := s!"Unsupported getsockopt optlen: {scriptOptlen}"

def checkOptval (args : List Expression) (scriptOptlen : Int) (optval : List UInt8) : Expression → Routine Unit
  | .string scriptOptval =>
    let expected := scriptOptval.toList.takeWhile (· ≠ Char.ofNat 0)
    if cString optval ≠ expected then
      throw ("Bad getsockopt optval: expected: '" ++ String.ofList expected ++ "' actual: '" ++
        String.ofList (cString optval) ++ "'")
    else pure ()
  | .list _ => do
    if scriptOptlen ≠ 4 then throw (unsupportedOptlen scriptOptlen)
    let scriptOptval ← s32BracketedArg args 3
    let liveOptval := s32 ((Mem.ofList optval).le32 0)
    if liveOptval ≠ scriptOptval then
      throw s!"Bad getsockopt optval: expected: {scriptOptval} actual: {liveOptval}"
  | .gre header => do
    if scriptOptlen ≠ 16 then throw (unsupportedOptlen scriptOptlen)
    if greFields optval ≠ greFields header.toList then throw "Bad getsockopt optval."
  | .in6Addr addressIpv6 => do
    if scriptOptlen ≠ 16 then throw (unsupportedOptlen scriptOptlen)
    let live := Vector.ofFn fun i : Fin 16 => optval.getD i 0
    if live ≠ addressIpv6 then
      throw ("Bad getsockopt optval: expected: " ++ env.inetNtop addressIpv6 ++ " actual: " ++ env.inetNtop live ++ " ")
  | e => throw ("unsupported getsockopt value type: " ++ expressionTypeToString e.type)

def syscallGetsockopt : Handler (List Expression × LiveCall × Expression × Int) where
  checks args := do
    checkArgCount args 5
    let scriptFd ← s32Arg args 0
    let liveFd ← toLiveFd scriptFd
    let level ← s32Arg args 1
    let optname ← s32Arg args 2
    let valExpression ← getArg args 3
    let scriptOptlen ← s32BracketedArg args 4
    assertThat (env.malloc ((u32 scriptOptlen + 1) % 2 ^ 32) = true)
    return (args, .getsockopt liveFd level optname scriptOptlen, valExpression, scriptOptlen)
  call := fun (_, c, _, _) => live env c
  mode := .exact
  after := fun (args, _, valExpression, scriptOptlen) answer _ => do
    if answer.optlen ≠ scriptOptlen then
      throw s!"Bad getsockopt optlen: expected: {scriptOptlen} actual: {answer.optlen}"
    checkOptval env args scriptOptlen answer.optBytes valExpression

def setsockoptVal (args : List Expression) (e : Expression) : Routine Expression :=
  match e with
  | .linger _ _ | .gre _ | .in6Addr _ | .mplsStack _ | .string _ => pure e
  | .list _ => return .integer (← s32BracketedArg args 3)
  | _ => throw ("unsupported setsockopt value type: " ++ expressionTypeToString e.type)

def syscallSetsockopt : Handler LiveCall :=
  plainHandler env .exact fun args => do
    checkArgCount args 5
    let scriptFd ← s32Arg args 0
    let liveFd ← toLiveFd scriptFd
    let level ← s32Arg args 1
    let optname ← s32Arg args 2
    let optlen ← s32Arg args 4
    let optval ← setsockoptVal args (← getArg args 3)
    return .setsockopt liveFd level optname optval optlen

def pollFlags : List (Nat × String) :=
  [(0x1, "POLLIN"), (0x2, "POLLPRI"), (0x4, "POLLOUT"), (0x40, "POLLRDNORM"), (0x80, "POLLRDBAND"), (0x100, "POLLWRNORM"),
    (0x200, "POLLWRBAND"), (0x400, "POLLMSG"), (0x1000, "POLLREMOVE"), (0x2000, "POLLRDHUP"), (0x8, "POLLERR"),
    (0x10, "POLLHUP"), (0x20, "POLLNVAL")]

/-- The last entry of the table does not end the search, which runs on past it. -/
def flagName (flag : Nat) : Run String :=
  match pollFlags.lookup flag with
  | some name => .ok name
  | none => .error .invalidAccess

def flagsToString (flags : Nat) : Run String := do
  let names ← ((List.range 64).filter fun i => flags.testBit i).mapM fun i => flagName (2 ^ i)
  return String.intercalate "|" names

/-- The `revents` of the script are compared with those of the live call. -/
def pollfdsCheck (list : List Expression) (revents : Nat → Int) : Routine Unit :=
  list.zipIdx.forM fun
    | (.pollfd _ _ (.integer num), i) => do
      let expected := s32 num
      let actual := revents i
      if actual ≠ expected then
        let expectedRevents ← flagsToString (sizeT expected)
        let actualRevents ← flagsToString (sizeT actual)
        throw ("Expected revents of " ++ expectedRevents ++ " but got " ++ actualRevents ++ s!" for pollfd {i}")
    | _ => stop (.fault .assertion)

def syscallPoll : Handler (List Expression × List Pollfd × Int × Int) where
  checks args := do
    checkArgCount args 3
    let fdsExpression ← getArg args 0
    let fds ← pollfdsNew fdsExpression
    let nfds ← s32Arg args 1
    let timeout ← s32Arg args 2
    if nfds ≠ fds.length then throw s!"nfds {nfds} does not match {fds.length}-element pollfd array"
    return (← getList fdsExpression, fds, nfds, timeout)
  call := fun (_, fds, nfds, timeout) => live env (.poll fds nfds timeout)
  mode := .exact
  after := fun (list, _, _, _) answer _ => pollfdsCheck list answer.revents

def syscallCapSet : Handler LiveCall where
  checks args := do
    checkArgCount args 3
    let capFlag ← s32Arg args 0
    let capValue ← s32Arg args 1
    let capOp ← s32Arg args 2
    if !env.capGetProc then die "Error in cap_get_proc()\n"
    if env.capSetFlag capFlag capValue capOp = -1 then die "Error in cap_set_flag()\n"
    return .capSetProc capFlag capValue capOp
  call := live env
  mode := .fd
  after _ _ _ := if env.capFree = -1 then die "Error in cap_free()\n" else pure ()

def syscallOpen : Handler LiveCall :=
  creatingHandler env
    (fun args => do
      checkArgCount args 2
      let nameExpression ← getArg args 0
      checkType nameExpression .string
      let flags ← s32Arg args 1
      match nameExpression with
      | .string name => return .open name flags
      | _ => stop (.fault .invalidAccess))
    (fun _ => runSyscallOpen)

def syscallSendfile : Handler LiveCall :=
  plainHandler env .exact fun args => do
    checkArgCount args 4
    let scriptOutfd ← s32Arg args 0
    let liveOutfd ← toLiveFd scriptOutfd
    let scriptInfd ← s32Arg args 1
    let liveInfd ← toLiveFd scriptInfd
    let offset ← s64BracketedArg args 2
    let count ← s32Arg args 3
    return .sendfile liveOutfd liveInfd offset count

def syscallEpollCreate : Handler LiveCall :=
  creatingHandler env
    (fun args => do
      checkArgCount args 1
      let size ← s32Arg args 0
      return .epollCreate size)
    (fun _ => runSyscallEpollCreate)

def syscallEpollCtl : Handler LiveCall :=
  plainHandler env .exact fun args => do
    checkArgCount args 4
    let epfdScript ← s32Arg args 0
    let epfdLive ← toLiveFd epfdScript
    let op ← s32Arg args 1
    let scriptFd ← s32Arg args 2
    let liveFd ← toLiveFd scriptFd
    let event ← getEpollEventFromExpr (← getArg args 3) scriptFd liveFd
    return .epollCtl epfdLive op liveFd event

def epollEventBytes : Nat := 12

def pointerText (ptr : Nat) : String := if ptr = 0 then "(nil)" else "0x" ++ hexPadded 0 ptr

def checkEpollData (live : Nat) : EpollData → Routine Unit
  | .ptr ptr => unless ptr = live do throw (message (pointerText ptr) (pointerText live))
  | .fd fd => unless fd = s32 live do throw (message (toString fd) (toString (s32 live)))
  | .u32 u => unless u = live % 2 ^ 32 do throw (message (toString u) (toString (live % 2 ^ 32)))
  | .u64 u => unless u = live do throw (message (toString u) (toString live))
where
  message (expected actual : String) : String :=
    "epoll_event->data does not match script: expected: " ++ expected ++ " actual: " ++ actual ++ "\n"

def syscallEpollWait : Handler (Int × EpollEvent × Int × Int) where
  checks args := do
    checkArgCount args 4
    let epfdScript ← s32Arg args 0
    let epfdLive ← toLiveFd epfdScript
    let event ← getEpollEventFromExpr (← getArg args 1) (-1) (-1)
    let maxevents ← s32Arg args 2
    let timeout ← s32Arg args 3
    if !env.malloc (sizeT maxevents * epollEventBytes) then
      throw s!"Failed to calloc {maxevents} struct epoll_event\n"
    return (epfdLive, event, maxevents, timeout)
  call := fun (epfdLive, _, maxevents, timeout) => live env (.epollWait epfdLive maxevents timeout)
  mode := .exact
  after := fun (_, event, _, _) answer _ => do
    if event.events ≠ answer.events then
      throw ("epoll_event->events does not match script: expected: 0x" ++ hexPadded 0 event.events ++ " actual: 0x" ++
        hexPadded 0 answer.events ++ "\n")
    checkEpollData answer.epollData event.data

def syscallPipe : Handler (Int × Int) where
  checks args := do
    checkArgCount args 1
    getPipeExpression (← getArg args 0)
  call _ := live env .pipe
  mode := .exact
  after pipefdScript answer _ := do
    if 0 ≤ answer.result then runFds fun fds => runSyscallPipe fds pipefdScript answer.pipe

/-- The arguments of `splice`, whose handler has no `begin_syscall`. -/
def spliceArgs (args : List Expression) : Routine LiveCall := do
  checkArgCount args 6
  let fdInScript ← s32Arg args 0
  let fdInLive ← toLiveFd fdInScript
  let offIn ← s64Arg args 1
  let fdOutScript ← s32Arg args 2
  let fdOutLive ← toLiveFd fdOutScript
  let offOut ← s64Arg args 3
  let len ← s32Arg args 4
  let flags ← s32Arg args 5
  return .splice fdInLive offIn fdOutLive offOut len flags

end

end TcpFuzz.Syscall
