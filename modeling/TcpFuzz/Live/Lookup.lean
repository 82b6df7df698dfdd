import TcpFuzz.Live.Inbound
import TcpFuzz.Live.Timestamps

/-! `find_or_create_socket_for_script_packet` and the rules it tries one after the other. -/

namespace TcpFuzz
open Bytes Mem

/-- A socket with the fields that decide which packets belong to it. -/
structure TestSocket extends Socket where
  addressFamily : Option AddressFamily
  protocol : Nat
  scriptFd : Int
  liveFd : Int
  /-- The family of the live local address; a zeroed address has none. -/
  localFamily : Option AddressFamily
  remoteFamily : Option AddressFamily
  /-- The script packet that opened the current connection, which the source does not keep. -/
  opened : Option Packet
  /-- The live packets sniffed for the current connection, which the source does not keep. -/
  sniffed : List Packet

structure RunConfig extends Config where
  isWireServer : Bool
  isWireClient : Bool
  liveRemoteFamily : AddressFamily
  liveLocalFamily : AddressFamily

/-- A pointer to a socket is its place in the list of all sockets. -/
structure LiveState where
  config : RunConfig
  sockets : List TestSocket
  socketUnderTest : Option Nat
  /-- The port cached for the next connection. -/
  nextEphemeralPort : Option UInt16
  pointed : ∀ i, socketUnderTest = some i → i < sockets.length

def zeroedEndpoint : Endpoint := ⟨Vector.replicate 16 0, 0⟩

def socketNew : TestSocket where
  state := .init
  script := ⟨zeroedEndpoint, 0, zeroedEndpoint, 0⟩
  live := ⟨zeroedEndpoint, 0, zeroedEndpoint, 0⟩
  tsValMap := fun _ => none
  lastInjectedTcpHeader := List.replicate 20 0
  lastInjectedTcpPayloadLen := 0
  addressFamily := none
  protocol := 0
  scriptFd := 0
  liveFd := 0
  localFamily := none
  remoteFamily := none
  opened := none
  sniffed := []

namespace LiveState

variable (st : LiveState)

def underTest : Option TestSocket := st.socketUnderTest.bind (st.sockets[·]?)

def add (s : TestSocket) : LiveState :=
  { st with
    sockets := st.sockets ++ [s]
    socketUnderTest := some st.sockets.length
    pointed := by
      intro i same
      cases same
      simp }

def modify (i : Nat) (f : TestSocket → TestSocket) : LiveState :=
  { st with
    sockets := st.sockets.modify i f
    pointed := by
      intro i same
      rw [List.length_modify]
      exact st.pointed i same }

theorem underTest_none (absent : st.socketUnderTest = none) : st.underTest = none := by
  rw [underTest, absent]
  rfl

theorem underTest_some {i : Nat} (under : st.socketUnderTest = some i) : ∃ s, st.underTest = some s ∧ st.sockets[i]? = some s := by
  have inside := st.pointed i under
  refine ⟨st.sockets[i], ?_, List.getElem?_eq_getElem inside⟩
  rw [underTest, under]
  exact List.getElem?_eq_getElem inside

end LiveState

def packetIpProtocol (p : Packet) : Run Nat :=
  match p.ipv4, p.ipv6 with
  | some ip, _ => .ok (ipv4Protocol p.buffer ip)
  | none, some ip => .ok (ipv6NextHeader p.buffer ip)
  | none, none => .error .assertion

def packetAddressFamily (p : Packet) : Option AddressFamily :=
  if p.ipv4.isSome then some .inet else if p.ipv6.isSome then some .inet6 else none

def nextEphemeralPort (ephemeral : UInt16) (st : LiveState) : UInt16 × LiveState :=
  match st.nextEphemeralPort with
  | some port => (port, { st with nextEphemeralPort := none })
  | none => (ephemeral, st)

/-- Whether a segment opens a child of a listening socket; wire servers do not see `listen`. -/
def listens (st : LiveState) : Bool :=
  if st.config.isWireServer then st.underTest.isNone else st.underTest.all (·.state = .passiveListening)

def handleListenForScriptPacket (ephemeral : UInt16) (st : LiveState) (p : Packet) (d : Direction) :
    Run (LiveState × Option Nat) := do
  if d = .inbound ∧ listens st then
    let protocol ← packetIpProtocol p
    let tuple ← getPacketTuple p
    let tcp ← deref p.tcp
    let seq := UInt32.ofNat (tcpSeq p.buffer tcp)
    let next := nextEphemeralPort ephemeral st
    let child := { socketNew with
      state := .passivePacketReceived
      addressFamily := packetAddressFamily p
      protocol
      script := ⟨tuple.dst, 0, tuple.src, seq⟩
      live := ⟨⟨st.config.liveLocalIp, st.config.liveBindPort⟩, 0, ⟨st.config.liveRemoteIp, next.1⟩, seq⟩
      localFamily := some st.config.liveLocalFamily
      remoteFamily := some st.config.liveRemoteFamily
      scriptFd := -1
      liveFd := -1 }
    let st := next.2.add child
    return (st, st.socketUnderTest)
  else return (st, none)

/-- Whether a SYN is the one of a connecting socket; wire servers do not see `connect`. -/
def connects (st : LiveState) : Bool :=
  if st.config.isWireServer then st.underTest.isNone else st.underTest.any (·.state = .activeConnecting)

def connectingSocket (config : RunConfig) (p : Packet) : Run TestSocket := do
  let protocol ← packetIpProtocol p
  return { socketNew with
    addressFamily := packetAddressFamily p
    protocol
    scriptFd := -1
    live := { socketNew.live with remoteEnd := ⟨config.liveRemoteIp, config.liveConnectPort⟩ }
    remoteFamily := some config.liveRemoteFamily
    liveFd := -1 }

def TestSocket.synSent (p : Packet) (tuple : Tuple) (seq : UInt32) (s : TestSocket) : TestSocket :=
  { s with
    state := .activeSynSent
    script := { s.script with remoteEnd := tuple.dst, localEnd := tuple.src, localIsn := seq }
    opened := some p
    sniffed := [] }

def connectSocket (st : LiveState) (p : Packet) : Run LiveState :=
  match st.socketUnderTest with
  | some _ => .ok st
  | none => do return st.add (← connectingSocket st.config p)

def handleConnectForScriptPacket (st : LiveState) (p : Packet) (d : Direction) : Run (LiveState × Option Nat) :=
  if d = .outbound then do
    let tcp ← deref p.tcp
    if tcpSyn p.buffer tcp ∧ ¬tcpAck p.buffer tcp ∧ connects st then
      let st ← connectSocket st p
      let tuple ← getPacketTuple p
      let i ← deref st.socketUnderTest
      return (st.modify i (.synSent p tuple (UInt32.ofNat (tcpSeq p.buffer tcp))), some i)
    else return (st, none)
  else .ok (st, none)

def isScriptPacketMatchForSocket (p : Packet) (s : TestSocket) : Run Bool :=
  let isPacketIcmp := p.icmpv4.isSome || p.icmpv6.isSome
  if s.protocol = 6 then .ok (p.tcp.isSome || isPacketIcmp)
  else if s.protocol = 17 then .ok (p.udp.isSome || isPacketIcmp)
  else if s.protocol = 1 then .ok p.icmpv4.isSome
  else if s.protocol = 58 then .ok p.icmpv6.isSome
  else .error .assertion

def foreignPort (m : Mem) (l4 : Option Nat) : Bool := l4.any fun l4 => m.be16 l4 ≠ 0 || m.be16 (l4 + 2) ≠ 0

/-- The state afterwards, `*socket`, and the error, without which the status is `STATUS_OK`. -/
structure Lookup where
  state : LiveState
  socket : Option Nat
  error : Option String

def matchesUnderTest (st : LiveState) (p : Packet) : Run Bool :=
  match st.underTest with
  | none => .ok false
  | some s => isScriptPacketMatchForSocket p s

def findSocketForScriptPacket (st : LiveState) (p : Packet) : Run Lookup := do
  let matched ← matchesUnderTest st p
  if matched then return ⟨st, st.socketUnderTest, none⟩
  if foreignPort p.buffer p.tcp then return ⟨st, st.socketUnderTest, none⟩
  if foreignPort p.buffer p.udp then return ⟨st, st.socketUnderTest, none⟩
  return ⟨st, none, some "no matching socket for script packet"⟩

def findOrCreateSocketForScriptPacket (ephemeral : UInt16) (st : LiveState) (p : Packet) (d : Direction) : Run Lookup := do
  if p.tcp.isSome then
    let (st, child) ← handleListenForScriptPacket ephemeral st p d
    if child.isSome then return ⟨st, child, none⟩
    let (st, connecting) ← handleConnectForScriptPacket st p d
    if connecting.isSome then return ⟨st, connecting, none⟩
    findSocketForScriptPacket st p
  else findSocketForScriptPacket st p

/-- The error of a lookup, or its socket, which `run_packet_event` asserts. -/
def Lookup.eventSocket (found : Lookup) : Run (Except String Nat) :=
  match found.error with
  | some e => .ok (.error e)
  | none => do return .ok (← requirePtr found.socket)

section Rules

variable {ephemeral : UInt16} {st st' : LiveState} {p : Packet} {d : Direction} {found : Option Nat}

def HasIp (p : Packet) : Prop := p.ipv4.isSome ∨ p.ipv6.isSome

theorem HasIp.protocol (ip : HasIp p) : ∃ protocol, packetIpProtocol p = .ok protocol := by
  unfold packetIpProtocol
  rcases v4 : p.ipv4 with _ | v4 <;> rcases v6 : p.ipv6 with _ | v6
  · simp [HasIp, v4, v6] at ip
  all_goals exact ⟨_, rfl⟩

theorem HasIp.tuple (ip : HasIp p) : ∃ tuple, getPacketTuple p = .ok tuple := by
  unfold getPacketTuple
  rcases v4 : p.ipv4 with _ | v4 <;> rcases v6 : p.ipv6 with _ | v6
  · simp [HasIp, v4, v6] at ip
  all_goals
    rcases p.tcp with _ | tcp <;> rcases p.udp with _ | udp
    all_goals exact ⟨_, rfl⟩

structure Child (s : TestSocket) : Prop where
  state : s.state = .passivePacketReceived
  opened : s.opened = none
  sniffed : s.sniffed = []

theorem handleListenForScriptPacket_ok (returned : handleListenForScriptPacket ephemeral st p d = .ok (st', found)) :
    (d = .inbound ∧ listens st ∧ ∃ s, Child s ∧ st'.sockets = st.sockets ++ [s] ∧
        st'.socketUnderTest = some st.sockets.length ∧ found = some st.sockets.length ∧ st'.config = st.config) ∨
      (¬(d = .inbound ∧ listens st) ∧ st' = st ∧ found = none) := by
  unfold handleListenForScriptPacket at returned
  split at returned
  · rename_i opens
    obtain ⟨protocol, -, returned⟩ := run_bind_ok returned
    obtain ⟨tuple, -, returned⟩ := run_bind_ok returned
    obtain ⟨tcp, -, returned⟩ := run_bind_ok returned
    have kept : (nextEphemeralPort ephemeral st).2.sockets = st.sockets ∧ (nextEphemeralPort ephemeral st).2.config = st.config := by
      unfold nextEphemeralPort
      split <;> exact ⟨rfl, rfl⟩
    cases returned
    refine .inl ⟨opens.1, opens.2, _, ?_, congrArg (· ++ [_]) kept.1, ?_, ?_, kept.2⟩
    · exact ⟨rfl, rfl, rfl⟩
    all_goals exact congrArg (some ·.length) kept.1
  · rename_i other
    cases returned
    exact .inr ⟨other, rfl, rfl⟩

theorem handleListenForScriptPacket_returns (ephemeral : UInt16) (st : LiveState) (d : Direction) {tcp : Nat} (ip : HasIp p) (segment : p.tcp = some tcp) :
    ∃ r, handleListenForScriptPacket ephemeral st p d = .ok r := by
  obtain ⟨protocol, hasProtocol⟩ := ip.protocol
  obtain ⟨tuple, hasTuple⟩ := ip.tuple
  unfold handleListenForScriptPacket
  split
  · rw [hasProtocol, hasTuple, segment]
    exact ⟨_, rfl⟩
  · exact ⟨_, rfl⟩

def sendsSyn (st : LiveState) (p : Packet) (d : Direction) (tcp : Nat) : Prop :=
  d = .outbound ∧ tcpSyn p.buffer tcp ∧ ¬tcpAck p.buffer tcp ∧ connects st

/-- The connecting rule starts a connection on the socket under test, which it may have to create,
or does nothing. -/
theorem handleConnectForScriptPacket_ok {tcp : Nat} (segment : p.tcp = some tcp)
    (returned : handleConnectForScriptPacket st p d = .ok (st', found)) :
    (sendsSyn st p d tcp ∧ ∃ before i tuple, connectSocket st p = .ok before ∧ before.socketUnderTest = some i ∧
        st' = before.modify i (.synSent p tuple (UInt32.ofNat (tcpSeq p.buffer tcp))) ∧ found = some i) ∨
      (¬sendsSyn st p d tcp ∧ st' = st ∧ found = none) := by
  unfold handleConnectForScriptPacket at returned
  split at returned
  · rename_i outbound
    rw [segment] at returned
    simp only [deref, ok_bind] at returned
    split at returned
    · rename_i syn
      obtain ⟨before, connected, returned⟩ := run_bind_ok returned
      obtain ⟨tuple, -, returned⟩ := run_bind_ok returned
      cases under : before.socketUnderTest with
      | none => rw [under] at returned; cases returned
      | some i =>
        rw [under] at returned
        cases returned
        exact .inl ⟨⟨outbound, syn⟩, before, i, tuple, connected, under, rfl, rfl⟩
    · rename_i other
      cases returned
      exact .inr ⟨fun sends => other sends.2, rfl, rfl⟩
  · rename_i other
    cases returned
    exact .inr ⟨fun sends => other sends.1, rfl, rfl⟩

theorem connectSocket_returns (st : LiveState) (ip : HasIp p) : ∃ before, connectSocket st p = .ok before ∧ before.socketUnderTest.isSome := by
  unfold connectSocket
  cases under : st.socketUnderTest with
  | some i => exact ⟨st, rfl, by simp [under]⟩
  | none =>
    obtain ⟨protocol, hasProtocol⟩ := ip.protocol
    simp only [connectingSocket, hasProtocol]
    exact ⟨_, rfl, rfl⟩

theorem handleConnectForScriptPacket_returns (st : LiveState) (d : Direction) {tcp : Nat} (ip : HasIp p) (segment : p.tcp = some tcp) :
    ∃ r, handleConnectForScriptPacket st p d = .ok r := by
  obtain ⟨before, connected, under⟩ := connectSocket_returns st ip
  obtain ⟨tuple, hasTuple⟩ := ip.tuple
  obtain ⟨i, here⟩ := Option.isSome_iff_exists.mp under
  unfold handleConnectForScriptPacket
  split
  · rw [segment]
    simp only [deref, ok_bind]
    split
    · rw [connected, hasTuple]
      simp only [ok_bind, here]
      exact ⟨_, rfl⟩
    · exact ⟨_, rfl⟩
  · exact ⟨_, rfl⟩

end Rules

/-- The status is `STATUS_OK` just when there is a socket, and the socket is the one under test. -/
structure Lookup.Contract (r : Lookup) : Prop where
  status : r.error = none ↔ r.socket.isSome
  socket : ∀ i, r.socket = some i → r.state.socketUnderTest = some i

def SupportedProtocol (protocol : Nat) : Prop := protocol = 6 ∨ protocol = 17 ∨ protocol = 1 ∨ protocol = 58

def Opens (st : LiveState) (p : Packet) (d : Direction) : Prop :=
  ∃ tcp, p.tcp = some tcp ∧ (d = .inbound ∧ listens st ∨ sendsSyn st p d tcp)

/-- Without a socket under test the ports have to be left open, and the protocol of one has to be known. -/
def Decided (st : LiveState) (p : Packet) : Prop :=
  match st.underTest with
  | none => ¬foreignPort p.buffer p.tcp ∧ ¬foreignPort p.buffer p.udp
  | some s => SupportedProtocol s.protocol

section Contract

variable {st : LiveState} {p : Packet}

theorem isScriptPacketMatchForSocket_returns {s : TestSocket} (supported : SupportedProtocol s.protocol) :
    ∃ matched, isScriptPacketMatchForSocket p s = .ok matched := by
  unfold isScriptPacketMatchForSocket
  rcases supported with same | same | same | same
  all_goals
    rw [same]
    exact ⟨_, rfl⟩

theorem isScriptPacketMatchForSocket_fails {s : TestSocket} (unknown : ¬SupportedProtocol s.protocol) :
    isScriptPacketMatchForSocket p s = .error .assertion := by
  unfold SupportedProtocol at unknown
  push Not at unknown
  obtain ⟨tcp, udp, icmp, icmpv6⟩ := unknown
  rw [isScriptPacketMatchForSocket, if_neg tcp, if_neg udp, if_neg icmp, if_neg icmpv6]

theorem Lookup.Contract.found {i : Nat} (under : st.socketUnderTest = some i) : (⟨st, some i, none⟩ : Lookup).Contract :=
  ⟨by simp, fun _ same => under.trans same⟩

theorem Lookup.Contract.refused {e : String} : (⟨st, none, some e⟩ : Lookup).Contract := ⟨by simp, by simp⟩

theorem Lookup.Contract.answered {r : Lookup} (contract : r.Contract) : ∃ answer, r.eventSocket = .ok answer := by
  unfold eventSocket
  cases status : r.error with
  | some e => exact ⟨_, rfl⟩
  | none =>
    obtain ⟨i, found⟩ := Option.isSome_iff_exists.mp (contract.status.mp status)
    rw [found]
    exact ⟨_, rfl⟩

theorem Lookup.Contract.not_missing : ¬(⟨st, none, none⟩ : Lookup).Contract :=
  fun contract => by simpa using contract.status.mp rfl

theorem findSocketForScriptPacket_contract_iff :
    (∃ r, findSocketForScriptPacket st p = .ok r ∧ r.Contract) ↔ Decided st p := by
  unfold findSocketForScriptPacket matchesUnderTest Decided
  cases under : st.socketUnderTest with
  | none =>
    rw [st.underTest_none under]
    simp only [ok_bind, Bool.false_eq_true, if_false]
    by_cases tcp : foreignPort p.buffer p.tcp <;> by_cases udp : foreignPort p.buffer p.udp
    all_goals simp [tcp, udp, Lookup.Contract.not_missing, Lookup.Contract.refused]
  | some i =>
    obtain ⟨s, here, -⟩ := st.underTest_some under
    rw [here]
    by_cases supported : SupportedProtocol s.protocol
    · obtain ⟨matched, decided⟩ := isScriptPacketMatchForSocket_returns (p := p) supported
      refine iff_of_true ?_ supported
      simp only [decided, ok_bind]
      repeat' split
      all_goals first | exact ⟨_, rfl, .found under⟩ | exact ⟨_, rfl, .refused⟩
    · refine iff_of_false ?_ supported
      rintro ⟨r, returned, -⟩
      simp only [isScriptPacketMatchForSocket_fails supported, error_bind] at returned
      cases returned

end Contract

theorem lookup_contract_iff (ephemeral : UInt16) (st : LiveState) {p : Packet} (ip : HasIp p) (d : Direction) :
    (∃ r, findOrCreateSocketForScriptPacket ephemeral st p d = .ok r ∧ r.Contract) ↔ Opens st p d ∨ Decided st p := by
  unfold findOrCreateSocketForScriptPacket
  cases segment : p.tcp with
  | none =>
    have closed : ¬Opens st p d := by
      rintro ⟨tcp, found, -⟩
      rw [segment] at found
      cases found
    rw [or_iff_right closed]
    exact findSocketForScriptPacket_contract_iff
  | some tcp =>
    obtain ⟨⟨st₁, child⟩, listened⟩ := handleListenForScriptPacket_returns ephemeral st d ip segment
    simp only [Option.isSome_some, if_true, listened, ok_bind]
    rcases handleListenForScriptPacket_ok listened with ⟨inbound, listening, s, -, -, under, rfl, -⟩ | ⟨other, rfl, rfl⟩
    · exact iff_of_true ⟨_, rfl, .found under⟩ (.inl ⟨tcp, segment, .inl ⟨inbound, listening⟩⟩)
    obtain ⟨⟨st₂, connecting⟩, connected⟩ := handleConnectForScriptPacket_returns st₁ d ip segment
    simp only [connected, ok_bind, Option.isSome_none, Bool.false_eq_true, if_false]
    rcases handleConnectForScriptPacket_ok segment connected with ⟨sends, before, i, tuple, -, under, rfl, rfl⟩ | ⟨quiet, rfl, rfl⟩
    · exact iff_of_true ⟨_, rfl, .found under⟩ (.inl ⟨tcp, segment, .inr sends⟩)
    have closed : ¬Opens st₂ p d := by
      rintro ⟨tcp', found, opens⟩
      rw [segment] at found
      cases found
      exact opens.elim other quiet
    rw [or_iff_right closed]
    exact findSocketForScriptPacket_contract_iff

/-- The lookup keeps its contract, and the assertion of `run_packet_event` holds, just when one of
the first two rules applies or the others are decided. -/
theorem findOrCreateSocketForScriptPacket_contract_iff (ephemeral : UInt16) (st : LiveState) {p : Packet} (ip : HasIp p)
    (d : Direction) :
    (∃ r, findOrCreateSocketForScriptPacket ephemeral st p d = .ok r ∧ r.Contract ∧ ∃ answer, r.eventSocket = .ok answer) ↔
      Opens st p d ∨ Decided st p := by
  rw [← lookup_contract_iff ephemeral st ip d]
  exact exists_congr fun r => and_congr_right fun _ => and_iff_left_of_imp Lookup.Contract.answered

def plainConfig : RunConfig where
  isAnyip := false
  liveRemoteIp := ipFromBytes [2, 2, 2, 2]
  liveLocalIp := ipFromBytes [1, 1, 1, 1]
  liveConnectPort := 8
  liveBindPort := 7
  isWireServer := false
  isWireClient := false
  liveRemoteFamily := .inet
  liveLocalFamily := .inet

def initialState (config : RunConfig) : LiveState := ⟨config, [], none, some 8, by simp⟩

theorem findOrCreateSocketForScriptPacket_contract_iff_child :
    ∃ r, findOrCreateSocketForScriptPacket 9 (initialState plainConfig) (stampedSegment 1 5) .inbound = .ok r ∧ r.Contract ∧
      ∃ answer, r.eventSocket = .ok answer :=
  (findOrCreateSocketForScriptPacket_contract_iff 9 (initialState plainConfig) (.inl rfl) .inbound).mpr
    (.inl ⟨20, rfl, .inl ⟨rfl, rfl⟩⟩)

theorem lookup_without_socket :
    ∃ r, findOrCreateSocketForScriptPacket 9 (initialState plainConfig) (stampedSegment 1 5) .outbound = .ok r ∧
      r.error = none ∧ r.socket = none ∧ r.eventSocket = .error .assertion := by
  have evaluated : (findOrCreateSocketForScriptPacket 9 (initialState plainConfig) (stampedSegment 1 5) .outbound).toOption.map
      (fun r => (r.error, r.socket)) = some (none, none) := by decide +kernel
  obtain ⟨r, returned, facts⟩ := ok_of_toOption evaluated
  obtain ⟨error, socket⟩ := Prod.mk.inj facts
  refine ⟨r, returned, error, socket, ?_⟩
  rw [Lookup.eventSocket, error, socket]
  rfl

end TcpFuzz
