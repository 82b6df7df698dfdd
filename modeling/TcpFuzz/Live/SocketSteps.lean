import TcpFuzz.Live.Lookup

/-! The steps of a run that touch the sockets, and what a sniffed packet tells of an initial sequence number. -/

namespace TcpFuzz
open Bytes Mem

variable {s : TestSocket} {p live : Packet} {script : Option Packet} {i : Nat} {received : List Packet}

/-! ### Sniffing -/

def isIcmpFor (s : TestSocket) (p : Packet) : Bool :=
  s.protocol = 1 && p.icmpv4.isSome || s.protocol = 58 && p.icmpv6.isSome

def TestSocket.isTuple (s : TestSocket) (live : Packet) (tuple expected : Tuple) : Bool :=
  let family := packetAddressFamily live
  s.localFamily = family && s.remoteFamily = family &&
    (tuple = expected ||
      isIcmpFor s live && isEqualIp family tuple.dst.ip expected.dst.ip && isEqualIp family tuple.src.ip expected.src.ip)

/-- The direction of a packet of the socket under test, and `invalid` for other packets. -/
def findSocketForLivePacket (st : LiveState) (live : Packet) : Run Direction :=
  match st.underTest with
  | none => .ok .invalid
  | some s => do
    let tuple ← getPacketTuple live
    if s.isTuple live tuple (socketGetInbound s.live) then return .inbound
    else if s.isTuple live tuple (socketGetOutbound s.live) then return .outbound
    else return .invalid

def LiveState.modifyUnderTest (st : LiveState) (f : TestSocket → TestSocket) : LiveState :=
  match st.socketUnderTest with
  | none => st
  | some i => st.modify i f

def segmentSeq (p : Packet) : UInt32 := p.tcp.elim 0 fun tcp => UInt32.ofNat (tcpSeq p.buffer tcp)

def isOpening (p : Packet) : Bool := p.tcp.any fun tcp => tcpSyn p.buffer tcp && !tcpAck p.buffer tcp

def isSynack (p : Packet) : Bool := p.tcp.any fun tcp => tcpSyn p.buffer tcp && tcpAck p.buffer tcp

/-- Whether a connecting socket would send the packet, and how the packet is told to be its own. -/
def TestSocket.wouldSend (s : TestSocket) (live : Packet) (tuple : Tuple) : Bool :=
  let isUdpMatch := live.udp.isSome && s.protocol = 17 && s.state = .activeConnecting
  let isIcmpMatch := isIcmpFor s live && s.state = .activeConnecting
  let isTcpMatch := isOpening live && s.protocol = 6 && s.state = .activeSynSent
  (isUdpMatch || isTcpMatch || isIcmpMatch) &&
    (s.remoteFamily = packetAddressFamily live && isEqualIp s.remoteFamily tuple.dst.ip s.live.remoteEnd.ip &&
      (isIcmpMatch || tuple.dst.port = s.live.remoteEnd.port))

def TestSocket.learn (live : Packet) (tuple : Tuple) (s : TestSocket) : TestSocket :=
  { s with
    live := { s.live with
      localEnd := tuple.src
      localIsn := if live.tcp.isSome then segmentSeq live else s.live.localIsn }
    localFamily := packetAddressFamily live }

def findConnectForLivePacket (st : LiveState) (live : Packet) : Run (LiveState × Bool) := do
  let tuple ← getPacketTuple live
  if st.underTest.any (·.wouldSend live tuple) then return (st.modifyUnderTest (.learn live tuple), true)
  else return (st, false)

/-- A packet that was sniffed: the socket under test before, and the script packet that is being run. -/
structure Sniff where
  socket : TestSocket
  script : Option Packet
  live : Packet

def TestSocket.keep (live : Packet) (s : TestSocket) : TestSocket := { s with sniffed := s.sniffed ++ [live] }

/-- One iteration of `sniff_outbound_live_packet`. -/
def sniffReceived (script : Option Packet) (st : LiveState) (live : Packet) : Run (LiveState × Option Sniff) := do
  let sniff := st.underTest.map (⟨·, script, live⟩)
  let direction ← findSocketForLivePacket st live
  if direction = .outbound then return (st.modifyUnderTest (.keep live), sniff)
  else
    let (st, found) ← findConnectForLivePacket st live
    if found then return (st.modifyUnderTest (.keep live), sniff) else return (st, none)

/-! ### Outbound script packets -/

def TestSocket.expectsSynack (s : TestSocket) (p : Packet) : Bool := s.state = .passivePacketReceived && isSynack p

def TestSocket.expectSynack (p : Packet) (s : TestSocket) : TestSocket :=
  if s.expectsSynack p then
    { s with script := { s.script with localIsn := segmentSeq p }, opened := some p }
  else s

def TestSocket.synackSent (live : Packet) (s : TestSocket) : TestSocket :=
  { s with state := .passiveSynackSent, live := { s.live with localIsn := segmentSeq live } }

/-- A sniffed packet counts as the SYN/ACK that the script expects; it is read through its TCP pointer. -/
def synackSniffed (i : Nat) (p live : Packet) (st : LiveState) : Run LiveState :=
  if st.sockets[i]?.any (·.expectsSynack p) then do
    let _ ← deref live.tcp
    return st.modify i (.synackSent live)
  else .ok st

def convertSniffed (i : Nat) (live : Packet) (st : LiveState) : Run (Except String Packet) :=
  match live.tcp, st.sockets[i]? with
  | some _, some s => tcpConvertSeqNumber s.toSocket live
  | _, _ => .ok (.ok live)

/-- The loop of `do_outbound_script_packet` on what the device delivers until the call is over. -/
def outboundLoop (i : Nat) (p : Packet) (st : LiveState) : List Packet → Run (LiveState × List Sniff)
  | [] => .ok (st, [])
  | live :: received => do
    let (st, sniff) ← sniffReceived (some p) st live
    match sniff with
    | none => outboundLoop i p st received
    | some sniff =>
      if st.socketUnderTest ≠ some i then return (st, [sniff])
      else
        let _ ← packetPayloadLen live
        let st ← synackSniffed i p live st
        match ← convertSniffed i live st with
        | .error _ => return (st, [sniff])
        | .ok _ =>
          let (st, sniffs) ← outboundLoop i p st received
          return (st, sniff :: sniffs)

def doOutboundScriptPacket (i : Nat) (p : Packet) (st : LiveState) (received : List Packet) : Run (LiveState × List Sniff) := do
  let _ ← packetPayloadLen p
  outboundLoop i p (st.modify i (.expectSynack p)) received

/-! ### The other steps -/

/-- The socket of an inbound script packet after its injection; the configured addresses have families. -/
def TestSocket.injected (config : RunConfig) (p : Packet) (socket : Socket) (s : TestSocket) : TestSocket :=
  let filled : Bool := config.isAnyip ∧ (p.udp.isSome ∨ p.icmpv4.isSome ∨ p.icmpv6.isSome)
  { s with
    toSocket := socket
    localFamily := if filled then some config.liveLocalFamily else s.localFamily
    remoteFamily := if filled then some config.liveRemoteFamily else s.remoteFamily }

def injectInbound (allocated : Mem) (i : Nat) (p : Packet) (st : LiveState) : Run LiveState :=
  match st.sockets[i]? with
  | none => .ok st
  | some s => do
    let injection ← doInboundScriptPacket allocated st.config.toConfig s.toSocket p
    return st.modify i (.injected st.config p injection.socket)

def TestSocket.connect (config : RunConfig) (unspec : Bool) (s : TestSocket) : TestSocket :=
  if unspec then { s with state := .new }
  else if s.state = .new then
    { s with
      state := .activeConnecting
      script := { s.script with remoteEnd := zeroedEndpoint, localEnd := zeroedEndpoint }
      live := { s.live with remoteEnd := ⟨config.liveRemoteIp, config.liveConnectPort⟩ }
      remoteFamily := some config.liveRemoteFamily }
  else s

def TestSocket.acceptable (s : TestSocket) : Bool := s.state = .passiveSynackSent || s.state = .passiveSynackAcked

def swapPort (port : UInt16) : UInt16 := port <<< 8 ||| port >>> 8

/-- The last socket that can be accepted gets the new descriptors; on a wire client there is none. -/
def acceptSocket (st : LiveState) (scriptFd liveFd : Int) (peer : Endpoint) (family : AddressFamily) : Run LiveState :=
  match (List.range st.sockets.length).reverse.find? fun i => st.sockets[i]?.any (·.acceptable) with
  | some i => do
    assertThat (st.sockets[i]?.all fun s =>
      s.remoteFamily = some family && isEqualIp s.remoteFamily s.live.remoteEnd.ip peer.ip && s.live.remoteEnd.port = peer.port)
    return st.modify i fun s => { s with scriptFd, liveFd }
  | none =>
    if st.config.isWireClient then
      .ok (st.add { socketNew with
        addressFamily := some family
        live := { socketNew.live with
          remoteEnd := ⟨peer.ip, swapPort peer.port⟩
          localEnd := ⟨st.config.liveLocalIp, st.config.liveBindPort⟩ }
        localFamily := some st.config.liveLocalFamily
        remoteFamily := some family
        scriptFd
        liveFd })
    else .ok st

/-- System calls that get through, with the socket that their descriptor stands for, and script
packets with what is received while they run. The validating thread sniffs packets on its own. -/
inductive LiveAction where
  | socket (family : AddressFamily) (protocol : Nat) (scriptFd liveFd : Int)
  | listen (i : Nat)
  | accept (scriptFd liveFd : Int) (peer : Endpoint) (family : AddressFamily)
  | connect (i : Nat) (unspec : Bool)
  | inbound (ephemeral : UInt16) (allocated : Mem) (p : Packet)
  | outbound (ephemeral : UInt16) (p : Packet) (received : List Packet)
  | validate (ephemeral : UInt16) (p : Packet) (received : List Packet)

/-- `sniff_outbound_live_packet`, as the validating thread calls it: up to the first packet sniffed. -/
def sniffFirst (st : LiveState) : List Packet → Run (LiveState × List Sniff)
  | [] => .ok (st, [])
  | live :: received => do
    let (st, sniff) ← sniffReceived none st live
    match sniff with
    | none => sniffFirst st received
    | some sniff => return (st, [sniff])

def liveStep (st : LiveState) : LiveAction → Run (LiveState × List Sniff)
  | .socket family protocol scriptFd liveFd =>
    .ok (st.add { socketNew with state := .new, addressFamily := some family, protocol, scriptFd, liveFd }, [])
  | .listen i => .ok (st.modify i fun s => { s with state := .passiveListening }, [])
  | .accept scriptFd liveFd peer family => do return (← acceptSocket st scriptFd liveFd peer family, [])
  | .connect i unspec => .ok (st.modify i (.connect st.config unspec), [])
  | .inbound ephemeral allocated p => do
    let found ← findOrCreateSocketForScriptPacket ephemeral st p .inbound
    match ← found.eventSocket with
    | .error _ => return (found.state, [])
    | .ok i => return (← injectInbound allocated i p found.state, [])
  | .outbound ephemeral p received => do
    let found ← findOrCreateSocketForScriptPacket ephemeral st p .outbound
    match ← found.eventSocket with
    | .error _ => return (found.state, [])
    | .ok i => doOutboundScriptPacket i p found.state received
  | .validate ephemeral p received => do
    let found ← findOrCreateSocketForScriptPacket ephemeral st p .outbound
    sniffFirst found.state received

def liveRun (st : LiveState) : List LiveAction → Run (LiveState × List Sniff)
  | [] => .ok (st, [])
  | action :: actions => do
    let (st, sniffs) ← liveStep st action
    let (st, others) ← liveRun st actions
    return (st, sniffs ++ others)

/-! ### What is learned -/

def isSyn (p : Packet) : Bool := p.tcp.any fun tcp => tcpSyn p.buffer tcp

/-- The numbers of a connection are those of its script packet and of a live SYN sniffed for it. -/
structure Learned (s : TestSocket) (script live : Packet) : Prop where
  opened : s.opened = some script
  scriptIsn : s.script.localIsn = segmentSeq script
  sniffed : live ∈ s.sniffed
  syn : isSyn live
  liveIsn : s.live.localIsn = segmentSeq live

/-- What holds of a socket in every state. -/
structure IsnKnown (s : TestSocket) : Prop where
  passive : s.state = .passiveSynackSent ∨ s.state = .passiveSynackAcked → ∃ script live, isSynack script ∧ Learned s script live
  active : s.state = .activeSynSent ∨ s.state = .activeSynAcked → ∃ script, isOpening script ∧ s.opened = some script ∧
    s.script.localIsn = segmentSeq script ∧ ((∃ q ∈ s.sniffed, isSyn q) → ∃ live, Learned s script live)

/-- A packet that teaches the socket what it should. The packet taken for the SYN/ACK is a SYN, and the
first SYN of a connecting socket does not carry a tuple that the socket has already, for then it is not
looked at. -/
structure Sniff.Telling (e : Sniff) : Prop where
  synack : e.socket.state = .passivePacketReceived → e.script.any isSynack → isSyn e.live
  first : e.socket.state = .activeSynSent ∨ e.socket.state = .activeSynAcked → isSyn e.live → (∀ q ∈ e.socket.sniffed, ¬isSyn q) →
    ¬(getPacketTuple e.live).toOption.any (e.socket.isTuple e.live · (socketGetOutbound e.socket.live))

instance (e : Sniff) : Decidable e.Telling :=
  decidable_of_iff
    ((e.socket.state = .passivePacketReceived → e.script.any isSynack → isSyn e.live) ∧
      (e.socket.state = .activeSynSent ∨ e.socket.state = .activeSynAcked → isSyn e.live → (∀ q ∈ e.socket.sniffed, ¬isSyn q) →
        ¬(getPacketTuple e.live).toOption.any (e.socket.isTuple e.live · (socketGetOutbound e.socket.live))))
    ⟨fun ⟨synack, first⟩ => ⟨synack, first⟩, fun ⟨synack, first⟩ => ⟨synack, first⟩⟩

def LiveState.Known (st : LiveState) : Prop := ∀ s ∈ st.sockets, IsnKnown s

def SocketPhase.Early (phase : SocketPhase) : Prop :=
  phase = .init ∨ phase = .new ∨ phase = .passiveListening ∨ phase = .passivePacketReceived ∨ phase = .activeConnecting

theorem IsnKnown.early (early : s.state.Early) : IsnKnown s := by
  constructor
  all_goals
    intro late
    rcases early with same | same | same | same | same <;> simp [same] at late

theorem IsnKnown.congr {t : TestSocket} (known : IsnKnown s) (state : t.state = s.state) (opened : t.opened = s.opened)
    (sniffed : t.sniffed = s.sniffed) (scriptIsn : t.script.localIsn = s.script.localIsn)
    (liveIsn : t.live.localIsn = s.live.localIsn) : IsnKnown t := by
  have learned {script live : Packet} (before : Learned s script live) : Learned t script live :=
    ⟨opened.trans before.opened, scriptIsn.trans before.scriptIsn, sniffed ▸ before.sniffed, before.syn,
      liveIsn.trans before.liveIsn⟩
  constructor
  · intro late
    obtain ⟨script, live, synack, before⟩ := known.passive (state ▸ late)
    exact ⟨script, live, synack, learned before⟩
  · intro late
    obtain ⟨script, opening, isOpened, isn, first⟩ := known.active (state ▸ late)
    refine ⟨script, opening, opened.trans isOpened, scriptIsn.trans isn, fun some => ?_⟩
    rw [sniffed] at some
    obtain ⟨live, before⟩ := first some
    exact ⟨live, learned before⟩

end TcpFuzz
