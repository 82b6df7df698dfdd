import Mathlib.Data.List.Forall2
import TcpFuzz.Wire.Argv
import TcpFuzz.Wire.Conn
import TcpFuzz.Wire.LockStep

/-! The messages of the lock step as `wire_client.c` and `wire_server.c` put them into frames and take them out again.
A run over frames is a run of the lock step, so no length, terminator or count is ever found wrong. -/

namespace TcpFuzz.Wire
open Bytes Bytes.Mem

inductive WireOp where
  | invalid | commandLineArgs | scriptPath | script | hardwareAddr | serverReady | clientStarting
  | packetsStart | packetsWarn | packetsDone
deriving DecidableEq, Repr

def WireOp.code : WireOp → UInt32
  | .invalid => 0
  | .commandLineArgs => 1
  | .scriptPath => 2
  | .script => 3
  | .hardwareAddr => 4
  | .serverReady => 5
  | .clientStarting => 6
  | .packetsStart => 7
  | .packetsWarn => 8
  | .packetsDone => 9

def statusOk : UInt32 := 0

/-- `htonl(STATUS_ERR)` is taken of `-1`. -/
def statusErr : UInt32 := 0xffffffff

/-- What is printed of a C string. -/
def printed (chars : List UInt8) : String := String.ofList (chars.map fun b => Char.ofNat b.toNat)

/-- The characters in front of the first NUL. -/
def untilNul (bytes : List UInt8) : List UInt8 := bytes.takeWhile (· ≠ 0)

theorem untilNul_wire (text : CString) : untilNul text.wire = text.chars := by
  have plain : ∀ b ∈ text.chars, decide (b ≠ 0) = true := by
    intro b member
    exact decide_eq_true fun zero => text.noNul (zero ▸ member)
  rw [untilNul, CString.wire, List.takeWhile_append_of_pos plain]
  simp

/-- Both sides once the server is ready, and the frames under way. -/
structure Connection where
  client : Peer
  clientPhase : ClientPhase
  server : Peer
  serverPhase : ServerPhase
  toServer : List WireMessage
  toClient : List WireMessage

/-- How `run_packet_event` ends on the server. -/
inductive PacketResult where
  | ok
  | warn (warning : CString)
  | err (error : CString)

def noText : CString := ⟨[], List.not_mem_nil⟩

namespace Connection

def new : Connection := ⟨⟨none, 0⟩, .loop, ⟨none, 0⟩, .loop, [], []⟩

def clientReturn (c : Connection) (event : Option Event) : Connection :=
  { c with
    client := c.client.count event
    clientPhase := match event with | some e => .process e | none => .finished }

def clientSendPacketsStart (c : Connection) : Connection :=
  { c with toServer := c.toServer ++ [⟨WireOp.packetsStart.code, be32Bytes (UInt32.ofNat c.client.numEvents)⟩] }

def clientNextEvent (c : Connection) (event : Option Event) : Connection :=
  if c.client.starts event then c.clientSendPacketsStart.clientReturn event
  else if c.client.ends event then { c with clientPhase := .awaitDone event }
  else c.clientReturn event

/-- `wire_client_receive_packets_done` with the frame that `wire_conn_read` returned. -/
def clientReceivePacketsDone (c : Connection) (event : Option Event) (m : WireMessage) : Connection :=
  if m.op = WireOp.packetsDone.code then
    if m.payload.length < 8 + 1 then { c with clientPhase := .badServer }
    else if m.payload.getLast? ≠ some 0 then { c with clientPhase := .badServer }
    else if (ofList m.payload).be32 0 = statusErr.toNat then
      { c with clientPhase := .died (printed (untilNul (m.payload.drop 8))) }
    else if (ofList m.payload).be32 4 ≠ (UInt32.ofNat c.client.numEvents).toNat then { c with clientPhase := .badServer }
    else c.clientReturn event
  else if m.op = WireOp.packetsWarn.code then c
  else { c with clientPhase := .badServer }

def serverReturn (c : Connection) (event : Option Event) : Connection :=
  { c with
    server := c.server.count event
    serverPhase := match event with
      | some e => if e.type = .packet then .run e else .loop
      | none => .finished }

def serverSendPacketsDone (c : Connection) (result : UInt32) (error : CString) : Connection :=
  let done := be32Bytes result ++ be32Bytes (UInt32.ofNat c.server.numEvents)
  { c with toClient := c.toClient ++ [⟨WireOp.packetsDone.code, done ++ error.wire⟩] }

def serverNextEvent (c : Connection) (event : Option Event) : Connection :=
  match event with
  | some e =>
    if c.server.starts (some e) then { c with serverPhase := .awaitStart e }
    else if c.server.ends (some e) then (c.serverSendPacketsDone statusOk noText).serverReturn (some e)
    else c.serverReturn (some e)
  | none =>
    if c.server.ends none then (c.serverSendPacketsDone statusOk noText).serverReturn none
    else c.serverReturn none

def serverReceivePacketsStart (c : Connection) (e : Event) (m : WireMessage) : Connection :=
  if m.op ≠ WireOp.packetsStart.code then { c with serverPhase := .badClient }
  else if m.payload.length ≠ 4 then { c with serverPhase := .badClient }
  else if (ofList m.payload).be32 0 ≠ (UInt32.ofNat c.server.numEvents).toNat then { c with serverPhase := .badClient }
  else c.serverReturn (some e)

def serverRunPacketEvent (c : Connection) : PacketResult → Connection
  | .ok => { c with serverPhase := .loop }
  | .warn warning => { c with serverPhase := .loop, toClient := c.toClient ++ [⟨WireOp.packetsWarn.code, warning.chars⟩] }
  | .err error => { c.serverSendPacketsDone statusErr error with serverPhase := .failed }

inductive Step (scriptPath : String) (script : List Event) (c : Connection) : Connection → Prop where
  | clientFetch (event : Option Event) (pc : c.clientPhase = .loop)
      (next : getNextEvent scriptPath script c.client.numEvents = .ok (.ok event)) :
      Step scriptPath script c (c.clientNextEvent event)
  | clientRead (event : Option Event) (m : WireMessage) (rest : List WireMessage) (pc : c.clientPhase = .awaitDone event)
      (arrived : c.toClient = m :: rest) :
      Step scriptPath script c (({ c with toClient := rest } : Connection).clientReceivePacketsDone event m)
  | clientDone (e : Event) (pc : c.clientPhase = .process e) : Step scriptPath script c { c with clientPhase := .loop }
  | serverFetch (event : Option Event) (pc : c.serverPhase = .loop)
      (next : getNextEvent scriptPath script c.server.numEvents = .ok (.ok event)) :
      Step scriptPath script c (c.serverNextEvent event)
  | serverRead (e : Event) (m : WireMessage) (rest : List WireMessage) (pc : c.serverPhase = .awaitStart e)
      (arrived : c.toServer = m :: rest) :
      Step scriptPath script c (({ c with toServer := rest } : Connection).serverReceivePacketsStart e m)
  | serverRan (e : Event) (result : PacketResult) (pc : c.serverPhase = .run e) :
      Step scriptPath script c (c.serverRunPacketEvent result)

abbrev Run (scriptPath : String) (script : List Event) : Connection → Connection → Prop :=
  Relation.ReflTransGen (Step scriptPath script)

end Connection

/-- The frame that conveys a message of the lock step. -/
inductive Framed : Message → WireMessage → Prop where
  | start (n : UInt32) : Framed (.start n) ⟨WireOp.packetsStart.code, be32Bytes n⟩
  | warn (warning : CString) : Framed (.warn (printed warning.chars)) ⟨WireOp.packetsWarn.code, warning.chars⟩
  | done (n : UInt32) (error : CString) :
      Framed (.done false n (printed error.chars)) ⟨WireOp.packetsDone.code, be32Bytes statusOk ++ be32Bytes n ++ error.wire⟩
  | failed (n : UInt32) (error : CString) :
      Framed (.done true n (printed error.chars)) ⟨WireOp.packetsDone.code, be32Bytes statusErr ++ be32Bytes n ++ error.wire⟩

structure Conveys (c : Connection) (s : System) : Prop where
  client : c.client = s.client
  clientPhase : c.clientPhase = s.clientPhase
  server : c.server = s.server
  serverPhase : c.serverPhase = s.serverPhase
  toServer : List.Forall₂ Framed s.toServer c.toServer
  toClient : List.Forall₂ Framed s.toClient c.toClient

theorem done_fields (result n : UInt32) (error : CString) :
    let payload := be32Bytes result ++ be32Bytes n ++ error.wire
    ¬ payload.length < 8 + 1 ∧ payload.getLast? = some 0 ∧ (ofList payload).be32 0 = result.toNat ∧
      (ofList payload).be32 4 = n.toNat ∧ untilNul (payload.drop 8) = error.chars := by
  intro payload
  have first := be32_be32Bytes [] result (be32Bytes n ++ error.wire)
  have second := be32_be32Bytes (be32Bytes result) n error.wire
  rw [List.nil_append, ← List.append_assoc] at first
  rw [← List.append_assoc] at second
  have rest : payload.drop 8 = error.wire := List.drop_left' rfl
  refine ⟨?_, ?_, first, second, ?_⟩
  · simp only [payload, CString.wire, List.length_append, be32Bytes_length, List.length_singleton]
    omega
  · simp [payload, CString.wire]
  · rw [rest, untilNul_wire]

variable {scriptPath : String} {script : List Event} {c : Connection} {s : System} {event : Option Event}

theorem Conveys.clientReturn (conveys : Conveys c s) : Conveys (c.clientReturn event) (s.clientReturn event) := by
  obtain ⟨client, -, server, serverPhase, toServer, toClient⟩ := conveys
  exact ⟨congrArg (Peer.count · event) client, rfl, server, serverPhase, toServer, toClient⟩

theorem Conveys.serverReturn (conveys : Conveys c s) : Conveys (c.serverReturn event) (s.serverReturn event) := by
  obtain ⟨client, clientPhase, server, -, toServer, toClient⟩ := conveys
  exact ⟨client, clientPhase, congrArg (Peer.count · event) server, rfl, toServer, toClient⟩

theorem Conveys.atClient (conveys : Conveys c s) (phase : ClientPhase) :
    Conveys { c with clientPhase := phase } { s with clientPhase := phase } :=
  { conveys with clientPhase := rfl }

theorem Conveys.atServer (conveys : Conveys c s) (phase : ServerPhase) :
    Conveys { c with serverPhase := phase } { s with serverPhase := phase } :=
  { conveys with serverPhase := rfl }

theorem Conveys.sendStart (conveys : Conveys c s) : Conveys c.clientSendPacketsStart s.sendPacketsStart := by
  refine { conveys with toServer := List.rel_append conveys.toServer (.cons ?_ .nil) }
  rw [conveys.client]
  exact .start _

theorem Conveys.sendDone (conveys : Conveys c s) (error : CString) :
    Conveys (c.serverSendPacketsDone statusOk error) (s.sendPacketsDone false (printed error.chars)) := by
  refine { conveys with toClient := List.rel_append conveys.toClient (.cons ?_ .nil) }
  rw [conveys.server]
  exact .done _ error

theorem Conveys.clientNextEvent (conveys : Conveys c s) (event : Option Event) :
    Conveys (c.clientNextEvent event) (s.clientNextEvent event) := by
  have starts : c.client.starts event = s.client.starts event := by rw [conveys.client]
  have ends : c.client.ends event = s.client.ends event := by rw [conveys.client]
  unfold Connection.clientNextEvent System.clientNextEvent
  rw [starts, ends]
  split
  · exact conveys.sendStart.clientReturn
  split
  · exact conveys.atClient _
  · exact conveys.clientReturn

theorem Conveys.serverNextEvent (conveys : Conveys c s) (event : Option Event) :
    Conveys (c.serverNextEvent event) (s.serverNextEvent event) := by
  have answered := conveys.sendDone noText
  have starts : c.server.starts event = s.server.starts event := by rw [conveys.server]
  have ends : c.server.ends event = s.server.ends event := by rw [conveys.server]
  unfold Connection.serverNextEvent System.serverNextEvent
  cases event with
  | none =>
    simp only [ends]
    split
    · exact answered.serverReturn
    · exact conveys.serverReturn
  | some e =>
    simp only [starts, ends]
    split
    · exact conveys.atServer _
    split
    · exact answered.serverReturn
    · exact conveys.serverReturn

theorem Conveys.clientReceive {m : Message} {frame : WireMessage} (conveys : Conveys c s) (framed : Framed m frame)
    (event : Option Event) : Conveys (c.clientReceivePacketsDone event frame) (s.clientReceive event m) := by
  cases framed with
  | start n => exact conveys.atClient .badServer
  | warn warning => exact conveys
  | done n error =>
    obtain ⟨long, ends, result, count, -⟩ := done_fields statusOk n error
    have fine : ¬ statusOk.toNat = statusErr.toNat := by decide
    have same : (UInt32.ofNat c.client.numEvents) = UInt32.ofNat s.client.numEvents := by rw [conveys.client]
    rw [← result] at fine
    rw [Connection.clientReceivePacketsDone, if_pos rfl, if_neg long, if_neg (not_not_intro ends), if_neg fine, count, same,
      System.clientReceive]
    simp only [ne_eq, UInt32.toNat_inj, ite_not]
    split
    · exact conveys.clientReturn
    · exact conveys.atClient _
  | failed n error =>
    obtain ⟨long, ends, result, -, text⟩ := done_fields statusErr n error
    rw [Connection.clientReceivePacketsDone, if_pos rfl, if_neg long, if_neg (not_not_intro ends), if_pos result, text]
    exact conveys.atClient _

theorem Conveys.serverReceive {m : Message} {frame : WireMessage} (conveys : Conveys c s) (framed : Framed m frame)
    (e : Event) : Conveys (c.serverReceivePacketsStart e frame) (s.serverReceive e m) := by
  cases framed with
  | start n =>
    have read : (ofList (be32Bytes n)).be32 0 = n.toNat := by simpa using be32_be32Bytes [] n []
    have same : (UInt32.ofNat c.server.numEvents) = UInt32.ofNat s.server.numEvents := by rw [conveys.server]
    rw [Connection.serverReceivePacketsStart, if_neg (not_not_intro rfl), if_neg (not_not_intro (be32Bytes_length n)), read, same,
      System.serverReceive]
    simp only [ne_eq, UInt32.toNat_inj, ite_not]
    split
    · exact conveys.serverReturn
    · exact conveys.atServer _
  | warn warning | done n error | failed n error => exact conveys.atServer .badClient

theorem Conveys.serverRan (conveys : Conveys c s) (result : PacketResult) :
    ∃ outcome, Conveys (c.serverRunPacketEvent result) (s.serverRan outcome) := by
  cases result with
  | ok => exact ⟨.ok, conveys.atServer _⟩
  | warn warning =>
    refine ⟨.warn (printed warning.chars), { conveys.atServer .loop with toClient := ?_ }⟩
    exact List.rel_append conveys.toClient (.cons (.warn warning) .nil)
  | err error =>
    refine ⟨.err (printed error.chars), { conveys.atServer .failed with toClient := ?_ }⟩
    refine List.rel_append conveys.toClient (.cons ?_ .nil)
    rw [conveys.server]
    exact .failed _ error

theorem Conveys.step {c' : Connection} (conveys : Conveys c s) (step : Connection.Step scriptPath script c c') :
    ∃ s', System.Step scriptPath script s s' ∧ Conveys c' s' := by
  cases step with
  | clientFetch event pc next =>
    rw [conveys.client] at next
    exact ⟨_, .clientFetch event (conveys.clientPhase ▸ pc) next, conveys.clientNextEvent event⟩
  | clientRead event frame rest pc arrived =>
    obtain ⟨m, later, framed, others, here⟩ := List.forall₂_cons_right_iff.mp (arrived ▸ conveys.toClient)
    refine ⟨_, .clientRead event m later (conveys.clientPhase ▸ pc) here, ?_⟩
    have left : Conveys { c with toClient := rest } { s with toClient := later } := { conveys with toClient := others }
    exact left.clientReceive framed event
  | clientDone e pc => exact ⟨_, .clientDone e (conveys.clientPhase ▸ pc), conveys.atClient _⟩
  | serverFetch event pc next =>
    rw [conveys.server] at next
    exact ⟨_, .serverFetch event (conveys.serverPhase ▸ pc) next, conveys.serverNextEvent event⟩
  | serverRead e frame rest pc arrived =>
    obtain ⟨m, later, framed, others, here⟩ := List.forall₂_cons_right_iff.mp (arrived ▸ conveys.toServer)
    refine ⟨_, .serverRead e m later (conveys.serverPhase ▸ pc) here, ?_⟩
    have left : Conveys { c with toServer := rest } { s with toServer := later } := { conveys with toServer := others }
    exact left.serverReceive framed e
  | serverRan e result pc =>
    obtain ⟨outcome, after⟩ := conveys.serverRan result
    exact ⟨_, .serverRan e outcome (conveys.serverPhase ▸ pc), after⟩

theorem Conveys.run {c' : Connection} (conveys : Conveys c s) (run : Connection.Run scriptPath script c c') :
    ∃ s', System.Run scriptPath script s s' ∧ Conveys c' s' := by
  induction run with
  | refl => exact ⟨s, .refl, conveys⟩
  | tail _ step ih =>
    obtain ⟨s₁, earlier, between⟩ := ih
    obtain ⟨s', last, after⟩ := between.step step
    exact ⟨s', earlier.tail last, after⟩

/-- Where the lock step can go on, so can the two sides over the frames. -/
theorem Conveys.moves {s' : System} (conveys : Conveys c s) (step : System.Step scriptPath script s s') :
    ∃ c', Connection.Step scriptPath script c c' := by
  cases step with
  | clientFetch event pc next => exact ⟨_, .clientFetch event (conveys.clientPhase.trans pc) (conveys.client ▸ next)⟩
  | clientRead event m rest pc arrived =>
    obtain ⟨frame, later, -, -, here⟩ := List.forall₂_cons_left_iff.mp (arrived ▸ conveys.toClient)
    exact ⟨_, .clientRead event frame later (conveys.clientPhase.trans pc) here⟩
  | clientDone e pc => exact ⟨_, .clientDone e (conveys.clientPhase.trans pc)⟩
  | serverFetch event pc next => exact ⟨_, .serverFetch event (conveys.serverPhase.trans pc) (conveys.server ▸ next)⟩
  | serverRead e m rest pc arrived =>
    obtain ⟨frame, later, -, -, here⟩ := List.forall₂_cons_left_iff.mp (arrived ▸ conveys.toServer)
    exact ⟨_, .serverRead e frame later (conveys.serverPhase.trans pc) here⟩
  | serverRan e outcome pc => exact ⟨_, .serverRan e .ok (conveys.serverPhase.trans pc)⟩

theorem Conveys.new : Conveys Connection.new System.new := ⟨rfl, rfl, rfl, rfl, .nil, .nil⟩

/-- The two sides over frames run in lock step: each run is one of the lock step, neither side ever finds a frame
bad, and as long as no packet event fails they go on until both are at the end with no frame left. -/
theorem frames_lock_step (scriptPath : String) (script : List Event) (accepted : Accepted scriptPath script) (c : Connection)
    (run : Connection.Run scriptPath script Connection.new c) :
    c.clientPhase ≠ .badServer ∧ c.serverPhase ≠ .badClient ∧
    (∃ s, System.Run scriptPath script System.new s ∧ Conveys c s ∧
      ∀ c', Connection.Step scriptPath script c c' → ∃ s', Conveys c' s' ∧ s'.remaining script < s.remaining script) ∧
    (c.serverPhase ≠ .failed →
      (c.clientPhase = .finished ∧ c.serverPhase = .finished ∧ c.toServer = [] ∧ c.toClient = []) ∨
        ∃ c', Connection.Step scriptPath script c c') := by
  obtain ⟨s, reached, conveys⟩ := Conveys.new.run run
  have inv := (Inv.new script).run reached
  have bad := inv.not_bad
  refine ⟨conveys.clientPhase ▸ bad.1, conveys.serverPhase ▸ bad.2, ⟨s, reached, conveys, fun c' step => ?_⟩, fun fine => ?_⟩
  · obtain ⟨s', moved, after⟩ := conveys.step step
    exact ⟨s', after, inv.step_remaining moved⟩
  · rw [conveys.serverPhase] at fine
    rcases inv.progress accepted fine with ⟨client, server, toServer, toClient, -⟩ | ⟨s', moved⟩
    · exact .inl ⟨conveys.clientPhase.trans client, conveys.serverPhase.trans server,
        List.forall₂_nil_left_iff.mp (toServer ▸ conveys.toServer), List.forall₂_nil_left_iff.mp (toClient ▸ conveys.toClient)⟩
    · exact .inr (conveys.moves moved)

/-- The server has run the packet and is finished; the client has yet to read that it is. -/
theorem frames_lock_step_packet :
    ∃ c, Connection.Run "a.pkt" [⟨.packet, 1, .absolute, 0⟩] Connection.new c ∧ c.serverPhase = .finished ∧ c.toServer = [] ∧
      c.toClient.length = 1 ∧ c.clientPhase = .awaitDone none ∧ ∃ c', Connection.Step "a.pkt" [⟨.packet, 1, .absolute, 0⟩] c c' := by
  have accepted : Accepted "a.pkt" [⟨.packet, 1, .absolute, 0⟩] := by
    intro n bound
    have few : n = 0 ∨ n = 1 := by simp at bound; omega
    obtain rfl | rfl := few <;> rfl
  have started : Connection.Run "a.pkt" [⟨.packet, 1, .absolute, 0⟩] Connection.new _ := .single (.clientFetch _ rfl rfl)
  have served := ((started.tail (.serverFetch _ rfl rfl)).tail (.serverRead _ _ _ rfl rfl)).tail (.serverRan _ .ok rfl)
  have run := ((served.tail (.serverFetch _ rfl rfl)).tail (.clientDone _ rfl)).tail (.clientFetch _ rfl rfl)
  obtain ⟨-, -, -, progress⟩ := frames_lock_step _ _ accepted _ run
  refine ⟨_, run, rfl, rfl, rfl, rfl, (progress nofun).resolve_left ?_⟩
  rintro ⟨phase, -⟩
  cases phase

end TcpFuzz.Wire
