import Mathlib.Data.List.TakeWhile
import TcpFuzz.Wire.Frames

/-! How a session is set up: `wire_client_init` sends what the server needs to know, `wire_server_thread` reads it, parses
the script and says that it is ready, and only then does the client start its script. -/

namespace TcpFuzz.Wire
open Bytes

structure Offer where
  argv : List CString
  scriptPath : CString
  script : List UInt8
  etherAddr : Vector UInt8 6

def Offer.args (o : Offer) : List UInt8 := (wireClientSerializeArgv o.argv).getD []

def Offer.frames (o : Offer) : List WireMessage :=
  [⟨WireOp.commandLineArgs.code, o.args⟩, ⟨WireOp.scriptPath.code, o.scriptPath.chars⟩, ⟨WireOp.script.code, o.script⟩,
    ⟨WireOp.hardwareAddr.code, o.etherAddr.toList⟩]

def serverReady : WireMessage := ⟨WireOp.serverReady.code, []⟩
def clientStarting : WireMessage := ⟨WireOp.clientStarting.code, []⟩

inductive ClientSetup where
  | sending (left : List WireMessage)
  | awaitReady
  | initialized
  | started
  | badServer (error : String)
deriving DecidableEq

inductive ServerSetup where
  | receiveArgs
  | receiveScriptPath
  | receiveScript
  | receiveHwAddress
  | parseScript
  | sendReady
  | receiveClientStarting
  | runScript
  | badClient (error : String)
  /-- The last `strdup` has left the buffer. -/
  | overread
  | scriptRefused
deriving DecidableEq

structure Setup where
  client : ClientSetup
  server : ServerSetup
  argv : List (List UInt8)
  scriptPath : List UInt8
  scriptBuffer : List UInt8
  clientEtherAddr : List UInt8
  toServer : List WireMessage
  toClient : List WireMessage

namespace Setup

def new (o : Offer) : Setup := ⟨.sending o.frames, .receiveArgs, [], [], [], [], [], []⟩

def clientReceiveServerReady (s : Setup) (m : WireMessage) : Setup :=
  if m.op ≠ WireOp.serverReady.code then { s with client := .badServer "bad wire server: expected WIRE_SERVER_READY" }
  else if m.payload.length ≠ 0 then { s with client := .badServer "bad wire server: bad WIRE_SERVER_READY len" }
  else { s with client := .initialized }

/-- The check of the operation that every receiving function of the server starts with. -/
def expecting (s : Setup) (op : WireOp) (name : String) (m : WireMessage) (received : Setup) : Setup :=
  if m.op ≠ op.code then { s with server := .badClient ("bad wire client: expected " ++ name ++ "\n") } else received

/-- The arguments are taken apart where they lie in the buffer. -/
def serverReceiveArgs (s : Setup) (m : WireMessage) (beyond : List UInt8) : Setup :=
  s.expecting .commandLineArgs "WIRE_COMMAND_LINE_ARGS" m
    (match (wireServerUnserializeArgv (m.payload ++ beyond) m.payload.length).argv with
    | some argv => { s with argv, server := .receiveScriptPath }
    | none => { s with server := .overread })

/-- What the server does with a frame, at the other places where it reads one. -/
def serverReceive (s : Setup) (m : WireMessage) : Option Setup :=
  match s.server with
  | .receiveScriptPath => some (s.expecting .scriptPath "WIRE_SCRIPT_PATH" m
      { s with scriptPath := untilNul m.payload, server := .receiveScript })
  | .receiveScript => some (s.expecting .script "WIRE_SCRIPT" m
      { s with scriptBuffer := untilNul m.payload, server := .receiveHwAddress })
  | .receiveHwAddress => some (s.expecting .hardwareAddr "WIRE_HARDWARE_ADDR" m
      (if m.payload.length ≠ 6 then { s with server := .badClient "bad wire client: bad hw address length\n" }
      else { s with clientEtherAddr := m.payload, server := .parseScript }))
  | .receiveClientStarting => some (s.expecting .clientStarting "WIRE_CLIENT_STARTING" m
      (if m.payload.length ≠ 0 then { s with server := .badClient "bad wire client: bad WIRE_CLIENT_STARTING length\n" }
      else { s with server := .runScript }))
  | _ => none

inductive Step (s : Setup) : Setup → Prop where
  | clientSend (m : WireMessage) (left : List WireMessage) (pc : s.client = .sending (m :: left)) :
      Step s { s with client := .sending left, toServer := s.toServer ++ [m] }
  | clientSent (pc : s.client = .sending []) : Step s { s with client := .awaitReady }
  | clientRead (m : WireMessage) (rest : List WireMessage) (pc : s.client = .awaitReady) (arrived : s.toClient = m :: rest) :
      Step s (({ s with toClient := rest } : Setup).clientReceiveServerReady m)
  | clientStart (pc : s.client = .initialized) :
      Step s { s with client := .started, toServer := s.toServer ++ [clientStarting] }
  /-- The buffer of the first message has room for twice its bytes. -/
  | serverReadArgs (m : WireMessage) (rest : List WireMessage) (beyond : List UInt8) (pc : s.server = .receiveArgs)
      (arrived : s.toServer = m :: rest) (room : beyond.length = m.payload.length) :
      Step s (({ s with toServer := rest } : Setup).serverReceiveArgs m beyond)
  | serverRead (m : WireMessage) (rest : List WireMessage) (s' : Setup) (arrived : s.toServer = m :: rest)
      (received : ({ s with toServer := rest } : Setup).serverReceive m = some s') : Step s s'
  | parsed (accepts : Bool) (pc : s.server = .parseScript) :
      Step s { s with server := if accepts then .sendReady else .scriptRefused }
  | serverReady (pc : s.server = .sendReady) :
      Step s { s with server := .receiveClientStarting, toClient := s.toClient ++ [serverReady] }

abbrev Run : Setup → Setup → Prop := Relation.ReflTransGen Step

end Setup

/-- The frames that the client has yet to send. -/
def ClientSetup.left : ClientSetup → List WireMessage
  | .sending left => left ++ [clientStarting]
  | .awaitReady | .initialized => [clientStarting]
  | .started | .badServer _ => []

/-- The frames that the server has yet to read. -/
def ServerSetup.awaited (o : Offer) : ServerSetup → List WireMessage
  | .receiveArgs => o.frames ++ [clientStarting]
  | .receiveScriptPath | .overread => o.frames.drop 1 ++ [clientStarting]
  | .receiveScript => o.frames.drop 2 ++ [clientStarting]
  | .receiveHwAddress => o.frames.drop 3 ++ [clientStarting]
  | .parseScript | .sendReady | .receiveClientStarting | .scriptRefused => [clientStarting]
  | .runScript | .badClient _ => []

/-- How many of the client's frames the server has taken in. -/
def ServerSetup.taken : ServerSetup → Nat
  | .receiveArgs | .overread | .badClient _ => 0
  | .receiveScriptPath => 1
  | .receiveScript => 2
  | .receiveHwAddress => 3
  | _ => 4

def ClientSetup.Waiting (client : ClientSetup) : Prop := (∃ left, client = .sending left) ∨ client = .awaitReady
def ClientSetup.Admitted (client : ClientSetup) : Prop := client = .initialized ∨ client = .started
def ServerSetup.Answered (server : ServerSetup) : Prop := server = .receiveClientStarting ∨ server = .runScript

def Setup.records (s : Setup) : List (List (List UInt8)) := [s.argv, [s.scriptPath], [s.scriptBuffer], [s.clientEtherAddr]]

def Offer.records (o : Offer) : List (List (List UInt8)) :=
  [(sentArgs o.argv).map CString.chars ++ [wireServerText], [o.scriptPath.chars], [untilNul o.script], [o.etherAddr.toList]]

structure Setup.Inv (o : Offer) (s : Setup) : Prop where
  stream : s.toServer ++ s.client.left = s.server.awaited o
  good : ∀ error, s.server ≠ .badClient error
  /-- The client is admitted by the one answer of the server. -/
  answer : s.client.Waiting ∧ ¬ s.server.Answered ∧ s.toClient = [] ∨
    s.client.Waiting ∧ s.server.Answered ∧ s.toClient = [serverReady] ∨
    s.client.Admitted ∧ s.server.Answered ∧ s.toClient = []
  recorded : s.records.take s.server.taken = o.records.take s.server.taken

variable {o : Offer} {s s' : Setup}

theorem Setup.Inv.new (o : Offer) : Inv o (.new o) := by
  refine ⟨rfl, fun _ => ServerSetup.noConfusion, .inl ⟨.inl ⟨_, rfl⟩, ?_, rfl⟩, rfl⟩
  rintro (pc | pc) <;> cases pc

theorem untilNul_chars (text : CString) : untilNul text.chars = text.chars := by
  apply List.takeWhile_eq_self_iff.mpr
  intro b member
  exact decide_eq_true fun zero => text.noNul (zero ▸ member)

theorem Offer.args_eq (o : Offer) : o.args = (sentArgs o.argv).flatMap CString.wire := by
  rw [args, wireClientSerializeArgv_eq, Option.getD_some]

theorem Setup.Inv.serverReadArgs {m : WireMessage} {rest : List WireMessage} (inv : Inv o s) (pc : s.server = .receiveArgs)
    (arrived : s.toServer = m :: rest) (beyond : List UInt8) :
    Inv o (({ s with toServer := rest } : Setup).serverReceiveArgs m beyond) := by
  obtain ⟨client, server, argv, scriptPath, scriptBuffer, etherAddr, toServer, toClient⟩ := s
  obtain ⟨stream, good, answer, recorded⟩ := inv
  obtain rfl : toServer = m :: rest := arrived
  obtain rfl : server = .receiveArgs := pc
  obtain ⟨rfl, stream⟩ := List.cons.inj stream
  have decoded := (wireServerUnserializeArgv_sent (sentArgs o.argv) beyond).1
  rw [← o.args_eq] at decoded
  simp only [serverReceiveArgs, expecting, ne_eq, not_true_eq_false, if_false, decoded]
  split
  · rename_i found
    obtain rfl := Option.some.inj (Option.ite_none_right_eq_some.mp found).2
    exact ⟨stream, fun _ => ServerSetup.noConfusion, by simpa [ServerSetup.Answered] using answer, rfl⟩
  · exact ⟨stream, fun _ => ServerSetup.noConfusion, by simpa [ServerSetup.Answered] using answer, rfl⟩

/-- The frame that arrives is the one that the server waits for. -/
theorem Setup.Inv.serverRead {m : WireMessage} {rest : List WireMessage} (inv : Inv o s) (arrived : s.toServer = m :: rest)
    (received : ({ s with toServer := rest } : Setup).serverReceive m = some s') : Inv o s' := by
  obtain ⟨client, server, argv, scriptPath, scriptBuffer, etherAddr, toServer, toClient⟩ := s
  obtain ⟨stream, good, answer, recorded⟩ := inv
  obtain rfl : toServer = m :: rest := arrived
  cases server with
  | receiveScriptPath | receiveScript | receiveHwAddress | receiveClientStarting =>
    obtain ⟨rfl, stream⟩ := List.cons.inj stream
    simp only [serverReceive, expecting, ne_eq, not_true_eq_false, if_false, Vector.length_toList, clientStarting, List.length_nil,
      Option.some.injEq] at received
    subst received
    refine ⟨stream, fun _ => ServerSetup.noConfusion, ?_, ?_⟩
    · simpa [ServerSetup.Answered] using answer
    · simpa [records, Offer.records, ServerSetup.taken, untilNul_chars] using recorded
  | _ => cases received

theorem Setup.Inv.step (inv : Inv o s) (step : Step s s') : Inv o s' := by
  obtain ⟨stream, good, answer, recorded⟩ := inv
  cases step with
  | clientSend m left pc | clientSent pc | clientStart pc =>
    refine ⟨?_, good, ?_, recorded⟩
    · simpa [pc, ClientSetup.left] using stream
    · simpa [pc, ClientSetup.Waiting, ClientSetup.Admitted] using answer
  | clientRead m rest pc arrived =>
    rw [pc] at stream answer
    rcases answer with ⟨-, -, none⟩ | ⟨-, answered, one⟩ | ⟨admitted, -⟩
    · rw [none] at arrived
      cases arrived
    · rw [one] at arrived
      obtain ⟨rfl, rfl⟩ := List.cons.inj arrived
      exact ⟨stream, good, .inr (.inr ⟨.inl rfl, answered, rfl⟩), recorded⟩
    · rcases admitted with pc | pc <;> cases pc
  | serverReadArgs m rest beyond pc arrived => exact Inv.serverReadArgs ⟨stream, good, answer, recorded⟩ pc arrived beyond
  | serverRead m rest _ arrived received => exact Inv.serverRead ⟨stream, good, answer, recorded⟩ arrived received
  | parsed accepts pc =>
    rw [pc] at stream answer recorded
    cases accepts <;>
      exact ⟨stream, fun _ => ServerSetup.noConfusion, by simpa [ServerSetup.Answered] using answer, recorded⟩
  | serverReady pc =>
    rw [pc] at stream answer recorded
    refine ⟨stream, fun _ => ServerSetup.noConfusion, ?_, recorded⟩
    rcases answer with ⟨waiting, -, none⟩ | ⟨-, answered, -⟩ | ⟨-, answered, -⟩
    · exact .inr (.inl ⟨waiting, .inl rfl, by rw [none]; rfl⟩)
    all_goals rcases answered with pc | pc <;> cases pc

theorem Setup.Inv.run (inv : Inv o s) (run : Run s s') : Inv o s' := by
  induction run with
  | refl => exact inv
  | tail _ step ih => exact ih.step step

/-- A client that has sent more than the server has read has left a message for it. -/
theorem Setup.Inv.arrived (inv : Inv o s) (awaits : s.server.awaited o ≠ s.client.left) : ∃ m rest, s.toServer = m :: rest := by
  have stream := inv.stream
  cases sent : s.toServer with
  | nil =>
    rw [sent] at stream
    exact absurd stream.symm awaits
  | cons m rest => exact ⟨m, rest, rfl⟩

theorem Setup.Inv.serverReads (inv : Inv o s) (awaits : s.server.awaited o ≠ s.client.left)
    (takes : ∀ t : Setup, t.server = s.server → ∀ m, (t.serverReceive m).isSome) : ∃ s', Step s s' := by
  obtain ⟨m, rest, arrived⟩ := inv.arrived awaits
  obtain ⟨s', received⟩ := Option.isSome_iff_exists.mp (takes { s with toServer := rest } rfl m)
  exact ⟨s', .serverRead m rest s' arrived received⟩

theorem Setup.Step.sends {left : List WireMessage} (pc : s.client = .sending left) : ∃ s', Step s s' := by
  cases left with
  | nil => exact ⟨_, .clientSent pc⟩
  | cons m left => exact ⟨_, .clientSend m left pc⟩

theorem Setup.Inv.progress (inv : Inv o s) (decoded : s.server ≠ .overread) (accepted : s.server ≠ .scriptRefused) :
    s.client = .started ∧ s.server = .runScript ∧ s.toServer = [] ∧ s.toClient = [] ∨ ∃ s', Step s s' := by
  rcases inv.answer with ⟨waiting, unanswered, -⟩ | ⟨waiting, -, one⟩ | ⟨admitted, answered, none⟩
  · right
    rcases waiting with ⟨left, pc⟩ | pc
    · exact Step.sends pc
    · cases server : s.server with
      | parseScript => exact ⟨_, .parsed true server⟩
      | sendReady => exact ⟨_, .serverReady server⟩
      | overread => exact absurd server decoded
      | scriptRefused => exact absurd server accepted
      | badClient error => exact absurd server (inv.good error)
      | receiveClientStarting => exact absurd (.inl server) unanswered
      | runScript => exact absurd (.inr server) unanswered
      | receiveArgs =>
        obtain ⟨m, rest, arrived⟩ := inv.arrived (by simp [server, pc, ServerSetup.awaited, ClientSetup.left, Offer.frames])
        exact ⟨_, .serverReadArgs m rest (List.replicate m.payload.length 0) server arrived List.length_replicate⟩
      | receiveScriptPath | receiveScript | receiveHwAddress =>
        apply inv.serverReads
        · simp [server, pc, ServerSetup.awaited, ClientSetup.left, Offer.frames]
        · intro t here m
          simp [serverReceive, here, server]
  · right
    rcases waiting with ⟨left, pc⟩ | pc
    · exact Step.sends pc
    · exact ⟨_, .clientRead _ [] pc one⟩
  · rcases admitted with pc | pc
    · exact .inr ⟨_, .clientStart pc⟩
    · rcases answered with server | server
      · right
        apply inv.serverReads
        · simp [server, pc, ServerSetup.awaited, ClientSetup.left]
        · intro t here m
          simp [serverReceive, here, server]
      · have stream := inv.stream
        rw [pc, server] at stream
        exact .inl ⟨pc, server, (List.append_eq_nil_iff.mp stream).1, none⟩

def ClientSetup.rank : ClientSetup → Nat
  | .sending left => 2 * left.length + 5
  | .awaitReady => 4
  | .initialized => 3
  | .started | .badServer _ => 0

def ServerSetup.rank : ServerSetup → Nat
  | .receiveArgs | .receiveScriptPath | .receiveScript | .receiveHwAddress | .parseScript => 4
  | .sendReady => 3
  | _ => 0

/-- Every step uses up something that is left to do. -/
def Setup.remaining (s : Setup) : Nat := s.client.rank + s.server.rank + s.toServer.length + s.toClient.length

end TcpFuzz.Wire
