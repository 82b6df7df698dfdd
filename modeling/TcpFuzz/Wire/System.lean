import Mathlib.Logic.Relation
import TcpFuzz.Packet.Header
import TcpFuzz.Syscall.Thread

/-! In remote mode the client (`wire_client.c`, under the loop of `run.c`) executes all but the packet events and the
server (`wire_server.c`) the packet events. They synchronize only where a run of packet events begins and ends. -/

namespace TcpFuzz.Wire
open Syscall (EventType)

variable {n a b j : Nat} {packets : Bool}

inductive EventTime where
  | absolute | relative | any | absoluteRange | relativeRange
deriving DecidableEq, Repr

structure Event where
  type : EventType
  lineNumber : Nat
  timeType : EventTime
  timeUsecs : Int
deriving DecidableEq, Repr

def isEventTimeAbsolute (e : Event) : Bool := e.timeType = .absolute ∨ e.timeType = .absoluteRange

/-- `get_next_event` after `n` events: the next one, nothing at the end, or an error. An empty list
has no first event to look at. -/
def getNextEvent (scriptPath : String) (script : List Event) : Nat → Run (Except String (Option Event))
  | 0 =>
    match script with
    | [] => .error .invalidAccess
    | first :: _ =>
      if first.timeUsecs ≠ 0 then .ok (.error s!"{scriptPath}:{first.lineNumber}: first event should be at time 0\n")
      else .ok (.ok (some first))
  | n + 1 =>
    match script[n]?, script[n + 1]? with
    | some last, some e =>
      if isEventTimeAbsolute last ∧ isEventTimeAbsolute e ∧ e.timeUsecs < last.timeUsecs then
        .ok (.error (s!"{scriptPath}:{e.lineNumber}: time goes backward in script " ++
          s!"from {last.timeUsecs} usec to {e.timeUsecs} usec\n"))
      else .ok (.ok (some e))
    | _, _ => .ok (.ok none)

def Accepted (scriptPath : String) (script : List Event) : Prop :=
  ∀ n ≤ script.length, getNextEvent scriptPath script n = .ok (.ok script[n]?)

/-! ### Messages and counters -/

inductive Message where
  | start (numEvents : UInt32)
  | warn (warning : String)
  | done (failed : Bool) (numEvents : UInt32) (error : String)
deriving DecidableEq, Repr

/-- The counters that both sides keep; the number of events is the position in the script. -/
structure Peer where
  lastEventType : Option EventType
  numEvents : Nat
deriving DecidableEq, Repr

def isPacket (event : Option Event) : Bool := event.any fun e => e.type = .packet

namespace Peer

def starts (p : Peer) (event : Option Event) : Bool := isPacket event && p.lastEventType != some .packet

def ends (p : Peer) (event : Option Event) : Bool := !isPacket event && p.lastEventType == some .packet

def count (p : Peer) (event : Option Event) : Peer :=
  match event with
  | some e => ⟨some e.type, p.numEvents + 1⟩
  | none => p

end Peer

inductive ClientPhase where
  | loop
  | awaitDone (event : Option Event)
  | process (e : Event)
  | finished
  | died (error : String)
  | badServer
deriving DecidableEq, Repr

inductive ServerPhase where
  | loop
  | awaitStart (e : Event)
  | run (e : Event)
  | finished
  | failed
  | badClient
deriving DecidableEq, Repr

/-- Both sides, the messages under way, and how many runs were started and answered. -/
structure System where
  client : Peer
  clientPhase : ClientPhase
  server : Peer
  serverPhase : ServerPhase
  toServer : List Message
  toClient : List Message
  started : Nat
  answered : Nat

namespace System

def new : System := ⟨⟨none, 0⟩, .loop, ⟨none, 0⟩, .loop, [], [], 0, 0⟩

/-! ### The client -/

/-- Where `wire_client_next_event` returns to: the loop of `run_script` takes the event. -/
def clientReturn (s : System) (event : Option Event) : System :=
  { s with
    client := s.client.count event
    clientPhase := match event with | some e => .process e | none => .finished }

def sendPacketsStart (s : System) : System :=
  { s with toServer := s.toServer ++ [.start (UInt32.ofNat s.client.numEvents)], started := s.started + 1 }

def clientNextEvent (s : System) (event : Option Event) : System :=
  if s.client.starts event then s.sendPacketsStart.clientReturn event
  else if s.client.ends event then { s with clientPhase := .awaitDone event }
  else s.clientReturn event

/-- One message in the loop of `wire_client_receive_packets_done`. -/
def clientReceive (s : System) (event : Option Event) : Message → System
  | .warn _ => s
  | .done true _ error => { s with clientPhase := .died error }
  | .done false numEvents _ =>
    if numEvents = UInt32.ofNat s.client.numEvents then s.clientReturn event else { s with clientPhase := .badServer }
  | .start _ => { s with clientPhase := .badServer }

/-! ### The server -/

def serverReturn (s : System) (event : Option Event) : System :=
  { s with
    server := s.server.count event
    serverPhase := match event with
      | some e => if e.type = .packet then .run e else .loop
      | none => .finished }

def sendPacketsDone (s : System) (failed : Bool) (error : String) : System :=
  { s with toClient := s.toClient ++ [.done failed (UInt32.ofNat s.server.numEvents) error], answered := s.answered + 1 }

def serverNextEvent (s : System) (event : Option Event) : System :=
  match event with
  | some e =>
    if s.server.starts (some e) then { s with serverPhase := .awaitStart e }
    else if s.server.ends (some e) then (s.sendPacketsDone false "").serverReturn (some e)
    else s.serverReturn (some e)
  | none => if s.server.ends none then (s.sendPacketsDone false "").serverReturn none else s.serverReturn none

def serverReceive (s : System) (e : Event) : Message → System
  | .start numEvents =>
    if numEvents = UInt32.ofNat s.server.numEvents then s.serverReturn (some e) else { s with serverPhase := .badClient }
  | _ => { s with serverPhase := .badClient }

inductive Outcome where
  | ok
  | warn (warning : String)
  | err (error : String)

def serverRan (s : System) : Outcome → System
  | .ok => { s with serverPhase := .loop }
  | .warn warning => { s with serverPhase := .loop, toClient := s.toClient ++ [.warn warning] }
  | .err error => { s.sendPacketsDone true error with serverPhase := .failed }

/-! ### Runs -/

inductive Step (scriptPath : String) (script : List Event) (s : System) : System → Prop where
  | clientFetch (event : Option Event) (pc : s.clientPhase = .loop)
      (next : getNextEvent scriptPath script s.client.numEvents = .ok (.ok event)) :
      Step scriptPath script s (s.clientNextEvent event)
  | clientRead (event : Option Event) (m : Message) (rest : List Message) (pc : s.clientPhase = .awaitDone event)
      (arrived : s.toClient = m :: rest) : Step scriptPath script s (({ s with toClient := rest } : System).clientReceive event m)
  | clientDone (e : Event) (pc : s.clientPhase = .process e) : Step scriptPath script s { s with clientPhase := .loop }
  | serverFetch (event : Option Event) (pc : s.serverPhase = .loop)
      (next : getNextEvent scriptPath script s.server.numEvents = .ok (.ok event)) :
      Step scriptPath script s (s.serverNextEvent event)
  | serverRead (e : Event) (m : Message) (rest : List Message) (pc : s.serverPhase = .awaitStart e)
      (arrived : s.toServer = m :: rest) : Step scriptPath script s (({ s with toServer := rest } : System).serverReceive e m)
  | serverRan (e : Event) (outcome : Outcome) (pc : s.serverPhase = .run e) : Step scriptPath script s (s.serverRan outcome)

abbrev Run (scriptPath : String) (script : List Event) : System → System → Prop :=
  Relation.ReflTransGen (Step scriptPath script)

end System

/-! ### Positions -/

variable {scriptPath : String} {script : List Event}

theorem getNextEvent_eq {event : Option Event} (next : getNextEvent scriptPath script n = .ok (.ok event)) :
    event = script[n]? := by
  cases n with
  | zero =>
    cases script with
    | nil => cases next
    | cons first rest =>
      simp only [getNextEvent] at next
      split at next
      · cases next
      · exact (Except.ok.inj (Except.ok.inj next)).symm
  | succ n =>
    simp only [getNextEvent] at next
    split at next
    · rename_i last e before here
      split at next
      · cases next
      · exact (Except.ok.inj (Except.ok.inj next)).symm.trans here.symm
    · rename_i absent
      have ended : script[n + 1]? = none := by
        cases here : script[n + 1]? with
        | none => rfl
        | some e =>
          have inside := (List.getElem?_eq_some_iff.mp here).1
          have before : script[n]? = some script[n] := List.getElem?_eq_getElem (by omega)
          exact (absent _ _ before here).elim
      rw [ended]
      exact (Except.ok.inj (Except.ok.inj next)).symm

def Span (script : List Event) (packets : Bool) (a b : Nat) : Prop :=
  ∀ j, a ≤ j → j < b → isPacket script[j]? = packets

theorem Span.snoc (span : Span script packets a b) (here : isPacket script[b]? = packets) :
    Span script packets a (b + 1) := by
  intro j lower upper
  by_cases last : j = b
  · rw [last]; exact here
  · exact span j lower (by omega)

theorem Span.tail (span : Span script packets a b) : Span script packets (a + 1) b :=
  fun j lower upper => span j (by omega) upper

theorem Span.single (here : isPacket script[a]? = packets) : Span script packets a (a + 1) := by
  intro j lower upper
  obtain rfl : j = a := by omega
  exact here

theorem Span.empty (ended : b ≤ a) : Span script packets a b :=
  fun j lower upper => absurd upper (by omega)

theorem Span.le (span : Span script packets a b) (other : isPacket script[j]? = !packets)
    (lower : a ≤ j) : b ≤ j := by
  by_contra upper
  have inside := span j lower (by omega)
  rw [inside] at other
  cases packets <;> cases other

def Open (script : List Event) (n : Nat) : Prop := 0 < n ∧ isPacket script[n - 1]? = true

theorem Open.of_span (before : a < n) (span : Span script true a n) : Open script n :=
  ⟨by omega, span (n - 1) (by omega) (by omega)⟩

theorem not_open_succ (here : isPacket script[n]? = false) : ¬ Open script (n + 1) := by
  intro ⟨_, packet⟩
  rw [Nat.add_sub_cancel, here] at packet
  cases packet

def Peer.Tracks (script : List Event) (p : Peer) : Prop :=
  p.numEvents ≤ script.length ∧ (p.lastEventType = some .packet ↔ Open script p.numEvents)

theorem Peer.Tracks.count {p : Peer} (tracks : p.Tracks script) : (p.count script[p.numEvents]?).Tracks script := by
  cases here : script[p.numEvents]? with
  | none => exact tracks
  | some e =>
    have inside := (List.getElem?_eq_some_iff.mp here).1
    refine ⟨inside, ?_⟩
    simp [Peer.count, Open, here, isPacket]

theorem Peer.Tracks.starts {p : Peer} (tracks : p.Tracks script) (event : Option Event) :
    p.starts event = true ↔ isPacket event = true ∧ ¬ Open script p.numEvents := by
  simp [Peer.starts, ← tracks.2]

theorem Peer.Tracks.ends {p : Peer} (tracks : p.Tracks script) (event : Option Event) :
    p.ends event = true ↔ isPacket event = false ∧ Open script p.numEvents := by
  simp [Peer.ends, ← tracks.2]

end TcpFuzz.Wire
