import TcpFuzz.Fuzz.Report
import TcpFuzz.Fuzz.Tracks

/-! Unless it fuzzes only once, the second run does to Linux what the first one did to the stack under test, however
differently the two answer. -/

namespace TcpFuzz
open Bytes Mem Traced
open Syscall (SyscallSpec)

variable {n i : Nat} {e : ScriptEvent} {q : Packet} {noBackground : Bool} {t : List Action}
  {script : List ScriptEvent} {p : Process}

section

variable {σ σ' : Type} {config : FuzzOptions} {script : List ScriptEvent} {file : List UInt8} {known : Prop} {rest : List Nat}
  {p p' : Process} {stack : Outside σ} {linux : Outside σ'}

def EventBody.shape : EventBody → Nat
  | .packet _ => 0
  | .syscall _ => 1
  | .bogus => 2

def Cue.shape : Cue → Nat
  | .packet .. => 0
  | .counted _ | .syscall _ => 1
  | .bogus => 2

theorem EventBody.cue_shape (handshake refills : Bool) (lineNumber : Nat) (body : EventBody) :
    (body.cue handshake refills lineNumber).shape = body.shape := by
  cases body with
  | packet p => rfl
  | syscall s =>
    simp only [EventBody.cue]
    split <;> rfl
  | bogus => rfl

theorem Descends.shape {body : EventBody} (found : script[i]? = some e)
    (descends : Descends config script i body) : body.shape = e.body.shape := by
  have same := congrArg (fun cue => cue.2.shape) (descends.cues found ⟨e, found, rfl⟩)
  simpa only [ScriptEvent.cue, EventBody.cue_shape] using same

theorem Descends.packet {p : Packet} (found : script[i]? = some e)
    (direction : q.direction = p.direction)
    (handshake : config.fuzzesHandshake = true → handshakeFlagsOf q = handshakeFlagsOf p)
    (filled : config.fuzzesHandshake = false → refills script e.lineNumber = true → fillPayload q = fillPayload p)
    (descends : Descends config script i (.packet p)) : Descends config script i (.packet q) := by
  obtain ⟨e₁, found₁, cues⟩ := descends
  obtain rfl : e₁ = e := Option.some.inj (found₁.symm.trans found)
  refine ⟨e₁, found, ?_⟩
  rw [← cues]
  simp only [ScriptEvent.cue, EventBody.cue, direction]
  cases fuzzes : config.fuzzesHandshake with
  | true => simp [handshake fuzzes]
  | false =>
    cases again : refills script e₁.lineNumber with
    | true => simp [filled fuzzes again]
    | false => rfl

theorem Descends.packets {p p' : Packet} (found : script[i]? = some e)
    (descends : Descends config script i (.packet p)) (descends' : Descends config script i (.packet p')) :
    p.direction = p'.direction ∧ (config.fuzzesHandshake = true → handshakeFlagsOf p = handshakeFlagsOf p') ∧
      (config.fuzzesHandshake = false → refills script e.lineNumber = true → fillPayload p = fillPayload p') := by
  have same := congrArg Prod.snd (descends.cues found descends')
  simp only [ScriptEvent.cue, EventBody.cue, Cue.packet.injEq] at same
  obtain ⟨direction, flags, filled⟩ := same
  refine ⟨direction, fun fuzzes => ?_, fun fuzzes again => ?_⟩
  · simpa [fuzzes] using flags
  · simpa [fuzzes, again] using filled

theorem InStep.skip (same : InStep config script file known (i :: rest) p p') (other : ∀ kind, ¬Holds script i kind) :
    InStep config script file known rest p p' := by
  refine { same with predefined := fun kind => ?_ }
  rcases same.predefined kind with equal | ⟨j, member, holds⟩
  · exact .inl equal
  · rcases List.mem_cons.mp member with rfl | later
    · exact absurd holds (other kind)
    · exact .inr ⟨j, later, holds⟩

end

/-- Processes in which the same script is to be run, for the first and for the second time. -/
structure Waiting (config : FuzzOptions) (script : List ScriptEvent) (file : List UInt8) (p p' : Process) : Prop where
  bytes : p.fuzzer.fuzzFileString = file
  bytes' : p'.fuzzer.fuzzFileString = file
  first : p.script.map (ScriptEvent.cue config script) = script.map (ScriptEvent.cue config script)
  second : p'.script.map (ScriptEvent.cue config script) = script.map (ScriptEvent.cue config script)
  empty : ∀ kind, p.predefined kind = none
  placed : ∀ kind i, p'.predefined kind = some i → Holds script i kind

theorem Waiting.reinit {config : FuzzOptions} {file : List UInt8} {p' : Process}
    (waiting : Waiting config script file p p') :
    InStep config script file False (List.range script.length) (reinit p) (reinit p') := by
  refine ⟨⟨waiting.bytes, waiting.bytes', rfl, rfl, False.elim⟩, waiting.first, waiting.second, ?_, ?_⟩
  · intro kind
    show p.predefined kind = p'.predefined kind ∨ _
    rw [waiting.empty kind]
    rcases table : p'.predefined kind with _ | i
    · exact .inl rfl
    · obtain ⟨e, found, entry⟩ := waiting.placed kind i table
      obtain ⟨below, -⟩ := List.getElem?_eq_some_iff.mp found
      exact .inr ⟨i, List.mem_range.mpr below, e, found, entry⟩
  · intro kind i there
    rw [show (TcpFuzz.reinit p).predefined kind = none from waiting.empty kind] at there
    cases there

section

variable {σ σ' : Type} {config config' : FuzzConfig} {script : List ScriptEvent} {file : List UInt8}
  {stack : Outside σ} {linux : Outside σ'}

end

def Action.data : Action → List UInt8
  | .scripted _ bytes | .generated bytes | .syscall _ _ _ bytes => bytes
  | _ => []

end TcpFuzz
