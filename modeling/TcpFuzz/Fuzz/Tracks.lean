import TcpFuzz.Fuzz.Driver
import TcpFuzz.Fuzz.Repeated

/-! Two runs of one script that answer differently, side by side: every step of the driver keeps them in step. -/

namespace TcpFuzz
open Bytes Mem Traced
open Syscall (SyscallSpec)

variable {i n : Nat} {e : ScriptEvent} {s : SyscallSpec}

def handshakeFlagsOf (p : Packet) : Option Nat := p.tcp.map fun tcp => handshakeFlags (p.buffer.get8 (tcp + 13))

def countedLines : List Nat := [30, 31]

inductive Cue where
  | packet (direction : Direction) (flags : Option Nat) (filled : Option (Run Packet))
  | counted (syscall : Nat → Run SyscallSpec)
  | syscall (syscall : SyscallSpec)
  | bogus

/-- Of a packet it takes the flags of the handshake, or its bytes after they are filled in. -/
def EventBody.cue (handshake refills : Bool) (lineNumber : Nat) : EventBody → Cue
  | .packet p => .packet p.direction (if handshake then handshakeFlagsOf p else none)
      (if !handshake && refills then some (fillPayload p) else none)
  | .syscall call => if lineNumber ∈ countedLines then .counted fun n => setCount n call else .syscall call
  | .bogus => .bogus

def EventBody.refillable : EventBody → Bool
  | .packet p => Refillable p
  | _ => true

/-- The packets of a line may be filled twice. -/
def refills (script : List ScriptEvent) (lineNumber : Nat) : Bool :=
  script.all fun e => e.lineNumber != lineNumber || e.body.refillable

section Cues

variable (config : FuzzOptions) (script : List ScriptEvent) (file : List UInt8)

def ScriptEvent.cue (e : ScriptEvent) : Nat × Cue :=
  (e.lineNumber, e.body.cue config.fuzzesHandshake (refills script e.lineNumber) e.lineNumber)

def Holds (i : Nat) (kind : FuzzSyscall) : Prop :=
  ∃ e, script[i]? = some e ∧ (e.lineNumber, kind) ∈ predefinedSyscallEvents

/-- Two runs of one script. Its events that are still to come are `rest`. -/
structure InStep (known : Prop) (rest : List Nat) (p p' : Process) : Prop where
  fuzzer : SameFuzzer file known p.fuzzer p'.fuzzer
  first : p.script.map (ScriptEvent.cue config script) = script.map (ScriptEvent.cue config script)
  second : p'.script.map (ScriptEvent.cue config script) = script.map (ScriptEvent.cue config script)
  predefined : ∀ kind, p.predefined kind = p'.predefined kind ∨ ∃ i ∈ rest, Holds script i kind
  placed : ∀ kind i, p.predefined kind = some i → Holds script i kind

end Cues

/-- The same stimulus. The digits that `write` is given may start elsewhere. -/
inductive SameAction (script : List ScriptEvent) : Action → Action → Prop
  | scripted {lineNumber : Nat} {bytes bytes' : List UInt8} (same : refills script lineNumber = true → bytes = bytes') :
      SameAction script (.scripted lineNumber bytes) (.scripted lineNumber bytes')
  | outbound (lineNumber : Nat) : SameAction script (.outbound lineNumber) (.outbound lineNumber)
  | generated (bytes : List UInt8) : SameAction script (.generated bytes) (.generated bytes)
  | syscall (selected : Bool) (name : String) (arguments : List Expression) (start start' : Nat) (count : Int) :
      SameAction script (.syscall selected name arguments (Syscall.digits start count))
        (.syscall selected name arguments (Syscall.digits start' count))
  | observed {isFuzzStart isFuzzStart' : Bool} {index index' : Nat} {recordings recordings' : List Syscall.Recording} :
      SameAction script (.observed isFuzzStart index recordings) (.observed isFuzzStart' index' recordings')
  | printed (p p' : Packet) : SameAction script (.printed p) (.printed p')
  | updated (index index' : Nat) : SameAction script (.updated index) (.updated index')

section

variable {σ σ' α β γ δ : Type} {config : FuzzOptions} {script : List ScriptEvent} {file : List UInt8} {known known' : Prop}
  {rest : List Nat} {p p' q q' : Process}

theorem InStep.weaken (same : InStep config script file known rest p p') (less : known' → known) :
    InStep config script file known' rest p p' :=
  { same with fuzzer := same.fuzzer.weaken less }

def Process.seen (p : Process) : (List UInt8 × UInt32 × UInt32 × UInt32) × List ScriptEvent × (FuzzSyscall → Option Nat) :=
  ((p.fuzzer.fuzzFileString, p.fuzzer.fuzzFileIndex, p.fuzzer.packetSeq, p.fuzzer.lastPacketDataLength), p.script, p.predefined)

theorem InStep.of_seen (same : InStep config script file known rest p p') (kept : q.seen = p.seen) (kept' : q'.seen = p'.seen) :
    InStep config script file known rest q q' := by
  simp only [Process.seen, Prod.mk.injEq] at kept kept'
  obtain ⟨⟨bytes, index, seq, length⟩, events, table⟩ := kept
  obtain ⟨⟨bytes', index', seq', length'⟩, events', table'⟩ := kept'
  obtain ⟨fuzzer, first, second, predefined, placed⟩ := same
  refine ⟨⟨bytes.trans fuzzer.first, bytes'.trans fuzzer.second, ?_, ?_, ?_⟩, ?_, ?_, ?_, ?_⟩
  · rw [index, index', fuzzer.fuzzFileIndex]
  · rw [seq, seq', fuzzer.packetSeq]
  · rw [length, length']
    exact fuzzer.lastPacketDataLength
  · rwa [events]
  · rwa [events']
  · rwa [table, table']
  · rwa [table]

/-- A program that leaves no action and nothing that the stimuli depend on. -/
structure Unseen (m : Drive σ α) : Prop where
  silent : ∀ w, (m w).1 = []
  keeps : ∀ w t a w', m w = (t, .ok (a, w')) → w'.1.seen = w.1.seen

namespace Unseen

theorem pure (a : α) : Unseen (Pure.pure a : Drive σ α) := by
  refine ⟨fun _ => rfl, ?_⟩
  intro w t b w' ran
  cases ran
  rfl

theorem bind {m : Drive σ α} {f : α → Drive σ β} (first : Unseen m) (rest : ∀ a, Unseen (f a)) : Unseen (m >>= f) := by
  constructor
  · intro w
    rw [bind_eq]
    rcases ran : m w with ⟨t, e | ⟨a, w'⟩⟩
    · exact (congrArg Prod.fst ran).symm.trans (first.silent w)
    · have none : t = [] := (congrArg Prod.fst ran).symm.trans (first.silent w)
      show t ++ (f a w').1 = []
      rw [none, (rest a).silent w']
      rfl
  · intro w t b w' ran
    obtain ⟨t₁, a, w₁, t₂, firstRan, restRan, -⟩ := bind_ok ran
    exact ((rest a).keeps _ _ _ _ restRan).trans (first.keeps _ _ _ _ firstRan)

theorem ite {c : Prop} [Decidable c] {m m' : Drive σ α} (yes : Unseen m) (no : Unseen m') : Unseen (if c then m else m') := by
  split
  · exact yes
  · exact no

theorem step {step : Process × σ → Except Halt (α × Process × σ)}
    (keeps : ∀ w a w', step w = .ok (a, w') → w'.1.seen = w.1.seen) : Unseen (Traced.silent step : Drive σ α) := by
  refine ⟨fun _ => rfl, ?_⟩
  intro w t a w' ran
  exact keeps w a w' (silent_ok ran).2

theorem halt (e : Halt) : Unseen (Traced.halt e : Drive σ α) := step fun w a w' came => by cases came

theorem change {f : Process × σ → Process × σ} (keeps : ∀ w, (f w).1.seen = w.1.seen) :
    Unseen (Traced.change f : Drive σ Unit) := by
  apply step
  intro w a w' came
  cases came
  exact keeps w

theorem ofRun (run : Run α) : Unseen (ofRun run : Drive σ α) := by
  apply step
  intro w a w' came
  cases run with
  | error fault => cases came
  | ok b =>
    cases came
    rfl

theorem ask (question : σ → Option (α × σ)) : Unseen (ask question) := by
  apply step
  intro w a w' came
  rcases answer : question w.2 with _ | ⟨b, s⟩
  · simp only [answer] at came
    cases came
  · simp only [answer] at came
    cases came
    rfl

theorem tell (question : σ → Option σ) : Unseen (tell question) := ask _

theorem onResults (step : Results → Record Results) : Unseen (onResults step : Drive σ Unit) := by
  apply Unseen.step
  intro w a w' came
  split at came
  · cases came
    rfl
  · cases came
  · cases came

theorem addContent (content : String) : Unseen (input (addContentToFuzzScript content) : Drive σ Unit) := by
  apply step
  intro w a w' came
  unfold withFuzzer at came
  split at came
  · cases came
  · cases came
    rfl

theorem updateFuzzScripts : Unseen (updateFuzzScripts : Drive σ Unit) := by
  apply step
  intro w a w' came
  split at came
  · cases came
    rfl
  split at came
  · cases came
  split at came
  · cases came
  · cases came
    rfl

end Unseen

abbrev Tracks (script : List ScriptEvent) (before : Process → Process → Prop) (m : Drive σ α) (m' : Drive σ' β)
    (after : α → β → Process → Process → Prop) : Prop :=
  Traced.Follows (SameAction script) (fun w w' => before w.1 w'.1) m m' fun a b w w' => after a b w.1 w'.1

abbrev Alongside (config : FuzzOptions) (script : List ScriptEvent) (file : List UInt8) (known : Prop) (rest : List Nat)
    (m : Drive σ α) (m' : Drive σ' β) : Prop :=
  Tracks script (InStep config script file known rest) m m' fun _ _ => InStep config script file known rest

namespace Tracks

variable {before between : Process → Process → Prop} {after : γ → δ → Process → Process → Prop} {m : Drive σ α} {m' : Drive σ' β}

theorem pure {a : α} {b : β} {after : α → β → Process → Process → Prop} (related : ∀ p p', before p p' → after a b p p') :
    Tracks script before (Pure.pure a : Drive σ α) (Pure.pure b : Drive σ' β) after :=
  Traced.Follows.pure fun w w' => related w.1 w'.1

theorem bind (first : Tracks script before m m' fun _ _ => between) {f : α → Drive σ γ} {f' : β → Drive σ' δ}
    (later : ∀ a b, Tracks script between (f a) (f' b) after) : Tracks script before (m >>= f) (m' >>= f') after :=
  Traced.Follows.bind first later

theorem andThen {fact : α → β → Prop} (first : Tracks script before m m' fun a b p p' => fact a b ∧ between p p')
    {f : α → Drive σ γ} {f' : β → Drive σ' δ} (later : ∀ a b, fact a b → Tracks script between (f a) (f' b) after) :
    Tracks script before (m >>= f) (m' >>= f') after :=
  Traced.Follows.bind first fun a b => .assume (later a b)

theorem ite {c : Prop} [Decidable c] {n : Drive σ α} {n' : Drive σ' β} {after : α → β → Process → Process → Prop}
    (yes : Tracks script before m m' after) (no : Tracks script before n n' after) :
    Tracks script before (if c then m else n) (if c then m' else n') after := by
  split
  · exact yes
  · exact no

theorem unseen (keeps : Unseen m) (keeps' : Unseen m') :
    Alongside config script file known rest m m' := by
  intro w w' t a w₁ same ran
  have none : t = [] := (congrArg Prod.fst ran).symm.trans (keeps.silent w)
  have none' := keeps'.silent w'
  subst none
  rcases ran' : m' w' with ⟨t', e | ⟨b, w₁'⟩⟩
  · rw [ran'] at none'
    obtain rfl : t' = [] := none'
    exact .inr ⟨[], [], e, rfl, List.nil_prefix, .nil⟩
  · rw [ran'] at none'
    obtain rfl : t' = [] := none'
    exact .inl ⟨[], b, w₁', rfl, .nil, same.of_seen (keeps.keeps _ _ _ _ ran) (keeps'.keeps _ _ _ _ ran')⟩

theorem read (f : Process × σ → α) (f' : Process × σ' → β) :
    Tracks script before (Traced.read f) (Traced.read f') fun _ _ => before :=
  Traced.Follows.read fun _ _ start => start

theorem addContent (content : String) :
    Alongside config script file known rest (TcpFuzz.input (addContentToFuzzScript content) : Drive σ Unit)
      (TcpFuzz.input (addContentToFuzzScript content) : Drive σ' Unit) :=
  unseen (.addContent _) (.addContent _)

theorem updateFuzzScripts :
    Alongside config script file known rest (updateFuzzScripts : Drive σ Unit) (updateFuzzScripts : Drive σ' Unit) :=
  unseen .updateFuzzScripts .updateFuzzScripts

theorem emit {action action' : Action} (same : SameAction script action action') :
    Tracks script before (Traced.emit action : Drive σ Unit) (Traced.emit action' : Drive σ' Unit) fun _ _ => before :=
  Traced.Follows.emit same

theorem onFuzzer {step : Fuzzer → Run (α × Fuzzer)} {step' : Fuzzer → Run (β × Fuzzer)} {same : α → β → Prop}
    (steps : ∀ s s' a s₁, SameFuzzer file known s s' → step s = .ok (a, s₁) →
      ∃ b s₁', step' s' = .ok (b, s₁') ∧ same a b ∧ SameFuzzer file known' s₁ s₁') :
    Tracks script (InStep config script file known rest) (onFuzzer step : Drive σ α) (onFuzzer step' : Drive σ' β)
      fun a b p p' => same a b ∧ InStep config script file known' rest p p' := by
  apply Traced.Follows.silent
  intro w w' a w₁ start came
  rcases ran : step w.1.fuzzer with fault | ⟨a, s₁⟩
  · rw [ran] at came
    cases came
  obtain ⟨b, s₁', ran', related, fuzzers⟩ := steps _ _ a s₁ start.fuzzer ran
  simp only [ran, ran', withFuzzer] at came ⊢
  split at came
  · cases came
  · cases came
    by_cases full : fuzzScriptBytes < s₁'.fuzzScript.length
    · rw [if_pos full]
      exact .inr ⟨_, rfl⟩
    · rw [if_neg full]
      exact .inl ⟨b, _, rfl, related, { start with fuzzer := fuzzers }⟩

theorem input {n : StateM Fuzzer α} {n' : StateM Fuzzer β} {same : α → β → Prop} (alike : Alike known known' same n n') :
    Tracks script (InStep config script file known rest) (input n : Drive σ α) (input n' : Drive σ' β)
      fun a b p p' => same a b ∧ InStep config script file known' rest p p' := by
  have steps : Tracks script (InStep config script file known rest) (TcpFuzz.onFuzzer fun s => .ok (n s) : Drive σ α)
      (TcpFuzz.onFuzzer fun s => .ok (n' s) : Drive σ' β) fun a b p p' => same a b ∧ InStep config script file known' rest p p' := by
    apply onFuzzer
    intro s s' a s₁ start ran
    obtain ⟨related, fuzzers⟩ := alike file s s' start
    rw [Except.ok.inj ran] at related fuzzers
    exact ⟨_, _, rfl, related, fuzzers⟩
  exact steps

theorem ofRun {run : Run α} {run' : Run β} {same : α → β → Prop}
    (runs : ∀ a, run = .ok a → ∀ b, run' = .ok b → same a b) :
    Tracks script before (ofRun run : Drive σ α) (ofRun run' : Drive σ' β) fun a b p p' => same a b ∧ before p p' := by
  apply Traced.Follows.silent
  intro w w' a w₁ start came
  cases ran : run with
  | error fault =>
    rw [ran] at came
    cases came
  | ok c =>
    rw [ran] at came
    cases came
    cases ran' : run' with
    | error fault => exact .inr ⟨_, rfl⟩
    | ok b => exact .inl ⟨b, w', rfl, runs a ran b ran', start⟩

end Tracks

variable {stack : Outside σ} {linux : Outside σ'}

def Descends (config : FuzzOptions) (script : List ScriptEvent) (i : Nat) (body : EventBody) : Prop :=
  ∃ e, script[i]? = some e ∧ ScriptEvent.cue config script ⟨e.lineNumber, body⟩ = e.cue config script

theorem Descends.cues {body body' : EventBody} (found : script[i]? = some e) (fits : Descends config script i body)
    (fits' : Descends config script i body') :
    ScriptEvent.cue config script ⟨e.lineNumber, body⟩ = ScriptEvent.cue config script ⟨e.lineNumber, body'⟩ := by
  obtain ⟨e₁, found₁, cues⟩ := fits
  obtain ⟨e₂, found₂, cues'⟩ := fits'
  obtain rfl : e₁ = e := Option.some.inj (found₁.symm.trans found)
  obtain rfl : e₂ = e₁ := Option.some.inj (found₂.symm.trans found)
  exact cues.trans cues'.symm

theorem Descends.plain {s' : SyscallSpec} (found : script[i]? = some e)
    (plain : e.lineNumber ∉ countedLines) (fits : Descends config script i (.syscall s))
    (fits' : Descends config script i (.syscall s')) : s = s' := by
  have same := congrArg Prod.snd (fits.cues found fits')
  simp only [ScriptEvent.cue, EventBody.cue, if_neg plain] at same
  exact Cue.syscall.inj same

theorem Descends.counted {s' : SyscallSpec} (found : script[i]? = some e)
    (counted : e.lineNumber ∈ countedLines) (fits : Descends config script i (.syscall s))
    (fits' : Descends config script i (.syscall s')) (n : Nat) : setCount n s = setCount n s' := by
  have same := congrArg Prod.snd (fits.cues found fits')
  simp only [ScriptEvent.cue, EventBody.cue, if_pos counted] at same
  exact congrFun (Cue.counted.inj same) n

theorem setNum_again {k : Nat} {x y : Expression} (set : x.setNum n = .ok y) : y.setNum k = x.setNum k := by
  unfold Expression.setNum at set
  split at set
  · cases set
    rfl
  · cases set
    rfl
  · cases set

theorem setCount_again {k : Nat} {t : SyscallSpec} (set : setCount n s = .ok t) : setCount k t = setCount k s := by
  unfold setCount at set
  split at set
  · next first second third rest arguments =>
    obtain ⟨third', isThird, set⟩ := run_bind_ok set
    obtain ⟨result', isResult, set⟩ := run_bind_ok set
    cases set
    unfold setCount
    rw [arguments]
    simp only [setNum_again isThird, setNum_again isResult]
  · cases set

theorem Descends.setCount {t : SyscallSpec} (found : script[i]? = some e)
    (counted : e.lineNumber ∈ countedLines) (fits : Descends config script i (.syscall s)) (set : setCount n s = .ok t) :
    Descends config script i (.syscall t) := by
  obtain ⟨e₁, found₁, cues⟩ := fits
  obtain rfl : e₁ = e := Option.some.inj (found₁.symm.trans found)
  refine ⟨e₁, found, ?_⟩
  rw [← cues]
  simp only [ScriptEvent.cue, EventBody.cue, if_pos counted]
  have later : (fun k => TcpFuzz.setCount k t) = fun k => TcpFuzz.setCount k s := funext fun k => setCount_again set
  rw [later]

end

end TcpFuzz
