import TcpFuzz.Fuzz.Report
import TcpFuzz.Fuzz.ScriptText

/-! The buffer `fuzz_script` has room for 3000 bytes, the final `NUL` included, until `update_fuzz_scripts` empties it. -/

namespace TcpFuzz
open Bytes Mem Traced

variable {past : List Action} {script : List ScriptEvent} {k n : Nat} {p : Process}

/-! ### What the driver writes -/

def PlainDumps (past : List Action) : Prop := ∀ p, .printed p ∈ past → PlainDump p

theorem PlainDumps.left {past' : List Action} (plain : PlainDumps (past ++ past')) : PlainDumps past :=
  fun p member => plain p (List.mem_append_left _ member)

/-- As long as the dumps are plain the script has at most `k` characters. Some of the events have
not been changed. -/
structure Room (fixed : Nat → Prop) (script : List ScriptEvent) (k : Nat) (past : List Action) (p : Process) : Prop where
  length : PlainDumps past → p.fuzzer.fuzzScript.length ≤ k
  events : ∀ i, fixed i → p.script[i]? = script[i]?

def Roomy (e : Halt) (past : List Action) : Prop := PlainDumps past → e ≠ .overflow .fuzzScript

variable {σ α β : Type}

abbrev Roomed (before : List Action → Process → Prop) (m : Drive σ α) (after : List Action → Process → Prop) : Prop :=
  Ensures (fun past w => before past w.1) m (fun _ past w => after past w.1) Roomy

structure Writes (fixed : Nat → Prop) (n : Nat) (m : Drive σ α) : Prop where
  room : ∀ script k, k + n < fuzzScriptBytes →
    Ensures (fun past w => Room fixed script k past w.1) m (fun _ past w => Room fixed script (k + n) past w.1) Roomy

section

variable {fixed : Nat → Prop} {n : Nat}

theorem Room.weaken {k' : Nat}
    (room : Room fixed script k past p) (less : k ≤ k') : Room fixed script k' past p :=
  ⟨fun plain => Nat.le_trans (room.length plain) less, room.events⟩

namespace Writes

theorem pure (a : α) : Writes fixed 0 (Pure.pure a : Drive σ α) := ⟨fun _ _ _ => .pure fun _ _ room => room⟩

theorem bind {m : Drive σ α} {f : α → Drive σ β} (first : Writes fixed n m) (rest : ∀ a, Writes fixed k (f a)) :
    Writes fixed (n + k) (m >>= f) := by
  constructor
  intro script l enough
  rw [← Nat.add_assoc] at enough ⊢
  exact (first.room script l (by omega)).bind fun a => (rest a).room script (l + n) enough

theorem weaken {m : Drive σ α} (writes : Writes fixed n m) (less : n ≤ k) : Writes fixed k m := by
  constructor
  intro script l enough
  apply (writes.room script l (by omega)).weaken
  · exact fun _ _ room => room
  · exact fun _ _ _ room => room.weaken (by omega)

theorem andThen {m : Drive σ α} {f : α → Drive σ β} (first : Writes fixed 0 m) (rest : ∀ a, Writes fixed n (f a)) :
    Writes fixed n (m >>= f) :=
  (first.bind rest).weaken (Nat.le_of_eq (Nat.zero_add n))

theorem ended {m : Drive σ α} {f : α → Drive σ β} (first : Writes fixed n m) (rest : ∀ a, Writes fixed 0 (f a)) :
    Writes fixed n (m >>= f) :=
  first.bind rest

theorem ite {c : Prop} [Decidable c] {m m' : Drive σ α} (yes : Writes fixed n m) (no : Writes fixed n m') :
    Writes fixed n (if c then m else m') := by
  split
  · exact yes
  · exact no

theorem silent {step : Process × σ → Except Halt (α × Process × σ)}
    (stops : ∀ w e, step w = .error e → fuzzScriptBytes < w.1.fuzzer.fuzzScript.length + n ∨ e ≠ .overflow .fuzzScript)
    (writes : ∀ w a w', step w = .ok (a, w') → w'.1.fuzzer.fuzzScript.length ≤ w.1.fuzzer.fuzzScript.length + n)
    (keeps : ∀ w a w', step w = .ok (a, w') → ∀ i, fixed i → w'.1.script[i]? = w.1.script[i]?) :
    Writes fixed n (Traced.silent step) := by
  constructor
  intro script k enough
  apply Ensures.silent
  intro past w room
  refine ⟨fun e failed plain => ?_, fun a w' came => ⟨fun plain => ?_, fun i isFixed => ?_⟩⟩
  · have few := room.length plain
    exact (stops w e failed).resolve_left (by omega)
  · have few := room.length plain
    have more := writes w a w' came
    omega
  · rw [keeps w a w' came i isFixed, room.events i isFixed]

theorem quiet {step : Process × σ → Except Halt (α × Process × σ)}
    (stops : ∀ w e, step w = .error e → e ≠ .overflow .fuzzScript)
    (keeps : ∀ w a w', step w = .ok (a, w') → w'.1.fuzzer.fuzzScript = w.1.fuzzer.fuzzScript ∧ w'.1.script = w.1.script) :
    Writes fixed 0 (Traced.silent step) := by
  apply silent
  · exact fun w e failed => .inr (stops w e failed)
  · intro w a w' came
    rw [(keeps w a w' came).1]
    exact Nat.le_refl _
  · intro w a w' came i _
    rw [(keeps w a w' came).2]

theorem emit (action : Action) : Writes fixed 0 (Traced.emit action : Drive σ Unit) :=
  ⟨fun _ _ _ => .emit fun _ _ room => ⟨fun plain => room.length plain.left, room.events⟩⟩

theorem halt {e : Halt} (other : e ≠ .overflow .fuzzScript) : Writes fixed 0 (Traced.halt e : Drive σ α) :=
  quiet (fun w e' same => by cases same; exact other) fun w a w' came => by cases came

theorem read (f : Process × σ → α) : Writes fixed 0 (Traced.read f : Drive σ α) :=
  quiet (fun w e failed => by cases failed) fun w a w' came => by cases came; exact ⟨rfl, rfl⟩

theorem change {f : Process × σ → Process × σ}
    (keeps : ∀ w, (f w).1.fuzzer.fuzzScript = w.1.fuzzer.fuzzScript ∧ (f w).1.script = w.1.script) :
    Writes fixed 0 (Traced.change f : Drive σ Unit) :=
  quiet (fun w e failed => by cases failed) fun w a w' came => by cases came; exact keeps w

theorem setBody (body : EventBody) (free : ¬fixed i) : Writes fixed 0 (setBody i body : Drive σ Unit) := by
  apply silent
  · intro w e failed
    cases failed
  · intro w a w' came
    cases came
    exact Nat.le_refl _
  · intro w a w' came j isFixed
    cases came
    have other : i ≠ j := by
      rintro rfl
      exact free isFixed
    exact List.getElem?_modify_ne _ _ other

theorem times {m : Drive σ Unit} (once : Writes fixed n m) (count : Nat) : Writes fixed (n * count) (Traced.times m count) := by
  induction count with
  | zero => exact pure _
  | succ count ih => exact (once.bind fun _ => ih).weaken (by rw [Nat.mul_succ, Nat.add_comm])

theorem fuzzer {step : Fuzzer → Run (α × Fuzzer)}
    (grows : ∀ s a s', step s = .ok (a, s') → s'.fuzzScript.length ≤ s.fuzzScript.length + n) :
    Writes fixed n (onFuzzer step : Drive σ α) := by
  apply silent
  · intro w e failed
    split at failed
    · rename_i a s' came
      have more := grows _ _ _ came
      unfold withFuzzer at failed
      split at failed
      · exact .inl (by omega)
      · cases failed
    · cases failed
      exact .inr Halt.noConfusion
  · intro w a w' came
    split at came
    · rename_i came'
      unfold withFuzzer at came
      split at came
      · cases came
      · cases came
        exact grows _ _ _ came'
    · cases came
  · intro w a w' came i _
    split at came
    · unfold withFuzzer at came
      split at came
      · cases came
      · cases came
        rfl
    · cases came

theorem input {m : StateM Fuzzer α} (grows : Grows n m) : Writes fixed n (input m : Drive σ α) := by
  have writes : Writes fixed n (onFuzzer fun s => .ok (m s) : Drive σ α) := by
    apply fuzzer
    intro s a s' came
    have more := grows s
    rwa [Except.ok.inj came] at more
  exact writes

theorem ofRun (run : Run α) : Writes fixed 0 (ofRun run : Drive σ α) := by
  apply quiet
  · intro w e failed
    split at failed
    · cases failed
    · cases failed
      exact Halt.noConfusion
  · intro w a w' came
    split at came
    · cases came
      exact ⟨rfl, rfl⟩
    · cases came

theorem ofRun_bind {run : Run α} {f : α → Drive σ β} (rest : ∀ a, run = .ok a → Writes fixed n (f a)) :
    Writes fixed n (TcpFuzz.ofRun run >>= f) := by
  cases run with
  | ok a => exact rest a rfl
  | error fault =>
    have halts : Writes fixed 0 (Traced.halt (.fault fault) : Drive σ β) := halt Halt.noConfusion
    exact halts.weaken (Nat.zero_le n)

theorem ask (question : σ → Option (α × σ)) : Writes fixed 0 (ask question : Drive σ α) := by
  apply quiet
  · intro w e failed
    split at failed
    · cases failed
    · cases failed
      exact Halt.noConfusion
  · intro w a w' came
    split at came
    · cases came
      exact ⟨rfl, rfl⟩
    · cases came

theorem tell (question : σ → Option σ) : Writes fixed 0 (tell question : Drive σ Unit) := ask _

theorem onResults (step : Results → Record Results) : Writes fixed 0 (onResults step : Drive σ Unit) := by
  apply quiet
  · intro w e failed same
    split at failed <;> cases failed <;> cases same
  · intro w a w' came
    split at came <;> cases came
    exact ⟨rfl, rfl⟩

end Writes

structure Takes (fixed : Nat → Prop) (k l : Nat) (m : Drive σ α) : Prop where
  room : ∀ script, Ensures (fun past w => Room fixed script k past w.1) m (fun _ past w => Room fixed script l past w.1) Roomy

namespace Takes

variable {k l : Nat}

theorem of_writes {m : Drive σ α} (writes : Writes fixed n m) (fits : k + n < fuzzScriptBytes) (less : k + n ≤ l) :
    Takes fixed k l m := by
  constructor
  intro script
  apply (writes.room script k fits).weaken
  · exact fun _ _ room => room
  · exact fun _ _ _ room => room.weaken less

theorem pure (a : α) : Takes fixed k k (Pure.pure a : Drive σ α) := ⟨fun _ => .pure fun _ _ room => room⟩

theorem bind {l' : Nat} {m : Drive σ α} {f : α → Drive σ β} (first : Takes fixed k l m) (rest : ∀ a, Takes fixed l l' (f a)) :
    Takes fixed k l' (m >>= f) :=
  ⟨fun script => (first.room script).bind fun a => (rest a).room script⟩

theorem ite {c : Prop} [Decidable c] {m m' : Drive σ α} (yes : Takes fixed k l m) (no : Takes fixed k l m') :
    Takes fixed k l (if c then m else m') := by
  split
  · exact yes
  · exact no

theorem times {m : Drive σ Unit} (once : Takes fixed k k m) (n : Nat) : Takes fixed k k (Traced.times m n) :=
  ⟨fun script => (once.room script).times n⟩

end Takes

theorem Writes.takes {m : Drive σ α} (writes : Writes fixed n m) (fits : k + n < fuzzScriptBytes) : Takes fixed k (k + n) m :=
  .of_writes writes fits (Nat.le_refl _)

theorem updateFuzzScripts_takes (enough : k < fuzzScriptBytes) (l : Nat) :
    Takes fixed k l (updateFuzzScripts : Drive σ Unit) := by
  constructor
  intro script
  apply Ensures.silent
  intro past w room
  split
  · rename_i empty
    refine ⟨fun e failed => ?_, fun a w' came => ?_⟩
    · cases failed
    · cases came
      refine ⟨fun _ => ?_, room.events⟩
      rw [String.isEmpty_iff.mp empty]
      exact Nat.zero_le l
  split
  · rename_i long
    refine ⟨fun e failed plain => ?_, fun a w' came => ?_⟩
    · have few := room.length plain
      omega
    · cases came
  split
  · refine ⟨fun e failed _ same => ?_, fun a w' came => ?_⟩
    · cases failed
      cases same
    · cases came
  · refine ⟨fun e failed => ?_, fun a w' came => ?_⟩
    · cases failed
    · cases came
      exact ⟨fun _ => Nat.zero_le l, room.events⟩

end

/-! ### Overflow -/

/-- Where a run is: the rest of the file, at least how much has been written, and to which chunk. -/
structure Spot where
  bytes : List UInt8
  written : Nat
  chunk : Nat

structure Spot.At (spot : Spot) (p : Process) : Prop where
  ahead : Ahead spot.bytes p.fuzzer
  low : spot.written ≤ p.fuzzer.fuzzScript.length
  high : p.fuzzer.fuzzScript.length ≤ fuzzScriptBytes
  chunk : p.fuzzLoopIndex = spot.chunk

/-- The run gets from one spot to another, unless the script outgrows its buffer. -/
structure Fills {σ α : Type} (before : Spot) (m : Drive σ α) (after : Spot) (result : α → Prop) : Prop where
  run : Ensures (fun _ w => before.At w.1) m (fun a _ w => after.At w.1 ∧ result a) fun e _ => e = .overflow .fuzzScript

namespace Fills

variable {σ α β : Type} {before between after : Spot} {result : α → Prop} {final : β → Prop}

theorem pure {a : α} (holds : result a) : Fills before (Pure.pure a : Drive σ α) before result :=
  ⟨.pure fun _ _ here => ⟨here, holds⟩⟩

theorem bind {m : Drive σ α} {f : α → Drive σ β} (first : Fills before m between result)
    (rest : ∀ a, result a → Fills between (f a) after final) : Fills before (m >>= f) after final := by
  constructor
  apply first.run.bind
  intro a past w start
  exact (rest a start.2).run past w start.1

theorem weaken {m : Drive σ α} (fills : Fills before m after result) {less : Nat} (fewer : less ≤ after.written) :
    Fills before m { after with written := less } result := by
  constructor
  apply fills.run.weaken
  · exact fun _ _ here => here
  · rintro a past w ⟨here, holds⟩
    exact ⟨⟨here.ahead, Nat.le_trans fewer here.low, here.high, here.chunk⟩, holds⟩

theorem emit (action : Action) : Fills before (Traced.emit action : Drive σ Unit) before fun _ => True :=
  ⟨.emit fun _ _ here => ⟨here, trivial⟩⟩

theorem read {f : Process × σ → α} : Fills before (Traced.read f : Drive σ α) before fun _ => True :=
  ⟨.read fun _ _ here => ⟨here, trivial⟩⟩

theorem change {f : Process × σ → Process × σ}
    (keeps : ∀ w, (f w).1.fuzzer.fuzzFileString = w.1.fuzzer.fuzzFileString ∧
      (f w).1.fuzzer.fuzzFileIndex = w.1.fuzzer.fuzzFileIndex ∧ (f w).1.fuzzer.fuzzScript = w.1.fuzzer.fuzzScript ∧ (f w).1.fuzzLoopIndex = w.1.fuzzLoopIndex) :
    Fills before (Traced.change f : Drive σ Unit) before fun _ => True := by
  constructor
  apply Ensures.change
  intro past w here
  obtain ⟨file, index, script, chunk⟩ := keeps w
  refine ⟨⟨?_, ?_, ?_, ?_⟩, trivial⟩
  · have ahead := here.ahead
    rwa [Ahead, ← file, ← index] at ahead
  · exact script ▸ here.low
  · exact script ▸ here.high
  · exact chunk.trans here.chunk

/-- More than there is room for is never written. -/
theorem overflow {m : Drive σ α} (fills : Fills before m after result) (much : fuzzScriptBytes < after.written) :
    Fills before m after fun _ => False := by
  constructor
  apply fills.run.weaken
  · exact fun _ _ here => here
  · rintro a past w ⟨here, _⟩
    exact absurd (Nat.le_trans here.low here.high) (Nat.not_le.mpr much)

theorem andOn {m : Drive σ α} (fills : Fills before m between fun _ => False) {f : α → Drive σ β} :
    Fills before (m >>= f) after fun _ => False :=
  fills.bind fun _ never => never.elim

theorem ofRun {run : Run α} {a : α} (ran : run = .ok a) : Fills before (ofRun run : Drive σ α) before (· = a) := by
  subst ran
  exact pure rfl

theorem onFuzzer {step : Fuzzer → Run (α × Fuzzer)} {rest : List UInt8}
    (runs : ∀ s, Ahead before.bytes s → ∃ a s', step s = .ok (a, s') ∧ Ahead rest s' ∧
      s'.fuzzScript.length = s.fuzzScript.length + n ∧ result a) :
    Fills before (onFuzzer step : Drive σ α) ⟨rest, before.written + n, before.chunk⟩ result := by
  constructor
  apply Ensures.silent
  intro past w here
  obtain ⟨a, s', ran, ahead, grown, holds⟩ := runs _ here.ahead
  simp only [ran, withFuzzer]
  have low := here.low
  refine ⟨fun e failed => ?_, fun b w' came => ?_⟩
  · split at failed
    · exact (Except.error.inj failed).symm
    · cases failed
  · split at came
    · cases came
    · rename_i fits
      cases came
      exact ⟨⟨ahead, by simp only [grown]; omega, Nat.not_lt.mp fits, here.chunk⟩, holds⟩

theorem input {m : StateM Fuzzer α} {rest : List UInt8} (consumes : Consumes before.bytes m n rest result) :
    Fills before (input m : Drive σ α) ⟨rest, before.written + n, before.chunk⟩ result := by
  refine @onFuzzer _ _ _ _ _ (fun s => .ok (m s)) _ fun s ahead => ?_
  obtain ⟨ahead, grown, holds⟩ := consumes s ahead
  exact ⟨_, _, rfl, ahead, grown, holds⟩

theorem updateFuzzScripts (some : 0 < before.written) (few : before.chunk < fuzzScriptsCount) :
    Fills before (updateFuzzScripts : Drive σ Unit) ⟨before.bytes, 0, before.chunk + 1⟩ fun _ => True := by
  constructor
  apply Ensures.silent
  intro past w here
  have low := here.low
  have filled : w.1.fuzzer.fuzzScript.isEmpty = false := by
    cases empty : w.1.fuzzer.fuzzScript.isEmpty with
    | false => rfl
    | true =>
      rw [String.isEmpty_iff.mp empty] at low
      exact absurd some (Nat.not_lt.mpr low)
  rw [filled, here.chunk, if_neg Bool.false_ne_true, if_neg (Nat.not_le.mpr few)]
  refine ⟨fun e failed => ?_, fun b w' came => ?_⟩
  · split at failed
    · exact (Except.error.inj failed).symm
    · cases failed
  · split at came
    · cases came
    · cases came
      exact ⟨⟨here.ahead, Nat.zero_le _, Nat.zero_le _, congrArg (· + 1) here.chunk⟩, trivial⟩

end Fills

theorem Fills.overflows {σ α : Type} {before after : Spot} {m : Drive σ α} {w : Process × σ}
    (fills : Fills before m after fun _ => False) (here : before.At w.1) : Overflows .fuzzScript m w := by
  rcases ran : m w with ⟨t, e | ⟨a, w'⟩⟩
  · obtain rfl := fills.run.error here ran
    exact ⟨t, ran⟩
  · exact (fills.run.ok here ran).2.elim

end TcpFuzz
