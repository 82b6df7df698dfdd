import TcpFuzz.Fuzz.Report

/-! With `is_fuzz_once` the driver fuzzes when `should_fuzz` first finds a byte for it. The flag that this has
happened is not reset between the two runs. -/

namespace TcpFuzz
open Traced
open Syscall (SyscallSpec)

/-! ### The choices of the file -/

abbrev Cursor := List UInt8 × UInt32

def Fuzzer.cursor (s : Fuzzer) : Cursor := (s.fuzzFileString, s.fuzzFileIndex)

/-- Read the file until a byte is found that makes `should_fuzz` return true; the exception says
whether anything is done then. -/
abbrev Choice := ExceptT Bool (StateM Cursor)

def Cursor.next (c : Cursor) : UInt8 × Cursor :=
  match c.1[c.2.toNat]? with
  | some b => (b, (c.1, c.2 + 1))
  | none => (0, c)

def nextByte : Choice UInt8 := ExceptT.mk fun c => (.ok c.next.1, c.next.2)

def choosePacket : Choice Unit := do
  if (← nextByte) % 0xff < 0x7f then throw true

/-- The first entry of the table, which needs its event and one more byte. -/
def chooseSyscall (hasRead : Bool) : Choice Unit := do
  if (← nextByte) % 0xff < 0x7f then
    let tmp ← nextByte
    throw (hasRead && decide (tmp % 100 < 50))

def chooseTimes (choice : Choice Unit) : Nat → Choice Unit
  | 0 => pure ()
  | n + 1 => do
    choice
    chooseTimes choice n

def choosePackets : Choice Unit := do
  choosePacket
  let tmp ← nextByte
  if tmp < 50 then pure ()
  else if tmp < 150 then choosePacket
  else chooseTimes choosePacket 4

def chooseRound (config : FuzzOptions) (hasRead : Bool) : Choice Unit := do
  if !config.isNoFuzzPacket then choosePackets
  if !config.isNoFuzzSyscall then chooseSyscall hasRead

def chooseChecking (config : FuzzOptions) : Choice Unit := do
  if !config.isNoFuzzPacket then choosePacket
  if !config.isNoFuzzSyscall then choosePacket

def chooseAll (config : FuzzOptions) (hasRead : Bool) : Choice Unit := do
  chooseTimes (chooseRound config hasRead) 10
  chooseTimes (chooseChecking config) 3
  chooseTimes (chooseRound config hasRead) 3

def fuzzesSomething (config : FuzzOptions) (hasRead : Bool) (fuzzFileString : List UInt8) : Bool :=
  match (chooseAll config hasRead).run (fuzzFileString, 0) with
  | (.error done, _) => done
  | (.ok _, _) => false

/-! ### What is done in a run -/

def Action.isSelected : Action → Bool
  | .generated _ => true
  | .syscall selected _ _ _ => selected
  | _ => false

def selected (t : List Action) : List Action := t.filter Action.isSelected

theorem selected_append (t t' : List Action) : selected (t ++ t') = selected t ++ selected t' := List.filter_append t t'

/-- What the choices depend on: the flag, the place in the file, whether there is an event for `read`, and
the lines of the script, one of which makes it. -/
def Process.plan (p : Process) : Bool × Cursor × Bool × List Nat :=
  (p.hasFuzzedOnce, p.fuzzer.cursor, (p.predefined .read).isSome, p.script.map ScriptEvent.lineNumber)

theorem Process.plan_eq {p : Process} {flag : Bool} {c : Cursor} {hasRead : Bool} {lines : List Nat} :
    p.plan = (flag, c, hasRead, lines) ↔ p.hasFuzzedOnce = flag ∧ p.fuzzer.cursor = c ∧
      (p.predefined .read).isSome = hasRead ∧ p.script.map ScriptEvent.lineNumber = lines := by
  simp only [Process.plan, Prod.mk.injEq]

structure Leaves {σ α ν : Type} (view : Process → ν) (m : Drive σ α) : Prop where
  keeps : ∀ w t a w', m w = (t, .ok (a, w')) → selected t = [] ∧ view w'.1 = view w.1

structure Quiet {σ α : Type} (m : Drive σ α) : Prop where
  quiet : ∀ w t a w', w.1.hasFuzzedOnce = true → m w = (t, .ok (a, w')) → selected t = [] ∧ w'.1.hasFuzzedOnce = true

/-- What has been done after the choices: nothing, and the file is at another place, or the flag is
set, and something has been done or not. -/
def Chosen (hasRead : Bool) (lines : List Nat) (outcome : Except Bool Unit × Cursor) (t : List Action) (p : Process) : Prop :=
  match outcome with
  | (.ok _, c) => selected t = [] ∧ p.plan = (false, c, hasRead, lines)
  | (.error done, _) => p.hasFuzzedOnce = true ∧ (selected t = [] ↔ done = false)

structure Plays {σ α : Type} (hasRead : Bool) (lines : List Nat) (choice : Choice Unit) (m : Drive σ α) : Prop extends Quiet m where
  plays : ∀ c w t a w', w.1.plan = (false, c, hasRead, lines) → m w = (t, .ok (a, w')) → Chosen hasRead lines (choice.run c) t w'.1

section

variable {σ α β ν : Type} {view : Process → ν} {hasRead : Bool} {lines : List Nat}

namespace Leaves

theorem pure (a : α) : Leaves view (Pure.pure a : Drive σ α) := by
  constructor
  intro w t b w' ran
  obtain ⟨rfl, rfl, rfl⟩ := pure_ok ran
  exact ⟨rfl, rfl⟩

theorem bind {m : Drive σ α} {f : α → Drive σ β} (first : Leaves view m) (rest : ∀ a, Leaves view (f a)) :
    Leaves view (m >>= f) := by
  constructor
  intro w t b w' ran
  obtain ⟨t₁, a, w₁, t₂, ran₁, ran₂, rfl⟩ := bind_ok ran
  obtain ⟨none₁, same₁⟩ := first.keeps _ _ _ _ ran₁
  obtain ⟨none₂, same₂⟩ := (rest a).keeps _ _ _ _ ran₂
  exact ⟨by rw [selected_append, none₁, none₂]; rfl, same₂.trans same₁⟩

theorem ite {c : Prop} [Decidable c] {m m' : Drive σ α} (yes : Leaves view m) (no : Leaves view m') :
    Leaves view (if c then m else m') := by
  split
  · exact yes
  · exact no

theorem silent {step : Process × σ → Except Halt (α × Process × σ)}
    (keeps : ∀ w a w', step w = .ok (a, w') → view w'.1 = view w.1) : Leaves view (Traced.silent step) := by
  constructor
  intro w t a w' ran
  obtain ⟨rfl, came⟩ := silent_ok ran
  exact ⟨rfl, keeps w a w' came⟩

theorem emit {action : Action} (other : action.isSelected = false) : Leaves view (Traced.emit action : Drive σ Unit) := by
  constructor
  intro w t a w' ran
  obtain ⟨rfl, rfl⟩ := emit_ok ran
  exact ⟨by rw [selected, List.filter_singleton, other]; rfl, rfl⟩

theorem halt (e : Halt) : Leaves view (Traced.halt e : Drive σ α) := silent fun w a w' came => by cases came

theorem read (f : Process × σ → α) : Leaves view (Traced.read f : Drive σ α) := silent fun w a w' came => by cases came; rfl

theorem change {f : Process × σ → Process × σ} (keeps : ∀ w, view (f w).1 = view w.1) : Leaves view (Traced.change f : Drive σ Unit) :=
  silent fun w a w' came => by cases came; exact keeps w

theorem ofRun (run : Run α) : Leaves view (ofRun run : Drive σ α) := by
  apply silent
  intro w a w' came
  split at came
  · cases came
    rfl
  · cases came

theorem ask (question : σ → Option (α × σ)) : Leaves view (ask question) := by
  apply silent
  intro w a w' came
  split at came
  · cases came
    rfl
  · cases came

theorem tell (question : σ → Option σ) : Leaves view (tell question) := ask _

theorem onFuzzer {step : Fuzzer → Run (α × Fuzzer)}
    (keeps : ∀ p a fuzzer, step p.fuzzer = .ok (a, fuzzer) → view { p with fuzzer } = view p) :
    Leaves view (onFuzzer step : Drive σ α) := by
  apply silent
  intro w a w' came
  split at came
  · rename_i stepped
    unfold withFuzzer at came
    split at came
    · cases came
    · cases came
      exact keeps _ _ _ stepped
  · cases came

theorem input {m : StateM Fuzzer α} (keeps : ∀ p, view { p with fuzzer := (m p.fuzzer).2 } = view p) :
    Leaves view (input m : Drive σ α) := by
  apply silent
  intro w a w' came
  unfold withFuzzer at came
  split at came
  · cases came
  · cases came
    exact keeps w.1

theorem quiet {m : Drive σ α} (leaves : Leaves Process.hasFuzzedOnce m) : Quiet m := by
  constructor
  intro w t a w' flag ran
  obtain ⟨none, same⟩ := leaves.keeps _ _ _ _ ran
  exact ⟨none, same.trans flag⟩

theorem flag {m : Drive σ α} (leaves : Leaves Process.plan m) : Leaves Process.hasFuzzedOnce m := by
  constructor
  intro w t a w' ran
  obtain ⟨none, same⟩ := leaves.keeps _ _ _ _ ran
  exact ⟨none, congrArg Prod.fst same⟩

theorem plays {m : Drive σ α} (leaves : Leaves Process.plan m) : Plays hasRead lines (Pure.pure ()) m := by
  refine ⟨leaves.flag.quiet, ?_⟩
  intro c w t a w' start ran
  obtain ⟨none, same⟩ := leaves.keeps _ _ _ _ ran
  exact ⟨none, same.trans start⟩

end Leaves

theorem Quiet.bind {m : Drive σ α} {f : α → Drive σ β} (first : Quiet m) (rest : ∀ a, Quiet (f a)) : Quiet (m >>= f) := by
  constructor
  intro w t b w' flag ran
  obtain ⟨t₁, a, w₁, t₂, ran₁, ran₂, rfl⟩ := bind_ok ran
  obtain ⟨none₁, flag₁⟩ := first.quiet _ _ _ _ flag ran₁
  obtain ⟨none₂, flag₂⟩ := (rest a).quiet _ _ _ _ flag₁ ran₂
  exact ⟨by rw [selected_append, none₁, none₂]; rfl, flag₂⟩

theorem choice_bind {γ : Type} (choice : Choice γ) (later : γ → Choice Unit) (c : Cursor) :
    (choice >>= later).run c =
      match choice.run c with
      | (.ok a, c') => (later a).run c'
      | (.error done, c') => (.error done, c') := by
  show (match choice.run c with | (r, c') => (ExceptT.bindCont later r).run c') = _
  rcases choice.run c with ⟨_ | _, _⟩ <;> rfl

structure SameFile {γ : Type} (choice : Choice γ) : Prop where
  keeps : ∀ c, (choice.run c).2.1 = c.1

namespace SameFile

theorem pure {γ : Type} (a : γ) : SameFile (Pure.pure a : Choice γ) := ⟨fun _ => rfl⟩

theorem throw {γ : Type} (done : Bool) : SameFile (MonadExcept.throw done : Choice γ) := ⟨fun _ => rfl⟩

theorem bind {γ : Type} {choice : Choice γ} {later : γ → Choice Unit} (first : SameFile choice) (rest : ∀ a, SameFile (later a)) :
    SameFile (choice >>= later) := by
  constructor
  intro c
  have kept := first.keeps c
  rw [choice_bind]
  rcases outcome : choice.run c with ⟨done | a, c'⟩
  · rwa [outcome] at kept
  · rw [outcome] at kept
    exact ((rest a).keeps c').trans kept

theorem ite {γ : Type} {p : Prop} [Decidable p] {choice choice' : Choice γ} (yes : SameFile choice) (no : SameFile choice') :
    SameFile (if p then choice else choice') := by
  split
  · exact yes
  · exact no

theorem times {choice : Choice Unit} (once : SameFile choice) (n : Nat) : SameFile (chooseTimes choice n) := by
  induction n with
  | zero => exact pure ()
  | succ n ih => exact once.bind fun _ => ih

theorem nextByte : SameFile nextByte := by
  constructor
  intro c
  show c.next.2.1 = c.1
  unfold Cursor.next
  split <;> rfl

end SameFile

theorem choosePacket_sameFile : SameFile choosePacket := SameFile.nextByte.bind fun _ => .ite (.throw _) (.pure _)

theorem chooseRound_sameFile (config : FuzzOptions) (hasRead : Bool) : SameFile (chooseRound config hasRead) := by
  have packets : SameFile choosePackets := by
    apply choosePacket_sameFile.bind
    intro _
    apply SameFile.nextByte.bind
    intro tmp
    exact .ite (.pure _) (.ite choosePacket_sameFile (choosePacket_sameFile.times 4))
  have calls : SameFile (chooseSyscall hasRead) :=
    SameFile.nextByte.bind fun _ => .ite (SameFile.nextByte.bind fun _ => .throw _) (.pure _)
  exact .ite (packets.bind fun _ => .ite calls (.pure _)) (.ite calls (.pure _))

theorem chooseChecking_sameFile (config : FuzzOptions) : SameFile (chooseChecking config) := by
  have read : SameFile (if !config.isNoFuzzSyscall then choosePacket else pure ()) := .ite choosePacket_sameFile (.pure _)
  exact .ite (choosePacket_sameFile.bind fun _ => read) read

theorem chooseAll_sameFile (config : FuzzOptions) (hasRead : Bool) : SameFile (chooseAll config hasRead) := by
  apply ((chooseRound_sameFile config hasRead).times 10).bind
  intro _
  apply ((chooseChecking_sameFile config).times 3).bind
  intro _
  exact (chooseRound_sameFile config hasRead).times 3

namespace Plays

theorem bind {choice : Choice Unit} {later : Unit → Choice Unit} {m : Drive σ α} {f : α → Drive σ β}
    (first : Plays hasRead lines choice m) (rest : ∀ a, Plays hasRead lines (later ()) (f a)) :
    Plays hasRead lines (choice >>= later) (m >>= f) := by
  refine ⟨first.toQuiet.bind fun a => (rest a).toQuiet, ?_⟩
  intro c w t b w' start ran
  obtain ⟨t₁, a, w₁, t₂, ran₁, ran₂, rfl⟩ := bind_ok ran
  have chosen := first.plays _ _ _ _ _ start ran₁
  rw [choice_bind]
  rcases outcome : choice.run c with ⟨done | _, c'⟩
  · rw [outcome] at chosen
    obtain ⟨flag, selects⟩ := chosen
    obtain ⟨none, flag'⟩ := (rest a).quiet _ _ _ _ flag ran₂
    refine ⟨flag', ?_⟩
    rw [selected_append, none, List.append_nil]
    exact selects
  · rw [outcome] at chosen
    obtain ⟨none, start'⟩ := chosen
    have later := (rest a).plays _ _ _ _ _ start' ran₂
    unfold Chosen at later ⊢
    rw [selected_append, none, List.nil_append]
    exact later

theorem after {choice : Choice Unit} {m : Drive σ α} {f : α → Drive σ β} (first : Leaves Process.plan m)
    (rest : ∀ a, Plays hasRead lines choice (f a)) : Plays hasRead lines choice (m >>= f) :=
  @Plays.bind _ _ _ _ _ (Pure.pure ()) (fun _ => choice) _ _ first.plays rest

theorem before {choice : Choice Unit} {m : Drive σ α} {f : α → Drive σ β} (first : Plays hasRead lines choice m)
    (rest : ∀ a, Leaves Process.plan (f a)) : Plays hasRead lines choice (m >>= f) := by
  have both := @Plays.bind _ _ _ _ _ choice (fun _ => Pure.pure ()) _ _ first fun a => (rest a).plays
  rwa [bind_pure_unit] at both

theorem ite {c : Prop} [Decidable c] {choice choice' : Choice Unit} {m m' : Drive σ α} (yes : Plays hasRead lines choice m)
    (no : Plays hasRead lines choice' m') : Plays hasRead lines (if c then choice else choice') (if c then m else m') := by
  split
  · exact yes
  · exact no

theorem times {choice : Choice Unit} {m : Drive σ Unit} (once : Plays hasRead lines choice m) (n : Nat) :
    Plays hasRead lines (chooseTimes choice n) (Traced.times m n) := by
  induction n with
  | zero => exact (Leaves.pure ()).plays
  | succ n ih => exact once.bind fun _ => ih

end Plays

structure Loud (m : Drive σ α) : Prop where
  loud : ∀ w t a w', w.1.hasFuzzedOnce = true → m w = (t, .ok (a, w')) → selected t ≠ [] ∧ w'.1.hasFuzzedOnce = true

namespace Loud

theorem emit {action : Action} (isSelected : action.isSelected = true) : Loud (Traced.emit action : Drive σ Unit) := by
  constructor
  intro w t a w' flag ran
  obtain ⟨rfl, rfl⟩ := emit_ok ran
  refine ⟨?_, flag⟩
  rw [selected, List.filter_singleton, isSelected]
  exact List.cons_ne_nil _ _

theorem after {m : Drive σ α} {f : α → Drive σ β} (first : Leaves Process.hasFuzzedOnce m) (rest : ∀ a, Loud (f a)) :
    Loud (m >>= f) := by
  constructor
  intro w t b w' flag ran
  obtain ⟨t₁, a, w₁, t₂, ran₁, ran₂, rfl⟩ := bind_ok ran
  obtain ⟨none, flag₁⟩ := first.quiet.quiet _ _ _ _ flag ran₁
  rw [selected_append, none, List.nil_append]
  exact (rest a).loud _ _ _ _ flag₁ ran₂

theorem before {m : Drive σ α} {f : α → Drive σ β} (first : Loud m) (rest : ∀ a, Leaves Process.hasFuzzedOnce (f a)) :
    Loud (m >>= f) := by
  constructor
  intro w t b w' flag ran
  obtain ⟨t₁, a, w₁, t₂, ran₁, ran₂, rfl⟩ := bind_ok ran
  obtain ⟨some, flag₁⟩ := first.loud _ _ _ _ flag ran₁
  obtain ⟨none, flag₂⟩ := (rest a).quiet.quiet _ _ _ _ flag₁ ran₂
  rw [selected_append, none, List.append_nil]
  exact ⟨some, flag₂⟩

theorem halt (e : Halt) : Loud (Traced.halt e : Drive σ α) := ⟨fun _ _ _ _ _ ran => absurd ran halt_ok⟩

end Loud

end

end TcpFuzz
