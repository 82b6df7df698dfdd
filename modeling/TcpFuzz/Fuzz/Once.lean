import TcpFuzz.Fuzz.OnceSteps

/-! With `is_fuzz_once` the same packets and calls are fuzzed in both runs only if nothing is fuzzed in either. -/

namespace TcpFuzz
open Traced

/-! ### The events of the script -/

section

variable {σ α β : Type} {config : FuzzOptions} {outside : Outside σ}

theorem predefined_read_iff {n m : Nat} {kind : FuzzSyscall} (found : predefinedSyscallEvents.find? (·.1 = n) = some (m, kind)) :
    kind = .read ↔ n = 30 := by
  have line := List.find?_some found
  rw [decide_eq_true_eq] at line
  have entry := List.mem_of_find?_eq_some found
  rw [← line]
  have table : ∀ e ∈ predefinedSyscallEvents, e.2 = .read ↔ e.1 = 30 := by decide
  exact table (m, kind) entry

/-- What an event leaves: an event on the line of `read` is kept. -/
def Process.planWith (p : Process) (reads : Bool) : Bool × Cursor × Bool × List Nat :=
  (p.hasFuzzedOnce, p.fuzzer.cursor, (p.predefined .read).isSome || reads, p.script.map ScriptEvent.lineNumber)

theorem Process.planWith_false (p : Process) : p.planWith false = p.plan := by
  simp only [Process.planWith, Process.plan, Bool.or_false]

structure Gathers (reads : Bool) (m : Drive σ α) : Prop where
  gathers : ∀ w t a w', m w = (t, .ok (a, w')) → selected t = [] ∧ w'.1.plan = w.1.planWith reads

theorem Leaves.gathers {m : Drive σ α} (leaves : Leaves Process.plan m) {reads : Bool} (none : reads = false) : Gathers reads m := by
  constructor
  intro w t a w' ran
  rw [none, Process.planWith_false]
  exact leaves.keeps _ _ _ _ ran

theorem setSyscallAside_gathers (kind : FuzzSyscall) (i : Nat) :
    Gathers (decide (kind = .read)) (setSyscallAside kind i : Drive σ Unit) := by
  constructor
  intro w t a w' ran
  unfold setSyscallAside at ran
  obtain ⟨rfl, came⟩ := silent_ok ran
  cases came
  refine ⟨rfl, ?_⟩
  simp only [Process.planWith, Process.plan]
  by_cases reads : kind = .read
  · rw [if_pos reads.symm, decide_eq_true reads, Bool.or_true]
    rfl
  · rw [if_neg (Ne.symm reads), decide_eq_false reads, Bool.or_false]

theorem Gathers.before {reads : Bool} {m : Drive σ α} {f : α → Drive σ β} (first : Gathers reads m) (rest : ∀ a, Leaves Process.plan (f a)) :
    Gathers reads (m >>= f) := by
  constructor
  intro w t b w' ran
  obtain ⟨t₁, a, w₁, t₂, ran₁, ran₂, rfl⟩ := bind_ok ran
  obtain ⟨none₁, after⟩ := first.gathers _ _ _ _ ran₁
  obtain ⟨none₂, same⟩ := (rest a).keeps _ _ _ _ ran₂
  exact ⟨by rw [selected_append, none₁, none₂]; rfl, same.trans after⟩

theorem setOutboundAside_leaves (noBackground : Bool) (body : EventBody) (aside : SetAside) :
    Leaves Process.plan (setOutboundAside outside noBackground body aside) := by
  cases body with
  | packet p => exact .ite (.bind (.tell _) fun _ => .pure _) (.pure _)
  | syscall syscall => exact .halt _
  | bogus => exact .halt _

variable (once : config.isFuzzOnce = true)
include once

theorem runPacketEvent_leaves (i lineNumber : Nat) (p : Packet) :
    Leaves Process.plan (runPacketEvent config outside i lineNumber p) := by
  have notFuzzed : config.fuzzesHandshake = false := by
    unfold FuzzOptions.fuzzesHandshake
    rw [once]
    cases config.isNoFuzzPacket <;> rfl
  unfold runPacketEvent
  split
  · rw [notFuzzed]
    apply (Leaves.ofRun _).bind
    intro p
    refine .bind (.emit rfl) fun _ => ?_
    apply (Leaves.tell _).bind
    intro _
    exact (setBody_leaves i _).bind fun _ => addPacketToFuzzScript_leaves p
  · exact .bind (.emit rfl) fun _ => .tell _



theorem runEvent_gathers (noBackground : Bool) (i : Nat) (e : ScriptEvent) (aside : SetAside) :
    Gathers (decide (e.lineNumber = 30)) (runEvent config outside noBackground i e aside) := by
  unfold runEvent
  split
  · rename_i line
    exact (setOutboundAside_leaves _ _ _).gathers (by rw [line]; rfl)
  split
  · rename_i line
    exact (Leaves.pure _).gathers (by rw [line]; rfl)
  split
  · rename_i found
    rw [← decide_eq_decide.mpr (predefined_read_iff found)]
    exact (setSyscallAside_gathers _ i).before fun _ => .pure _
  · rename_i absent
    have other : decide (e.lineNumber = 30) = false := by
      apply decide_eq_false
      intro line
      rw [line] at absent
      cases absent
    apply Leaves.gathers _ other
    cases e.body with
    | packet p => exact (runPacketEvent_leaves once i _ p).bind fun _ => .pure _
    | syscall syscall => exact (runSystemCallEvent_leaves syscall).bind fun _ => .pure _
    | bogus => exact .bind (.halt _) fun _ => .pure _

theorem runEvents_planWith {noBackground : Bool} {indices : List Nat} {aside aside' : SetAside} {w w' : Process × σ}
    {t : List Action} (ran : runEvents config outside noBackground indices aside w = (t, .ok (aside', w'))) :
    selected t = [] ∧
      w'.1.plan = w.1.planWith (indices.any fun i => (w.1.script.map ScriptEvent.lineNumber)[i]? = some 30) := by
  induction indices generalizing aside w t with
  | nil => exact ((Leaves.pure _).gathers rfl).gathers _ _ _ _ ran
  | cons i rest ih =>
    obtain ⟨t₁, u, w₁, t₂, asked, next, rfl⟩ := bind_ok ran
    obtain ⟨none₁, same₁⟩ := (@Leaves.tell _ _ Process.plan _).keeps _ _ _ _ asked
    obtain ⟨t₂, event, w₂, t₃, looked, found, rfl⟩ := bind_ok next
    obtain ⟨rfl, came⟩ := silent_ok looked
    obtain ⟨event_eq, rfl⟩ : w₁.1.script[i]? = event ∧ w₁ = w₂ := by
      cases came
      exact ⟨rfl, rfl⟩
    cases event with
    | none => exact absurd found halt_ok
    | some e =>
      obtain ⟨t₄, aside₁, w₃, t₅, ran₃, ran₄, rfl⟩ := bind_ok found
      obtain ⟨none₃, after⟩ := (runEvent_gathers once noBackground i e aside).gathers _ _ _ _ ran₃
      obtain ⟨none₄, final⟩ := ih ran₄
      refine ⟨by rw [List.nil_append, selected_append, selected_append, none₁, none₃, none₄]; rfl, ?_⟩
      simp only [Process.plan, Process.planWith, Prod.mk.injEq] at same₁ after final ⊢
      obtain ⟨flag₁, cursor₁, read₁, lines₁⟩ := same₁
      obtain ⟨flag₃, cursor₃, read₃, lines₃⟩ := after
      obtain ⟨flag₄, cursor₄, read₄, lines₄⟩ := final
      have line : (w.1.script.map ScriptEvent.lineNumber)[i]? = some e.lineNumber := by
        rw [← lines₁, List.getElem?_map, event_eq]
        rfl
      refine ⟨flag₄.trans (flag₃.trans flag₁), cursor₄.trans (cursor₃.trans cursor₁), ?_, lines₄.trans (lines₃.trans lines₁)⟩
      rw [read₄, read₃, read₁, lines₃, lines₁, List.any_cons, line, Bool.or_assoc]
      simp only [Option.some.injEq]

end

/-! ### Both runs -/

theorem any_range_lines (script : List ScriptEvent) :
    ((List.range script.length).any fun i => (script.map ScriptEvent.lineNumber)[i]? = some 30) =
      script.any fun e => e.lineNumber = 30 := by
  rw [Bool.eq_iff_iff]
  simp only [List.any_eq_true, List.mem_range, decide_eq_true_eq, List.getElem?_map, Option.map_eq_some_iff]
  constructor
  · rintro ⟨i, _, e, found, line⟩
    exact ⟨e, List.mem_of_getElem? found, line⟩
  · rintro ⟨e, member, line⟩
    obtain ⟨i, found⟩ := List.mem_iff_getElem?.mp member
    exact ⟨i, (List.getElem?_eq_some_iff.mp found).1, e, found, line⟩

section

variable {σ : Type} {config : FuzzConfig} {outside : Outside σ} {w w' : Process × σ} {t : List Action}

theorem fuzzing_plays (once : config.isFuzzOnce = true) {hasRead : Bool} {lines : List Nat} (aside : SetAside) :
    Plays hasRead lines (chooseAll config.toFuzzOptions hasRead) (fuzzAndClose config outside aside) := by
  apply (doSomeFuzz_plays once 10).bind
  intro _
  apply ((checkingRound_plays once).times 3).bind
  intro _
  apply Plays.after (runCloseEvent_leaves aside.close)
  intro _
  exact (doSomeFuzz_plays once 3).before fun _ => finishOutbound_leaves _ _

theorem myRunScript_planned (once : config.isFuzzOnce = true) (ran : myRunScript config outside w = (t, .ok ((), w'))) :
    ∃ t₁ t₂ w₁, ∃ aside : SetAside, t = t₁ ++ t₂ ∧ selected t₁ = [] ∧
      w₁.1.plan = (reinit w.1).planWith (w.1.script.any fun e => e.lineNumber = 30) ∧
      fuzzAndClose config outside aside w₁ = (t₂, .ok ((), w')) := by
  obtain ⟨t₁, u, w₁, t₂, reset, started, rfl⟩ := bind_ok ran
  obtain ⟨rfl, came⟩ := silent_ok reset
  cases came
  obtain ⟨t₁, count, w₁, t₂, counted, looped, rfl⟩ := bind_ok started
  obtain ⟨rfl, came⟩ := silent_ok counted
  cases came
  split at looped
  · obtain ⟨_, _, _, _, halted, _⟩ := bind_ok looped
    exact absurd halted halt_ok
  obtain ⟨t₁, aside, w₁, t₂, events, rest, rfl⟩ := bind_ok looped
  obtain ⟨none, plan⟩ := runEvents_planWith once events
  refine ⟨t₁, t₂, w₁, aside, rfl, none, ?_, rest⟩
  rw [plan]
  exact congrArg (reinit w.1).planWith (any_range_lines w.1.script)

theorem myRunScript_quiet (once : config.isFuzzOnce = true) (flag : w.1.hasFuzzedOnce = true)
    (ran : myRunScript config outside w = (t, .ok ((), w'))) : selected t = [] := by
  obtain ⟨t₁, t₂, w₁, aside, rfl, none, plan, rest⟩ := myRunScript_planned once ran
  have flag₁ : w₁.1.hasFuzzedOnce = true := (congrArg Prod.fst plan).trans flag
  have none' := ((@fuzzing_plays _ _ outside once true [] aside).quiet _ _ _ _ flag₁ rest).1
  rw [selected_append, none, none']
  rfl

theorem myRunScript_chosen (once : config.isFuzzOnce = true) (flag : w.1.hasFuzzedOnce = false) {hasRead : Bool}
    (events : ((w.1.predefined .read).isSome || w.1.script.any fun e => e.lineNumber = 30) = hasRead)
    (ran : myRunScript config outside w = (t, .ok ((), w'))) :
    Chosen hasRead (w.1.script.map ScriptEvent.lineNumber)
      ((chooseAll config.toFuzzOptions hasRead).run (w.1.fuzzer.fuzzFileString, 0)) t w'.1 := by
  obtain ⟨t₁, t₂, w₁, aside, rfl, none, plan, rest⟩ := myRunScript_planned once ran
  have start : w₁.1.plan = (false, (w.1.fuzzer.fuzzFileString, 0), hasRead, w.1.script.map ScriptEvent.lineNumber) := by
    rw [plan, ← flag, ← events]
    rfl
  have chosen := (@fuzzing_plays _ _ outside once hasRead _ aside).plays _ _ _ _ _ start rest
  unfold Chosen at chosen ⊢
  rw [selected_append, none, List.nil_append]
  exact chosen

end

theorem any_lines (script : List ScriptEvent) :
    (script.any fun e => e.lineNumber = 30) = (script.map ScriptEvent.lineNumber).any fun n => n = 30 := by
  rw [List.any_map]
  rfl

/-- The second run selects nothing: the flag is set, or the file selects nothing in either run. -/
theorem fuzzOnce_same_iff {σ σ' : Type} {config : FuzzConfig} {script : List ScriptEvent} {fuzzFileString : List UInt8}
    {stack : Outside σ} {linux : Outside σ'} {t t' : List Action} {p p' : Process} (once : config.isFuzzOnce = true)
    (runs : Completed config script fuzzFileString stack linux t t' p p') :
    selected t = selected t' ↔
      fuzzesSomething config.toFuzzOptions (script.any fun e => e.lineNumber = 30) fuzzFileString = false := by
  obtain ⟨s, s₁, first⟩ := runs.first
  obtain ⟨s', s₁', second⟩ := runs.second
  have file : (Process.start script fuzzFileString).fuzzer.fuzzFileString = fuzzFileString := by
    simp only [Process.start, readByte]
    split <;> rfl
  have chosen := @myRunScript_chosen _ config _ _ _ _ once rfl (script.any fun e => e.lineNumber = 30) rfl first
  rw [file] at chosen
  unfold fuzzesSomething
  rcases outcome : (chooseAll config.toFuzzOptions (script.any fun e => e.lineNumber = 30)).run (fuzzFileString, 0) with ⟨done | _, c⟩
  · rw [outcome] at chosen
    obtain ⟨flag, selects⟩ := chosen
    have quiet : selected t' = [] := @myRunScript_quiet _ config.forLinux linux (p, s') _ _ once flag second
    rw [quiet]
    exact selects
  · rw [outcome] at chosen
    obtain ⟨none, plan⟩ := chosen
    obtain ⟨flag, cursor, isSome, lines⟩ := Process.plan_eq.mp plan
    have events : ((p.predefined .read).isSome || p.script.any fun e => e.lineNumber = 30) = script.any fun e => e.lineNumber = 30 := by
      rw [isSome, any_lines p.script, lines, ← any_lines]
      exact Bool.or_self _
    have again := @myRunScript_chosen _ config.forLinux linux (p, s') _ _ once flag _ events second
    have sameFile : p.fuzzer.fuzzFileString = fuzzFileString := by
      rw [show p.fuzzer.fuzzFileString = c.1 from congrArg Prod.fst cursor]
      have kept := (chooseAll_sameFile config.toFuzzOptions (script.any fun e => e.lineNumber = 30)).keeps (fuzzFileString, 0)
      rwa [outcome] at kept
    rw [sameFile, show config.forLinux.toFuzzOptions = config.toFuzzOptions from rfl, outcome] at again
    rw [none, again.1]
    exact ⟨fun _ => rfl, fun _ => rfl⟩

def fuzzOnce : FuzzConfig := ⟨⟨true, true, false, false⟩, false⟩

theorem fuzzOnce_same_unselected :
    ∃ t t' p p', Completed fuzzOnce readAndClose (List.replicate 16 200) (readingStack emptyRead) (readingStack emptyRead) t t' p p' ∧
      selected t = selected t' := by
  have evaluated : (bothRuns fuzzOnce readAndClose (List.replicate 16 200) (readingStack emptyRead) (readingStack emptyRead)).map
      (fun _ => true) = some true := by
    decide +kernel
  obtain ⟨t, t', p, p', runs, _⟩ := completed_of_bothRuns evaluated
  exact ⟨t, t', p, p', runs, (fuzzOnce_same_iff rfl runs).mpr (by decide +kernel)⟩

/-- With an empty file the first run calls `read` and the second one does not. -/
theorem fuzzOnce_differs :
    ∃ t t' p p', Completed fuzzOnce readAndClose [] (readingStack emptyRead) (readingStack emptyRead) t t' p p' ∧
      selected t ≠ [] ∧ selected t' = [] := by
  have evaluated : (bothRuns fuzzOnce readAndClose [] (readingStack emptyRead) (readingStack emptyRead)).map
      (fun (t, t', _, _) => !(selected t).isEmpty && (selected t').isEmpty) = some true := by
    decide +kernel
  obtain ⟨t, t', p, p', runs, checked⟩ := completed_of_bothRuns evaluated
  rw [Bool.and_eq_true, Bool.not_eq_true', List.isEmpty_iff, List.isEmpty_eq_false_iff] at checked
  exact ⟨t, t', p, p', runs, checked⟩

end TcpFuzz
