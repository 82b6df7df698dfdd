import Mathlib.Tactic.Common

/-! Programs that ask a memory for cells one at a time. Which cells a program looks at can be told from the memory,
and its result depends on no others. -/

/-- A result, a failure, or a cell to look at. -/
inductive Peek (ι β ε α : Type) where
  | done (a : α)
  | fail (e : ε)
  | cell (i : ι) (next : β → Peek ι β ε α)

namespace Peek

variable {ι β ε α γ : Type}

protected def bind : Peek ι β ε α → (α → Peek ι β ε γ) → Peek ι β ε γ
  | done a, f => f a
  | fail e, _ => fail e
  | cell i next, f => cell i fun b => (next b).bind f

instance : Monad (Peek ι β ε) where
  pure := done
  bind := Peek.bind

def look (i : ι) : Peek ι β ε β := cell i done

def lift : Except ε α → Peek ι β ε α
  | .ok a => done a
  | .error e => fail e

def eval (m : ι → β) : Peek ι β ε α → Except ε α
  | done a => .ok a
  | fail e => .error e
  | cell i next => eval m (next (m i))

def looks (m : ι → β) : Peek ι β ε α → List ι
  | done _ => []
  | fail _ => []
  | cell i next => i :: looks m (next (m i))

section

variable (m : ι → β)

@[simp] theorem eval_pure (a : α) : eval m (pure a : Peek ι β ε α) = .ok a := rfl
@[simp] theorem looks_pure (a : α) : looks m (pure a : Peek ι β ε α) = [] := rfl
@[simp] theorem eval_fail (e : ε) : eval m (fail e : Peek ι β ε α) = .error e := rfl
@[simp] theorem looks_fail (e : ε) : looks m (fail e : Peek ι β ε α) = [] := rfl
@[simp] theorem eval_look (i : ι) : eval m (look i : Peek ι β ε β) = .ok (m i) := rfl
@[simp] theorem looks_look (i : ι) : looks m (look i : Peek ι β ε β) = [i] := rfl

@[simp] theorem eval_lift (run : Except ε α) : eval m (lift run) = run := by cases run <;> rfl
@[simp] theorem looks_lift (run : Except ε α) : looks m (lift run) = [] := by cases run <;> rfl

@[simp] theorem eval_bind (x : Peek ι β ε α) (f : α → Peek ι β ε γ) :
    eval m (x >>= f) = eval m x >>= fun a => eval m (f a) := by
  show eval m (x.bind f) = _
  induction x with
  | done a => rfl
  | fail e => rfl
  | cell i next ih => exact ih (m i)

theorem looks_bind (x : Peek ι β ε α) (f : α → Peek ι β ε γ) :
    looks m (x >>= f) = looks m x ++ ((eval m x).toOption.map fun a => looks m (f a)).getD [] := by
  show looks m (x.bind f) = _
  induction x with
  | done a => rfl
  | fail e => rfl
  | cell i next ih => exact congrArg (i :: ·) (ih (m i))

end

theorem eval_congr {m m' : ι → β} {x : Peek ι β ε α} (same : ∀ i ∈ looks m x, m' i = m i) :
    eval m' x = eval m x := by
  induction x with
  | done a => rfl
  | fail e => rfl
  | cell i next ih =>
    have here : m' i = m i := same i List.mem_cons_self
    rw [eval, eval, here]
    exact ih (m i) fun j member => same j (List.mem_cons_of_mem i member)

/-- The program comes to `a` and looks at cells of `S` only. -/
structure Reads (m : ι → β) (S : ι → Prop) (x : Peek ι β ε α) (a : α) : Prop where
  result : eval m x = .ok a
  inside : ∀ i ∈ looks m x, S i

namespace Reads

variable {m : ι → β} {S : ι → Prop} {x : Peek ι β ε α} {f : α → Peek ι β ε γ} {a : α} {c : γ}

theorem pure (a : α) : Reads m S (Pure.pure a : Peek ι β ε α) a := ⟨rfl, by simp⟩

theorem lift {run : Except ε α} (ok : run = .ok a) : Reads m S (Peek.lift run) a := ⟨by simpa using ok, by simp⟩

theorem bind (first : Reads m S x a) (next : Reads m S (f a) c) : Reads m S (x >>= f) c := by
  constructor
  · rw [eval_bind, first.result]
    exact next.result
  · rw [looks_bind, first.result]
    intro i member
    rcases List.mem_append.mp member with before | behind
    · exact first.inside i before
    · exact next.inside i behind

theorem look {i : ι} {b : β} (inside : S i) (value : m i = b) {f : β → Peek ι β ε γ} (next : Reads m S (f b) c) :
    Reads m S (Peek.look i >>= f) c :=
  bind ⟨by rw [eval_look, value], by simpa using inside⟩ next

theorem mono {T : ι → Prop} (reads : Reads m S x a) (weaker : ∀ i, S i → T i) : Reads m T x a :=
  ⟨reads.result, fun i member => weaker i (reads.inside i member)⟩

end Reads

/-- From cell `i` in steps to the first cell without the property. -/
def walk (p : β → Bool) (step : Int) (stuck : ε) : Nat → Int → Peek Int β ε Int
  | 0, _ => fail stuck
  | fuel + 1, i => do
    if p (← look i) then walk p step stuck fuel (i + step) else return i

theorem walk_reads {m : Int → β} {p : β → Bool} {step i : Int} {stuck : ε} {k fuel : Nat} {S : Int → Prop}
    (go : ∀ j < k, p (m (i + step * j)) = true) (halt : p (m (i + step * k)) = false) (enough : k < fuel)
    (inside : ∀ j ≤ k, S (i + step * j)) : Reads m S (walk p step stuck fuel i) (i + step * k) := by
  induction k generalizing i fuel with
  | zero =>
    obtain ⟨fuel, rfl⟩ := Nat.exists_eq_succ_of_ne_zero (show fuel ≠ 0 by omega)
    have first := inside 0 (Nat.le_refl 0)
    simp only [Int.natCast_zero, Int.mul_zero, Int.add_zero] at halt first ⊢
    refine .look first rfl ?_
    rw [halt]
    exact .pure i
  | succ k ih =>
    obtain ⟨fuel, rfl⟩ := Nat.exists_eq_succ_of_ne_zero (show fuel ≠ 0 by omega)
    have next (j : Nat) : i + step + step * j = i + step * (j + 1 : Nat) := by
      rw [Int.add_assoc, Int.natCast_succ, Int.mul_add, Int.mul_one, Int.add_comm step]
    have first := inside 0 (Nat.zero_le _)
    have here := go 0 (Nat.succ_pos k)
    simp only [Int.natCast_zero, Int.mul_zero, Int.add_zero] at first here
    refine .look first rfl ?_
    rw [here, ← next]
    refine ih ?_ ?_ (by omega) ?_
    · intro j before
      rw [next]
      exact go (j + 1) (by omega)
    · rw [next]
      exact halt
    · intro j before
      rw [next]
      exact inside (j + 1) (by omega)

def Sees (m : ι → β) (x : Peek ι β ε α) (P : ι → Prop) : Prop := ∃ i ∈ looks m x, P i

variable {m : ι → β} {P : ι → Prop} {x : Peek ι β ε α} {f : α → Peek ι β ε γ}

@[simp] theorem not_sees_pure (a : α) : ¬Sees m (pure a : Peek ι β ε α) P := by simp [Sees]

@[simp] theorem not_sees_lift (run : Except ε α) : ¬Sees m (lift run) P := by simp [Sees]

theorem sees_bind_iff {a : α} (result : eval m x = .ok a) (clear : ¬Sees m x P) :
    Sees m (x >>= f) P ↔ Sees m (f a) P := by
  unfold Sees at clear ⊢
  rw [looks_bind, result]
  constructor
  · rintro ⟨i, member, here⟩
    rcases List.mem_append.mp member with before | behind
    · exact absurd ⟨i, before, here⟩ clear
    · exact ⟨i, behind, here⟩
  · rintro ⟨i, member, here⟩
    exact ⟨i, List.mem_append_right _ member, here⟩

theorem sees_bind_quiet (quiet : ∀ a, ¬Sees m (f a) P) : Sees m (x >>= f) P ↔ Sees m x P := by
  unfold Sees
  rw [looks_bind]
  constructor
  · rintro ⟨i, member, here⟩
    rcases List.mem_append.mp member with before | behind
    · exact ⟨i, before, here⟩
    · cases result : eval m x with
      | error e => rw [result] at behind; cases behind
      | ok a =>
        rw [result] at behind
        exact absurd ⟨i, behind, here⟩ (quiet a)
  · rintro ⟨i, member, here⟩
    exact ⟨i, List.mem_append_left _ member, here⟩

theorem Sees.bind (sees : Sees m x P) : Sees m (x >>= f) P := by
  obtain ⟨i, member, here⟩ := sees
  exact ⟨i, looks_bind m x f ▸ List.mem_append_left _ member, here⟩

end Peek
