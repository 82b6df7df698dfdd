import Mathlib.Data.List.Forall2

/-! Programs that change a state, leave a list of actions behind and may come to a halt, which keeps the actions so
far. -/

/-- The actions in order, with the result and the state unless the program came to a halt. -/
def Traced (ω ε σ α : Type) : Type := σ → List ω × Except ε (α × σ)

namespace Traced

variable {ω ω' ε ε' σ σ' α β γ δ : Type}

instance : Monad (Traced ω ε σ) where
  pure a s := ([], .ok (a, s))
  bind m f s :=
    match m s with
    | (t, .error e) => (t, .error e)
    | (t, .ok (a, s)) =>
      match f a s with
      | (t', r) => (t ++ t', r)

def silent (step : σ → Except ε (α × σ)) : Traced ω ε σ α := fun s => ([], step s)

def emit (w : ω) : Traced ω ε σ Unit := fun s => ([w], .ok ((), s))

def halt (e : ε) : Traced ω ε σ α := silent fun _ => .error e

def read (f : σ → α) : Traced ω ε σ α := silent fun s => .ok (f s, s)

def change (f : σ → σ) : Traced ω ε σ Unit := silent fun s => .ok ((), f s)

def times (m : Traced ω ε σ Unit) : Nat → Traced ω ε σ Unit
  | 0 => pure ()
  | n + 1 => do
    m
    times m n

theorem bind_eq (m : Traced ω ε σ α) (f : α → Traced ω ε σ β) (s : σ) :
    (m >>= f) s =
      match m s with
      | (t, .error e) => (t, .error e)
      | (t, .ok (a, s)) =>
        match f a s with
        | (t', r) => (t ++ t', r) := rfl

theorem bind_ok {m : Traced ω ε σ α} {f : α → Traced ω ε σ β} {s s' : σ} {t : List ω} {b : β}
    (ran : (m >>= f) s = (t, .ok (b, s'))) :
    ∃ t₁ a s₁ t₂, m s = (t₁, .ok (a, s₁)) ∧ f a s₁ = (t₂, .ok (b, s')) ∧ t = t₁ ++ t₂ := by
  rw [bind_eq] at ran
  rcases first : m s with ⟨t₁, e | ⟨a, s₁⟩⟩
  · rw [first] at ran
    cases ran
  · rw [first] at ran
    rcases second : f a s₁ with ⟨t₂, r⟩
    simp only [second] at ran
    cases ran
    exact ⟨t₁, a, s₁, t₂, rfl, second, rfl⟩

theorem bind_of_ok {m : Traced ω ε σ α} {f : α → Traced ω ε σ β} {s s₁ : σ} {t₁ : List ω} {a : α}
    (first : m s = (t₁, .ok (a, s₁))) : (m >>= f) s = (t₁ ++ (f a s₁).1, (f a s₁).2) := by
  simp only [bind_eq, first]

theorem bind_of_error {m : Traced ω ε σ α} {f : α → Traced ω ε σ β} {s : σ} {t : List ω} {e : ε}
    (first : m s = (t, .error e)) : (m >>= f) s = (t, .error e) := by
  simp only [bind_eq, first]

theorem pure_ok {a b : α} {s s' : σ} {t : List ω} (ran : (pure a : Traced ω ε σ α) s = (t, .ok (b, s'))) :
    t = [] ∧ b = a ∧ s' = s := by
  cases ran
  exact ⟨rfl, rfl, rfl⟩

theorem silent_ok {step : σ → Except ε (α × σ)} {s s' : σ} {t : List ω} {a : α}
    (ran : (silent step : Traced ω ε σ α) s = (t, .ok (a, s'))) : t = [] ∧ step s = .ok (a, s') := by
  obtain ⟨none, came⟩ : [] = t ∧ step s = .ok (a, s') := Prod.mk.inj ran
  exact ⟨none.symm, came⟩

theorem emit_ok {w : ω} {s s' : σ} {t : List ω} {u : Unit} (ran : (emit w : Traced ω ε σ Unit) s = (t, .ok (u, s'))) :
    t = [w] ∧ s' = s := by
  cases ran
  exact ⟨rfl, rfl⟩

theorem halt_ok {e : ε} {s s' : σ} {t : List ω} {a : α} : (halt e : Traced ω ε σ α) s ≠ (t, .ok (a, s')) := by
  intro ran
  cases ran

/-- From a trace and a state that satisfy `before`, the program comes through with `after` or comes
to a halt with `halted`, of the longer trace. -/
def Ensures (before : List ω → σ → Prop) (m : Traced ω ε σ α) (after : α → List ω → σ → Prop)
    (halted : ε → List ω → Prop) : Prop :=
  ∀ past s, before past s →
    match m s with
    | (t, .ok (a, s')) => after a (past ++ t) s'
    | (t, .error e) => halted e (past ++ t)

namespace Ensures

variable {before : List ω → σ → Prop} {m : Traced ω ε σ α} {after : α → List ω → σ → Prop} {halted : ε → List ω → Prop}

theorem weaken (ensures : Ensures before m after halted) {before' : List ω → σ → Prop} {after' : α → List ω → σ → Prop}
    (stronger : ∀ past s, before' past s → before past s) (weaker : ∀ a past s, after a past s → after' a past s) :
    Ensures before' m after' halted := by
  intro past s start
  have ran := ensures past s (stronger past s start)
  rcases result : m s with ⟨t, e | ⟨a, s'⟩⟩
  · simpa only [result] using ran
  · rw [result] at ran
    exact weaker a _ s' ran

theorem assume {fact : Prop} (ensures : fact → Ensures before m after halted) :
    Ensures (fun past s => fact ∧ before past s) m after halted :=
  fun past s start => ensures start.1 past s start.2

theorem pure {a : α} (holds : ∀ past s, before past s → after a past s) :
    Ensures before (Pure.pure a : Traced ω ε σ α) after halted := by
  intro past s start
  show after a (past ++ []) s
  rw [List.append_nil]
  exact holds past s start

theorem bind (first : Ensures before m after halted) {f : α → Traced ω ε σ β} {final : β → List ω → σ → Prop}
    (rest : ∀ a, Ensures (after a) (f a) final halted) : Ensures before (m >>= f) final halted := by
  intro past s start
  have ran := first past s start
  rw [bind_eq]
  rcases result : m s with ⟨t, e | ⟨a, s'⟩⟩
  · simpa only [result] using ran
  · rw [result] at ran
    have later := rest a (past ++ t) s' ran
    rcases result' : f a s' with ⟨t', e | ⟨b, s''⟩⟩
    · simpa only [result', List.append_assoc] using later
    · simpa only [result', List.append_assoc] using later

theorem silent {step : σ → Except ε (α × σ)}
    (steps : ∀ past s, before past s → (∀ e, step s = .error e → halted e past) ∧
      ∀ a s', step s = .ok (a, s') → after a past s') :
    Ensures before (Traced.silent step : Traced ω ε σ α) after halted := by
  intro past s start
  obtain ⟨stops, goes⟩ := steps past s start
  unfold Traced.silent
  rcases result : step s with e | ⟨a, s'⟩
  · simpa only [List.append_nil] using stops e result
  · simpa only [List.append_nil] using goes a s' result

theorem emit {w : ω} {after : List ω → σ → Prop} (holds : ∀ past s, before past s → after (past ++ [w]) s) :
    Ensures before (Traced.emit w : Traced ω ε σ Unit) (fun _ => after) halted :=
  fun past s start => holds past s start

theorem halt {e : ε} (holds : ∀ past s, before past s → halted e past) :
    Ensures before (Traced.halt e : Traced ω ε σ α) after halted := by
  apply silent
  intro past s start
  refine ⟨fun e' same => ?_, fun a s' came => ?_⟩
  · cases same
    exact holds past s start
  · cases came

theorem read {f : σ → α} (holds : ∀ past s, before past s → after (f s) past s) :
    Ensures before (Traced.read f : Traced ω ε σ α) after halted := by
  apply silent
  intro past s start
  refine ⟨fun e failed => ?_, fun a s' came => ?_⟩
  · cases failed
  · cases came
    exact holds past s start

theorem change {f : σ → σ} {after : List ω → σ → Prop} (holds : ∀ past s, before past s → after past (f s)) :
    Ensures before (Traced.change f : Traced ω ε σ Unit) (fun _ => after) halted := by
  apply silent
  intro past s start
  refine ⟨fun e failed => ?_, fun a s' came => ?_⟩
  · cases failed
  · cases came
    exact holds past s start

theorem times {m : Traced ω ε σ Unit} {invariant : List ω → σ → Prop}
    (once : Ensures invariant m (fun _ => invariant) halted) (n : Nat) :
    Ensures invariant (Traced.times m n) (fun _ => invariant) halted := by
  induction n with
  | zero => exact pure fun _ _ start => start
  | succ n ih => exact once.bind fun _ => ih

theorem ok (ensures : Ensures before m after halted) {s s' : σ} {t : List ω} {a : α} (start : before [] s)
    (ran : m s = (t, .ok (a, s'))) : after a t s' := by
  have result := ensures [] s start
  rw [ran] at result
  exact result

theorem error (ensures : Ensures before m after halted) {s : σ} {t : List ω} {e : ε} (start : before [] s)
    (ran : m s = (t, .error e)) : halted e t := by
  have result := ensures [] s start
  rw [ran] at result
  exact result

end Ensures

/-- Whenever the first program comes through, the second leaves matching actions, or comes to a halt
on the way. -/
def Follows (matching : ω → ω' → Prop) (before : σ → σ' → Prop) (m : Traced ω ε σ α) (m' : Traced ω' ε' σ' β)
    (after : α → β → σ → σ' → Prop) : Prop :=
  ∀ s s' t a s₁, before s s' → m s = (t, .ok (a, s₁)) →
    (∃ t' b s₁', m' s' = (t', .ok (b, s₁')) ∧ List.Forall₂ matching t t' ∧ after a b s₁ s₁') ∨
      ∃ early t' e, m' s' = (t', .error e) ∧ early <+: t ∧ List.Forall₂ matching early t'

namespace Follows

variable {matching : ω → ω' → Prop} {before : σ → σ' → Prop} {m : Traced ω ε σ α} {m' : Traced ω' ε' σ' β}
  {after : α → β → σ → σ' → Prop}

theorem weaken (follows : Follows matching before m m' after) {before' : σ → σ' → Prop} {after' : α → β → σ → σ' → Prop}
    (stronger : ∀ s s', before' s s' → before s s') (weaker : ∀ a b s s', after a b s s' → after' a b s s') :
    Follows matching before' m m' after' := by
  intro s s' t a s₁ related ran
  rcases follows s s' t a s₁ (stronger s s' related) ran with ⟨t', b, s₁', ran', same, done⟩ | halted
  · exact .inl ⟨t', b, s₁', ran', same, weaker a b s₁ s₁' done⟩
  · exact .inr halted

theorem assume {fact : Prop} (follows : fact → Follows matching before m m' after) :
    Follows matching (fun s s' => fact ∧ before s s') m m' after := by
  intro s s' t a s₁ related ran
  exact follows related.1 s s' t a s₁ related.2 ran

theorem pure {a : α} {b : β} (related : ∀ s s', before s s' → after a b s s') :
    Follows matching before (Pure.pure a : Traced ω ε σ α) (Pure.pure b : Traced ω' ε' σ' β) after := by
  intro s s' t a' s₁ start ran
  cases ran
  exact .inl ⟨[], b, s', rfl, .nil, related s s' start⟩

theorem bind (first : Follows matching before m m' after) {f : α → Traced ω ε σ γ} {f' : β → Traced ω' ε' σ' δ}
    {final : γ → δ → σ → σ' → Prop} (rest : ∀ a b, Follows matching (after a b) (f a) (f' b) final) :
    Follows matching before (m >>= f) (m' >>= f') final := by
  intro s s' t c s₂ start ran
  obtain ⟨t₁, a, s₁, t₂, firstRan, restRan, rfl⟩ := bind_ok ran
  rcases first s s' t₁ a s₁ start firstRan with ⟨t₁', b, s₁', firstRan', same, related⟩ | ⟨early, t', e, halted, isEarly, same⟩
  · rw [bind_of_ok firstRan']
    rcases rest a b s₁ s₁' t₂ c s₂ related restRan with
      ⟨t₂', d, s₂', restRan', same', done⟩ | ⟨early, t', e, halted, isEarly, same'⟩
    · rw [restRan']
      exact .inl ⟨t₁' ++ t₂', d, s₂', rfl, List.rel_append same same', done⟩
    · rw [halted]
      exact .inr ⟨t₁ ++ early, t₁' ++ t', e, rfl, (List.prefix_append_right_inj t₁).mpr isEarly, List.rel_append same same'⟩
  · rw [bind_of_error halted]
    exact .inr ⟨early, t', e, rfl, isEarly.trans (List.prefix_append t₁ t₂), same⟩

theorem silent {step : σ → Except ε (α × σ)} {step' : σ' → Except ε' (β × σ')}
    (steps : ∀ s s' a s₁, before s s' → step s = .ok (a, s₁) →
      (∃ b s₁', step' s' = .ok (b, s₁') ∧ after a b s₁ s₁') ∨ ∃ e, step' s' = .error e) :
    Follows matching before (Traced.silent step : Traced ω ε σ α) (Traced.silent step') after := by
  intro s s' t a s₁ start ran
  obtain ⟨rfl, came⟩ := silent_ok ran
  rcases steps s s' a s₁ start came with ⟨b, s₁', ran', done⟩ | ⟨e, halted⟩
  · exact .inl ⟨[], b, s₁', Prod.ext rfl ran', .nil, done⟩
  · exact .inr ⟨[], [], e, Prod.ext rfl halted, List.nil_prefix, .nil⟩

theorem emit {w : ω} {w' : ω'} (matched : matching w w') :
    Follows matching before (Traced.emit w : Traced ω ε σ Unit) (Traced.emit w' : Traced ω' ε' σ' Unit)
      fun _ _ s s' => before s s' := by
  intro s s' t a s₁ start ran
  cases ran
  exact .inl ⟨[w'], (), s', rfl, .cons matched .nil, start⟩

theorem read {f : σ → α} {f' : σ' → β} (related : ∀ s s', before s s' → after (f s) (f' s') s s') :
    Follows matching before (Traced.read f : Traced ω ε σ α) (Traced.read f' : Traced ω' ε' σ' β) after := by
  apply silent
  intro s s' a s₁ start ran
  cases ran
  exact .inl ⟨f' s', s', rfl, related s s' start⟩

theorem change {f : σ → σ} {f' : σ' → σ'} {after : σ → σ' → Prop} (related : ∀ s s', before s s' → after (f s) (f' s')) :
    Follows matching before (Traced.change f : Traced ω ε σ Unit) (Traced.change f' : Traced ω' ε' σ' Unit)
      fun _ _ s s' => after s s' := by
  apply silent
  intro s s' a s₁ start ran
  cases ran
  exact .inl ⟨(), f' s', rfl, related s s' start⟩

theorem times {m : Traced ω ε σ Unit} {m' : Traced ω' ε' σ' Unit}
    (once : Follows matching before m m' fun _ _ s s' => before s s') (n : Nat) :
    Follows matching before (Traced.times m n) (Traced.times m' n) fun _ _ s s' => before s s' := by
  induction n with
  | zero => exact pure fun _ _ start => start
  | succ n ih => exact once.bind fun _ _ => ih

end Follows

end Traced
