import Mathlib.Computability.Language
import Mathlib.Tactic.Common

/-! Regular expressions with symbol classes, matched by derivatives, and what can be read off an expression about
every word of its language. -/

inductive Regex (α : Type) where
  | never
  | empty
  | oneOf (symbols : List α)
  | noneOf (symbols : List α)
  | seq (r s : Regex α)
  | alt (r s : Regex α)
  | star (r : Regex α)

namespace Regex

open Computability

variable {α : Type}

def language : Regex α → Language α
  | .never => 0
  | .empty => 1
  | .oneOf symbols => {w | ∃ a ∈ symbols, w = [a]}
  | .noneOf symbols => {w | ∃ a ∉ symbols, w = [a]}
  | .seq r s => r.language * s.language
  | .alt r s => r.language + s.language
  | .star r => r.language∗

section Members

variable {r s : Regex α} {symbols w : List α}

@[simp] theorem mem_never : w ∈ (Regex.never : Regex α).language ↔ False := Iff.rfl

@[simp] theorem mem_empty : w ∈ (Regex.empty : Regex α).language ↔ w = [] := Iff.rfl

@[simp] theorem mem_oneOf : w ∈ (oneOf symbols).language ↔ ∃ a ∈ symbols, w = [a] := Iff.rfl

@[simp] theorem mem_noneOf : w ∈ (noneOf symbols).language ↔ ∃ a ∉ symbols, w = [a] := Iff.rfl

theorem mem_seq : w ∈ (seq r s).language ↔ ∃ u ∈ r.language, ∃ v ∈ s.language, u ++ v = w := Iff.rfl

@[simp] theorem mem_alt : w ∈ (alt r s).language ↔ w ∈ r.language ∨ w ∈ s.language := Iff.rfl

theorem mem_star : w ∈ (star r).language ↔ ∃ parts : List (List α), w = parts.flatten ∧ ∀ v ∈ parts, v ∈ r.language :=
  Iff.rfl

end Members

def literal : List α → Regex α
  | [] => .empty
  | [a] => .oneOf [a]
  | a :: w => .seq (.oneOf [a]) (literal w)

def opt (r : Regex α) : Regex α := .alt r .empty

def plus (r : Regex α) : Regex α := .seq r (.star r)

def power (r : Regex α) : Nat → Regex α
  | 0 => .empty
  | 1 => r
  | n + 1 => .seq r (power r n)

def between (r : Regex α) (least : Nat) : Nat → Regex α
  | 0 => power r least
  | more + 1 => .alt (power r least) (.seq r (between r least more))

def anyOf : List (Regex α) → Regex α
  | [] => .never
  | [r] => r
  | r :: rs => .alt r (anyOf rs)

theorem mem_literal {v w : List α} : w ∈ (literal v).language ↔ w = v := by
  induction v generalizing w with
  | nil => exact mem_empty
  | cons a v ih =>
    cases v with
    | nil => simp [literal]
    | cons b v =>
      simp only [literal, mem_seq, ih]
      constructor
      · rintro ⟨x, ⟨c, member, rfl⟩, y, rfl, rfl⟩
        rw [List.mem_singleton.mp member]
        rfl
      · rintro rfl
        exact ⟨[a], ⟨a, List.mem_singleton_self a, rfl⟩, b :: v, rfl, rfl⟩

def nullable : Regex α → Bool
  | .never | .oneOf _ | .noneOf _ => false
  | .empty | .star _ => true
  | .seq r s => r.nullable && s.nullable
  | .alt r s => r.nullable || s.nullable

theorem nullable_iff (r : Regex α) : r.nullable = true ↔ [] ∈ r.language := by
  induction r with
  | never | empty | oneOf symbols | noneOf symbols => simp [nullable]
  | seq r s ihr ihs => simp [nullable, mem_seq, ihr, ihs]
  | alt r s ihr ihs => simp [nullable, ihr, ihs]
  | star r => simp [nullable, language, Language.nil_mem_kstar]

/-- A sequence, without the parts that are known to be empty or to match nothing. -/
def mkSeq : Regex α → Regex α → Regex α
  | .never, _ => .never
  | .empty, s => s
  | r, s => .seq r s

def mkAlt : Regex α → Regex α → Regex α
  | .never, s => s
  | r, .never => r
  | r, s => .alt r s

theorem mem_mkSeq {r s : Regex α} {w : List α} : w ∈ (mkSeq r s).language ↔ w ∈ (seq r s).language := by
  unfold mkSeq
  split <;> simp [mem_seq]

theorem mem_mkAlt {r s : Regex α} {w : List α} : w ∈ (mkAlt r s).language ↔ w ∈ (alt r s).language := by
  unfold mkAlt
  split <;> simp

theorem cons_mem_seq {r s : Regex α} {a : α} {w : List α} :
    a :: w ∈ (seq r s).language ↔
      (∃ u, a :: u ∈ r.language ∧ ∃ v ∈ s.language, u ++ v = w) ∨ [] ∈ r.language ∧ a :: w ∈ s.language := by
  constructor
  · rintro ⟨x, first, y, second, whole⟩
    cases x with
    | nil => exact .inr ⟨first, whole ▸ second⟩
    | cons b u =>
      obtain ⟨rfl, rfl⟩ := List.cons.inj whole
      exact .inl ⟨u, first, y, second, rfl⟩
  · rintro (⟨u, first, v, second, rfl⟩ | ⟨first, second⟩)
    · exact ⟨a :: u, first, v, second, rfl⟩
    · exact ⟨[], first, a :: w, second, rfl⟩

theorem cons_mem_star {r : Regex α} {a : α} {w : List α} :
    a :: w ∈ (star r).language ↔ ∃ u, a :: u ∈ r.language ∧ ∃ v ∈ (star r).language, u ++ v = w := by
  constructor
  · intro member
    obtain ⟨parts, whole, each⟩ := Language.mem_kstar_iff_exists_nonempty.mp member
    cases parts with
    | nil => cases whole
    | cons part parts =>
      obtain ⟨here, nonempty⟩ := each part List.mem_cons_self
      obtain ⟨b, u, rfl⟩ := List.exists_cons_of_ne_nil nonempty
      rw [List.flatten_cons, List.cons_append] at whole
      obtain ⟨rfl, rfl⟩ := List.cons.inj whole
      refine ⟨u, here, parts.flatten, Language.join_mem_kstar fun y inside => ?_, rfl⟩
      exact (each y (List.mem_cons_of_mem _ inside)).1
  · rintro ⟨u, here, v, rest, rfl⟩
    obtain ⟨parts, rfl, each⟩ := mem_star.mp rest
    exact mem_star.mpr ⟨(a :: u) :: parts, rfl, List.forall_mem_cons.mpr ⟨here, each⟩⟩

section Derivative

variable [DecidableEq α]

def deriv (a : α) : Regex α → Regex α
  | .never | .empty => .never
  | .oneOf symbols => if a ∈ symbols then .empty else .never
  | .noneOf symbols => if a ∈ symbols then .never else .empty
  | .seq r s => mkAlt (mkSeq (r.deriv a) s) (if r.nullable then s.deriv a else .never)
  | .alt r s => mkAlt (r.deriv a) (s.deriv a)
  | .star r => mkSeq (r.deriv a) (.star r)

theorem mem_deriv (a : α) (r : Regex α) (w : List α) : w ∈ (r.deriv a).language ↔ a :: w ∈ r.language := by
  induction r generalizing w with
  | never | empty => simp [deriv]
  | oneOf symbols | noneOf symbols => by_cases here : a ∈ symbols <;> simp [deriv, here]
  | seq r s ihr ihs =>
    rw [deriv, mem_mkAlt, mem_alt, mem_mkSeq, mem_seq, cons_mem_seq, ← nullable_iff]
    by_cases skip : r.nullable = true <;> simp [skip, ihr, ihs]
  | alt r s ihr ihs => rw [deriv, mem_mkAlt, mem_alt, ihr, ihs, mem_alt]
  | star r ih => simp only [deriv, mem_mkSeq, mem_seq, cons_mem_star, ih]

def accepts (r : Regex α) : List α → Bool
  | [] => r.nullable
  | a :: w => (r.deriv a).accepts w

theorem accepts_iff (r : Regex α) (w : List α) : r.accepts w = true ↔ w ∈ r.language := by
  induction w generalizing r with
  | nil => exact r.nullable_iff
  | cons a w ih => rw [accepts, ih, mem_deriv]

def longest (r : Regex α) : List α → Option Nat
  | [] => none
  | a :: w =>
    match (r.deriv a).longest w with
    | some n => some (n + 1)
    | none => if (r.deriv a).nullable then some 1 else none

theorem longest_le {r : Regex α} {w : List α} {n : Nat} (found : r.longest w = some n) :
    0 < n ∧ n ≤ w.length ∧ w.take n ∈ r.language := by
  induction w generalizing r n with
  | nil => cases found
  | cons a w ih =>
    unfold longest at found
    split at found
    next m more =>
      cases found
      obtain ⟨_, inside, matched⟩ := ih more
      exact ⟨by omega, by simpa using inside, (mem_deriv a r _).mp matched⟩
    next =>
      split at found
      next stop =>
        cases found
        exact ⟨by omega, by simp, (mem_deriv a r []).mp ((nullable_iff _).mp stop)⟩
      · cases found

end Derivative

end Regex
