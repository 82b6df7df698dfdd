import TcpFuzz.Lib.Regex

/-! A scanner in the manner of lex: the longest match, and among equally long ones the rule that is listed first. -/

namespace Scanner

structure Rule (α τ : Type) where
  pattern : Regex α
  action : List α → Option τ

variable {α τ : Type} [DecidableEq α]

def scan : List (Rule α τ) → List α → Option (Rule α τ × Nat)
  | [], _ => none
  | rule :: rules, text =>
    match rule.pattern.longest text, scan rules text with
    | none, best => best
    | some n, none => some (rule, n)
    | some n, some (other, m) => if m ≤ n then some (rule, n) else some (other, m)

theorem scan_length {rules : List (Rule α τ)} {text : List α} {rule : Rule α τ} {n : Nat}
    (found : scan rules text = some (rule, n)) : rule ∈ rules ∧ rule.pattern.longest text = some n := by
  induction rules with
  | nil => cases found
  | cons first rules ih =>
    unfold scan at found
    split at found
    next none => exact (ih found).imp_left (List.mem_cons_of_mem first)
    next k longest none =>
      cases found
      exact ⟨List.mem_cons_self, longest⟩
    next k other m longest best =>
      split at found
      · cases found
        exact ⟨List.mem_cons_self, longest⟩
      · cases found
        exact (ih best).imp_left (List.mem_cons_of_mem first)

/-- The tokens of a text; a symbol that no rule matches is skipped. -/
def tokens (rules : List (Rule α τ)) (text : List α) : List τ :=
  match text with
  | [] => []
  | a :: rest =>
    match _found : scan rules (a :: rest) with
    | none => tokens rules rest
    | some (rule, n) => (rule.action ((a :: rest).take n)).toList ++ tokens rules ((a :: rest).drop n)
termination_by text.length
decreasing_by
  · simp
  · have := (Regex.longest_le (scan_length _found).2).1
    simp only [List.length_drop, List.length_cons]
    omega

end Scanner
