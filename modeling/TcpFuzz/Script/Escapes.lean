import TcpFuzz.Script.Expression

/-! `unescape_cstring_expression` of `script.c` gives back what a literal was written for, but for the two escapes
whose cases lack a `break`. -/

namespace TcpFuzz

/-- A character of a literal, the way it is written. -/
inductive Written where
  | plain (c : Char) (unescaped : c ≠ '\\')
  | backslash
  | quote
  | formFeed
  | newline
  | carriageReturn
  | tab
  | verticalTab
  | hex (high low : Char) (h l : Nat) (isHigh : hexValue high = some h) (isLow : hexValue low = some l)

namespace Written

def text : Written → List Char
  | plain c _ => [c]
  | backslash => ['\\', '\\']
  | quote => ['\\', '"']
  | formFeed => ['\\', 'f']
  | newline => ['\\', 'n']
  | carriageReturn => ['\\', 'r']
  | tab => ['\\', 't']
  | verticalTab => ['\\', 'v']
  | hex high low .. => ['\\', 'x', high, low]

def char : Written → Char
  | plain c _ => c
  | backslash => '\\'
  | quote => '"'
  | formFeed => Char.ofNat 12
  | newline => '\n'
  | carriageReturn => '\r'
  | tab => '\t'
  | verticalTab => Char.ofNat 11
  | hex _ _ h l .. => Char.ofNat (16 * h + l)

def charRead : Written → Char
  | backslash | quote => Char.ofNat 12
  | w => w.char

def isRead : Written → Bool
  | backslash | quote => false
  | _ => true

theorem charRead_eq_iff (w : Written) : w.charRead = w.char ↔ w.isRead := by
  cases w <;> simp [charRead, char, isRead]

end Written

theorem unescape_written (w : Written) (rest : List Char) :
    unescapeCstring (w.text ++ rest) = (w.charRead :: ·) <$> unescapeCstring rest := by
  cases w with
  | plain c unescaped =>
    show unescapeCstring (c :: rest) = _
    rw [unescapeCstring]
    · rfl
    · exact unescaped
  | backslash => rfl
  | quote => rfl
  | formFeed => rfl
  | newline => rfl
  | carriageReturn => rfl
  | tab => rfl
  | verticalTab => rfl
  | hex high low h l isHigh isLow =>
    show unescapeCstring ('\\' :: 'x' :: high :: low :: rest) = _
    have read : strtol16 high low = some (Char.ofNat (16 * h + l)) := by rw [strtol16, isLow, isHigh]
    rw [unescapeCstring, read]
    rfl

theorem unescape_literal (literal : List Written) :
    unescapeCstring (literal.flatMap (·.text)) = .ok (literal.map (·.charRead)) := by
  induction literal with
  | nil => rfl
  | cons w literal ih =>
    rw [List.flatMap_cons, unescape_written, ih]
    rfl

def hexEscapeError (rest : List Char) : String := "invalid hex escape (\\xhh): '\\x" ++ String.ofList rest ++ "'"

theorem hexEscapeError_inj {r s : List Char} (same : hexEscapeError r = hexEscapeError s) : r = s := by
  have inner := (String.append_right_inj _).mp ((String.append_left_inj _).mp same)
  exact String.ofList_inj.mp inner

theorem head?_append {s t : String} {c : Char} (first : s.toList.head? = some c) : (s ++ t).toList.head? = some c := by
  rw [String.toList_append, List.head?_append, first, Option.some_or]

theorem unsupported_head : "unsupported escape code: '".toList.head? = some 'u' := by decide +kernel

theorem hexEscapeError_head (r : List Char) : (hexEscapeError r).toList.head? = some 'i' := by
  have invalid : "invalid hex escape (\\xhh): '\\x".toList.head? = some 'i' := by decide +kernel
  exact head?_append (head?_append invalid)

theorem unsupported_ne_hexEscapeError (c : Char) (r : List Char) :
    "unsupported escape code: '" ++ String.singleton c ++ "'" ≠ hexEscapeError r := by
  intro same
  have first := head?_append (t := "'") (head?_append (t := String.singleton c) unsupported_head)
  rw [same, hexEscapeError_head] at first
  exact absurd (Option.some.inj first) (by decide)

theorem map_error {c : Char} {result : Except String (List Char)} {e : String}
    (failed : (c :: ·) <$> result = .error e) : result = .error e := by
  cases result with
  | error e' =>
    cases failed
    rfl
  | ok chars => cases failed

theorem unescape_hexEscapeError {text r : List Char} (failed : unescapeCstring text = .error (hexEscapeError r)) :
    r.length + 2 ≤ text.length := by
  fun_induction unescapeCstring text generalizing r with
  | case1 => cases failed
  | case3 c d rest read | case4 rest short =>
    rw [← hexEscapeError_inj (Except.error.inj failed)]
    simp only [List.length_cons, Nat.le_refl]
  | case10 c | case11 => exact absurd (Except.error.inj failed) (unsupported_ne_hexEscapeError _ r)
  | case2 c d rest byte read ih =>
    have later := ih (map_error failed)
    simp only [List.length_cons]
    omega
  | case5 c rest other known ih | case12 c rest plain ih =>
    have later := ih (map_error failed)
    simp only [List.length_cons]
    omega
  | case6 rest _ _ ih | case7 rest _ _ _ ih | case8 rest _ _ _ _ ih | case9 rest _ _ _ _ _ ih =>
    have later := ih (map_error failed)
    simp only [List.length_cons]
    omega

def HexAccepted (rest : List Char) : Prop := unescapeCstring ('\\' :: 'x' :: rest) ≠ .error (hexEscapeError rest)

def TwoHexDigits (rest : List Char) : Prop :=
  ∃ c d tail, rest = c :: d :: tail ∧ (hexValue c).isSome ∧ (hexValue d).isSome

/-- A blank or a sign before a digit, which `strtol` takes in as well. -/
def SignedHexDigit (rest : List Char) : Prop :=
  ∃ c d tail, rest = c :: d :: tail ∧ c ∈ [' ', '\t', '\n', '\r', Char.ofNat 11, Char.ofNat 12, '+', '-'] ∧
    (hexValue d).isSome

theorem hexAccepted_iff (rest : List Char) :
    HexAccepted rest ↔ ∃ c d tail, rest = c :: d :: tail ∧ (strtol16 c d).isSome := by
  match rest with
  | [] | [c] =>
    refine iff_of_false (fun accepted => accepted rfl) ?_
    rintro ⟨c, d, tail, split, -⟩
    cases split
  | c :: d :: tail =>
    cases read : strtol16 c d with
    | none =>
      refine iff_of_false (fun accepted => accepted ?_) ?_
      · rw [unescapeCstring, read]
        rfl
      · rintro ⟨c, d, tail, ⟨rfl, rfl, rfl⟩, isSome⟩
        rw [read] at isSome
        cases isSome
    | some byte =>
      refine iff_of_true (fun failed => ?_) ⟨c, d, tail, rfl, by rw [read]; rfl⟩
      rw [unescapeCstring, read] at failed
      have later := unescape_hexEscapeError (map_error failed)
      simp only [List.length_cons] at later
      omega

theorem strtol16_isSome (c d : Char) :
    (strtol16 c d).isSome ↔ (hexValue d).isSome ∧
      ((hexValue c).isSome ∨ c ∈ [' ', '\t', '\n', '\r', Char.ofNat 11, Char.ofNat 12, '+', '-']) := by
  rw [strtol16]
  cases hexValue d with
  | none => simp
  | some low =>
    cases hexValue c with
    | some high => simp
    | none =>
      simp only [Option.isSome_some, Option.isSome_none, Bool.false_eq_true, false_or, true_and]
      split
      · rename_i blank
        simp only [Option.isSome_some, true_iff]
        simp only [List.mem_cons, List.not_mem_nil, or_false] at blank ⊢
        tauto
      · rename_i noBlank
        split
        · rename_i minus
          simp [minus]
        · rename_i noMinus
          simp only [Option.isSome_none, Bool.false_eq_true, false_iff]
          simp only [List.mem_cons, List.not_mem_nil, or_false] at noBlank ⊢
          tauto

theorem hexValue_signs : ∀ c ∈ [' ', '\t', '\n', '\r', Char.ofNat 11, Char.ofNat 12, '+', '-'], hexValue c = none := by
  intro c sign
  simp only [List.mem_cons, List.not_mem_nil, or_false] at sign
  rcases sign with rfl | rfl | rfl | rfl | rfl | rfl | rfl | rfl <;> rfl

theorem hexAccepted_exact (rest : List Char) : (HexAccepted rest ↔ TwoHexDigits rest) ↔ ¬SignedHexDigit rest := by
  rw [hexAccepted_iff]
  constructor
  · rintro exact_ ⟨c, d, tail, rfl, sign, digit⟩
    obtain ⟨c', d', tail', split, high, -⟩ := exact_.mp ⟨c, d, tail, rfl, (strtol16_isSome c d).mpr ⟨digit, .inr sign⟩⟩
    cases split
    rw [hexValue_signs c sign] at high
    cases high
  · intro unsigned
    constructor
    · rintro ⟨c, d, tail, rfl, read⟩
      obtain ⟨low, high | sign⟩ := (strtol16_isSome c d).mp read
      · exact ⟨c, d, tail, rfl, high, low⟩
      · exact absurd ⟨c, d, tail, rfl, sign, low⟩ unsigned
    · rintro ⟨c, d, tail, rfl, high, low⟩
      exact ⟨c, d, tail, rfl, (strtol16_isSome c d).mpr ⟨low, .inl high⟩⟩

/-- A literal is read as it was written exactly if it escapes no backslash and no quote, and a
hexadecimal escape is taken for what it is unless a blank or a sign stands for its first digit. -/
theorem literal_read_back (literal : List Written) (rest : List Char) :
    (unescapeCstring (literal.flatMap (·.text)) = .ok (literal.map (·.char)) ↔ ∀ w ∈ literal, w.isRead) ∧
      ((HexAccepted rest ↔ TwoHexDigits rest) ↔ ¬SignedHexDigit rest) := by
  refine ⟨?_, hexAccepted_exact rest⟩
  rw [unescape_literal, Except.ok.injEq, List.map_inj_left]
  simp only [Written.charRead_eq_iff]

/-- An escaped backslash comes back as a form feed, and a minus sign passes for a digit. -/
theorem literal_misread :
    unescapeCstring ['\\', '\\'] = .ok [Char.ofNat 12] ∧ unescapeCstring ['\\', 'x', '-', '1'] = .ok [Char.ofNat 255] := by
  decide

end TcpFuzz
