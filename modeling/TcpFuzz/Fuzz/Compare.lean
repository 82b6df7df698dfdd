import Mathlib
import TcpFuzz.Fuzz.Report

/-! The texts of two steps differ where their observations do, as long as no byte of the data ends the string. -/

namespace TcpFuzz
open Traced
open Syscall (Recording SyscallSpec)

inductive Shows : List UInt8 → List Recording → Prop
  | nothing : Shows [] []
  | result {name : String} {actual : Int} (kept : name ∈ recordedSyscalls) :
      Shows (syscallResultText name actual) [.syscallResult name actual]
  | data {bytes : List UInt8} {count : Int} :
      Shows (readResultText bytes ++ syscallResultText "read" count) [.readResult (some bytes) count, .syscallResult "read" count]

theorem append_last_inj {α : Type} {c : α} {front front' back back' : List α} (none : c ∉ back) (none' : c ∉ back')
    (same : front ++ c :: back = front' ++ c :: back') : front = front' ∧ back = back' := by
  rcases List.append_eq_append_iff.mp same with ⟨middle, rfl, rest⟩ | ⟨middle, rfl, rest⟩
  · cases middle with
    | nil => exact ⟨(List.append_nil _).symm, (List.cons.inj rest).2⟩
    | cons first middle =>
      rw [List.cons_append, List.cons.injEq] at rest
      exact absurd (rest.2 ▸ List.mem_append_right middle List.mem_cons_self) none
  · cases middle with
    | nil => exact ⟨List.append_nil _, (List.cons.inj rest).2.symm⟩
    | cons first middle =>
      rw [List.cons_append, List.cons.injEq] at rest
      exact absurd (rest.2 ▸ List.mem_append_right middle List.mem_cons_self) none'

theorem charBytes_append (a b : String) : charBytes (a ++ b) = charBytes a ++ charBytes b := by
  rw [charBytes, String.toList_append, List.map_append]
  rfl

theorem toString_chars (n : Int) : ∀ c ∈ (toString n).toList, c = '-' ∨ c.isDigit := by
  intro c member
  have digits (k : Nat) (member : c ∈ k.repr.toList) : c.isDigit := by
    apply Nat.isDigit_of_mem_toDigits (b := 10) (n := k) (by decide) (by decide)
    simpa [Nat.repr] using member
  rw [Int.toString_eq_repr, Int.repr_eq_if] at member
  split at member
  · exact .inr (digits _ member)
  · rw [String.toList_append, List.mem_append] at member
    rcases member with sign | member
    · exact .inl (List.mem_singleton.mp sign)
    · exact .inr (digits _ member)

theorem toString_byte (n : Int) : ∀ c ∈ (toString n).toList, 33 ≤ c.toNat ∧ c.toNat < 128 := by
  intro c member
  rcases toString_chars n c member with rfl | digit
  · decide
  · have bounds : 48 ≤ c.toNat ∧ c.toNat ≤ 57 := Char.isDigit_iff_toNat.mp digit
    omega

theorem charBytes_toString_inj {n n' : Int} (same : charBytes (toString n) = charBytes (toString n')) : n = n' := by
  have chars (k : Int) : (charBytes (toString k)).map (fun b => Char.ofNat b.toNat) = (toString k).toList := by
    rw [charBytes, List.map_map]
    apply List.map_congr_left _ |>.trans (List.map_id _)
    intro c member
    have bounds := toString_byte k c member
    show Char.ofNat (UInt8.ofNat c.toNat).toNat = c
    rw [UInt8.toNat_ofNat', Nat.mod_eq_of_lt (by omega), Char.ofNat_toNat]
  have texts : (toString n).toList = (toString n').toList := by rw [← chars n, same, chars n']
  exact Int.repr_inj.mp (String.toList_inj.mp texts)

theorem charBytes_toString_ne (n : Int) (b : UInt8) (small : b.toNat < 33) : b ∉ charBytes (toString n) := by
  intro member
  obtain ⟨c, char, rfl⟩ := List.mem_map.mp member
  have bounds := toString_byte n c char
  rw [UInt8.toNat_ofNat', Nat.mod_eq_of_lt (by omega)] at small
  omega

theorem syscallResultText_eq (name : String) (actual : Int) :
    syscallResultText name actual = (charBytes name ++ [32, 58]) ++ 32 :: (charBytes (toString actual) ++ [10]) := by
  have between : charBytes " : " = [32, 58, 32] := by decide
  have after : charBytes "\n" = [10] := by decide
  rw [syscallResultText, charBytes_append, charBytes_append, charBytes_append, between, after]
  simp only [List.append_assoc, List.cons_append, List.nil_append]

theorem recordedSyscalls_inj : ∀ name ∈ recordedSyscalls, ∀ name' ∈ recordedSyscalls, charBytes name = charBytes name' → name = name' := by
  decide

theorem readResultText_inj {bytes bytes' : List UInt8} (same : readResultText bytes = readResultText bytes') : bytes = bytes' := by
  have mapped := List.append_cancel_left (List.append_cancel_right same)
  exact List.map_injective_iff.mpr (fun a b sum => (UInt8.add_left_inj 48).mp sum) mapped

theorem append_syscallResultText_inj {front front' : List UInt8} {name name' : String} {n n' : Int}
    (same : front ++ syscallResultText name n = front' ++ syscallResultText name' n') :
    front ++ charBytes name = front' ++ charBytes name' ∧ n = n' := by
  have blank (k : Int) : (32 : UInt8) ∉ charBytes (toString k) ++ [10] := by
    rw [List.mem_append, not_or]
    exact ⟨charBytes_toString_ne k 32 (by decide), by decide⟩
  rw [syscallResultText_eq, syscallResultText_eq, ← List.append_assoc, ← List.append_assoc front'] at same
  obtain ⟨before, after⟩ := append_last_inj (blank n) (blank n') same
  rw [← List.append_assoc, ← List.append_assoc] at before
  exact ⟨List.append_cancel_right before, charBytes_toString_inj (List.append_cancel_right after)⟩

theorem Shows.injective {text : List UInt8} {shown shown' : List Recording} (shows : Shows text shown) (shows' : Shows text shown') :
    shown = shown' := by
  have filled (name : String) (n : Int) (front : List UInt8) : [] ≠ front ++ syscallResultText name n := by
    rw [syscallResultText_eq]
    simp
  have short {name : String} (kept : name ∈ recordedSyscalls) (bytes : List UInt8) :
      charBytes name ≠ readResultText bytes ++ charBytes "read" := by
    intro same
    have lengths := congrArg List.length same
    have bound := recordedSyscalls_length kept
    rw [List.length_append, readResultText_length, charBytes_length] at lengths
    omega
  generalize same : text = text' at shows'
  cases shows with
  | nothing =>
    cases shows' with
    | nothing => rfl
    | result => exact absurd same (filled _ _ [])
    | data => exact absurd same (filled _ _ _)
  | result kept =>
    cases shows' with
    | nothing => exact absurd same.symm (filled _ _ [])
    | result kept' =>
      obtain ⟨names, rfl⟩ := @append_syscallResultText_inj [] [] _ _ _ _ same
      rw [recordedSyscalls_inj _ kept _ kept' names]
    | data => exact absurd (@append_syscallResultText_inj [] _ _ _ _ _ same).1 (short kept _)
  | data =>
    cases shows' with
    | nothing => exact absurd same.symm (filled _ _ _)
    | result kept' => exact absurd (@append_syscallResultText_inj _ [] _ _ _ _ same).1.symm (short kept' _)
    | data =>
      obtain ⟨fronts, rfl⟩ := append_syscallResultText_inj same
      rw [readResultText_inj (List.append_cancel_right fronts)]

section

variable {σ σ' : Type} {config : FuzzConfig} {script : List ScriptEvent} {fuzzFileString : List UInt8}

end

end TcpFuzz
