import EntityGraph.Json.Reader
import Mathlib.Data.List.TakeWhile

namespace EntityGraph

namespace Decimal

theorem takeDigits_of_digits {ds : List Char} (h : ∀ d ∈ ds, d.isDigit = true) :
    takeDigits ds = (ds, []) := by
  rw [takeDigits, List.takeWhile_eq_self_iff.mpr h, List.dropWhile_eq_nil_iff.mpr h]

theorem isDigit_toDigits (n : Nat) : ∀ d ∈ Nat.toDigits 10 n, d.isDigit = true :=
  fun _ hd => Nat.isDigit_of_mem_toDigits (by decide) (by decide) hd

theorem digitsValue_toDigits (n : Nat) : digitsValue (Nat.toDigits 10 n) = n := by
  have hvalue : digitsValue (Nat.toDigits 10 n) = Nat.ofDigitChars 10 (Nat.toDigits 10 n) 0 := by
    rw [digitsValue, Nat.ofDigitChars_eq_foldl]
    simp only [Nat.mul_comm]
  rw [hvalue, Nat.ofDigitChars_ten_toDigits]

/-- The digits of a number other than zero do not begin with a zero. -/
theorem head?_toDigits_ne {n : Nat} (hn : n ≠ 0) : (Nat.toDigits 10 n).head? ≠ some '0' := by
  induction n using Nat.strongRecOn with
  | ind n ih =>
    by_cases hsmall : n < 10
    · have hdigit : ∀ n < 10, n ≠ 0 → Nat.digitChar n ≠ '0' := by decide
      rw [Nat.toDigits_of_lt_base hsmall]
      simpa using hdigit n hsmall hn
    · have hhead := ih (n / 10) (by omega) (by omega)
      rw [Nat.toDigits_of_base_le (by decide) (by omega)]
      cases h : Nat.toDigits 10 (n / 10) with
      | nil => exact absurd h Nat.toDigits_ne_nil
      | cons d ds =>
        rw [h] at hhead
        exact hhead

end Decimal

namespace Number

open Decimal

theorem scanWhole_toDigits (n : Nat) :
    scanWhole (Nat.toDigits 10 n) = some (Nat.toDigits 10 n, []) := by
  by_cases hn : n = 0
  · subst hn
    rfl
  · have hhead : ∀ rest, Nat.toDigits 10 n ≠ '0' :: rest := fun rest h =>
      head?_toDigits_ne hn (congrArg List.head? h)
    rw [scanWhole, takeDigits_of_digits (isDigit_toDigits n)]
    · split
      · next hnil => exact absurd (congrArg Prod.fst hnil) Nat.toDigits_ne_nil
      · rfl
    · exact hhead

/-- The digits of a number are a numeral to their end. -/
theorem scan_toDigits (n : Nat) :
    scan (Nat.toDigits 10 n) = some (⟨false, Nat.toDigits 10 n, none, none⟩, []) := by
  have hsign : ∀ rest, Nat.toDigits 10 n ≠ '-' :: rest := by
    intro rest h
    have hminus := isDigit_toDigits n '-' (h ▸ List.mem_cons_self)
    exact absurd hminus (by decide)
  rw [scan, scanWhole_toDigits]
  · rfl
  · exact hsign

theorem number?_toDigits {n : Nat} (h : n < 0x10000000000000000) :
    (Numeral.mk false (Nat.toDigits 10 n) none none).number? = some (.integer n) := by
  have hinteger : (Numeral.mk false (Nat.toDigits 10 n) none none).integer? = some (n : Int) := by
    simp only [Numeral.integer?, Option.isSome_none, Bool.or_self, Bool.false_eq_true, if_false,
      digitsValue_toDigits]
    exact if_pos h
  rw [Numeral.number?, hinteger]

end Number

namespace Json

/-- A number in decimal is read back. -/
theorem readValue_toDigits (size depth : Nat) {n : Nat} (h : n < 0x10000000000000000) :
    readValue size depth (Nat.toDigits 10 n) = some (.number (.integer n), []) := by
  have hstart : ∀ {d : Char} {rest : List Char}, d.isDigit = false →
      Nat.toDigits 10 n ≠ d :: rest := by
    intro d rest hd h
    exact absurd (Decimal.isDigit_toDigits n d (h ▸ List.mem_cons_self)) (by simp [hd])
  have hskip : skipBlanks (Nat.toDigits 10 n) = Nat.toDigits 10 n := by
    cases h : Nat.toDigits 10 n with
    | nil => rfl
    | cons d ds =>
      rw [skipBlanks, if_neg]
      rintro (rfl | rfl | rfl | rfl) <;> exact hstart (by decide) h
  rw [readValue, hskip]
  split
  -- The other readings start with a letter, a quote or a bracket.
  all_goals try next hother => exact absurd hother (hstart (by decide))
  rw [Number.scan_toDigits]
  simp [Number.number?_toDigits h]

/-- The text of a whole number is read as the number. -/
theorem read_toString {n : Nat} (h : n < 0x10000000000000000) :
    read (toString n) = some (.number (.integer n)) := by
  rw [read, readWithin, Nat.toString_eq_ofList_toDigits, String.toList_ofList,
    readValue_toDigits _ _ h]
  rfl

end Json

end EntityGraph
