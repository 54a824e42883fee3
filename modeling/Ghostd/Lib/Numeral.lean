import Mathlib.Data.Nat.Digits.Defs

/-!
# `Ghostd.Lib.Numeral`: numbers as text

Printing is `Nat.toDigits`. `readDigits` is the reader in any base up to sixteen, with both
cases of the letters, and `readDecimal` is the strict decimal one: it refuses the empty text
and leading zeros. Both read back what was printed.
-/

set_option autoImplicit false

namespace Ghostd.Lib

/-- The value of a hexadecimal digit. -/
def digitValue (c : Char) : Option Nat :=
  if '0' ≤ c ∧ c ≤ '9' then some (c.toNat - '0'.toNat)
  else if 'a' ≤ c ∧ c ≤ 'f' then some (c.toNat - 'a'.toNat + 10)
  else if 'A' ≤ c ∧ c ≤ 'F' then some (c.toNat - 'A'.toNat + 10)
  else none

/-- Read digits of base `b` after the number `acc`. -/
def readDigits (b acc : Nat) : List Char → Option Nat
  | [] => some acc
  | c :: cs =>
    match digitValue c with
    | some d => if d < b then readDigits b (acc * b + d) cs else none
    | none => none

/-- A decimal number without a leading zero. -/
def readDecimal (cs : List Char) : Option Nat :=
  if cs = [] ∨ (cs.head? = some '0' ∧ cs.length ≠ 1) then none else readDigits 10 0 cs

variable {b : Nat}

theorem digitValue_digitChar {d : Nat} (hd : d < 16) : digitValue d.digitChar = some d := by
  have hall : ∀ d : Nat, d < 16 → digitValue d.digitChar = some d := by decide
  exact hall d hd

theorem readDigits_append (acc : Nat) (xs ys : List Char) :
    readDigits b acc (xs ++ ys) = (readDigits b acc xs).bind (readDigits b · ys) := by
  induction xs generalizing acc with
  | nil => rfl
  | cons c cs ih =>
    simp only [List.cons_append, readDigits]
    cases digitValue c with
    | none => rfl
    | some d =>
      by_cases hd : d < b
      · simp only [if_pos hd]
        exact ih _
      · simp only [if_neg hd]
        rfl

/-- A printed number reads back. -/
theorem readDigits_toDigits (hb : 1 < b) (hb16 : b ≤ 16) (n : Nat) :
    readDigits b 0 (Nat.toDigits b n) = some n := by
  induction n using Nat.strongRecOn with
  | ind n ih =>
    rw [Nat.toDigits_eq_if hb]
    by_cases hn : n < b
    · rw [if_pos hn]
      simp [readDigits, digitValue_digitChar (d := n) (by omega), hn]
    · have hmod : n % b < b := Nat.mod_lt n (by omega)
      rw [if_neg hn, readDigits_append, ih (n / b) (Nat.div_lt_self (by omega) hb)]
      simp only [Option.bind_some, readDigits, digitValue_digitChar (d := n % b) (by omega),
        if_pos hmod]
      rw [Nat.mul_comm, Nat.div_add_mod]

/-- A printed number starts with zero only when it is zero. -/
theorem toDigits_leading_zero (hb : 1 < b) (hb16 : b ≤ 16) {n : Nat} {cs : List Char}
    (hn : Nat.toDigits b n = '0' :: cs) : cs = [] := by
  induction n using Nat.strongRecOn generalizing cs with
  | ind n ih =>
    rw [Nat.toDigits_eq_if hb] at hn
    by_cases hlt : n < b
    · rw [if_pos hlt] at hn
      exact (List.cons.inj hn).2.symm
    · rw [if_neg hlt] at hn
      have hpos : 0 < n / b := Nat.div_pos (by omega) (by omega)
      cases hq : Nat.toDigits b (n / b) with
      | nil => exact absurd hq Nat.toDigits_ne_nil
      | cons c rest =>
        rw [hq] at hn
        obtain rfl : c = '0' := (List.cons.inj hn).1
        -- The quotient would print as a single zero.
        have hrest : rest = [] := ih (n / b) (Nat.div_lt_self (by omega) hb) hq
        have hread := readDigits_toDigits hb hb16 (n / b)
        rw [hq, hrest] at hread
        have hzero : readDigits b 0 ['0'] = some 0 := by
          show (if 0 < b then readDigits b (0 * b + 0) [] else none) = some 0
          rw [if_pos (by omega)]
          simp [readDigits]
        rw [hzero, Option.some.injEq] at hread
        omega

/-- A printed decimal reads back under the strict reader. -/
theorem readDecimal_toDigits (n : Nat) : readDecimal (Nat.toDigits 10 n) = some n := by
  unfold readDecimal
  rw [if_neg ?_, readDigits_toDigits (by omega) (by omega)]
  rintro (hnil | ⟨hhead, hlen⟩)
  · exact absurd hnil Nat.toDigits_ne_nil
  · cases hd : Nat.toDigits 10 n with
    | nil => exact absurd hd Nat.toDigits_ne_nil
    | cons c =>
      rw [hd] at hhead hlen
      obtain rfl : c = '0' := by simpa using hhead
      have hcs := toDigits_leading_zero (by omega) (by omega) hd
      rw [hcs] at hlen
      exact hlen rfl

/-- The characters of a printed number are digits. -/
theorem digitValue_of_mem_toDigits (hb : 1 < b) (hb16 : b ≤ 16) {n : Nat} {c : Char}
    (hc : c ∈ Nat.toDigits b n) : ∃ d, digitValue c = some d := by
  induction n using Nat.strongRecOn with
  | ind n ih =>
    rw [Nat.toDigits_eq_if hb] at hc
    by_cases hn : n < b
    · rw [if_pos hn, List.mem_singleton] at hc
      exact ⟨n, by rw [hc]; exact digitValue_digitChar (by omega)⟩
    · rw [if_neg hn, List.mem_append, List.mem_singleton] at hc
      rcases hc with hc | rfl
      · exact ih (n / b) (Nat.div_lt_self (by omega) hb) hc
      · have hmod : n % b < b := Nat.mod_lt n (by omega)
        exact ⟨n % b, digitValue_digitChar (by omega)⟩

end Ghostd.Lib
