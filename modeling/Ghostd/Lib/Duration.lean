import Ghostd.Lib.Text

/-!
# `Ghostd.Lib.Duration`: durations as text

`time.ParseDuration`: an optional sign and a sequence of numbers, each with a unit. What the digits after
a point are worth is computed in floating point and enters as `fraction`. `parseDuration_number` is what
the text of one whole number with a unit stands for, and `parseInt64_suffix` says that such a text is no
number.
-/

set_option autoImplicit false

namespace Ghostd.Lib

open List

/-- A Go `int` that a computation left with the value `n`. -/
def wrap64 (n : Int) : Int := Int.bmod n (2 ^ 64)

def decimalDigit (c : Char) : Bool := (digitValue c).any (· < 10)

/-- The units, in nanoseconds. -/
def durationUnit : List Char → Option Nat
  | ['n', 's'] => some 1
  | ['u', 's'] => some (10 ^ 3)
  | ['µ', 's'] => some (10 ^ 3)
  | ['μ', 's'] => some (10 ^ 3)
  | ['m', 's'] => some (10 ^ 6)
  | ['s'] => some (10 ^ 9)
  | ['m'] => some (60 * 10 ^ 9)
  | ['h'] => some (3600 * 10 ^ 9)
  | _ => none

section Duration

variable (fraction : List Char → Nat → Nat)

/-- The numbers with their units, after those that make up `d`. Each pass takes a unit off the text, so
that its length is enough fuel. -/
def durationFrom : Nat → Nat → List Char → Option Nat
  | 0, d, cs => if cs = [] then some d else none
  | fuel + 1, d, cs => if cs = [] then some d else do
    let digits := cs.takeWhile decimalDigit
    let v ← (readDigits 10 0 digits).filter (· ≤ 2 ^ 63)
    let cs := cs.dropWhile decimalDigit
    let post := if cs.head? = some '.' then cs.tail.takeWhile decimalDigit else []
    let cs := if cs.head? = some '.' then cs.tail.dropWhile decimalDigit else cs
    let unit := cs.takeWhile fun c => !(c = '.' || decimalDigit c)
    let size ← durationUnit unit
    let part := v * size + if post = [] then 0 else fraction post size
    let sum := (d + part) % 2 ^ 64
    if (digits = [] ∧ post = []) ∨ 2 ^ 63 / size < v ∨ 2 ^ 63 < part ∨ 2 ^ 63 < sum then none
    else durationFrom fuel sum (cs.drop unit.length)

/-- A duration without its sign. -/
def unsignedDuration (cs : List Char) : Option Nat :=
  if cs = ['0'] then some 0 else if cs = [] then none else durationFrom fraction cs.length 0 cs

/-- `time.ParseDuration`, in nanoseconds. -/
def parseDuration (s : String) : Option Int :=
  match s.toList with
  | '-' :: cs => (unsignedDuration fraction cs).map fun d => -(d : Int)
  | '+' :: cs => ((unsignedDuration fraction cs).filter (· < 2 ^ 63)).map Int.ofNat
  | cs => ((unsignedDuration fraction cs).filter (· < 2 ^ 63)).map Int.ofNat

end Duration

variable {fraction : List Char → Nat → Nat} {cs : List Char} {u : Char} {m n : Nat} {v : Int}

theorem decimalDigit_of_readDigits {acc : Nat} (h : readDigits 10 acc cs = some n) :
    ∀ c ∈ cs, decimalDigit c = true := by
  induction cs generalizing acc with
  | nil => exact fun c hc => (by cases hc)
  | cons c cs ih =>
    rw [readDigits] at h
    cases hd : digitValue c with
    | none =>
      rw [hd] at h
      cases h
    | some =>
      simp only [hd] at h
      split at h
      · rename_i hlt
        rw [forall_mem_cons]
        exact ⟨by simp [decimalDigit, hd, hlt], ih h⟩
      · cases h

/-- The digits of a positive number. -/
theorem digits_of_parseInt64 {s : String} (h : parseInt64 s = some v) (hv : 0 < v) :
    ∃ ds n, (s.toList = ds ∨ s.toList = '+' :: ds) ∧ ds ≠ [] ∧ readDigits 10 0 ds = some n ∧ v = n := by
  have hread : ∀ {t : String}, (Option.map (fun n : Int => n) do
      let n ← parseUint t 10 63
      pure (n : Int)) = some v → t.toList ≠ [] ∧ ∃ n, readDigits 10 0 t.toList = some n ∧ v = n := by
    intro t ht
    obtain ⟨_, hpure, rfl⟩ := Option.map_eq_some_iff.mp ht
    obtain ⟨n, hn, hv⟩ := Option.bind_eq_some_iff.mp hpure
    cases hv
    unfold parseUint at hn
    split at hn
    · cases hn
    · rename_i hne
      exact ⟨hne, n, (Option.filter_eq_some_iff.mp hn).1, rfl⟩
  unfold parseInt64 at h
  split at h
  · -- A number with a minus sign is not positive.
    obtain ⟨n, -, hn⟩ := Option.bind_eq_some_iff.mp h
    split at hn
    · cases hn
      omega
    · cases hn
  · rename_i ds hs
    obtain ⟨hne, n, hn, hv⟩ := hread h
    rw [String.toList_ofList] at hne hn
    exact ⟨ds, n, Or.inr hs, hne, hn, hv⟩
  · obtain ⟨hne, n, hn, hv⟩ := hread h
    exact ⟨s.toList, n, Or.inl rfl, hne, hn, hv⟩

/-- A text that ends with something else than a digit is no number. -/
theorem parseInt64_suffix (hu : decimalDigit u = false) : parseInt64 (String.ofList (cs ++ [u])) = none := by
  have hread : ∀ ds bits, parseUint (String.ofList (ds ++ [u])) 10 bits = none := by
    intro ds bits
    unfold parseUint
    rw [String.toList_ofList, if_neg (by simp), Option.filter_eq_none_iff]
    intro n hn
    have hdigit := decimalDigit_of_readDigits hn u (by simp)
    rw [hu] at hdigit
    cases hdigit
  -- A sign is the first character, or there is nothing before the last one.
  have hsigned : ∀ {c ds} bits, cs ++ [u] = c :: ds → parseUint (String.ofList ds) 10 bits = none := by
    intro c ds bits hs
    cases cs with
    | nil =>
      obtain rfl : [] = ds := (List.cons.inj hs).2
      rfl
    | cons c cs =>
      obtain rfl : cs ++ [u] = ds := (List.cons.inj hs).2
      exact hread cs bits
  unfold parseInt64
  rw [String.toList_ofList]
  split
  · rename_i ds hs
    rw [hsigned 64 hs]
    rfl
  · rename_i ds hs
    rw [hsigned 63 hs]
    rfl
  · rw [hread]
    rfl

section Number

variable (hdigits : readDigits 10 0 cs = some n) (hne : cs ≠ []) (hu : decimalDigit u = false) (hdot : u ≠ '.')

include hdigits hne hu hdot

/-- One number with a unit of one letter: the pass over it is the only one. -/
theorem unsignedDuration_number : unsignedDuration fraction (cs ++ [u]) =
    (if n ≤ 2 ^ 63 then some n else none).bind fun v => (durationUnit [u]).bind fun size =>
      if 2 ^ 63 / size < v ∨ 2 ^ 63 < v * size then none else some (v * size) := by
  have hall := decimalDigit_of_readDigits hdigits
  have hzero : cs ++ [u] ≠ ['0'] := by
    intro h
    have hmem : u ∈ ['0'] := by
      rw [← h]
      simp
    rw [mem_singleton.mp hmem] at hu
    cases hu
  have htake : (cs ++ [u]).takeWhile decimalDigit = cs := by
    rw [takeWhile_append_of_pos hall, takeWhile_cons_of_neg (by simp [hu]), append_nil]
  have hdrop : (cs ++ [u]).dropWhile decimalDigit = [u] := by
    rw [dropWhile_append_of_pos hall, dropWhile_cons_of_neg (by simp [hu])]
  have hunit : [u].takeWhile (fun c => !(c = '.' || decimalDigit c)) = [u] := by simp [hu, hdot]
  have hlast : ∀ k, durationFrom fraction cs.length k [] = some k := by
    intro k
    cases cs.length <;> rfl
  unfold unsignedDuration
  rw [if_neg hzero, if_neg (by simp), length_append, length_singleton, durationFrom, if_neg (by simp),
    htake, hdrop]
  simp only [hdigits, List.head?_cons, Option.some.injEq, hdot, if_false, hunit, hne, false_and, false_or,
    length_singleton, drop_one, tail_cons, hlast, if_true, Nat.add_zero, Nat.zero_add,
    Option.filter_some, decide_eq_true_eq]
  show Option.bind _ _ = _
  refine congrArg _ (funext fun v => ?_)
  show Option.bind _ _ = _
  refine congrArg _ (funext fun size => ?_)
  by_cases hsum : 2 ^ 63 < v * size
  · rw [if_pos (Or.inr (Or.inl hsum)), if_pos (Or.inr hsum)]
  · simp only [Nat.mod_eq_of_lt (show v * size < 2 ^ 64 by omega), or_self]

end Number

/-- A positive number with a unit of one letter. -/
theorem parseDuration_number (fraction : List Char → Nat → Nat) {s : String} (h : parseInt64 s = some v)
    (hv : 0 < v) (hu : decimalDigit u = false) (hdot : u ≠ '.') :
    (durationUnit [u] = none → parseDuration fraction (String.ofList (s.toList ++ [u])) = none) ∧
    ∀ size, durationUnit [u] = some size → 0 < size → v * size < 2 ^ 63 →
      parseDuration fraction (String.ofList (s.toList ++ [u])) = some (v * size) := by
  obtain ⟨ds, n, hs, hne, hn, rfl⟩ := digits_of_parseInt64 h hv
  have hparse : parseDuration fraction (String.ofList (s.toList ++ [u])) =
      ((unsignedDuration fraction (ds ++ [u])).filter (· < 2 ^ 63)).map Int.ofNat := by
    unfold parseDuration
    rw [String.toList_ofList]
    rcases hs with hs | hs
    · rw [hs]
      -- The first digit is no sign.
      cases ds with
      | nil => exact absurd rfl hne
      | cons d =>
        have hd := decimalDigit_of_readDigits hn d (by simp)
        rw [cons_append]
        split
        · rename_i heq
          rw [(List.cons.inj heq).1] at hd
          cases hd
        · rename_i heq
          rw [(List.cons.inj heq).1] at hd
          cases hd
        · rfl
    · rw [hs]
      rfl
  rw [hparse, unsignedDuration_number hn hne hu hdot]
  constructor
  · intro hnone
    rw [hnone]
    split <;> rfl
  · intro size hsize hpos hlt
    have hlt : n * size < 2 ^ 63 := by exact_mod_cast hlt
    have hle : n ≤ n * size := Nat.le_mul_of_pos_right n hpos
    have hdiv : ¬ (2 ^ 63 / size < n) := by
      rw [Nat.div_lt_iff_lt_mul hpos]
      omega
    rw [if_pos (by omega), hsize]
    simp only [Option.bind_some, hdiv, false_or]
    rw [if_neg (by omega), Option.filter_some_pos (by simpa using hlt), Option.map_some]
    simp

end Ghostd.Lib
