import Ghostd.Lib.Netip

/-!
# `Ghostd.Lib.NetipRange`: the ranges of prefixes

A prefix stands for the addresses it contains. Two masked prefixes of one length are equal or
have no address in common (`Prefix.disjoint_of_ne`), and a prefix whose network lies in a
shorter one lies in it as a whole (`Prefix.contains_of_contains`). `Prefix.overlaps_of_contains`
and `Prefix.disjoint_iff` say that prefixes overlap exactly when they have an address in common.
-/

set_option autoImplicit false

namespace Ghostd.Lib

variable {p q : Prefix} {a : Addr}

namespace Prefix

/-- No address is in both prefixes. -/
def Disjoint (p q : Prefix) : Prop := ∀ a, p.contains a = true → q.contains a = false

theorem contains_iff : p.contains a = true ↔
      a.zone = "" ∧ a.family = p.addr.family ∧ a.value / p.size = p.addr.value / p.size := by
  simp [contains, and_assoc]

theorem Disjoint.symm (h : p.Disjoint q) : q.Disjoint p := by
  intro a hq
  by_contra hp
  rw [Bool.not_eq_false] at hp
  rw [h a hp] at hq
  cases hq

theorem masked_value (h : p = p.masked) : p.addr.value / p.size * p.size = p.addr.value :=
  (congrArg (fun q => q.addr.value) h).symm

/-- Two prefixes are the same when their network and length are. -/
theorem ext' (haddr : p.addr = q.addr) (hbits : p.bits = q.bits) : p = q := by
  cases p
  cases q
  simp only at haddr hbits
  subst haddr hbits
  rfl

/-- Masked prefixes of one length that have an address in common are the same. -/
theorem disjoint_of_ne (hp : p = p.masked) (hq : q = q.masked) (hbits : p.bits = q.bits) (hne : p ≠ q) :
    p.Disjoint q := by
  intro a ha
  by_contra hboth
  rw [Bool.not_eq_false] at hboth
  obtain ⟨-, hfp, hvp⟩ := contains_iff.mp ha
  obtain ⟨-, hfq, hvq⟩ := contains_iff.mp hboth
  have hfamily : p.addr.family = q.addr.family := hfp.symm.trans hfq
  have hsize : p.size = q.size := by
    unfold size
    rw [hfamily, hbits]
  refine hne (ext' (Addr.ext' hfamily ?_ (p.no_zone.trans q.no_zone.symm)) hbits)
  rw [← masked_value hp, ← masked_value hq, ← hvp, ← hvq, hsize]

/-- The shorter of two prefixes of a family is so many times as large. -/
theorem size_mul (hfamily : p.addr.family = q.addr.family) (hbits : q.bits ≤ p.bits) :
    p.size * 2 ^ (p.bits - q.bits) = q.size := by
  have hp := p.bits_le
  unfold size
  rw [← Nat.pow_add, hfamily]
  rw [hfamily] at hp
  congr 1
  omega

/-- What is in a prefix is in every shorter one that its network is in. -/
theorem contains_of_contains (hbits : q.bits ≤ p.bits) (hnetwork : q.contains p.addr = true)
    (ha : p.contains a = true) : q.contains a = true := by
  obtain ⟨-, hfq, hvq⟩ := contains_iff.mp hnetwork
  obtain ⟨hz, hfp, hvp⟩ := contains_iff.mp ha
  refine contains_iff.mpr ⟨hz, hfp.trans hfq, ?_⟩
  rw [← hvq, ← size_mul hfq hbits, ← Nat.div_div_eq_div_mul, ← Nat.div_div_eq_div_mul, hvp]

/-- Prefixes with an address in common overlap. -/
theorem overlaps_of_contains (hp : p.contains a = true) (hq : q.contains a = true) : p.overlaps q = true := by
  obtain ⟨-, hfp, hvp⟩ := contains_iff.mp hp
  obtain ⟨-, hfq, hvq⟩ := contains_iff.mp hq
  have hfamily : p.addr.family = q.addr.family := hfp.symm.trans hfq
  -- At the size of the larger one, both networks have the leading bits of the address.
  have hlarge : ∀ {p q : Prefix}, p.addr.family = q.addr.family → q.bits ≤ p.bits →
      a.value / p.size = p.addr.value / p.size → a.value / q.size = p.addr.value / q.size := by
    intro p q hf hbits hv
    rw [← size_mul hf hbits, ← Nat.div_div_eq_div_mul, ← Nat.div_div_eq_div_mul, hv]
  have hle : ∀ {p q : Prefix}, p.addr.family = q.addr.family → q.bits ≤ p.bits → p.size ≤ q.size := by
    intro p q hf hbits
    rw [← size_mul hf hbits]
    exact Nat.le_mul_of_pos_right _ (Nat.two_pow_pos _)
  simp only [overlaps, hfamily, decide_true, Bool.true_and, decide_eq_true_eq]
  rcases Nat.le_total q.bits p.bits with hbits | hbits
  · rw [max_eq_right (hle hfamily hbits), ← hlarge hfamily hbits hvp, hvq]
  · rw [max_eq_left (hle hfamily.symm hbits), ← hlarge hfamily.symm hbits hvq, hvp]

theorem overlaps_comm (p q : Prefix) : p.overlaps q = q.overlaps p := by
  unfold overlaps
  rw [Nat.max_comm, decide_eq_decide.mpr (eq_comm (a := p.addr.family)),
    decide_eq_decide.mpr (eq_comm (a := p.addr.value / _))]

/-- Prefixes overlap when they have an address in common: the network of the smaller one. -/
theorem disjoint_iff : p.Disjoint q ↔ p.overlaps q = false := by
  have hself : ∀ p : Prefix, p.contains p.addr = true := fun p => contains_iff.mpr ⟨p.no_zone, rfl, rfl⟩
  constructor
  · intro h
    rw [Bool.eq_false_iff]
    intro hoverlap
    simp only [overlaps, Bool.and_eq_true, decide_eq_true_eq] at hoverlap
    obtain ⟨hfamily, hvalue⟩ := hoverlap
    rcases Nat.le_total p.size q.size with hle | hle
    · rw [max_eq_right hle] at hvalue
      have hnot := h p.addr (hself p)
      rw [contains_iff.mpr ⟨p.no_zone, hfamily, hvalue⟩] at hnot
      cases hnot
    · rw [max_eq_left hle] at hvalue
      have hnot := h.symm q.addr (hself q)
      rw [contains_iff.mpr ⟨q.no_zone, hfamily.symm, hvalue.symm⟩] at hnot
      cases hnot
  · intro h a ha
    rw [Bool.eq_false_iff]
    intro ha'
    rw [overlaps_of_contains ha ha'] at h
    cases h

/-- The addresses of a masked prefix, as a range of numbers. -/
theorem bounds_of_contains (hp : p = p.masked) (h : p.contains a = true) :
    p.addr.value ≤ a.value ∧ a.value < p.addr.value + p.size := by
  obtain ⟨-, -, hvalue⟩ := contains_iff.mp h
  have hbase := masked_value hp
  have hdiv := Nat.div_add_mod a.value p.size
  have hmod := Nat.mod_lt a.value p.size_pos
  rw [hvalue, Nat.mul_comm, hbase] at hdiv
  omega

theorem contains_of_bounds (hp : p = p.masked) (hzone : a.zone = "") (hfamily : a.family = p.addr.family)
    (hlow : p.addr.value ≤ a.value) (hhigh : a.value < p.addr.value + p.size) : p.contains a = true := by
  refine contains_iff.mpr ⟨hzone, hfamily, ?_⟩
  have hbase := masked_value hp
  refine Nat.div_eq_of_lt_le ?_ ?_
  · rw [hbase]
    exact hlow
  · rw [Nat.succ_mul, hbase]
    exact hhigh

end Prefix

/-- The order of addresses, as far as numbers go. -/
theorem Addr.le_bounds {b : Addr} (h : a.le b = true) :
    a.family.bits ≤ b.family.bits ∧ (a.family = b.family → a.value ≤ b.value) := by
  unfold Addr.le Addr.compare at h
  cases hbits : Ord.compare a.family.bits b.family.bits with
  | lt =>
    rw [Nat.compare_eq_lt] at hbits
    refine ⟨by omega, fun hfamily => ?_⟩
    rw [hfamily] at hbits
    omega
  | eq =>
    rw [hbits] at h
    rw [Nat.compare_eq_eq] at hbits
    refine ⟨by omega, fun _ => ?_⟩
    cases hvalue : Ord.compare a.value b.value with
    | lt =>
      rw [Nat.compare_eq_lt] at hvalue
      omega
    | eq =>
      rw [Nat.compare_eq_eq] at hvalue
      omega
    | gt =>
      rw [hvalue] at h
      cases h
  | gt =>
    rw [hbits] at h
    cases h

theorem Family.bits_inj {f g : Family} (h : f.bits = g.bits) : f = g := by
  cases f <;> cases g <;> first | rfl | cases h

end Ghostd.Lib
