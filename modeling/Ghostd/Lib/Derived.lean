import Mathlib.Logic.Basic

/-!
# `Ghostd.Lib.Derived`: an index kept beside a table

A table has a row under each key, and each row gives entries of an index. The index is exact
when it holds the entries of the rows that are there, and no others. A write puts a new row
under a key. It takes out of the index what the old row had put there and adds what the new
row gives. `ExactIndex.write` says when that keeps the index exact: what is taken out is all
of the old row's and none of any other row's.
-/

set_option autoImplicit false

namespace Ghostd.Lib

variable {κ β ι : Type}

/-- The index holds exactly the entries of the rows. -/
def ExactIndex (rows : κ → Option β) (entry : β → ι → Prop) (index : ι → Prop) : Prop :=
  ∀ e, index e ↔ ∃ k b, rows k = some b ∧ entry b e

theorem ExactIndex.empty {rows : κ → Option β} {entry : β → ι → Prop} {index : ι → Prop}
    (hrows : ∀ k, rows k = none) (hindex : ∀ e, ¬ index e) : ExactIndex rows entry index := by
  intro e
  constructor
  · intro he
    exact absurd he (hindex e)
  · intro h
    obtain ⟨k, b, hb, -⟩ := h
    rw [hrows] at hb
    cases hb

/-- Exact indexes of one table are the same. -/
theorem ExactIndex.unique {rows : κ → Option β} {entry : β → ι → Prop} {index index' : ι → Prop}
    (h : ExactIndex rows entry index) (h' : ExactIndex rows entry index') (e : ι) :
    index e ↔ index' e := (h e).trans (h' e).symm

/-- A write of the row `b` under `k₀` that removes `removed` and adds the entries of `b`. -/
theorem ExactIndex.write {rows rows' : κ → Option β} {entry : β → ι → Prop}
    {index index' : ι → Prop} (h : ExactIndex rows entry index) (k0 : κ) (b : β)
    (removed : ι → Prop) (hself : rows' k0 = some b)
    (hrest : ∀ k, k ≠ k0 → rows' k = rows k)
    (hindex : ∀ e, index' e ↔ (index e ∧ ¬ removed e) ∨ entry b e)
    (hold : ∀ old e, rows k0 = some old → entry old e → removed e)
    (hother : ∀ k b' e, k ≠ k0 → rows k = some b' → entry b' e → ¬ removed e) :
    ExactIndex rows' entry index' := by
  intro e
  rw [hindex]
  constructor
  · intro he
    rcases he with ⟨he, hkept⟩ | he
    · obtain ⟨k, b', hb', hentry⟩ := (h e).mp he
      by_cases hk : k = k0
      · rw [hk] at hb'
        exact absurd (hold b' e hb' hentry) hkept
      · exact ⟨k, b', by rw [hrest k hk]; exact hb', hentry⟩
    · exact ⟨k0, b, hself, he⟩
  · intro he
    obtain ⟨k, b', hb', hentry⟩ := he
    by_cases hk : k = k0
    · rw [hk, hself, Option.some.injEq] at hb'
      rw [← hb'] at hentry
      exact Or.inr hentry
    · rw [hrest k hk] at hb'
      exact Or.inl ⟨(h e).mpr ⟨k, b', hb', hentry⟩, hother k b' e hk hb' hentry⟩

end Ghostd.Lib
