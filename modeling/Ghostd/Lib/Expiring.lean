import Ghostd.Lib.Bucket

/-!
# `Ghostd.Lib.Expiring`: a table whose entries expire

The entries are the times at which the keys run out. What has run out is deleted before a key is entered.
-/

set_option autoImplicit false

namespace Ghostd.Lib.Bucket

open List

variable {κ : Type} [LinearOrder κ] {b : Bucket κ Int} {k : κ} {now : Int}

/-- The table without what has expired. -/
def sweep (now : Int) (b : Bucket κ Int) : Bucket κ Int :=
  b.entries.foldl (fun b e => if now < e.2 then b else b.delete e.1) b

theorem get_sweep {expires : Int} : (b.sweep now).get k = some expires ↔ b.get k = some expires ∧ now < expires := by
  have hloop : ∀ (es : List (κ × Int)) (b : Bucket κ Int),
      (es.foldl (fun b e => if now < e.2 then b else b.delete e.1) b).get k = some expires ↔
        b.get k = some expires ∧ ∀ e ∈ es, e.1 = k → now < e.2 := by
    intro es
    induction es with
    | nil => simp
    | cons e es ih =>
      intro b
      rw [foldl_cons, ih, forall_mem_cons]
      split
      · simp [*]
      · rw [get_delete_eq_some]
        simp [*, eq_comm, and_assoc, and_left_comm]
  rw [sweep, hloop]
  constructor
  · intro h
    exact ⟨h.1, h.2 (k, expires) (mem_entries.mpr h.1) rfl⟩
  · intro h
    refine ⟨h.1, fun e he heq => ?_⟩
    obtain rfl : e.2 = expires := by
      have hget := mem_entries.mp he
      rw [heq, h.1] at hget
      exact (Option.some.inj hget).symm
    exact h.2

theorem length_sweep_le : (b.sweep now).entries.length ≤ b.entries.length := by
  refine foldlRecOn (motive := fun b' : Bucket κ Int => b'.entries.length ≤ b.entries.length) b.entries _ (le_refl _)
    fun b' h e _ => ?_
  split
  · exact h
  · exact (length_filter_le _ _).trans h

/-- A key takes one place at most. -/
theorem length_put_le (expires : Int) : (b.put k expires).entries.length ≤ b.entries.length + 1 := by
  unfold put
  dsimp only
  induction b.entries with
  | nil => exact le_refl _
  | cons e rest ih =>
    rw [insertEntry]
    split
    · exact le_refl _
    · split
      · exact Nat.le_succ _
      · exact Nat.succ_le_succ ih

end Ghostd.Lib.Bucket
