import Ghostd.Lib.Replay

/-!
# `Ghostd.Lib.Reconcile`: making one table equal to another

A table `current` is brought to a table `want` by writing what is `missing` and removing what is
`surplus`. The two lists have no key in common, so the order of the removals does not matter, and
they may come in any order, as from a loop over a hash map (`Ranging`).

`get_reconciled` says that the result is `want`, and `missing_eq_nil` and `surplus_eq_nil` that a
table that is `want` already is left alone.
-/

set_option autoImplicit false

namespace Ghostd.Lib

open List

/-- An order in which a loop goes through the entries of a map. -/
abbrev Ranging (α : Type) := { visit : List α → List α // ∀ xs, (visit xs).Perm xs }

namespace Bucket

variable {κ α : Type} [LinearOrder κ]

/-! ### Writing and removing a list of entries -/

theorem get_replay_nodup {es : List (κ × α)} (hnodup : (es.map Prod.fst).Nodup) (b : Bucket κ α) (k : κ) :
    (b.replay es).get k = ((es.find? (·.1 = k)).map Prod.snd).or (b.get k) := by
  induction es generalizing b with
  | nil => rfl
  | cons e es ih =>
    obtain ⟨hnew, hrest⟩ := nodup_cons.mp hnodup
    have hstep : b.replay (e :: es) = (b.put e.1 e.2).replay es := rfl
    rw [hstep, ih hrest, get_put]
    by_cases hk : e.1 = k
    · -- The key does not come again.
      have hnone : es.find? (·.1 = k) = none := by
        refine List.find?_eq_none.mpr fun e' he' => ?_
        rw [decide_eq_true_eq]
        intro hsame
        exact hnew (mem_map.mpr ⟨e', he', hsame.trans hk.symm⟩)
      rw [hnone, List.find?_cons_of_pos (by simpa using hk), if_pos hk.symm]
      rfl
    · rw [List.find?_cons_of_neg (by simpa using hk), if_neg fun h => hk h.symm]

theorem get_foldl_delete (ks : List κ) (b : Bucket κ α) (k : κ) :
    (ks.foldl (fun b j => b.delete j) b).get k = if k ∈ ks then none else b.get k := by
  induction ks generalizing b with
  | nil => simp
  | cons j ks ih =>
    rw [foldl_cons, ih, get_delete]
    by_cases hj : k = j
    · simp [hj]
    · simp [hj]

/-! ### The two differences -/

variable [DecidableEq α]

/-- What is wanted and not there. -/
def missing (want current : Bucket κ α) : List (κ × α) :=
  want.entries.filter fun e => current.get e.1 ≠ some e.2

/-- What is there and not wanted. -/
def surplus (want current : Bucket κ α) : List (κ × α) :=
  current.entries.filter fun e => (want.get e.1).isNone

omit [DecidableEq α] in
theorem mem_surplus {want current : Bucket κ α} {e : κ × α} :
    e ∈ surplus want current ↔ current.get e.1 = some e.2 ∧ want.get e.1 = none := by
  rw [surplus, mem_filter, Option.isNone_iff_eq_none]
  obtain ⟨k, v⟩ := e
  rw [mem_entries]

theorem mem_missing {want current : Bucket κ α} {e : κ × α} :
    e ∈ missing want current ↔ want.get e.1 = some e.2 ∧ current.get e.1 ≠ some e.2 := by
  rw [missing, mem_filter, decide_eq_true_eq]
  obtain ⟨k, v⟩ := e
  rw [mem_entries]

theorem nodup_missing (want current : Bucket κ α) : ((missing want current).map Prod.fst).Nodup :=
  (List.Sublist.map Prod.fst filter_sublist).nodup want.nodup_keys

omit [DecidableEq α] in
theorem nodup_surplus (want current : Bucket κ α) : ((surplus want current).map Prod.fst).Nodup :=
  (List.Sublist.map Prod.fst filter_sublist).nodup current.nodup_keys

/-- Writing what is missing and removing what is surplus makes the table the wanted one. -/
theorem get_reconciled (want current : Bucket κ α) {gone : List κ}
    (hgone : ∀ k, k ∈ gone ↔ k ∈ (surplus want current).map Prod.fst) (k : κ) :
    (gone.foldl (fun b j => b.delete j) (current.replay (missing want current))).get k = want.get k := by
  rw [get_foldl_delete, get_replay_nodup (nodup_missing want current)]
  cases hwant : want.get k with
  | none =>
    -- Nothing is written under the key, and what is there is removed.
    have hunwritten : (missing want current).find? (·.1 = k) = none := by
      refine List.find?_eq_none.mpr fun e he => ?_
      rw [decide_eq_true_eq]
      intro hsame
      have hvalue := (mem_missing.mp he).1
      rw [hsame, hwant] at hvalue
      cases hvalue
    rw [hunwritten]
    cases hcurrent : current.get k with
    | none => simp
    | some v =>
      have hin : k ∈ gone := (hgone k).mpr (mem_map.mpr ⟨(k, v), mem_surplus.mpr ⟨hcurrent, hwant⟩, rfl⟩)
      rw [if_pos hin]
  | some v =>
    have hkept : k ∉ gone := by
      intro hin
      obtain ⟨e, he, rfl⟩ := mem_map.mp ((hgone k).mp hin)
      rw [(mem_surplus.mp he).2] at hwant
      cases hwant
    rw [if_neg hkept]
    cases hfind : (missing want current).find? (·.1 = k) with
    | none =>
      -- It is not missing, so it is there.
      by_contra hne
      have hmissing : (k, v) ∈ missing want current := mem_missing.mpr ⟨hwant, hne⟩
      exact absurd rfl (of_decide_eq_false (Bool.eq_false_iff.mpr (List.find?_eq_none.mp hfind (k, v) hmissing)))
    | some e =>
      have hkey : e.1 = k := by simpa using List.find?_some hfind
      have hvalue := (mem_missing.mp (mem_of_find?_eq_some hfind)).1
      rw [hkey, hwant, Option.some.injEq] at hvalue
      rw [hvalue]
      rfl

theorem missing_eq_nil {want current : Bucket κ α} (h : ∀ k, current.get k = want.get k) :
    missing want current = [] := by
  refine eq_nil_iff_forall_not_mem.mpr fun e he => ?_
  obtain ⟨hwant, hcurrent⟩ := mem_missing.mp he
  exact hcurrent ((h e.1).trans hwant)

omit [DecidableEq α] in
theorem surplus_eq_nil {want current : Bucket κ α} (h : ∀ k, current.get k = want.get k) :
    surplus want current = [] := by
  refine eq_nil_iff_forall_not_mem.mpr fun e he => ?_
  obtain ⟨hcurrent, hwant⟩ := mem_surplus.mp he
  rw [h e.1, hwant] at hcurrent
  cases hcurrent

end Bucket

end Ghostd.Lib
