import Ghostd.Lib.Bucket
import Mathlib.Data.List.Induction

/-!
# `Ghostd.Lib.Replay`: a store as the outcome of its writes

A bucket that is only ever written with `put` is determined by the list of its writes:
`replay ws` is the last write under each key. Two buckets are the same when they have the same
value under every key (`ext_get`).

The main rule is `entries_replay_filter`. Suppose a property of values is the same for all
writes under one key. Then it makes no difference whether the writes are filtered by it before
they are replayed, or the entries after. `get_foldl_put` is the rule for a loop that writes an index.
-/

set_option autoImplicit false

namespace Ghostd.Lib

open List

variable {κ α : Type} [LinearOrder κ]

/-- Lists in strict key order with the same entries are equal. -/
theorem eq_of_sorted_of_mem {l m : List (κ × α)} (hl : l.Pairwise fun a b => a.1 < b.1)
    (hm : m.Pairwise fun a b => a.1 < b.1) (h : ∀ e, e ∈ l ↔ e ∈ m) : l = m := by
  induction l generalizing m with
  | nil =>
    cases m with
    | nil => rfl
    | cons y => exact absurd ((h y).mpr mem_cons_self) (by simp)
  | cons x xs ih =>
    obtain ⟨hx, hxs⟩ := pairwise_cons.mp hl
    cases m with
    | nil => exact absurd ((h x).mp mem_cons_self) (by simp)
    | cons y ys =>
      obtain ⟨hy, hys⟩ := pairwise_cons.mp hm
      -- The two heads are both the least entry.
      have hhead : x = y := by
        rcases mem_cons.mp ((h x).mp mem_cons_self) with hxy | hxy
        · exact hxy
        · rcases mem_cons.mp ((h y).mpr mem_cons_self) with hyx | hyx
          · exact hyx.symm
          · exact absurd (lt_trans (hx y hyx) (hy x hxy)) (lt_irrefl _)
      subst hhead
      have hne : ∀ (zs : List (κ × α)), (∀ e ∈ zs, x.1 < e.1) → x ∉ zs := by
        intro zs hzs hmem
        exact lt_irrefl _ (hzs x hmem)
      have htail : xs = ys := by
        refine ih hxs hys fun e => ?_
        have hall := h e
        simp only [mem_cons] at hall
        constructor
        · intro he
          rcases hall.mp (Or.inr he) with rfl | h'
          · exact absurd he (hne xs hx)
          · exact h'
        · intro he
          rcases hall.mpr (Or.inr he) with rfl | h'
          · exact absurd he (hne ys hy)
          · exact h'
      rw [htail]

namespace Bucket

/-- A bucket is determined by its entries. -/
theorem ext_entries {b c : Bucket κ α} (h : b.entries = c.entries) : b = c := by
  obtain ⟨l, hl⟩ := b
  obtain ⟨m, hm⟩ := c
  subst h
  rfl

/-- A bucket is determined by what is read from it. -/
theorem ext_get {b c : Bucket κ α} (h : ∀ k, b.get k = c.get k) : b = c := by
  refine ext_entries (eq_of_sorted_of_mem b.sorted c.sorted fun e => ?_)
  obtain ⟨k, v⟩ := e
  rw [mem_entries, mem_entries, h]

/-- Deleting a key that is not there changes nothing. -/
theorem delete_of_get_none {b : Bucket κ α} {k : κ} (h : b.get k = none) : b.delete k = b := by
  refine ext_get fun j => ?_
  rw [get_delete]
  split
  · rename_i hj
    rw [hj, h]
  · rfl

/-- The writes in order, over what the bucket holds. -/
def replay (b : Bucket κ α) (ws : List (κ × α)) : Bucket κ α :=
  ws.foldl (fun b w => b.put w.1 w.2) b

@[simp] theorem replay_nil (b : Bucket κ α) : b.replay [] = b := rfl

theorem replay_append (b : Bucket κ α) (ws vs : List (κ × α)) :
    b.replay (ws ++ vs) = (b.replay ws).replay vs := by
  unfold replay
  rw [foldl_append]

theorem replay_concat (b : Bucket κ α) (ws : List (κ × α)) (w : κ × α) :
    b.replay (ws ++ [w]) = (b.replay ws).put w.1 w.2 := by
  rw [replay_append]
  rfl

/-- What is read after a replay was written or was there before. -/
theorem get_replay_cases {b : Bucket κ α} {ws : List (κ × α)} {k : κ} {v : α}
    (h : (b.replay ws).get k = some v) : b.get k = some v ∨ (k, v) ∈ ws := by
  induction ws using List.reverseRecOn with
  | nil => exact Or.inl h
  | append_singleton ws w ih =>
    rw [replay_concat, get_put] at h
    split at h
    · rename_i hk
      refine Or.inr (mem_append_right _ (mem_singleton.mpr ?_))
      rw [hk, ← Option.some.inj h]
    · rcases ih h with h | h
      · exact Or.inl h
      · exact Or.inr (mem_append_left _ h)

/-- What is read after a replay is the last write under the key. -/
theorem get_replay (ws : List (κ × α)) (k : κ) :
    ((empty : Bucket κ α).replay ws).get k = ((ws.filter fun w => w.1 = k).getLast?).map Prod.snd := by
  induction ws using List.reverseRecOn with
  | nil => simp
  | append_singleton ws w ih =>
    rw [replay_concat, get_put, filter_append]
    by_cases hk : k = w.1
    · rw [if_pos hk, filter_cons_of_pos (by simp [hk])]
      simp
    · rw [if_neg hk, ih, filter_cons_of_neg (by simpa using Ne.symm hk)]
      simp

/-- Filtering the writes filters what is read. -/
theorem get_replay_filter {p : α → Bool} {ws : List (κ × α)}
    (hp : ∀ w ∈ ws, ∀ w' ∈ ws, w.1 = w'.1 → p w.2 = p w'.2) (k : κ) :
    ((empty : Bucket κ α).replay (ws.filter fun w => p w.2)).get k =
      ((empty.replay ws).get k).filter p := by
  induction ws using List.reverseRecOn with
  | nil => simp
  | append_singleton ws w ih =>
    have ih := ih fun x hx y hy => hp x (mem_append_left _ hx) y (mem_append_left _ hy)
    rw [filter_append, replay_concat, get_put]
    by_cases hw : p w.2 = true
    · rw [filter_cons_of_pos (by exact hw), filter_nil, replay_concat, get_put]
      split
      · rw [Option.filter_some, if_pos hw]
      · exact ih
    · rw [filter_cons_of_neg (by simpa using hw), filter_nil, append_nil]
      split
      · rename_i hk
        rw [ih, hk, Option.filter_some, if_neg hw]
        -- Every earlier write under this key fails the property as the last one does.
        cases hget : (empty.replay ws).get w.1 with
        | none => rfl
        | some v =>
          have hmem : (w.1, v) ∈ ws := by
            rcases get_replay_cases hget with h | h
            · cases h
            · exact h
          have hsame := hp (w.1, v) (mem_append_left _ hmem) w (by simp) rfl
          rw [Option.filter_some, if_neg (by rw [hsame]; exact hw)]
      · exact ih

/-- Filtering the writes filters the entries. -/
theorem entries_replay_filter {p : α → Bool} {ws : List (κ × α)}
    (hp : ∀ w ∈ ws, ∀ w' ∈ ws, w.1 = w'.1 → p w.2 = p w'.2) :
    ((empty : Bucket κ α).replay (ws.filter fun w => p w.2)).entries =
      (empty.replay ws).entries.filter fun e => p e.2 := by
  refine eq_of_sorted_of_mem (sorted _) ((sorted _).filter _) fun e => ?_
  obtain ⟨k, v⟩ := e
  rw [mem_entries, mem_filter, mem_entries, get_replay_filter hp, Option.filter_eq_some_iff]

/-- If no two writes under one key differ, what is read is what was written. -/
theorem get_replay_iff {ws : List (κ × α)} (hagree : ∀ w ∈ ws, ∀ w' ∈ ws, w.1 = w'.1 → w.2 = w'.2)
    {k : κ} {v : α} : ((empty : Bucket κ α).replay ws).get k = some v ↔ (k, v) ∈ ws := by
  constructor
  · intro h
    rcases get_replay_cases h with h | h
    · cases h
    · exact h
  · intro h
    have hfiltered : (k, v) ∈ ws.filter fun w => w.1 = k := mem_filter.mpr ⟨h, by simp⟩
    rw [get_replay, List.getLast?_eq_some_getLast (ne_nil_of_mem hfiltered)]
    obtain ⟨hlast, hkey⟩ := mem_filter.mp (getLast_mem (ne_nil_of_mem hfiltered))
    exact congrArg some (hagree _ hlast _ h (by simpa using hkey))

/-- What a loop has written that writes for some of its elements, if it writes one value under one key. -/
theorem get_foldl_put {β : Type} {xs : List β} {keep : β → Prop} [DecidablePred keep] {key : β → κ}
    {val : β → α}
    (hval : ∀ x ∈ xs, ∀ y ∈ xs, keep x → keep y → key x = key y → val x = val y) {k : κ} {v : α} :
    (xs.foldl (fun b x => if keep x then b.put (key x) (val x) else b) (empty : Bucket κ α)).get k = some v ↔
      ∃ x ∈ xs, keep x ∧ k = key x ∧ v = val x := by
  have hreplay : xs.foldl (fun b x => if keep x then b.put (key x) (val x) else b) (empty : Bucket κ α) =
      empty.replay ((xs.filter fun x => keep x).map fun x => (key x, val x)) := by
    rw [replay, foldl_map, foldl_filter]
    simp only [decide_eq_true_eq]
  rw [hreplay, get_replay_iff]
  · simp only [mem_map, mem_filter, decide_eq_true_eq, Prod.mk.injEq]
    constructor
    · rintro ⟨x, ⟨hx, hkeep⟩, rfl, rfl⟩
      exact ⟨x, hx, hkeep, rfl, rfl⟩
    · rintro ⟨x, hx, hkeep, rfl, rfl⟩
      exact ⟨x, ⟨hx, hkeep⟩, rfl, rfl⟩
  · simp only [mem_map, mem_filter, decide_eq_true_eq]
    rintro _ ⟨x, ⟨hx, hkeep⟩, rfl⟩ _ ⟨y, ⟨hy, hkeep'⟩, rfl⟩ hkey
    exact hval x hx y hy hkeep hkeep' hkey

end Bucket

end Ghostd.Lib
