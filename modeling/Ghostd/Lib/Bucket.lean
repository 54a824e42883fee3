import Mathlib.Data.Prod.Lex
import Mathlib.Data.String.Basic

/-!
# `Ghostd.Lib.Bucket`: an ordered key-value store

A bucket holds its entries in the order of their keys, each key once, and carries the proof.
So a cursor over it is the list of its entries, and an entry of that list is the same thing
as a value found under its key (`mem_entries`). Reading after writing is `get_put` and
`get_delete`.
-/

set_option autoImplicit false

namespace Ghostd.Lib

open List

variable {κ α : Type} [LinearOrder κ]

/-- A key-value store in key order. -/
structure Bucket (κ α : Type) [LinearOrder κ] where
  entries : List (κ × α)
  sorted : entries.Pairwise fun a b => a.1 < b.1

namespace Bucket

/-- The bucket without entries. -/
def empty : Bucket κ α := ⟨[], List.Pairwise.nil⟩

/-- The value under a key. -/
def get (b : Bucket κ α) (k : κ) : Option α := (b.entries.find? (·.1 = k)).map (·.2)

/-- Put an entry in its place, over the one with the same key if there is one. -/
def insertEntry (k : κ) (v : α) : List (κ × α) → List (κ × α)
  | [] => [(k, v)]
  | e :: rest =>
    if k < e.1 then (k, v) :: e :: rest
    else if k = e.1 then (k, v) :: rest
    else e :: insertEntry k v rest

theorem mem_insertEntry {k : κ} {v : α} {l : List (κ × α)} {e : κ × α}
    (he : e ∈ insertEntry k v l) : e = (k, v) ∨ e ∈ l := by
  induction l with
  | nil =>
    left
    simpa [insertEntry] using he
  | cons x rest ih =>
    simp only [insertEntry] at he
    split at he
    · rcases mem_cons.mp he with h | h
      · exact Or.inl h
      · exact Or.inr h
    · split at he
      · rcases mem_cons.mp he with h | h
        · exact Or.inl h
        · exact Or.inr (mem_cons_of_mem _ h)
      · rcases mem_cons.mp he with h | h
        · exact Or.inr (by rw [h]; exact mem_cons_self ..)
        · rcases ih h with h | h
          · exact Or.inl h
          · exact Or.inr (mem_cons_of_mem _ h)

theorem sorted_insertEntry {k : κ} {v : α} {l : List (κ × α)}
    (hl : l.Pairwise fun a b => a.1 < b.1) :
    (insertEntry k v l).Pairwise fun a b => a.1 < b.1 := by
  induction l with
  | nil => simp [insertEntry]
  | cons x rest ih =>
    obtain ⟨hx, hrest⟩ := pairwise_cons.mp hl
    simp only [insertEntry]
    split
    · rename_i hlt
      refine pairwise_cons.mpr ⟨fun e he => ?_, hl⟩
      rcases mem_cons.mp he with rfl | he
      · exact hlt
      · exact lt_trans hlt (hx e he)
    · split
      · rename_i heq
        exact pairwise_cons.mpr ⟨fun e he => by rw [heq]; exact hx e he, hrest⟩
      · rename_i hnlt hne
        refine pairwise_cons.mpr ⟨fun e he => ?_, ih hrest⟩
        rcases mem_insertEntry he with rfl | he
        · exact lt_of_le_of_ne (not_lt.mp hnlt) fun h => hne h.symm
        · exact hx e he

/-- Write a value under a key. -/
def put (b : Bucket κ α) (k : κ) (v : α) : Bucket κ α :=
  ⟨insertEntry k v b.entries, sorted_insertEntry b.sorted⟩

/-- Remove a key. -/
def delete (b : Bucket κ α) (k : κ) : Bucket κ α :=
  ⟨b.entries.filter (·.1 ≠ k), b.sorted.filter _⟩

/-! ### Reading after writing -/

@[simp] theorem get_empty (k : κ) : (empty : Bucket κ α).get k = none := rfl

theorem find?_insertEntry_self (k : κ) (v : α) (l : List (κ × α)) :
    (insertEntry k v l).find? (·.1 = k) = some (k, v) := by
  induction l with
  | nil => simp [insertEntry]
  | cons x rest ih =>
    simp only [insertEntry]
    split
    · simp
    · split
      · simp
      · rename_i hne
        rw [List.find?_cons_of_neg (by simpa using fun h => hne h.symm)]
        exact ih

theorem find?_insertEntry_of_ne {k j : κ} (hne : j ≠ k) (v : α) (l : List (κ × α)) :
    (insertEntry k v l).find? (·.1 = j) = l.find? (·.1 = j) := by
  have hk : ¬ k = j := fun h => hne h.symm
  induction l with
  | nil => simp [insertEntry, hk]
  | cons x rest ih =>
    simp only [insertEntry]
    split
    · simp [hk]
    · split
      · rename_i heq
        simp [hk, ← heq]
      · simp only [List.find?_cons, ih]

@[simp] theorem get_put_self (b : Bucket κ α) (k : κ) (v : α) : (b.put k v).get k = some v := by
  show ((insertEntry k v b.entries).find? (·.1 = k)).map (·.2) = some v
  rw [find?_insertEntry_self]
  rfl

theorem get_put_of_ne (b : Bucket κ α) {k j : κ} (hne : j ≠ k) (v : α) :
    (b.put k v).get j = b.get j := by
  show ((insertEntry k v b.entries).find? (·.1 = j)).map (·.2) = b.get j
  rw [find?_insertEntry_of_ne hne]
  rfl

theorem get_put (b : Bucket κ α) (k j : κ) (v : α) :
    (b.put k v).get j = if j = k then some v else b.get j := by
  by_cases hj : j = k
  · rw [if_pos hj, hj, get_put_self]
  · rw [if_neg hj, get_put_of_ne b hj]

theorem get_delete (b : Bucket κ α) (k j : κ) :
    (b.delete k).get j = if j = k then none else b.get j := by
  show ((b.entries.filter (·.1 ≠ k)).find? (·.1 = j)).map (·.2) = _
  rw [List.find?_filter]
  by_cases hj : j = k
  · rw [if_pos hj, List.find?_eq_none.mpr (fun e _ => by simp [hj])]
    rfl
  · rw [if_neg hj]
    have hsame : (fun e : κ × α => decide (decide (e.1 ≠ k) = true ∧ decide (e.1 = j) = true))
        = fun e => decide (e.1 = j) := by
      funext e
      by_cases he : e.1 = j
      · simp [he, hj]
      · simp [he]
    rw [hsame]
    rfl

theorem get_put_eq_some {b : Bucket κ α} {k j : κ} {v w : α} :
    (b.put k v).get j = some w ↔ (j = k ∧ w = v) ∨ (j ≠ k ∧ b.get j = some w) := by
  rw [get_put]
  by_cases hj : j = k
  · simp [hj, eq_comm]
  · simp [hj]

theorem get_delete_eq_some {b : Bucket κ α} {k j : κ} {v : α} :
    (b.delete k).get j = some v ↔ j ≠ k ∧ b.get j = some v := by
  rw [get_delete]
  by_cases hj : j = k
  · simp [hj]
  · simp [hj]

/-- An entry of the list is a value found under its key. -/
theorem mem_entries {b : Bucket κ α} {k : κ} {v : α} :
    (k, v) ∈ b.entries ↔ b.get k = some v := by
  obtain ⟨l, hl⟩ := b
  show (k, v) ∈ l ↔ (l.find? (·.1 = k)).map (·.2) = some v
  induction l with
  | nil => simp
  | cons x rest ih =>
    obtain ⟨hx, hrest⟩ := pairwise_cons.mp hl
    by_cases hk : x.1 = k
    · rw [List.find?_cons_of_pos (by simpa using hk), Option.map_some, Option.some.injEq,
        mem_cons]
      constructor
      · rintro (h | h)
        · rw [← h]
        · exact absurd (hx _ h) (by rw [hk]; exact lt_irrefl _)
      · intro hv
        left
        rw [← hk, ← hv]
    · rw [List.find?_cons_of_neg (by simpa using hk), mem_cons, ← ih hrest]
      constructor
      · rintro (h | h)
        · exact absurd (by rw [← h]) hk
        · exact h
      · exact Or.inr

theorem nodup_keys (b : Bucket κ α) : (b.entries.map Prod.fst).Nodup :=
  pairwise_map.mpr (b.sorted.imp fun h => ne_of_lt h)

/-- A reader that gets a value from one key only gets no value twice. -/
theorem nodup_filterMap {β : Type} {P : κ → β → Prop} (hP : ∀ {k k' : κ} {x : β}, P k x → P k' x → k = k')
    (b : Bucket κ α) {f : κ × α → Option β} (h : ∀ e ∈ b.entries, ∀ x, f e = some x → P e.1 x) :
    (b.entries.filterMap f).Nodup := by
  unfold List.Nodup
  rw [pairwise_filterMap]
  refine b.sorted.imp_of_mem ?_
  intro e e' he he' hlt x hx y hy hxy
  rw [← hxy] at hy
  rw [hP (h e he x hx) (h e' he' x hy)] at hlt
  exact lt_irrefl _ hlt

end Bucket

end Ghostd.Lib
