import Ghostd.Addressbook.Store

/-!
# `Ghostd.Proofs.Addressbook.Ledger`: what `save` writes and what the indexes say

`Ledger.save` puts one binding under its key and leaves every other binding alone
(`get_save`). It moves the index entries of the old binding to the new one (`indexed_save`).
So two facts hold of every ledger that `save` has built, `Ledger.Sound`: a binding is stored
under its own key, and every index entry is that of a stored binding.

The indexes hold candidates, and readers do not compare the client again. `mem_liveByClient`
is why they need not: what is found through the client index belongs to that client.
-/

set_option autoImplicit false

namespace Ghostd.Proofs.Addressbook

open Ghostd.Lib Ghostd.Addressbook List

variable {L : Ledger} {address scope : String} {b : Binding}

/-! ### Index entries -/

/-- The entry is in the index. -/
def Indexed (L : Ledger) (e : Index × String) : Prop := (L.indexes e.1).get e.2 = some ()

theorem indexed_dropIndex {e x : Index × String} : Indexed (L.dropIndex e) x ↔ Indexed L x ∧ x ≠ e := by
  obtain ⟨i, k⟩ := e
  obtain ⟨j, m⟩ := x
  simp only [Indexed, Ledger.dropIndex, Function.update_apply]
  by_cases hj : j = i
  · subst hj
    rw [if_pos rfl, Bucket.get_delete]
    by_cases hm : m = k
    · simp [hm]
    · simp [hm]
  · simp [hj]

theorem indexed_addIndex {e x : Index × String} : Indexed (L.addIndex e) x ↔ Indexed L x ∨ x = e := by
  obtain ⟨i, k⟩ := e
  obtain ⟨j, m⟩ := x
  simp only [Indexed, Ledger.addIndex, Function.update_apply]
  by_cases hj : j = i
  · subst hj
    rw [if_pos rfl, Bucket.get_put]
    by_cases hm : m = k
    · simp [hm]
    · simp [hm]
  · simp [hj]

theorem indexed_foldl_dropIndex {es : List (Index × String)} {x : Index × String} :
    Indexed (es.foldl Ledger.dropIndex L) x ↔ Indexed L x ∧ x ∉ es := by
  induction es generalizing L with
  | nil => simp
  | cons e es ih =>
    rw [foldl_cons, ih, indexed_dropIndex, mem_cons]
    tauto

theorem indexed_foldl_addIndex {es : List (Index × String)} {x : Index × String} :
    Indexed (es.foldl Ledger.addIndex L) x ↔ Indexed L x ∨ x ∈ es := by
  induction es generalizing L with
  | nil => simp
  | cons e es ih =>
    rw [foldl_cons, ih, indexed_addIndex, mem_cons]
    tauto

/-- `reindex` touches the indexes only. -/
theorem reindex_eq (L : Ledger) (old b : Binding) :
    L.reindex old b = { L with indexes := (L.reindex old b).indexes } := by
  have hdrop : ∀ (es : List (Index × String)) (L : Ledger),
      es.foldl Ledger.dropIndex L = { L with indexes := (es.foldl Ledger.dropIndex L).indexes } := by
    intro es
    induction es with
    | nil =>
      intro L
      rfl
    | cons e es ih =>
      intro L
      rw [foldl_cons, ih]
      rfl
  have hadd : ∀ (es : List (Index × String)) (L : Ledger),
      es.foldl Ledger.addIndex L = { L with indexes := (es.foldl Ledger.addIndex L).indexes } := by
    intro es
    induction es with
    | nil =>
      intro L
      rfl
    | cons e es ih =>
      intro L
      rw [foldl_cons, ih]
      rfl
  unfold Ledger.reindex
  rw [hadd, hdrop]

/-! ### What a save changes -/

section Save

variable (L : Ledger) (now : Int) (b : Binding) (kind : EventKind)

@[simp] theorem bindings_save : (L.save now b kind).bindings = L.bindings.put b.key b := by
  show (L.reindex (L.readBinding b.scope b.address) b).bindings.put b.key b = _
  rw [reindex_eq]

@[simp] theorem observations_save : (L.save now b kind).observations = L.observations := by
  show (L.reindex (L.readBinding b.scope b.address) b).observations = _
  rw [reindex_eq]

@[simp] theorem duid_save : (L.save now b kind).duid = L.duid := by
  show (L.reindex (L.readBinding b.scope b.address) b).duid = _
  rw [reindex_eq]

@[simp] theorem associations_save : (L.save now b kind).associations = L.associations := by
  show (L.reindex (L.readBinding b.scope b.address) b).associations = _
  rw [reindex_eq]

@[simp] theorem sequence_save : (L.save now b kind).sequence = L.sequence + 1 := by
  show (L.reindex (L.readBinding b.scope b.address) b).sequence + 1 = _
  rw [reindex_eq]

@[simp] theorem events_save : (L.save now b kind).events =
    L.events ++ [{ time := now, kind := kind, binding := b, id := L.sequence + 1 }] := by
  show (L.reindex (L.readBinding b.scope b.address) b).events ++
    [{ time := now, kind := kind, binding := b,
       id := (L.reindex (L.readBinding b.scope b.address) b).sequence + 1 }] = _
  rw [reindex_eq]

theorem get_save (k : String) :
    (L.save now b kind).bindings.get k = if k = b.key then some b else L.bindings.get k := by
  rw [bindings_save, Bucket.get_put]

/-- Exactly the entries of the new binding replace those of the old one. -/
theorem indexed_save {e : Index × String} :
    Indexed (L.save now b kind) e ↔
      (Indexed L e ∧ e ∉ indexEntries (L.readBinding b.scope b.address)) ∨ e ∈ indexEntries b := by
  show Indexed (L.reindex (L.readBinding b.scope b.address) b) e ↔ _
  unfold Ledger.reindex
  rw [indexed_foldl_addIndex, indexed_foldl_dropIndex]

variable {L now b kind}

theorem get_save_eq_some {k : String} {b' : Binding} : (L.save now b kind).bindings.get k = some b' ↔
    (k = b.key ∧ b' = b) ∨ (k ≠ b.key ∧ L.bindings.get k = some b') := by
  rw [bindings_save, Bucket.get_put_eq_some]

theorem mem_events_save {e : Event} (h : e ∈ (L.save now b kind).events) :
    e ∈ L.events ∨ (e.binding = b ∧ e.observation = none) := by
  rw [events_save, mem_append, mem_singleton] at h
  rcases h with h | rfl
  · exact Or.inl h
  · exact Or.inr ⟨rfl, rfl⟩

end Save

/-! ### The invariant -/

/-- Every binding is stored under its own key, and every index entry is one of a stored
binding. -/
structure Sound (L : Ledger) : Prop where
  keyed : ∀ {k b}, L.bindings.get k = some b → b.key = k
  indexed : ∀ {e}, Indexed L e → ∃ b, L.bindings.get b.key = some b ∧ e ∈ indexEntries b

theorem sound_empty : Sound {} where
  keyed h := by simp at h
  indexed h := by simp [Indexed] at h

theorem readBinding_of_get (h : L.bindings.get (bindingKey scope address) = some b) :
    L.readBinding scope address = b := by
  simp [Ledger.readBinding, h]

/-- The zero binding has no index entries. -/
theorem indexEntries_zero : indexEntries {} = [] := rfl

theorem Sound.save (hL : Sound L) (now : Int) (b : Binding) (kind : EventKind) : Sound (L.save now b kind) where
  keyed := by
    intro k b' h
    rcases get_save_eq_some.mp h with ⟨rfl, rfl⟩ | ⟨-, h⟩
    · rfl
    · exact hL.keyed h
  indexed := by
    intro e he
    rcases (indexed_save L now b kind).mp he with ⟨hold, hnot⟩ | hnew
    · obtain ⟨b', hb', hmem⟩ := hL.indexed hold
      refine ⟨b', ?_, hmem⟩
      rw [get_save]
      split
      · rename_i hk
        -- The witness is the binding that was replaced, whose entries are gone.
        have hread : L.readBinding b.scope b.address = b' := readBinding_of_get (by rw [← hb', hk]; rfl)
        rw [hread] at hnot
        exact absurd hmem hnot
      · exact hb'
    · exact ⟨b, by rw [get_save, if_pos rfl], hnew⟩

/-- A binding read back is the stored one, or the zero binding. -/
theorem get_of_readBinding (h : (L.readBinding scope address).state ≠ .unset) :
    L.bindings.get (bindingKey scope address) = some (L.readBinding scope address) := by
  unfold Ledger.readBinding at h ⊢
  cases hget : L.bindings.get (bindingKey scope address) with
  | some => rfl
  | none =>
    rw [hget] at h
    exact absurd rfl h

/-! ### Reading through an index -/

/-- The parts of an index key of three come back if it has three parts. -/
theorem splitOn_indexKey {x y z p q r : String}
    (h : (indexKey [x, y, z]).toList.splitOn '\x00' = [p.toList, q.toList, r.toList]) :
    x = p ∧ y = q ∧ z = r := by
  have hjoin : (indexKey [x, y, z]).toList = ['\x00'].intercalate [x.toList, y.toList, z.toList] :=
    String.toList_ofList
  rw [hjoin] at h
  have hsame : (['\x00'].intercalate [x.toList, y.toList, z.toList]).splitOn '\x00'
      = [x.toList, y.toList, z.toList] :=
    splitOn_intercalate_of_length '\x00' (by simp) (by rw [h]; rfl)
  rw [h] at hsame
  simpa [String.toList_inj, eq_comm] using hsame

/-- The target of a key of the client index is its second and third part. -/
theorem splitOn_of_indexTarget {k : String} (h : Ledger.indexTarget .client k = some (scope, address)) :
    ∃ p : String, k.toList.splitOn '\x00' = [p.toList, scope.toList, address.toList] := by
  unfold Ledger.indexTarget at h
  match hsplit : k.toList.splitOn '\x00' with
  | [p, s, a] =>
    rw [hsplit] at h
    simp only [Option.some.injEq, Prod.mk.injEq] at h
    refine ⟨String.ofList p, ?_⟩
    rw [← h.1, ← h.2, String.toList_ofList, String.toList_ofList, String.toList_ofList]
  | [] | [_] | [_, _] | _ :: _ :: _ :: _ :: _ =>
    rw [hsplit] at h
    cases h

/-- What is found through an index is stored and in a live state. -/
theorem mem_liveFromIndex {index : Index} {start : String} (h : b ∈ L.liveFromIndex index start) :
    ∃ k scope address, Indexed L (index, k) ∧ startsWith k start = true ∧
      Ledger.indexTarget index k = some (scope, address) ∧ b = L.readBinding scope address ∧
      liveState b.state = true := by
  obtain ⟨⟨k, u⟩, hmem, hsome⟩ := mem_filterMap.mp h
  simp only at hsome
  split at hsome
  · rename_i hstart
    obtain ⟨⟨scope, address⟩, htarget, hb⟩ := Option.bind_eq_some_iff.mp hsome
    simp only at hb
    split at hb
    · cases hb
    · rename_i hlive
      have hb' := (Option.some.inj hb).symm
      refine ⟨k, scope, address, Bucket.mem_entries.mp hmem, hstart, htarget, hb', ?_⟩
      rw [hb']
      simp only [not_or, Bool.not_eq_true', Bool.not_eq_false] at hlive
      exact hlive.2
  · cases hsome

/-- What is found through the client index belongs to the client, in the scope. -/
theorem mem_liveByClient (hL : Sound L) {client : String} (h : b ∈ L.liveByClient scope client) :
    L.bindings.get b.key = some b ∧ liveState b.state = true ∧ b.client = client ∧ b.scope = scope := by
  obtain ⟨k, scope', address, hindexed, hstart, htarget, hb, hlive⟩ := mem_liveFromIndex h
  obtain ⟨b', hstored, hentry⟩ := hL.indexed hindexed
  -- The client entry of `b'` is the only one of its entries in this index.
  have hk : k = indexKey [b'.client, b'.scope, b'.address] := by
    unfold indexEntries at hentry
    split at hentry
    · simp only [mem_append, mem_singleton, Prod.mk.injEq, true_and] at hentry
      rcases hentry with ((h | h) | h) | h
      · exact h
      · split at h <;> simp at h
      · split at h <;> simp at h
      · simp at h
    · simp at hentry
  -- The key has three parts, so no part of it contains the separator.
  obtain ⟨p, hsplit⟩ := splitOn_of_indexTarget htarget
  have hself := hsplit
  rw [hk] at hself
  obtain ⟨-, hscope, haddress⟩ := splitOn_indexKey hself
  have hbb' : b = b' := by
    rw [hb]
    refine readBinding_of_get ?_
    rw [← hscope, ← haddress]
    exact hstored
  -- The start of the key gives its first two parts.
  have hprefix : (Ledger.idxPrefix [client, scope]).toList <+: k.toList :=
    isPrefixOf_iff_prefix.mp hstart
  obtain ⟨rest, hrest⟩ := hprefix
  have hkey : k = indexKey [client, scope, String.ofList rest] := by
    apply String.toList_inj.mp
    rw [← hrest]
    simp [Ledger.idxPrefix, indexKey, joinText, intercalate_cons_cons]
  have hother := hsplit
  rw [hkey] at hother
  obtain ⟨hclient, hscope', -⟩ := splitOn_indexKey hother
  have hclient' : b'.client = client := by
    obtain ⟨hc, -, -⟩ := splitOn_indexKey hself
    rw [hc, ← hclient]
  subst hbb'
  exact ⟨hstored, hlive, hclient', by rw [hscope, hscope']⟩

end Ghostd.Proofs.Addressbook
