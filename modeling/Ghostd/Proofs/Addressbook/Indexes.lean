import Ghostd.Addressbook.Replicate
import Ghostd.Lib.Derived
import Ghostd.Proofs.Addressbook.Plain

/-!
# `Ghostd.Proofs.Addressbook.Indexes`: the indexes are exact

Six buckets are derived from the bindings: the expiry index, the DNS index and the four
secondary ones. `save` removes the keys of the binding it replaces and adds those of the new
one. `Exact` says that each bucket holds the keys of the bindings that are there, and no others.

A save keeps it because a key gives the binding's own key back (`expiryKey_key`,
`key_of_indexEntries`, `dnsKey_inj`), so that what is removed is nobody else's. The texts are
what `Clean` says of them. `Expire` also drops an entry of the expiry index that is not its
binding's. In an exact index there is none, as long as the ends are 64-bit numbers: the key
holds such a number, and `Expire` compares it with the end.

`Reachable` is every ledger that the operations and `ApplyReplicated` can build.
`indexes_exact` is the result for it, and what it means for the readers: each finds what a scan
of all bindings would.
-/

set_option autoImplicit false

namespace Ghostd.Proofs.Addressbook

open Ghostd.Lib Ghostd.Addressbook List

variable {L : Ledger} {b : Binding} {k scope : String} {now : Int} {i : Index}

/-! ### Keys give their parts back -/

/-- A time that a 64-bit number holds. -/
def Int64 (t : Int) : Prop := -2 ^ 63 ≤ t ∧ t < 2 ^ 63

instance decidableInt64 (t : Int) : Decidable (Int64 t) := inferInstanceAs (Decidable (_ ∧ _))

theorem keyTime_timeKey {t : Int} (h : Int64 t) : keyTime (timeKey t) = t := by
  obtain ⟨hlow, hhigh⟩ := h
  unfold keyTime timeKey
  by_cases hneg : t < 0
  · have hmod : t % 2 ^ 64 = t + 2 ^ 64 := by omega
    rw [hmod]
    split <;> omega
  · have hmod : t % 2 ^ 64 = t := by omega
    rw [hmod]
    split <;> omega

theorem expiryKey_key (b : Binding) : (ofLex (expiryKey b)).2 = b.key := rfl

/-- The parts of an index key, when none has a NUL. -/
theorem splitOn_indexKey_of_nul {parts : List String} (hne : parts ≠ [])
    (h : ∀ p ∈ parts, '\x00' ∉ p.toList) :
    (indexKey parts).toList.splitOn '\x00' = parts.map String.toList := by
  rw [indexKey, joinText, String.toList_ofList]
  refine splitOn_intercalate '\x00' ?_ (by simpa using hne)
  intro l hl
  obtain ⟨p, hp, rfl⟩ := mem_map.mp hl
  exact h p hp

/-- What the index entries of a binding are, index by index. -/
theorem mem_indexEntries : (i, k) ∈ indexEntries b ↔ liveState b.state = true ∧
      match i with
      | .client => k = indexKey [b.client, b.scope, b.address]
      | .mac => b.mac ≠ "" ∧ k = indexKey [b.mac, b.scope, b.address]
      | .name => b.state = .active ∧ b.name ≠ "" ∧ k = indexKey [b.name, b.scope, b.address]
      | .addr => k = indexKey [b.address, b.scope] := by
  unfold indexEntries
  by_cases hlive : liveState b.state = true
  · rw [if_pos hlive]
    cases i with
    | client => simp [hlive]
    | mac => by_cases hmac : b.mac = "" <;> simp [hlive, hmac]
    | name =>
      by_cases hactive : b.state = .active
      · by_cases hname : b.name = "" <;> simp [hactive, hname, liveState]
      · simp [hlive, hactive]
    | addr => simp [hlive]
  · simp [hlive]

/-- A binding as the ledger stores it. -/
structure Proper (b : Binding) : Prop where
  fits : Fits b
  clean : Clean b

theorem Proper.scope_nul (h : Proper b) : '\x00' ∉ b.scope.toList :=
  (plainName_of_label h.fits.label).nul

/-- An index entry leads back to its binding. -/
theorem indexTarget_of_mem (h : Proper b) (hk : (i, k) ∈ indexEntries b) :
    Ledger.indexTarget i k = some (b.scope, b.address) := by
  have hthree : ∀ x : String, '\x00' ∉ x.toList → k = indexKey [x, b.scope, b.address] →
      k.toList.splitOn '\x00' = [x.toList, b.scope.toList, b.address.toList] := by
    intro x hx hkey
    rw [hkey, splitOn_indexKey_of_nul (by simp)]
    · rfl
    · simp [hx, h.scope_nul, h.clean.address]
  obtain ⟨-, hk⟩ := mem_indexEntries.mp hk
  unfold Ledger.indexTarget
  cases i with
  | client => simp [hthree b.client h.clean.client hk]
  | mac => simp [hthree b.mac h.clean.mac hk.2]
  | name => simp [hthree b.name h.clean.name.nul hk.2.2]
  | addr =>
    simp only at hk
    rw [hk, splitOn_indexKey_of_nul (by simp) (by simp [h.scope_nul, h.clean.address])]
    simp

/-- Two bindings that share an index entry have one key. -/
theorem key_of_indexEntries {b' : Binding} (h : Proper b) (h' : Proper b') {e : Index × String}
    (he : e ∈ indexEntries b) (he' : e ∈ indexEntries b') : b.key = b'.key := by
  obtain ⟨i, k⟩ := e
  have htarget := indexTarget_of_mem h he
  rw [indexTarget_of_mem h' he', Option.some.injEq, Prod.mk.injEq] at htarget
  rw [Binding.key, Binding.key, htarget.1, htarget.2]

/-- An index has at most one entry of a binding. -/
theorem indexEntries_unique {k' : String} (h : (i, k) ∈ indexEntries b) (h' : (i, k') ∈ indexEntries b) :
    k = k' := by
  obtain ⟨-, h⟩ := mem_indexEntries.mp h
  obtain ⟨-, h'⟩ := mem_indexEntries.mp h'
  cases i with
  | client => exact h.trans h'.symm
  | mac => exact h.2.trans h'.2.symm
  | name => exact h.2.2.trans h'.2.2.symm
  | addr => exact h.trans h'.symm

/-- The key of the DNS index is two keys in one. -/
theorem dnsKey_inj {b' : Binding} (h : Proper b) (h' : Proper b') (hkey : dnsKey b = dnsKey b') :
    b.key = b'.key := by
  have hnest : ∀ b : Binding, dnsKey b = bindingKey b.scope (bindingKey b.name b.address) := by
    intro b
    simp [dnsKey, bindingKey, String.append_assoc]
  rw [hnest, hnest] at hkey
  obtain ⟨hscope, hrest⟩ := bindingKey_inj h.fits.slashless h'.fits.slashless hkey
  obtain ⟨-, haddress⟩ := bindingKey_inj h.clean.name.slash h'.clean.name.slash hrest
  rw [Binding.key, Binding.key, hscope, haddress]

/-! ### The invariant -/

/-- The buckets hold exactly what the bindings give. -/
structure Exact (L : Ledger) : Prop where
  expiry : ExactIndex L.bindings.get (fun b k => liveState b.state = true ∧ k = expiryKey b)
    fun k => L.expiry.get k = some ()
  indexes : ExactIndex L.bindings.get (fun b e => e ∈ indexEntries b) (Indexed L)
  dns : ExactIndex L.bindings.get
    (fun b (e : String × String) => (b.state = .active ∧ b.origin ≠ .dhcpv6PD) ∧ e = (dnsKey b, b.key))
    fun e => L.dns.get e.1 = some e.2

theorem exact_empty : Exact {} where
  expiry := .empty (fun _ => rfl) fun _ => by simp
  indexes := .empty (fun _ => rfl) fun _ => by simp [Indexed]
  dns := .empty (fun _ => rfl) fun _ => by simp

/-- The binding that a save replaces, when there is one. -/
theorem readBinding_stored (hL : Tidy L) {address : String} (h : L.readBinding scope address ≠ {}) :
    L.bindings.get (bindingKey scope address) = some (L.readBinding scope address) ∧
      (L.readBinding scope address).key = bindingKey scope address := by
  unfold Ledger.readBinding at h ⊢
  cases hget : L.bindings.get (bindingKey scope address) with
  | none =>
    rw [hget] at h
    exact absurd rfl h
  | some => exact ⟨rfl, hL.sound.keyed hget⟩

section Save

variable {L : Ledger} (hL : Tidy L) (hE : Exact L) (now : Int) {b : Binding} (kind : EventKind)

include hL hE

theorem expiry_save : ExactIndex (L.save now b kind).bindings.get
    (fun b k => liveState b.state = true ∧ k = expiryKey b)
    fun k => (L.save now b kind).expiry.get k = some () := by
  refine hE.expiry.write b.key b
    (fun k => liveState (L.readBinding b.scope b.address).state = true ∧
      k = expiryKey (L.readBinding b.scope b.address)) ?_ ?_ ?_ ?_ ?_
  · rw [get_save, if_pos rfl]
  · intro k hk
    rw [get_save, if_neg hk]
  · intro k
    show (if liveState b.state then
        (if liveState (L.readBinding b.scope b.address).state then
          L.expiry.delete (expiryKey (L.readBinding b.scope b.address)) else L.expiry).put (expiryKey b) ()
      else if liveState (L.readBinding b.scope b.address).state then
          L.expiry.delete (expiryKey (L.readBinding b.scope b.address)) else L.expiry).get k = some () ↔ _
    have hdrop : (if liveState (L.readBinding b.scope b.address).state then
          L.expiry.delete (expiryKey (L.readBinding b.scope b.address)) else L.expiry).get k = some () ↔
        L.expiry.get k = some () ∧ ¬ (liveState (L.readBinding b.scope b.address).state = true ∧
          k = expiryKey (L.readBinding b.scope b.address)) := by
      split
      · rename_i hold
        rw [Bucket.get_delete]
        by_cases hk : k = expiryKey (L.readBinding b.scope b.address) <;> simp [hk, hold]
      · rename_i hold
        simp [hold]
    split
    · rename_i hlive
      rw [Bucket.get_put]
      by_cases hk : k = expiryKey b
      · simp [hk, hlive]
      · rw [if_neg hk, hdrop]
        simp [hk]
    · rename_i hlive
      rw [hdrop]
      simp [hlive]
  · intro old k hold hentry
    rw [readBinding_of_get hold]
    exact hentry
  · intro k b' e hk hb' hentry hremoved
    -- Both keys end in the key of their binding.
    have hzero : L.readBinding b.scope b.address ≠ {} := by
      intro hzero
      rw [hzero] at hremoved
      cases hremoved.1
    have hkey := congrArg (fun k => (ofLex k).2) (hentry.2.symm.trans hremoved.2)
    rw [expiryKey_key, expiryKey_key, (readBinding_stored hL hzero).2, hL.sound.keyed hb'] at hkey
    exact hk hkey

variable (hP : ∀ {k b}, L.bindings.get k = some b → Proper b)

include hP

theorem indexes_exact_save : ExactIndex (L.save now b kind).bindings.get
    (fun b e => e ∈ indexEntries b) (Indexed (L.save now b kind)) := by
  refine hE.indexes.write b.key b
    (fun e => e ∈ indexEntries (L.readBinding b.scope b.address)) ?_ ?_ ?_ ?_ ?_
  · rw [get_save, if_pos rfl]
  · intro k hk
    rw [get_save, if_neg hk]
  · intro e
    exact indexed_save L now b kind
  · intro old e hold hentry
    rw [readBinding_of_get hold]
    exact hentry
  · intro k b' e hk hb' hentry hremoved
    have hzero : L.readBinding b.scope b.address ≠ {} := by
      intro hzero
      rw [hzero, indexEntries_zero] at hremoved
      cases hremoved
    obtain ⟨hstored, hkey⟩ := readBinding_stored hL hzero
    have hsame := key_of_indexEntries (hP hb') (hP hstored) hentry hremoved
    rw [hkey, hL.sound.keyed hb'] at hsame
    exact hk hsame

theorem dns_save (hb : Proper b) : ExactIndex (L.save now b kind).bindings.get
    (fun b (e : String × String) => (b.state = .active ∧ b.origin ≠ .dhcpv6PD) ∧ e = (dnsKey b, b.key))
    fun e => (L.save now b kind).dns.get e.1 = some e.2 := by
  refine hE.dns.write b.key b
    (fun e =>
      ((L.readBinding b.scope b.address).name ≠ "" ∧ e.1 = dnsKey (L.readBinding b.scope b.address)) ∨
        ((b.state = .active ∧ b.origin ≠ .dhcpv6PD) ∧ e.1 = dnsKey b)) ?_ ?_ ?_ ?_ ?_
  · rw [get_save, if_pos rfl]
  · intro k hk
    rw [get_save, if_neg hk]
  · intro e
    obtain ⟨k, v⟩ := e
    show (if b.state = BindingState.active ∧ b.origin ≠ Origin.dhcpv6PD then
        (if (L.readBinding b.scope b.address).name ≠ "" then
          L.dns.delete (dnsKey (L.readBinding b.scope b.address)) else L.dns).put (dnsKey b) b.key
      else if (L.readBinding b.scope b.address).name ≠ "" then
          L.dns.delete (dnsKey (L.readBinding b.scope b.address)) else L.dns).get k = some v ↔ _
    have hdrop : (if (L.readBinding b.scope b.address).name ≠ "" then
          L.dns.delete (dnsKey (L.readBinding b.scope b.address)) else L.dns).get k = some v ↔
        L.dns.get k = some v ∧ ¬ ((L.readBinding b.scope b.address).name ≠ "" ∧
          k = dnsKey (L.readBinding b.scope b.address)) := by
      split
      · rename_i hold
        rw [Bucket.get_delete]
        by_cases hk : k = dnsKey (L.readBinding b.scope b.address) <;> simp [hk, hold]
      · rename_i hold
        simp [hold]
    split
    · rename_i hactive
      rw [Bucket.get_put]
      by_cases hk : k = dnsKey b
      · rw [if_pos hk, Option.some.injEq]
        constructor
        · intro hv
          exact Or.inr ⟨hactive, by rw [hk, hv]⟩
        · intro h
          rcases h with ⟨-, hkept⟩ | ⟨-, hentry⟩
          · exact absurd (Or.inr ⟨hactive, hk⟩) hkept
          · exact (congrArg Prod.snd hentry).symm
      · rw [if_neg hk, hdrop]
        simp [hk]
    · rename_i hactive
      rw [hdrop]
      simp [hactive]
  · intro old e hold hentry
    rw [readBinding_of_get hold]
    refine Or.inl ⟨(hP hold).clean.name.ne, ?_⟩
    rw [hentry.2]
  · intro k b' e hk hb' hentry hremoved
    rw [hentry.2] at hremoved
    rcases hremoved with ⟨hname, hdns⟩ | ⟨-, hdns⟩
    · have hzero : L.readBinding b.scope b.address ≠ {} := by
        intro hzero
        rw [hzero] at hname
        exact hname rfl
      obtain ⟨hstored, hkey⟩ := readBinding_stored hL hzero
      have hsame := dnsKey_inj (hP hb') (hP hstored) hdns
      rw [hkey, hL.sound.keyed hb'] at hsame
      exact hk hsame
    · have hsame := dnsKey_inj (hP hb') hb hdns
      rw [hL.sound.keyed hb'] at hsame
      exact hk hsame

theorem Exact.save (hb : Proper b) : Exact (L.save now b kind) where
  expiry := expiry_save hL hE now kind
  indexes := indexes_exact_save hL hE now kind hP
  dns := dns_save hL hE now kind hP hb

end Save

/-- In an exact index nothing is stale. -/
theorem Exact.delete_stale (hE : Exact L) (hL : Tidy L)
    (hends : ∀ {k b}, L.bindings.get k = some b → Int64 b.endsAt) {k : Nat ×ₗ String} (h : Stale L k) :
    L.expiry.delete k = L.expiry := by
  refine Bucket.delete_of_get_none ?_
  cases hget : L.expiry.get k with
  | none => rfl
  | some =>
    obtain ⟨k', b, hb, hlive, hk⟩ := (hE.expiry k).mp hget
    have hkey : (ofLex k).2 = k' := by
      rw [hk, expiryKey_key, hL.sound.keyed hb]
    have hstored : L.bindings.get (ofLex k).2 = some b := by
      rw [hkey]
      exact hb
    refine absurd ⟨hlive, ?_⟩ (h b hstored)
    rw [hk]
    exact (keyTime_timeKey (hends hb)).symm

/-! ### Ledgers in order -/

/-- The invariant of every ledger that is reached. What is stored has been logged, and what is
logged is proper, so that it can be replicated. -/
structure Orderly (L : Ledger) : Prop where
  tidy : Tidy L
  legible : Legible L
  logged : ∀ e ∈ L.events, e.binding.scope ≠ "" → Proper e.binding
  seen : ∀ e ∈ L.events, ∀ o, e.observation = some o → Seen o
  recorded : ∀ {k b}, L.bindings.get k = some b → ∃ e ∈ L.events, e.binding = b
  exact : (∀ e ∈ L.events, Int64 e.binding.endsAt) → Exact L

theorem orderly_empty : Orderly {} where
  tidy := tidy_empty
  legible := ⟨fun h => by simp at h, fun h => by simp at h⟩
  logged _ he := by cases he
  seen _ he := by cases he
  recorded h := by simp at h
  exact _ := exact_empty

theorem Orderly.proper (h : Orderly L) (hb : L.bindings.get k = some b) :
    Proper b := ⟨h.tidy.fits hb, h.legible.stored hb⟩

theorem Orderly.save (h : Orderly L) (hb : Proper b) (now : Int) (kind : EventKind) :
    Orderly (L.save now b kind) where
  tidy := h.tidy.save hb.fits now kind
  legible := h.legible.save hb.clean now kind
  logged := by
    intro e he hscope
    rcases mem_events_save he with he | ⟨rfl, -⟩
    · exact h.logged e he hscope
    · exact hb
  seen := by
    intro e he o ho
    rcases mem_events_save he with he | ⟨-, hnone⟩
    · exact h.seen e he o ho
    · rw [hnone] at ho
      cases ho
  recorded := by
    intro k b' hb'
    rw [events_save]
    rcases get_save_eq_some.mp hb' with ⟨-, rfl⟩ | ⟨-, hb'⟩
    · exact ⟨_, mem_append_right _ mem_cons_self, rfl⟩
    · obtain ⟨e, he, hbinding⟩ := h.recorded hb'
      exact ⟨e, mem_append_left _ he, hbinding⟩
  exact := by
    intro hends
    rw [events_save] at hends
    have hbefore := h.exact fun e he => hends e (mem_append_left _ he)
    exact hbefore.save h.tidy now kind (fun hb' => h.proper hb') hb

theorem Orderly.beside {L' : Ledger} (h : Orderly L) (hL' : Beside L L') : Orderly L' := by
  obtain ⟨es, hevents, -, -, hes⟩ := hL'.logged
  refine ⟨h.tidy.beside hL', h.legible.beside hL', ?_, ?_, ?_, ?_⟩
  · intro e he hscope
    rw [hevents] at he
    rcases mem_append.mp he with he | he
    · exact h.logged e he hscope
    · rw [(hes e he).1] at hscope
      exact absurd rfl hscope
  · intro e he o ho
    rw [hevents] at he
    rcases mem_append.mp he with he | he
    · exact h.seen e he o ho
    · exact (hes e he).2 o ho
  · intro k b hb
    rw [hL'.bindings] at hb
    obtain ⟨e, he, hbinding⟩ := h.recorded hb
    exact ⟨e, by rw [hevents]; exact mem_append_left _ he, hbinding⟩
  · intro hends
    have hends0 : ∀ e ∈ L.events, Int64 e.binding.endsAt := fun e he =>
      hends e (by rw [hevents]; exact mem_append_left _ he)
    have hE := h.exact hends0
    have hexpiry : L'.expiry = L.expiry := by
      rcases hL'.expiry with hsame | ⟨k, hstale, hdrop⟩
      · exact hsame
      · rw [hdrop]
        refine hE.delete_stale h.tidy (fun hb => ?_) hstale
        obtain ⟨e, he, rfl⟩ := h.recorded hb
        exact hends0 e he
    refine ⟨?_, ?_, ?_⟩
    · rw [hL'.bindings, hexpiry]
      exact hE.expiry
    · have hindexed : Indexed L' = Indexed L := by
        funext e
        rw [Indexed, Indexed, hL'.indexes]
      rw [hL'.bindings, hindexed]
      exact hE.indexes
    · rw [hL'.bindings, hL'.dns]
      exact hE.dns

theorem Orderly.logs {P : Ledger → Binding → EventKind → Prop} {L0 : Ledger} (h : Logs P now L0 L)
    (hP : ∀ L b kind, Orderly L → P L b kind → Proper b) (h0 : Orderly L0) : Orderly L := by
  induction h with
  | refl => exact h0
  | save _ hb ih => exact ih.save (hP _ _ _ ih hb) _ _
  | beside _ hL' ih => exact ih.beside hL'

theorem Orderly.apply (h : Orderly L) (now : Int) {op : Operation} (hop : op.Admissible)
    (hprinted : Operation.Printed op) : Orderly (op.apply now L) := by
  refine Orderly.logs (logs_apply h.tidy now hop) (fun L1 b kind h1 hw => ?_) h
  exact ⟨opWrite_fits hop h.tidy h1.tidy hw,
    opWrite_clean hop hprinted h.tidy h.legible h1.tidy h1.legible hw⟩

/-! ### Replication -/

/-- An event that is replicated is logged as a transaction. -/
theorem applyEvent_logs {P : Binding → Prop} {L0 : Ledger} {e : Event}
    (hbinding : e.binding.scope ≠ "" → P e.binding) (hseen : ∀ o, e.observation = some o → Seen o)
    (h : Logs (fun _ b _ => P b) now L0 L) : Logs (fun _ b _ => P b) now L0 (L.applyEvent now e) :=
  applyEvent_invariant (fun ho h => .beside h (beside_sight ho))
    (fun hempty ho h => .beside h (beside_sighting hempty ho)) (fun hscope h => .save h (hbinding hscope)) hseen h

theorem mem_associations_of_snapshot {time : Int} {ip : String} {snap : Snapshot}
    (h : L.snapshot now scope ip time = .ok snap) {a : Association} (ha : a ∈ snap.associations) :
    ∃ k, L.associations.get k = some a := by
  simp only [Ledger.snapshot, bind_eq_ok, refuseIf_eq_ok, exists_const, pure_eq_ok] at h
  obtain ⟨-, -, rfl⟩ := h
  by_cases hpresent : (if time = 0 then now else time) = now
  · simp only [if_pos hpresent] at ha
    obtain ⟨⟨k, a'⟩, hmem, rfl⟩ := mem_map.mp ha
    exact ⟨k, Bucket.mem_entries.mp hmem⟩
  · simp only [if_neg hpresent] at ha
    cases ha

/-- The parts of a snapshot are stored beside the bindings. -/
theorem adoptSnapshot_beside {L' : Ledger} {snap : Snapshot} (h : L.adoptSnapshot snap = .ok L')
    (hnamed : ∀ a ∈ snap.associations, labelPattern a.name = true) : Beside L L' := by
  simp only [Ledger.adoptSnapshot, bind_eq_ok, pure_eq_ok] at h
  obtain ⟨duid, -, rfl⟩ := h
  refine ⟨rfl, rfl, rfl, Or.inl rfl, ⟨[], by simp, rfl, rfl, fun e he => by cases he⟩,
    fun _ _ ho => Or.inl ho, ?_⟩
  intro k a ha
  have hreplay : snap.associations.foldl (fun table a => table.put a.client a) Bucket.empty
      = Bucket.empty.replay (snap.associations.map fun a => (a.client, a)) := by
    unfold Bucket.replay
    rw [foldl_map]
  simp only at ha
  rw [hreplay] at ha
  rcases Bucket.get_replay_cases ha with h | h
  · cases h
  · obtain ⟨a', ha', heq⟩ := mem_map.mp h
    rw [← (Prod.mk.inj heq).2]
    exact Or.inr (hnamed a' ha')

/-- The ledgers that operations and replication build. The events and the snapshot that are
replicated come from such ledgers, which need not be the same, and the events in any order. -/
inductive Reachable : Ledger → Prop where
  | empty : Reachable {}
  | operate {L : Ledger} (h : Reachable L) (now : Int) {op : Operation} (hop : op.Admissible)
      (hprinted : Operation.Printed op) : Reachable (op.apply now L)
  | replicate {R R' : Replica} {leader source : Ledger} (h : Reachable R.ledger)
      (hleader : Reachable leader) (hsource : Reachable source) {now clock time : Int}
      {scope ip : String} {events : List Event} {snap : Option Snapshot}
      (hevents : ∀ e ∈ events, e ∈ leader.events)
      (hsnap : ∀ s, snap = some s → source.snapshot clock scope ip time = .ok s)
      (hR : R.applyReplicated now events snap = .ok R') : Reachable R'.ledger

/-- What is replicated from ledgers in order is logged as a transaction of bindings that the events have. -/
theorem applyReplicated_logs {P : Binding → Prop} {R R' : Replica} {leader source : Ledger}
    (hleader : Orderly leader) (hsource : Orderly source) {clock time : Int} {ip : String} {events : List Event}
    {snap : Option Snapshot} (hevents : ∀ e ∈ events, e ∈ leader.events)
    (hP : ∀ e ∈ events, e.binding.scope ≠ "" → P e.binding)
    (hsnap : ∀ s, snap = some s → source.snapshot clock scope ip time = .ok s)
    (hR : R.applyReplicated now events snap = .ok R') : Logs (fun _ b _ => P b) now R.ledger R'.ledger := by
  refine applyReplicated_invariant (fun {L1 e} he h1 => ?_) (fun {L1 L2 s} hs hadopt h1 => ?_) hR .refl
  · exact applyEvent_logs (hP e he) (hleader.seen e (hevents e he)) h1
  · refine .beside h1 (adoptSnapshot_beside hadopt fun a ha => ?_)
    obtain ⟨k, hk⟩ := mem_associations_of_snapshot (hsnap s hs) ha
    exact hsource.legible.named hk

theorem Orderly.replicate {R R' : Replica} {leader source : Ledger} (h : Orderly R.ledger)
    (hleader : Orderly leader) (hsource : Orderly source) {clock time : Int} {ip : String} {events : List Event}
    {snap : Option Snapshot} (hevents : ∀ e ∈ events, e ∈ leader.events)
    (hsnap : ∀ s, snap = some s → source.snapshot clock scope ip time = .ok s)
    (hR : R.applyReplicated now events snap = .ok R') : Orderly R'.ledger :=
  Orderly.logs (applyReplicated_logs hleader hsource hevents (fun e he => hleader.logged e (hevents e he)) hsnap hR)
    (fun _ _ _ _ hb => hb) h

theorem orderly_of_reachable (h : Reachable L) : Orderly L := by
  induction h with
  | empty => exact orderly_empty
  | operate _ now hop hprinted ih => exact ih.apply now hop hprinted
  | replicate _ _ _ hevents hsnap hR ih ihleader ihsource =>
    exact ih.replicate ihleader ihsource hevents hsnap hR

/-! ### The readers -/

/-- A scan of all bindings. -/
def scan (L : Ledger) : List Binding := L.bindings.entries.map Prod.snd

theorem mem_scan : b ∈ scan L ↔ ∃ k, L.bindings.get k = some b := by
  constructor
  · intro h
    obtain ⟨⟨k, b'⟩, hmem, rfl⟩ := mem_map.mp h
    exact ⟨k, Bucket.mem_entries.mp hmem⟩
  · intro h
    obtain ⟨k, hk⟩ := h
    exact mem_map.mpr ⟨(k, b), Bucket.mem_entries.mpr hk, rfl⟩

theorem nodup_scan (hL : Tidy L) : (scan L).Nodup := by
  unfold scan List.Nodup
  rw [pairwise_map]
  refine L.bindings.sorted.imp_of_mem ?_
  intro e e' he he' hlt heq
  -- A binding says under which key it is.
  have hkey := hL.sound.keyed (Bucket.mem_entries.mp he)
  rw [heq, hL.sound.keyed (Bucket.mem_entries.mp he')] at hkey
  rw [hkey] at hlt
  exact lt_irrefl _ hlt

/-- A stored binding is read back under its scope and address. -/
theorem Orderly.readBinding (hO : Orderly L) (hb : L.bindings.get k = some b) :
    L.readBinding b.scope b.address = b := by
  refine readBinding_of_get ?_
  show L.bindings.get b.key = some b
  rw [hO.tidy.sound.keyed hb]
  exact hb

/-- What a reader of an index finds: the stored bindings with an entry that starts so. -/
theorem mem_liveFromIndex_iff (hO : Orderly L) (hE : Exact L) {index : Index} {start : String} :
    b ∈ L.liveFromIndex index start ↔ b ∈ scan L ∧
      ∃ k, (index, k) ∈ indexEntries b ∧ startsWith k start = true := by
  constructor
  · intro h
    obtain ⟨k, scope, address, hindexed, hstart, htarget, hb, -⟩ := mem_liveFromIndex h
    obtain ⟨k', b', hb', hentry⟩ := (hE.indexes (index, k)).mp hindexed
    rw [indexTarget_of_mem (hO.proper hb') hentry, Option.some.injEq, Prod.mk.injEq] at htarget
    rw [← htarget.1, ← htarget.2, hO.readBinding hb'] at hb
    subst hb
    exact ⟨mem_scan.mpr ⟨k', hb'⟩, k, hentry, hstart⟩
  · intro h
    obtain ⟨hscan, k, hentry, hstart⟩ := h
    obtain ⟨k', hb⟩ := mem_scan.mp hscan
    have hproper := hO.proper hb
    have hindexed : Indexed L (index, k) := (hE.indexes (index, k)).mpr ⟨k', b, hb, hentry⟩
    refine mem_filterMap.mpr ⟨(k, ()), Bucket.mem_entries.mpr hindexed, ?_⟩
    have hlive := (mem_indexEntries.mp hentry).1
    simp [hstart, indexTarget_of_mem hproper hentry, hO.readBinding hb, hproper.fits.scope_ne, hlive]

/-- A reader of an index finds nothing twice: the key behind a binding is its one entry in the
index. -/
theorem nodup_liveFromIndex (hO : Orderly L) (hE : Exact L) (index : Index) (start : String) :
    (L.liveFromIndex index start).Nodup := by
  refine Bucket.nodup_filterMap (P := fun k b => (index, k) ∈ indexEntries b) indexEntries_unique _ ?_
  intro e he b hb
  obtain ⟨k, u⟩ := e
  have hindexed : Indexed L (index, k) := Bucket.mem_entries.mp he
  obtain ⟨k', b', hb', hentry⟩ := (hE.indexes (index, k)).mp hindexed
  simp only [indexTarget_of_mem (hO.proper hb') hentry] at hb
  split at hb
  · simp only [Option.bind_eq_bind, Option.bind_some, hO.readBinding hb'] at hb
    split at hb
    · cases hb
    · rw [← Option.some.inj hb]
      exact hentry
  · cases hb

/-- A query and a filtered scan with the same members give the same bindings. -/
theorem perm_of_mem_iff (hL : Tidy L) {found : List Binding} (hfound : found.Nodup) {p : Binding → Bool}
    (h : ∀ b, b ∈ found ↔ b ∈ scan L ∧ p b = true) : found.Perm ((scan L).filter p) := by
  refine (perm_ext_iff_of_nodup hfound ((nodup_scan hL).filter p)).mpr fun b => ?_
  rw [h, mem_filter]

theorem idxPrefix_address (address : String) :
    (Ledger.idxPrefix [address]).toList = address.toList ++ ['\x00'] := by
  simp [Ledger.idxPrefix]

theorem addressKey_toList (b : Binding) :
    (indexKey [b.address, b.scope]).toList = b.address.toList ++ '\x00' :: b.scope.toList := by
  simp [indexKey, joinText, intercalate_cons_cons]

/-- A key of the address index tells the address. -/
theorem address_of_start (haddress : '\x00' ∉ b.address.toList) (hscope : '\x00' ∉ b.scope.toList)
    {address : String} (hstart : startsWith (indexKey [b.address, b.scope]) (Ledger.idxPrefix [address]) = true) :
    b.address = address := by
  obtain ⟨rest, hrest⟩ := isPrefixOf_iff_prefix.mp hstart
  rw [addressKey_toList, idxPrefix_address, append_assoc, singleton_append] at hrest
  -- There is one NUL in the key, so there is none in the address that was asked for.
  have hcount := congrArg (List.count '\x00') hrest
  simp only [count_append, count_cons_self, count_eq_zero.mpr haddress,
    count_eq_zero.mpr hscope] at hcount
  have hnul : '\x00' ∉ address.toList := count_eq_zero.mp (by omega)
  exact (String.toList_inj.mp (append_cons_inj hnul haddress hrest).1).symm

section Readers

variable {L : Ledger} (hO : Orderly L) (hE : Exact L)

include hO hE

theorem liveByClient_perm (scope client : String) :
    (L.liveByClient scope client).Perm
      ((scan L).filter fun b => liveState b.state && b.client = client && b.scope = scope) := by
  refine perm_of_mem_iff hO.tidy (nodup_liveFromIndex hO hE _ _) fun b => ?_
  constructor
  · intro h
    obtain ⟨hstored, hlive, hclient, hscope⟩ := mem_liveByClient hO.tidy.sound h
    exact ⟨mem_scan.mpr ⟨_, hstored⟩, by simp [hlive, hclient, hscope]⟩
  · intro h
    obtain ⟨hscan, hp⟩ := h
    simp only [Bool.and_eq_true, decide_eq_true_eq] at hp
    obtain ⟨⟨hlive, hclient⟩, hscope⟩ := hp
    refine (mem_liveFromIndex_iff hO hE).mpr ⟨hscan, indexKey [b.client, b.scope, b.address],
      mem_indexEntries.mpr ⟨hlive, rfl⟩, isPrefixOf_iff_prefix.mpr ⟨b.address.toList, ?_⟩⟩
    rw [hclient, hscope]
    simp [Ledger.idxPrefix, indexKey, joinText, intercalate_cons_cons]

theorem liveByAddress_perm (address : String) :
    (L.liveByAddress address).Perm
      ((scan L).filter fun b => liveState b.state && b.address = address) := by
  refine perm_of_mem_iff hO.tidy (nodup_liveFromIndex hO hE _ _) fun b => ?_
  constructor
  · intro h
    obtain ⟨hscan, k, hentry, hstart⟩ := (mem_liveFromIndex_iff hO hE).mp h
    obtain ⟨hlive, rfl⟩ := mem_indexEntries.mp hentry
    obtain ⟨k', hb⟩ := mem_scan.mp hscan
    have hproper := hO.proper hb
    have haddress := address_of_start hproper.clean.address hproper.scope_nul hstart
    exact ⟨hscan, by simp [hlive, haddress]⟩
  · intro h
    obtain ⟨hscan, hp⟩ := h
    simp only [Bool.and_eq_true, decide_eq_true_eq] at hp
    refine (mem_liveFromIndex_iff hO hE).mpr ⟨hscan, indexKey [b.address, b.scope],
      mem_indexEntries.mpr ⟨hp.1, rfl⟩, isPrefixOf_iff_prefix.mpr ⟨b.scope.toList, ?_⟩⟩
    rw [addressKey_toList, idxPrefix_address, hp.2, append_assoc, singleton_append]

theorem activeByName_perm (name : String) :
    (L.activeByName name).Perm ((scan L).filter fun b => b.state = .active && b.name = name) := by
  refine perm_of_mem_iff hO.tidy ((nodup_liveFromIndex hO hE _ _).filter _) fun b => ?_
  rw [mem_filter, mem_liveFromIndex_iff hO hE]
  constructor
  · intro h
    exact ⟨h.1.1, by simpa using h.2⟩
  · intro h
    obtain ⟨hscan, hp⟩ := h
    simp only [Bool.and_eq_true, decide_eq_true_eq] at hp
    obtain ⟨k', hb⟩ := mem_scan.mp hscan
    refine ⟨⟨hscan, indexKey [b.name, b.scope, b.address], mem_indexEntries.mpr ⟨by rw [hp.1]; rfl,
      hp.1, (hO.proper hb).clean.name.ne, rfl⟩, isPrefixOf_iff_prefix.mpr
        ⟨b.scope.toList ++ '\x00' :: b.address.toList, ?_⟩⟩, by simpa using hp⟩
    rw [hp.2]
    simp [Ledger.idxPrefix, indexKey, joinText, intercalate_cons_cons]

theorem forEachLive_perm : L.forEachLive.Perm ((scan L).filter fun b => liveState b.state) := by
  -- An entry of the expiry index is the key of the binding it leads to.
  have hsource : ∀ e ∈ L.expiry.entries, ∀ b,
      ((L.bindings.get (ofLex e.1).2).filter fun b => liveState b.state) = some b →
        L.bindings.get (ofLex e.1).2 = some b ∧ liveState b.state = true ∧ e.1 = expiryKey b := by
    intro e he b hb
    obtain ⟨k, u⟩ := e
    obtain ⟨hget, hlive⟩ := Option.filter_eq_some_iff.mp hb
    obtain ⟨k', b', hb', -, hk⟩ := (hE.expiry k).mp (Bucket.mem_entries.mp he)
    have hsame : L.bindings.get (ofLex k).2 = some b' := by
      rw [hk, expiryKey_key, hO.tidy.sound.keyed hb']
      exact hb'
    rw [hget, Option.some.injEq] at hsame
    exact ⟨hget, hlive, by rw [hsame]; exact hk⟩
  refine perm_of_mem_iff hO.tidy ?_ fun b => ?_
  · exact Bucket.nodup_filterMap (P := fun k b => k = expiryKey b) (fun h h' => h.trans h'.symm) _
      fun e he b hb => (hsource e he b hb).2.2
  · constructor
    · intro h
      obtain ⟨e, he, hb⟩ := mem_filterMap.mp h
      obtain ⟨hget, hlive, -⟩ := hsource e he b hb
      exact ⟨mem_scan.mpr ⟨_, hget⟩, hlive⟩
    · intro h
      obtain ⟨hscan, hlive⟩ := h
      obtain ⟨k, hb⟩ := mem_scan.mp hscan
      have hentry := (hE.expiry (expiryKey b)).mpr ⟨k, b, hb, hlive, rfl⟩
      refine mem_filterMap.mpr ⟨(expiryKey b, ()), Bucket.mem_entries.mpr hentry, ?_⟩
      rw [expiryKey_key, hO.tidy.sound.keyed hb, hb, Option.filter_some, if_pos hlive]

end Readers

/-- The indexes are exact. In every ledger that operations and replication build, the expiry
index, the DNS index and the four secondary indexes hold the keys of the bindings that are
there and no others, and what is read through them is what a scan of all bindings gives. The
ends are 64-bit numbers, as the field is. -/
theorem indexes_exact {L : Ledger} (h : Reachable L)
    (hends : ∀ e ∈ L.events, Int64 e.binding.endsAt) :
    Exact L ∧
      (∀ scope client, (L.liveByClient scope client).Perm
        ((scan L).filter fun b => liveState b.state && b.client = client && b.scope = scope)) ∧
      (∀ address, (L.liveByAddress address).Perm
        ((scan L).filter fun b => liveState b.state && b.address = address)) ∧
      (∀ name, (L.activeByName name).Perm
        ((scan L).filter fun b => b.state = .active && b.name = name)) ∧
      L.forEachLive.Perm ((scan L).filter fun b => liveState b.state) := by
  have hO := orderly_of_reachable h
  have hE := hO.exact hends
  exact ⟨hE, liveByClient_perm hO hE, liveByAddress_perm hO hE, activeByName_perm hO hE,
    forEachLive_perm hO hE⟩

/-- After a grant to one client and, when that has run out, to another, the address is found
for the second alone. -/
theorem indexes_exact_smallLan :
    ((run {} [requestFive 10 60 "01", requestFive 100 60 "02"]).liveByAddress "10.0.0.5").Perm
      ((scan (run {} [requestFive 10 60 "01", requestFive 100 60 "02"])).filter fun b =>
        liveState b.state && b.address = "10.0.0.5") := by
  have hvalid : (smallLan 60).validate = .ok () := by decide +kernel
  have hprinted : '\x00' ∉ "10.0.0.5".toList := by decide
  have hfirst : Reachable ((requestFive 10 60 "01").op.apply 10 {}) :=
    .operate .empty 10 hvalid hprinted
  have hreached : Reachable (run {} [requestFive 10 60 "01", requestFive 100 60 "02"]) := by
    rw [run, foldl_cons, foldl_cons, foldl_nil]
    exact .operate hfirst 100 hvalid hprinted
  have hends : ∀ e ∈ (run {} [requestFive 10 60 "01", requestFive 100 60 "02"]).events,
      Int64 e.binding.endsAt := by decide +kernel
  exact (indexes_exact hreached hends).2.2.1 "10.0.0.5"

end Ghostd.Proofs.Addressbook
