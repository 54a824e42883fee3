import Ghostd.Lib.Queue
import Ghostd.Lib.Reconcile
import Ghostd.Proofs.Addressbook.Built

/-!
# `Ghostd.Proofs.Addressbook.Expiry`: the bindings that are due expire in order

`Expire` reads the expiry index from its start, at most a thousand keys, and stops at the first whose
time has not come. The keys start with the end of the binding as an unsigned number, so they are in the
order of the ends as long as no end is before 1970. No operation writes such an end while the clocks are
right (`lasting_of_dated`).

Then the keys that are read are those of the first thousand bindings that are due, in the order of their
ends and keys (`due_eq`), each of them is expired by a save of its own (`expire_eq`), and the others are
left for the next call. `expire_in_order` is the result.
-/

set_option autoImplicit false

namespace Ghostd.Proofs.Addressbook

open Ghostd.Lib Ghostd.Addressbook List

variable {L : Ledger} {b : Binding} {now : Int}

/-! ### Clocks -/

/-- The ledgers that are built while no clock reads a time before 1970. -/
def Dated : Ledger → Prop := BuiltBy fun now _ => 0 ≤ now

/-- What is granted or offered ends after it is written. -/
theorem grant_ends (hnow : 0 ≤ now) {s : Scope} {p : Prefix} (hs : ScopeFacts s p) (commit : Bool) :
    0 ≤ if commit then now + s.leaseSeconds else now + 30 := by
  have hlease := hs.leaseAtLeast
  split
  · omega
  · omega

/-- What an operation saves ends no earlier than it runs, or with a binding that is there. -/
theorem opWrite_ends (hnow : 0 ≤ now) {op : Operation} (hop : op.Admissible) {L0 : Ledger} (h0 : Tidy L0)
    (hL : Every (0 ≤ ·.endsAt) L) {kind : EventKind} (h : OpWrite now L0 op L b kind) : 0 ≤ b.endsAt := by
  cases op with
  | allocate c scopeID client mac claimed requested commit =>
    obtain ⟨s, m, ip, hs, -, -, -, -, -, hb⟩ := h
    obtain ⟨p, hfacts⟩ := scopeFacts_of_validate hop (mem_of_scope hs).1
    have hfields := (newLease_fields L now c s client m claimed ip commit).endsAt
    rw [← hb] at hfields
    have hends : b.endsAt = if commit then now + s.leaseSeconds else now + 30 := hfields
    rw [hends]
    exact grant_ends hnow hfacts commit
  | release =>
    obtain ⟨b0, -, -, -, rfl | rfl⟩ := h
    · exact hnow
    · show 0 ≤ now + 600
      omega
  | expire =>
    obtain ⟨k, b0, hget, -, -, rfl⟩ := h
    show 0 ≤ b0.endsAt
    exact hL.stored hget
  | allocatePrefix s client duidHex hint via commit =>
    have hw : DelegateWrite now s client duidHex hint via commit L b kind := h
    obtain ⟨-, -, -, -, -, -, -, hends⟩ := delegateWrite_fields hw
    obtain ⟨c, hc, hmem⟩ := hop
    obtain ⟨p, hfacts⟩ := scopeFacts_of_validate hc hmem
    rw [hends]
    exact grant_ends hnow hfacts commit
  | releasePrefix =>
    obtain ⟨b0, -, rfl⟩ := h
    exact hnow
  | importDocument c =>
    obtain ⟨l, -, s, mac, client, -, hends, ⟨-, -, rfl⟩ | ⟨-, -, rfl⟩⟩ := h
    · show 0 ≤ importedEnd l
      omega
    · rw [(importedBinding_fields now c s l mac client (importedEnd l) _).2.2.2.2.2.2]
      omega
  | report c node =>
    obtain ⟨found, device, name, hfound, -, m, hm, rfl⟩ := h
    have hlater := (associated_fields L now { node with seen := now } device name m).2.2.2.2.2
      (reportMatches_matched h0 hfound m hm).held.2
    omega
  | repair =>
    obtain ⟨scope, address, b0, -, -, hends, device, name, nodeID, evidence, -, rfl⟩ := h
    show 0 ≤ b0.endsAt
    omega
  | abandonDelegations =>
    obtain ⟨b0, evidence, -, rfl⟩ := h
    exact hnow
  | observe | observeSwitch => exact h.elim

/-- While the clocks are right, no end is before 1970. -/
theorem lasting_of_dated (h : Dated L) : Every (0 ≤ ·.endsAt) L :=
  h.every fun hnow hop h0 _ hL hw => opWrite_ends hnow hop h0 hL hw

/-! ### What is due -/

/-- Ends that the index orders as the numbers they are. -/
structure Clocked (L : Ledger) : Prop where
  orderly : Orderly L
  ends : ∀ e ∈ L.events, 0 ≤ e.binding.endsAt ∧ e.binding.endsAt < 2 ^ 63

theorem Clocked.stored (h : Clocked L) {k : String} (hb : L.bindings.get k = some b) :
    0 ≤ b.endsAt ∧ b.endsAt < 2 ^ 63 := by
  obtain ⟨e, he, rfl⟩ := h.orderly.recorded hb
  exact h.ends e he

theorem int64_of_clocked {t : Int} (h : 0 ≤ t ∧ t < 2 ^ 63) : Int64 t := by
  unfold Int64
  omega

theorem Clocked.exact (h : Clocked L) : Exact L :=
  h.orderly.exact fun e he => int64_of_clocked (h.ends e he)

/-- The place of a binding among those that are due. -/
def dueKey (b : Binding) : Int ×ₗ String := toLex (b.endsAt, b.key)

/-- A binding in a live state whose end has come. -/
def isDue (now : Int) (b : Binding) : Bool := liveState b.state && b.endsAt ≤ now

/-- The bindings that are due, by their end and then by their key. -/
def dueInOrder (L : Ledger) (now : Int) : List Binding :=
  ((scan L).filter (isDue now)).insertionSort fun a b => dueKey a ≤ dueKey b

theorem mem_dueInOrder : b ∈ dueInOrder L now ↔ (∃ k, L.bindings.get k = some b) ∧ isDue now b = true := by
  rw [dueInOrder, mem_insertionSort, mem_filter, mem_scan]

theorem nodup_dueInOrder (hL : Tidy L) (now : Int) : (dueInOrder L now).Nodup :=
  (perm_insertionSort _ _).nodup_iff.mpr ((nodup_scan hL).filter _)

/-- Two bindings of the table with the same key are the same. -/
theorem eq_of_key (hL : Tidy L) {k k' : String} {a : Binding} (ha : L.bindings.get k = some a)
    (hb : L.bindings.get k' = some b) (hkey : a.key = b.key) : a = b := by
  rw [← hL.sound.keyed ha, hkey, hL.sound.keyed hb, hb] at ha
  exact (Option.some.inj ha).symm

theorem sorted_dueInOrder (hL : Tidy L) (now : Int) :
    (dueInOrder L now).Pairwise fun a b => dueKey a < dueKey b := by
  have htotal : Std.Total fun a b : Binding => dueKey a ≤ dueKey b := ⟨fun a b => le_total _ _⟩
  have htrans : IsTrans Binding fun a b => dueKey a ≤ dueKey b := ⟨fun a b c => le_trans⟩
  have hle : (dueInOrder L now).Pairwise fun a b => dueKey a ≤ dueKey b := pairwise_insertionSort _ _
  refine (hle.and (nodup_dueInOrder hL now)).imp_of_mem fun {a b} ha hb hab => ?_
  refine lt_of_le_of_ne hab.1 fun hsame => hab.2 ?_
  obtain ⟨⟨k, hka⟩, -⟩ := mem_dueInOrder.mp ha
  obtain ⟨⟨k', hkb⟩, -⟩ := mem_dueInOrder.mp hb
  exact eq_of_key hL hka hkb (Prod.mk.inj (toLex_inj.mp hsame)).2

/-! ### The keys that are read -/

theorem timeKey_eq {t : Int} (h : 0 ≤ t ∧ t < 2 ^ 63) : (timeKey t : Int) = t := by
  unfold timeKey
  omega

/-- The index has the order of the ends. -/
theorem expiryKey_lt_iff {a : Binding} (ha : 0 ≤ a.endsAt ∧ a.endsAt < 2 ^ 63)
    (hb : 0 ≤ b.endsAt ∧ b.endsAt < 2 ^ 63) : expiryKey a < expiryKey b ↔ dueKey a < dueKey b := by
  have hta := timeKey_eq ha
  have htb := timeKey_eq hb
  have hlt : timeKey a.endsAt < timeKey b.endsAt ↔ a.endsAt < b.endsAt := by omega
  have heq : timeKey a.endsAt = timeKey b.endsAt ↔ a.endsAt = b.endsAt := by omega
  rw [expiryKey, expiryKey, dueKey, dueKey, Prod.Lex.toLex_lt_toLex, Prod.Lex.toLex_lt_toLex]
  simp only [hlt, heq]

/-- An entry of the index is the key of a binding in a live state. -/
theorem mem_expiry (hL : Clocked L) {k : Nat ×ₗ String} : k ∈ L.expiry.entries.map Prod.fst ↔
      ∃ k' b, L.bindings.get k' = some b ∧ liveState b.state = true ∧ k = expiryKey b := by
  rw [← hL.exact.expiry k]
  constructor
  · intro h
    obtain ⟨⟨k0, u⟩, hmem, rfl⟩ := mem_map.mp h
    exact Bucket.mem_entries.mp hmem
  · intro h
    exact mem_map.mpr ⟨(k, ()), Bucket.mem_entries.mpr h, rfl⟩

/-- The keys that `Expire` collects are those of the first thousand bindings that are due. -/
theorem due_eq (hL : Clocked L) (now : Int) : L.due now = ((dueInOrder L now).take 1000).map expiryKey := by
  have hsorted : (L.expiry.entries.map Prod.fst).Pairwise fun k k' => k < k' :=
    pairwise_map.mpr L.expiry.sorted
  -- What is due stands at the front of the index.
  have hfront : (L.expiry.entries.map Prod.fst).takeWhile (fun k => keyTime (ofLex k).1 ≤ now) =
      (L.expiry.entries.map Prod.fst).filter fun k => keyTime (ofLex k).1 ≤ now := by
    refine takeWhile_eq_filter hsorted fun k hk k' hk' hlt hdue => ?_
    obtain ⟨u, b, hb, -, rfl⟩ := (mem_expiry hL).mp hk
    obtain ⟨u', b', hb', -, rfl⟩ := (mem_expiry hL).mp hk'
    rw [decide_eq_true_eq] at hdue ⊢
    have hkey := keyTime_timeKey (int64_of_clocked (hL.stored hb))
    have hkey' := keyTime_timeKey (int64_of_clocked (hL.stored hb'))
    rw [expiryKey_lt_iff (hL.stored hb) (hL.stored hb'), dueKey, dueKey, Prod.Lex.toLex_lt_toLex] at hlt
    show keyTime (timeKey b.endsAt) ≤ now
    have hle : keyTime (timeKey b'.endsAt) ≤ now := hdue
    rw [hkey'] at hle
    rw [hkey]
    rcases hlt with hlt | ⟨heq, -⟩
    · exact le_of_lt (lt_of_lt_of_le hlt hle)
    · exact le_of_eq_of_le heq hle
  -- And it is the list of the bindings, in their order.
  have hsame : (L.expiry.entries.map Prod.fst).filter (fun k => keyTime (ofLex k).1 ≤ now) =
      (dueInOrder L now).map expiryKey := by
    refine (hsorted.filter _).eq_of_mem_iff (pairwise_map.mpr ?_) fun k => ?_
    · refine (sorted_dueInOrder hL.orderly.tidy now).imp_of_mem fun {a b} ha hb hlt => ?_
      obtain ⟨⟨k, hka⟩, -⟩ := mem_dueInOrder.mp ha
      obtain ⟨⟨k', hkb⟩, -⟩ := mem_dueInOrder.mp hb
      exact (expiryKey_lt_iff (hL.stored hka) (hL.stored hkb)).mpr hlt
    · rw [mem_filter, mem_expiry hL, mem_map, decide_eq_true_eq]
      constructor
      · rintro ⟨⟨k', b, hb, hlive, rfl⟩, hdue⟩
        have hends : b.endsAt ≤ now := by
          rw [← keyTime_timeKey (int64_of_clocked (hL.stored hb))]
          exact hdue
        exact ⟨b, mem_dueInOrder.mpr ⟨⟨k', hb⟩, by simp [isDue, hlive, hends]⟩, rfl⟩
      · rintro ⟨b, hmem, rfl⟩
        obtain ⟨⟨k', hb⟩, hdue⟩ := mem_dueInOrder.mp hmem
        simp only [isDue, Bool.and_eq_true, decide_eq_true_eq] at hdue
        refine ⟨⟨k', b, hb, hdue.1, rfl⟩, ?_⟩
        show keyTime (timeKey b.endsAt) ≤ now
        rw [keyTime_timeKey (int64_of_clocked (hL.stored hb))]
        exact hdue.2
  rw [Ledger.due, ← take_takeWhile, hfront, hsame, map_take]

/-! ### The batch -/

/-- A binding as `Expire` leaves it. -/
def expired (b : Binding) : Binding := { b with state := .expired }

/-- The batch is saved binding by binding: none of the saves touches the binding of another key. -/
theorem foldl_expireKey {bs : List Binding} (hkeys : (bs.map (·.key)).Nodup)
    (hstored : ∀ b ∈ bs, L.bindings.get b.key = some b ∧ liveState b.state = true ∧ Int64 b.endsAt) :
    (bs.map expiryKey).foldl (Ledger.expireKey now) L = bs.foldl (fun L b => L.save now (expired b) .expire) L := by
  induction bs generalizing L with
  | nil => rfl
  | cons b bs ih =>
    obtain ⟨hnew, hrest⟩ := nodup_cons.mp hkeys
    obtain ⟨hget, hlive, hends⟩ := hstored b mem_cons_self
    have hstep : Ledger.expireKey now L (expiryKey b) = L.save now (expired b) .expire := by
      unfold Ledger.expireKey
      rw [expiryKey_key, hget]
      exact if_pos ⟨hlive, (keyTime_timeKey hends).symm⟩
    rw [map_cons, foldl_cons, foldl_cons, hstep]
    refine ih hrest fun b' hb' => ?_
    obtain ⟨hget', hlive', hends'⟩ := hstored b' (mem_cons_of_mem _ hb')
    have hother : b'.key ≠ (expired b).key := fun hsame => hnew (mem_map.mpr ⟨b', hb', hsame⟩)
    exact ⟨by rw [get_save, if_neg hother]; exact hget', hlive', hends'⟩

/-- What a batch of saves leaves: the bindings written over, and an event for each. -/
theorem foldl_save_expired (now : Int) (bs : List Binding) (L : Ledger) :
    (bs.foldl (fun L b => L.save now (expired b) .expire) L).bindings =
        L.bindings.replay (bs.map fun b => (b.key, expired b)) ∧
      (bs.foldl (fun L b => L.save now (expired b) .expire) L).events =
        L.events ++ bs.mapIdx fun i b =>
          { id := L.sequence + 1 + i, time := now, kind := .expire, binding := expired b } := by
  induction bs generalizing L with
  | nil => exact ⟨rfl, by simp⟩
  | cons b bs ih =>
    obtain ⟨hbindings, hevents⟩ := ih (L.save now (expired b) .expire)
    rw [foldl_cons, hbindings, hevents, bindings_save, events_save, sequence_save, mapIdx_cons]
    refine ⟨rfl, ?_⟩
    rw [append_assoc, singleton_append]
    have hnumber : ∀ i, L.sequence + 1 + 1 + i = L.sequence + 1 + (i + 1) := fun i => by omega
    simp only [hnumber, Nat.add_zero]

section Call

variable {L : Ledger} (hL : Clocked L) (now : Int)

include hL

theorem nodup_keys_batch : (((dueInOrder L now).take 1000).map (·.key)).Nodup := by
  have hnodup := (nodup_dueInOrder hL.orderly.tidy now).sublist (take_sublist 1000 _)
  refine hnodup.map_on fun a ha b hb hkey => ?_
  obtain ⟨⟨k, hka⟩, -⟩ := mem_dueInOrder.mp (mem_of_mem_take ha)
  obtain ⟨⟨k', hkb⟩, -⟩ := mem_dueInOrder.mp (mem_of_mem_take hb)
  exact eq_of_key hL.orderly.tidy hka hkb hkey

theorem stored_batch (hb : b ∈ (dueInOrder L now).take 1000) :
    L.bindings.get b.key = some b ∧ liveState b.state = true ∧ Int64 b.endsAt := by
  obtain ⟨⟨k, hget⟩, hdue⟩ := mem_dueInOrder.mp (mem_of_mem_take hb)
  refine ⟨?_, (Bool.and_eq_true_iff.mp hdue).1, int64_of_clocked (hL.stored hget)⟩
  rw [hL.orderly.tidy.sound.keyed hget]
  exact hget

/-- One call saves the first thousand bindings that are due, in their order. -/
theorem expire_eq :
    L.expire now = ((dueInOrder L now).take 1000).foldl (fun L b => L.save now (expired b) .expire) L := by
  rw [Ledger.expire, due_eq hL now]
  exact foldl_expireKey (nodup_keys_batch hL now) fun b hb => stored_batch hL now hb

theorem get_expire (k : String) :
    (L.expire now).bindings.get k =
      (L.bindings.get k).map fun b => if b ∈ (dueInOrder L now).take 1000 then expired b else b := by
  have hnodup : ((((dueInOrder L now).take 1000).map fun b => (b.key, expired b)).map Prod.fst).Nodup := by
    rw [map_map]
    exact nodup_keys_batch hL now
  rw [expire_eq hL now, (foldl_save_expired now _ L).1, Bucket.get_replay_nodup hnodup, List.find?_map]
  cases hfind : ((dueInOrder L now).take 1000).find? ((fun e => decide (e.1 = k)) ∘ fun b => (b.key, expired b)) with
  | none =>
    -- The key is not in the batch.
    cases hget : L.bindings.get k with
    | none => rfl
    | some b =>
      have hout : b ∉ (dueInOrder L now).take 1000 := fun hin =>
        List.find?_eq_none.mp hfind b hin (by simpa using hL.orderly.tidy.sound.keyed hget)
      rw [Option.map_some, if_neg hout]
      rfl
  | some b =>
    have hin := mem_of_find?_eq_some hfind
    have hkey : b.key = k := by simpa using List.find?_some hfind
    rw [← hkey, (stored_batch hL now hin).1]
    show some (expired b) = some (if b ∈ (dueInOrder L now).take 1000 then expired b else b)
    rw [if_pos hin]

theorem events_expire :
    (L.expire now).events = L.events ++ ((dueInOrder L now).take 1000).mapIdx fun i b =>
      { id := L.sequence + 1 + i, time := now, kind := .expire, binding := expired b } := by
  rw [expire_eq hL now]
  exact (foldl_save_expired now _ L).2

theorem Clocked.expire : Clocked (L.expire now) where
  orderly := by
    have happly : Orderly (Operation.expire.apply now L) := hL.orderly.apply now trivial trivial
    exact happly
  ends e he := by
    rw [events_expire hL now] at he
    rcases mem_append.mp he with he | he
    · exact hL.ends e he
    · obtain ⟨i, hi, rfl⟩ := mem_mapIdx.mp he
      have hstored := hL.stored (stored_batch hL now (getElem_mem hi)).1
      exact hstored

/-- The others are due in the next call. -/
theorem dueInOrder_expire : dueInOrder (L.expire now) now = (dueInOrder L now).drop 1000 := by
  have hsorted := sorted_dueInOrder hL.orderly.tidy now
  have hnodup := nodup_dueInOrder hL.orderly.tidy now
  have hirrefl : Std.Irrefl fun a b : Binding => dueKey a < dueKey b := ⟨fun a => lt_irrefl _⟩
  have hantisymm : Std.Antisymm fun a b : Binding => dueKey a < dueKey b :=
    ⟨fun a b hab hba => absurd hba (lt_asymm hab)⟩
  refine (sorted_dueInOrder (hL.expire now).orderly.tidy now).eq_of_mem_iff
    (hsorted.sublist (drop_sublist 1000 _)) fun b => ?_
  have hsplit : b ∈ dueInOrder L now ↔ b ∈ (dueInOrder L now).take 1000 ∨ b ∈ (dueInOrder L now).drop 1000 := by
    rw [← mem_append, take_append_drop]
  have hapart : b ∈ (dueInOrder L now).drop 1000 → b ∉ (dueInOrder L now).take 1000 := fun hdrop htake =>
    (disjoint_take_drop hnodup (le_refl 1000)) htake hdrop
  rw [mem_dueInOrder]
  constructor
  · rintro ⟨⟨k, hget⟩, hdue⟩
    rw [get_expire hL now, Option.map_eq_some_iff] at hget
    obtain ⟨b0, hget, hb⟩ := hget
    split at hb
    · -- What has expired is not in a live state.
      rw [← hb] at hdue
      cases hdue
    · rename_i hout
      subst hb
      exact (hsplit.mp (mem_dueInOrder.mpr ⟨⟨k, hget⟩, hdue⟩)).resolve_left hout
  · intro hdrop
    obtain ⟨⟨k, hget⟩, hdue⟩ := mem_dueInOrder.mp (hsplit.mpr (Or.inr hdrop))
    refine ⟨⟨k, ?_⟩, hdue⟩
    rw [get_expire hL now, hget, Option.map_some, if_neg (hapart hdrop)]

end Call

/-- Expiry works off what is due. Take any ledger and instant. One call turns into expired the first
thousand of the bindings in a live state whose end has come, by their end and then by their key, and leaves
every other binding as it is. It writes an event for each of them and no other. After a call for each
thousand, or part of a thousand, at that instant, no binding in a live state has an end that has come. -/
theorem expire_in_order {L : Ledger} (hL : Dated L) (hends : ∀ e ∈ L.events, Int64 e.binding.endsAt) (now : Int) :
    (∀ k, (L.expire now).bindings.get k =
      (L.bindings.get k).map fun b =>
        if b ∈ (dueInOrder L now).take 1000 then { b with state := .expired } else b) ∧
      ((L.expire now).events = L.events ++ ((dueInOrder L now).take 1000).mapIdx fun i b =>
        { id := L.sequence + 1 + i, time := now, kind := .expire, binding := { b with state := .expired } }) ∧
      ∀ k b, ((fun L => L.expire now)^[((dueInOrder L now).length + 999) / 1000] L).bindings.get k = some b →
        liveState b.state = true → now < b.endsAt := by
  have hclocked : Clocked L := by
    refine ⟨BuiltBy.orderly hL, fun e he => ⟨?_, (hends e he).2⟩⟩
    rcases (lasting_of_dated hL).logged e he with hzero | hlater
    · rw [hzero]
    · exact hlater
  refine ⟨get_expire hclocked now, events_expire hclocked now, ?_⟩
  intro k b hget hlive
  have hdrained := iterate_drained (fun L : Ledger => L.expire now) (fun L => dueInOrder L now)
    (I := Clocked) (n := 1000) (fun L h => h.expire now) (fun L h => dueInOrder_expire h now) (by decide) hclocked
  by_contra hdue
  have hin := mem_dueInOrder.mpr ⟨⟨k, hget⟩, show isDue now b = true by simp [isDue, hlive]; omega⟩
  rw [hdrained] at hin
  cases hin

theorem expire_in_order_smallLan :
    ((run {} [requestFive 0 60 "01"]).expire 60).events =
      (run {} [requestFive 0 60 "01"]).events ++
        ((dueInOrder (run {} [requestFive 0 60 "01"]) 60).take 1000).mapIdx fun i b =>
          { id := (run {} [requestFive 0 60 "01"]).sequence + 1 + i, time := 60, kind := .expire
            binding := { b with state := .expired } } := by
  have hvalid : (smallLan 60).validate = .ok () := by decide +kernel
  have hprinted : '\x00' ∉ "10.0.0.5".toList := by decide
  have hrun : run {} [requestFive 0 60 "01"] = (requestFive 0 60 "01").op.apply 0 {} := rfl
  have hdated : Dated (run {} [requestFive 0 60 "01"]) := by
    rw [hrun]
    exact .operate .empty hvalid hprinted (le_refl 0)
  have hends : ∀ e ∈ (run {} [requestFive 0 60 "01"]).events, Int64 e.binding.endsAt := by decide +kernel
  exact (expire_in_order hdated hends 60).2.1

end Ghostd.Proofs.Addressbook
