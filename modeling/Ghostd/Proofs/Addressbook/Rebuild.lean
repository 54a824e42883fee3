import Ghostd.Addressbook.Open
import Ghostd.Proofs.Addressbook.Projection

/-!
# `Ghostd.Proofs.Addressbook.Rebuild`: indexes filled again

`Open` fills an index that is missing with a loop over the bindings, and `save` keeps it up to date with
every write. Both should give one result. For the expiry index and the four secondary ones they do: the
loop adds what `Exact` says is there.

The DNS index is filled with every active binding, where `save` leaves delegations out. So a ledger with
an active delegation is opened with an entry that `save` never wrote, and `rebuild_same` has the
condition that there is none.
-/

set_option autoImplicit false

namespace Ghostd.Proofs.Addressbook

open Ghostd.Lib Ghostd.Addressbook List

/-! ### What the loops write -/

theorem backfillExpiry_get (L : Ledger) (k : Nat ×ₗ String) :
    { L with expiry := .empty }.backfillExpiry.expiry.get k = some () ↔
      ∃ e ∈ L.bindings.entries, liveState e.2.state = true ∧ k = expiryKey e.2 := by
  show (L.bindings.entries.foldl (fun index e =>
    if liveState e.2.state then index.put (expiryKey e.2) () else index) Bucket.empty).get k = some () ↔ _
  rw [Bucket.get_foldl_put (fun _ _ _ _ _ _ _ => rfl)]
  simp

theorem backfillDNS_get {L : Ledger} (hO : Orderly L) (k v : String) :
    { L with dns := .empty }.backfillDNS.dns.get k = some v ↔
      ∃ e ∈ L.bindings.entries, e.2.state = .active ∧ k = dnsKey e.2 ∧ v = e.1 := by
  show (L.bindings.entries.foldl (fun index e =>
    if e.2.state = .active then index.put (dnsKey e.2) e.1 else index) Bucket.empty).get k = some v ↔ _
  refine Bucket.get_foldl_put ?_
  -- Bindings with one key in the index have one key in the ledger.
  intro e he e' he' _ _ hkey
  have hb := Bucket.mem_entries.mp he
  have hb' := Bucket.mem_entries.mp he'
  rw [← hO.tidy.sound.keyed hb, ← hO.tidy.sound.keyed hb']
  exact dnsKey_inj (hO.proper hb) (hO.proper hb') hkey

theorem indexed_backfillIndexes (L : Ledger) (x : Index × String) :
    Indexed { L with indexes := fun _ => .empty }.backfillIndexes x ↔
      ∃ e ∈ L.bindings.entries, x ∈ indexEntries e.2 := by
  have hloop : ∀ (es : List (String × Binding)) (L : Ledger),
      Indexed (es.foldl (fun L e => L.reindex {} e.2) L) x ↔ Indexed L x ∨ ∃ e ∈ es, x ∈ indexEntries e.2 := by
    intro es
    induction es with
    | nil => simp
    | cons e es ih =>
      intro L
      have hone : Indexed (L.reindex {} e.2) x ↔ Indexed L x ∨ x ∈ indexEntries e.2 := by
        rw [Ledger.reindex, indexed_foldl_addIndex, indexEntries_zero, foldl_nil]
      rw [foldl_cons, ih, hone, exists_mem_cons_iff, or_assoc]
  rw [Ledger.backfillIndexes, hloop]
  simp [Indexed]

/-! ### The result -/

/-- What is deleted before the ledger is opened again. -/
inductive Deletion where
  | dns | expiry | secondary
  deriving DecidableEq, Repr

/-- The database that is left. -/
def Deletion.lacking : Deletion → Lacking
  | .dns => { dns := true }
  | .expiry => { expiry := true }
  | .secondary => { index := fun _ => true }

/-- No delegation is active. -/
def Undelegated (L : Ledger) : Prop := ∀ b ∈ scan L, b.state = .active → b.origin ≠ .dhcpv6PD

theorem exists_entry {L : Ledger} {p : Binding → Prop} :
    (∃ e ∈ L.bindings.entries, p e.2) ↔ ∃ k b, L.bindings.get k = some b ∧ p b := by
  constructor
  · intro h
    obtain ⟨⟨k, b⟩, he, hp⟩ := h
    exact ⟨k, b, Bucket.mem_entries.mp he, hp⟩
  · intro h
    obtain ⟨k, b, hb, hp⟩ := h
    exact ⟨(k, b), Bucket.mem_entries.mpr hb, hp⟩

section Rebuild

variable {L : Ledger} (hO : Orderly L) (hE : Exact L)

include hE

theorem reopen_expiry : L.reopen Deletion.expiry.lacking = L := by
  have hsame : { L with expiry := .empty }.backfillExpiry.expiry = L.expiry := by
    refine Bucket.ext_get fun k => Option.ext fun u => ?_
    exact (backfillExpiry_get L k).trans (exists_entry.trans (hE.expiry k).symm)
  show { L with expiry := { L with expiry := .empty }.backfillExpiry.expiry } = L
  rw [hsame]

theorem reopen_secondary : L.reopen Deletion.secondary.lacking = L := by
  have hindexes : { L with indexes := fun _ => .empty }.backfillIndexes.indexes = L.indexes := by
    funext i
    refine Bucket.ext_get fun k => Option.ext fun u => ?_
    exact (indexed_backfillIndexes L (i, k)).trans (exists_entry.trans (hE.indexes (i, k)).symm)
  have hrest : ∀ (es : List (String × Binding)) (L : Ledger),
      es.foldl (fun L e => L.reindex {} e.2) L
        = { L with indexes := (es.foldl (fun L e => L.reindex {} e.2) L).indexes } := by
    intro es
    induction es with
    | nil => intro L; rfl
    | cons e es ih =>
      intro L
      rw [foldl_cons, ih, reindex_eq L {} e.2]
  show { L with indexes := fun _ => .empty }.backfillIndexes = L
  rw [Ledger.backfillIndexes, hrest]
  rw [Ledger.backfillIndexes] at hindexes
  rw [hindexes]

include hO

theorem reopen_dns : L.reopen Deletion.dns.lacking = L ↔ Undelegated L := by
  have hreopen : L.reopen Deletion.dns.lacking
      = { L with dns := { L with dns := .empty }.backfillDNS.dns } := rfl
  rw [hreopen]
  constructor
  · intro h b hb hactive hpd
    have hdns : { L with dns := .empty }.backfillDNS.dns = L.dns := congrArg Ledger.dns h
    obtain ⟨k, hk⟩ := mem_scan.mp hb
    -- The loop has written the delegation, and what is kept up to date has no place for it.
    have hentry : L.dns.get (dnsKey b) = some k := by
      rw [← hdns, backfillDNS_get hO]
      exact ⟨(k, b), Bucket.mem_entries.mpr hk, hactive, rfl, rfl⟩
    obtain ⟨k', b', hb', ⟨-, horigin⟩, hsame⟩ := (hE.dns (dnsKey b, k)).mp hentry
    have hkey := (Prod.mk.inj hsame).2
    rw [hO.tidy.sound.keyed hb'] at hkey
    rw [← hkey, hk, Option.some.injEq] at hb'
    rw [hb'] at hpd
    exact horigin hpd
  · intro h
    have hdns : { L with dns := .empty }.backfillDNS.dns = L.dns := by
      refine Bucket.ext_get fun k => Option.ext fun v => ?_
      rw [backfillDNS_get hO]
      refine Iff.trans ?_ (hE.dns (k, v)).symm
      constructor
      · intro h'
        obtain ⟨⟨_, b⟩, he, hactive, rfl, rfl⟩ := h'
        have hb := Bucket.mem_entries.mp he
        refine ⟨v, b, hb, ⟨hactive, h b (mem_scan.mpr ⟨v, hb⟩) hactive⟩, ?_⟩
        rw [hO.tidy.sound.keyed hb]
      · intro h'
        obtain ⟨k', b, hb, ⟨hactive, -⟩, hentry⟩ := h'
        obtain ⟨rfl, rfl⟩ := Prod.mk.inj hentry
        refine ⟨(k', b), Bucket.mem_entries.mpr hb, hactive, rfl, ?_⟩
        exact hO.tidy.sound.keyed hb
    rw [hdns]

end Rebuild

/-- Rebuilt indexes are the maintained ones. In every ledger of the running program, deleting the expiry
index or the four secondary indexes and opening the ledger again changes nothing; for the DNS index that
is so exactly when no delegation is active. -/
theorem rebuild_same {L : Ledger} (h : Standing L) (hends : ∀ e ∈ L.events, Int64 e.binding.endsAt)
    (d : Deletion) : L.reopen d.lacking = L ↔ (d = .dns → Undelegated L) := by
  have hO := orderly_of_standing h
  have hE := hO.exact hends
  cases d with
  | dns =>
    rw [reopen_dns hO hE]
    exact ⟨fun h _ => h, fun h => h rfl⟩
  | expiry => exact ⟨fun _ h => (by cases h), fun _ => reopen_expiry hE⟩
  | secondary => exact ⟨fun _ h => (by cases h), fun _ => reopen_secondary hE⟩

theorem rebuild_same_smallLan :
    (run {} [requestFive 10 60 "01"]).reopen Deletion.dns.lacking = run {} [requestFive 10 60 "01"] := by
  have hvalid : (smallLan 60).validate = .ok () := by decide +kernel
  have hprinted : '\x00' ∉ "10.0.0.5".toList := by decide
  have hends : ∀ e ∈ (run {} [requestFive 10 60 "01"]).events, Int64 e.binding.endsAt := by decide +kernel
  have hundelegated : Undelegated (run {} [requestFive 10 60 "01"]) := by
    unfold Undelegated
    decide +kernel
  refine (rebuild_same (standing_run .empty fun st hst => ?_) hends .dns).mpr fun _ => hundelegated
  rw [mem_singleton.mp hst]
  exact ⟨hvalid, hprinted⟩

/-- A client is granted a prefix. -/
def grantPrefix : Step where
  time := 10
  op := .allocatePrefix
    { id := "lan", interface := "eth0", subnet := "fd00::/64", server := "fd00::1",
      start := "fd00::5", endAddr := "fd00::8", router := "", zone := "lan.home",
      leaseSeconds := 3600, preferredSeconds := 1800, enabled := true,
      pd := some { pool := "fd10::/48", length := 56 } }
    "duid:00030001020000000001/iaid:00000001" "00030001020000000001" "" "" true

/-- After a grant of a prefix the DNS index is empty. When it is deleted and the ledger is opened again,
it has an entry for the prefix. -/
theorem delegation_in_rebuilt_dns :
    Standing (run {} [grantPrefix]) ∧ (∀ e ∈ (run {} [grantPrefix]).events, Int64 e.binding.endsAt) ∧
      (run {} [grantPrefix]).dns.entries = [] ∧
      ((run {} [grantPrefix]).reopen Deletion.dns.lacking).dns.entries.map Prod.snd = ["lan/fd10::/56"] := by
  have hvalid : (delegatingNet 56).validate = .ok () := by decide +kernel
  have hprinted : '\x00' ∉ "duid:00030001020000000001/iaid:00000001".toList := by decide
  refine ⟨standing_run .empty fun st hst => ?_, by decide +kernel⟩
  rw [mem_singleton.mp hst]
  exact ⟨⟨delegatingNet 56, hvalid, mem_singleton_self _⟩, hprinted⟩

end Ghostd.Proofs.Addressbook
