import Ghostd.Proofs.Addressbook.Reached
import Ghostd.Proofs.Addressbook.Zones

/-!
# `Ghostd.Proofs.Addressbook.Projection`: authoritative DNS shows the ledger

`published` is what the ledger holds for a zone at an instant: the bindings of its scopes that are
active, have not run out and are no delegations. `Projected` says that the handler answers a query from
exactly these. The handler finds them in two ways, through the DNS index for a name and under the
binding's own key for an address, and both find what a scan finds (`owned_forward`, `owned_reverse`).

Two things stand between the handler and `Projected`. A scope that comes earlier can match by its subnet
a name of the reverse tree that is in the zone of a later scope, and the name is then read as an address.
And an IPv4-mapped address of an IPv6 subnet counts as IPv4 where the handler goes through `net.IP`, so
that it is published as the wrong family and has no reverse name. `Clear` says that neither happens, or
that it makes no difference, and `dns_projects` that `Projected` holds exactly then.
-/

set_option autoImplicit false

namespace Ghostd.Proofs.Addressbook

open Ghostd.Lib Ghostd.Addressbook List

variable {address name scope zone : String} {b : Binding} {c : Config} {now : Int} {L : Ledger} {q : Question}
    {a : Addr}

/-! ### Ledgers of a running program -/

/-- The ledgers that operations, replication and the notes beside them build: the fingerprint of a
configuration, the identity of the server and audit events. -/
inductive Standing : Ledger → Prop where
  | empty : Standing {}
  | operate {L : Ledger} (h : Standing L) (now : Int) {op : Operation} (hop : op.Admissible)
      (hprinted : Operation.Printed op) : Standing (op.apply now L)
  | replicate {R R' : Replica} {leader source : Ledger} (h : Standing R.ledger)
      (hleader : Standing leader) (hsource : Standing source) {now clock time : Int}
      {scope ip : String} {events : List Event} {snap : Option Snapshot}
      (hevents : ∀ e ∈ events, e ∈ leader.events)
      (hsnap : ∀ s, snap = some s → source.snapshot clock scope ip time = .ok s)
      (hR : R.applyReplicated now events snap = .ok R') : Standing R'.ledger
  | note {L : Ledger} (h : Standing L) (now : Int) (c : Config) : Standing (L.noteDNSConfig now c)
  | identify {L : Ledger} (h : Standing L) (duid : List Nat) : Standing { L with duid := duid }
  | audit {L : Ledger} (h : Standing L) (now : Int) (kind : EventKind) (message : String) :
      Standing (L.audit now kind message)

theorem orderly_of_standing (h : Standing L) : Orderly L := by
  induction h with
  | empty => exact orderly_empty
  | operate _ now hop hprinted ih => exact ih.apply now hop hprinted
  | replicate _ _ _ hevents hsnap hR ih ihleader ihsource =>
    exact ih.replicate ihleader ihsource hevents hsnap hR
  | note _ now c ih => exact ih.beside (noteDNSConfig_aside _ now c).beside
  | identify _ duid ih => exact ih.beside (aside_identify _ duid).beside
  | audit _ now kind message ih => exact ih.beside (aside_audit _ now kind message).beside

theorem standing_run (h : Standing L) {steps : List Step}
    (hsteps : ∀ st ∈ steps, st.op.Admissible ∧ Operation.Printed st.op) : Standing (run L steps) := by
  induction steps generalizing L with
  | nil => exact h
  | cons st steps ih =>
    obtain ⟨hop, hprinted⟩ := hsteps st mem_cons_self
    exact ih (.operate h st.time hop hprinted) fun st' hst' => hsteps st' (mem_cons_of_mem _ hst')

/-- Every address is in canonical form. -/
def CanonicalTable (L : Ledger) : Prop := ∀ b ∈ scan L, b.origin ≠ .dhcpv6PD → PlainAddress b.address

/-! ### What is published -/

/-- The binding is published in the zone. -/
def isPublished (c : Config) (now : Int) (zone : String) (b : Binding) : Bool :=
  b.current now && b.origin ≠ .dhcpv6PD && c.scopes.any fun s => s.zone = zone && s.id = b.scope

/-- The published bindings that a label stands for. -/
def named (c : Config) (L : Ledger) (now : Int) (zone label : String) : List Binding :=
  (scan L).filter fun b => isPublished c now zone b && b.name = resolved c label

/-- The published bindings at an address. -/
def heldAt (c : Config) (L : Ledger) (now : Int) (zone : String) (a : Addr) : List Binding :=
  (scan L).filter fun b => isPublished c now zone b && b.address = a.text

theorem isPublished_iff : isPublished c now zone b = true ↔
      b.current now = true ∧ b.origin ≠ .dhcpv6PD ∧ ∃ s ∈ c.scopes, s.zone = zone ∧ s.id = b.scope := by
  simp [isPublished, and_assoc]

section Readers

variable {L : Ledger} (hO : Orderly L) (hE : Exact L)

include hO hE

/-- The name index leads to the active bindings whose key starts with the scope and the label. -/
theorem mem_dnsBindings_name : b ∈ L.dnsBindings now scope name "" ↔
      b ∈ scan L ∧ b.current now = true ∧ b.origin ≠ .dhcpv6PD ∧
        startsWith (dnsKey b) (scope ++ "/" ++ name ++ "/") = true := by
  rw [Ledger.dnsBindings, if_neg (by simp), mem_filterMap]
  constructor
  · intro h
    obtain ⟨⟨k, v⟩, he, hb⟩ := h
    split at hb
    · rename_i hstart
      obtain ⟨k', b', hb', ⟨-, horigin⟩, hentry⟩ := (hE.dns (k, v)).mp (Bucket.mem_entries.mp he)
      obtain ⟨rfl, rfl⟩ := Prod.mk.inj hentry
      obtain ⟨hget, hcurrent⟩ := Option.filter_eq_some_iff.mp hb
      rw [hO.tidy.sound.keyed hb', hb', Option.some.injEq] at hget
      subst hget
      exact ⟨mem_scan.mpr ⟨k', hb'⟩, hcurrent, horigin, hstart⟩
    · cases hb
  · intro h
    obtain ⟨hscan, hcurrent, horigin, hstart⟩ := h
    obtain ⟨k, hb⟩ := mem_scan.mp hscan
    have hactive : b.state = .active := by
      simp only [Binding.current, Bool.and_eq_true, decide_eq_true_eq] at hcurrent
      exact hcurrent.1
    have hindexed := (hE.dns (dnsKey b, b.key)).mpr ⟨k, b, hb, ⟨hactive, horigin⟩, rfl⟩
    refine ⟨(dnsKey b, b.key), Bucket.mem_entries.mpr hindexed, ?_⟩
    rw [if_pos hstart, hO.tidy.sound.keyed hb, hb, Option.filter_some, if_pos hcurrent]

theorem nodup_dnsBindings (now : Int) (scope name address : String) :
    (L.dnsBindings now scope name address).Nodup := by
  unfold Ledger.dnsBindings
  split
  · cases (L.bindings.get (bindingKey scope address)).filter (·.current now) with
    | none => exact nodup_nil
    | some b => exact nodup_singleton b
  · -- The key behind a binding in the name index is its own.
    refine Bucket.nodup_filterMap (P := fun k b => k = dnsKey b) (fun h h' => h.trans h'.symm) _ ?_
    intro e he b hb
    obtain ⟨k, v⟩ := e
    split at hb
    · obtain ⟨k', b', hb', -, hentry⟩ := (hE.dns (k, v)).mp (Bucket.mem_entries.mp he)
      obtain ⟨rfl, rfl⟩ := Prod.mk.inj hentry
      obtain ⟨hget, -⟩ := Option.filter_eq_some_iff.mp hb
      rw [hO.tidy.sound.keyed hb', hb', Option.some.injEq] at hget
      rw [hget]
    · cases hb

/-- Under a key of its own there is the binding of that scope and address. -/
theorem mem_dnsBindings_address (hscope : '/' ∉ scope.toList) (haddress : address ≠ "") :
    b ∈ L.dnsBindings now scope name address ↔
      b ∈ scan L ∧ b.current now = true ∧ b.scope = scope ∧ b.address = address := by
  rw [Ledger.dnsBindings, if_pos haddress, Option.mem_toList, Option.filter_eq_some_iff]
  constructor
  · intro h
    obtain ⟨hget, hcurrent⟩ := h
    have hkey := hO.tidy.sound.keyed hget
    obtain ⟨hs, ha⟩ := bindingKey_inj (hO.proper hget).fits.slashless hscope hkey
    exact ⟨mem_scan.mpr ⟨_, hget⟩, hcurrent, hs, ha⟩
  · intro h
    obtain ⟨hscan, hcurrent, rfl, rfl⟩ := h
    obtain ⟨k, hb⟩ := mem_scan.mp hscan
    refine ⟨?_, hcurrent⟩
    show L.bindings.get b.key = some b
    rw [hO.tidy.sound.keyed hb]
    exact hb

theorem scope_of_mem_dnsBindings (hscope : '/' ∉ scope.toList) (h : b ∈ L.dnsBindings now scope name address) :
    b.scope = scope := by
  by_cases haddress : address = ""
  · rw [haddress] at h
    obtain ⟨hscan, -, -, hstart⟩ := (mem_dnsBindings_name hO hE).mp h
    obtain ⟨k, hb⟩ := mem_scan.mp hscan
    obtain ⟨rest, hrest⟩ := isPrefixOf_iff_prefix.mp hstart
    have hsplit : b.scope.toList ++ '/' :: (b.name ++ "/" ++ b.address).toList
        = scope.toList ++ '/' :: ((name ++ "/").toList ++ rest) := by
      simpa [dnsKey] using hrest.symm
    exact String.toList_inj.mp (append_cons_inj (hO.proper hb).fits.slashless hscope hsplit).1
  · exact ((mem_dnsBindings_address hO hE hscope haddress).mp h).2.2.1

/-- The lists of the scopes have nothing in common. -/
theorem nodup_lookups (hc : c.validate = .ok ()) (now : Int) (zone label address : String) :
    ((c.scopes.filter fun s => s.zone = zone).flatMap fun s =>
      L.dnsBindings now s.id label address).Nodup := by
  refine nodup_flatMap.mpr ⟨fun s _ => nodup_dnsBindings hO hE now s.id label address, ?_⟩
  have hids := (pairwise_apart hc).imp fun happart => happart.ids
  refine (hids.filter _).imp_of_mem ?_
  intro s t hs ht hne b hb hb'
  have hslash : ∀ {s : Scope}, s ∈ c.scopes.filter (fun s => s.zone = zone) → '/' ∉ s.id.toList := by
    intro s hs
    obtain ⟨p, hfacts⟩ := scopeFacts_of_validate hc (mem_filter.mp hs).1
    exact slash_not_mem_label hfacts.label
  rw [← scope_of_mem_dnsBindings hO hE (hslash hs) hb,
    ← scope_of_mem_dnsBindings hO hE (hslash ht) hb'] at hne
  exact hne rfl

/-- A name is answered from the published bindings that its label stands for. -/
theorem owned_forward (hc : c.validate = .ok ()) (now : Int) (s : Scope) (label : String) :
    (owned c L now s (inZone label s.zone) none).Perm (named c L now s.zone label) := by
  have hlookup : owned c L now s (inZone label s.zone) none =
      ((c.scopes.filter fun t => t.zone = s.zone).flatMap fun t =>
        L.dnsBindings now t.id (resolved c label) "").filter fun b =>
          b.current now && decide (inZone b.name s.zone = inZone (resolved c label) s.zone) := by
    simp only [owned, trimEnd_inZone, resolveAliases_inZone hc, Binding.owns, Option.elim_none]
  rw [hlookup]
  refine perm_of_mem_iff hO.tidy ((nodup_lookups hO hE hc now s.zone (resolved c label) "").filter _) ?_
  intro b
  simp only [mem_filter, mem_flatMap, Bool.and_eq_true, decide_eq_true_eq, isPublished_iff,
    mem_dnsBindings_name hO hE]
  constructor
  · intro h
    obtain ⟨⟨t, ⟨ht, hzone⟩, hscan, hcurrent, horigin, hstart⟩, -, hname⟩ := h
    obtain ⟨p, hfacts⟩ := scopeFacts_of_validate hc ht
    have hscope : b.scope = t.id := scope_of_mem_dnsBindings hO hE (slash_not_mem_label hfacts.label)
      ((mem_dnsBindings_name hO hE).mpr ⟨hscan, hcurrent, horigin, hstart⟩)
    exact ⟨hscan, ⟨hcurrent, horigin, t, ht, hzone, hscope.symm⟩, inZone_inj hname⟩
  · intro h
    obtain ⟨hscan, ⟨hcurrent, horigin, t, ht, hzone, hscope⟩, hname⟩ := h
    refine ⟨⟨t, ⟨ht, hzone⟩, hscan, hcurrent, horigin, ?_⟩, hcurrent, by rw [hname]⟩
    refine isPrefixOf_iff_prefix.mpr ⟨b.address.toList, ?_⟩
    rw [dnsKey, hscope, hname, ← String.toList_append]

/-- The address that a name stands for is answered from the published bindings at it, if they have that
name. -/
theorem owned_reverse (hc : c.validate = .ok ()) (now : Int) (s : Scope) (name : String) (a : Addr) :
    (owned c L now s name (some a)).Perm
      ((scan L).filter fun b => isPublished c now s.zone b && b.address = a.text && reverseAddr a.text = name) := by
  have hne : a.text ≠ "" := by
    intro hempty
    have hnone : parseAddr "" = none := by decide
    have hparse := parseAddr_text a
    rw [hempty, hnone] at hparse
    cases hparse
  have hlookup : owned c L now s name (some a) =
      ((c.scopes.filter fun t => t.zone = s.zone).flatMap fun t =>
        L.dnsBindings now t.id (trimEnd name (inZone "" s.zone)) a.text).filter fun b =>
          b.current now && decide (reverseAddr b.address = name) := by
    simp only [owned, Binding.owns, Option.elim_some]
  rw [hlookup]
  refine perm_of_mem_iff hO.tidy ((nodup_lookups hO hE hc now s.zone _ a.text).filter _) ?_
  intro b
  simp only [mem_filter, mem_flatMap, Bool.and_eq_true, decide_eq_true_eq, isPublished_iff]
  constructor
  · intro h
    obtain ⟨⟨t, ⟨ht, hzone⟩, hmem⟩, -, hname⟩ := h
    obtain ⟨p, hfacts⟩ := scopeFacts_of_validate hc ht
    obtain ⟨hscan, hcurrent, hscope, haddress⟩ :=
      (mem_dnsBindings_address hO hE (slash_not_mem_label hfacts.label) hne).mp hmem
    obtain ⟨k, hb⟩ := mem_scan.mp hscan
    -- A delegation is stored under a prefix, and that is no address.
    have horigin : b.origin ≠ .dhcpv6PD := by
      intro hpd
      obtain ⟨q, hq⟩ := (hO.proper hb).fits.delegated hpd
      have hparse := parseAddr_text a
      rw [← haddress, hq, parseAddr_prefixText] at hparse
      cases hparse
    rw [haddress] at hname
    exact ⟨hscan, ⟨⟨hcurrent, horigin, t, ht, hzone, hscope.symm⟩, haddress⟩, hname⟩
  · intro h
    obtain ⟨hscan, ⟨⟨hcurrent, horigin, t, ht, hzone, hscope⟩, haddress⟩, hname⟩ := h
    obtain ⟨p, hfacts⟩ := scopeFacts_of_validate hc ht
    refine ⟨⟨t, ⟨ht, hzone⟩, ?_⟩, hcurrent, by rw [haddress]; exact hname⟩
    exact (mem_dnsBindings_address hO hE (slash_not_mem_label hfacts.label) hne).mpr
      ⟨hscan, hcurrent, hscope.symm, haddress⟩

end Readers

/-! ### Records -/

/-- The time to live of a lease is at least a second, and the lease lasts as long. -/
theorem leaseTTL_bounds (h : b.current now = true) :
    1 ≤ leaseTTL b now ∧ (leaseTTL b now : Int) ≤ min 30 (b.endsAt - now) := by
  simp only [Binding.current, Bool.and_eq_true, decide_eq_true_eq] at h
  unfold leaseTTL
  split <;> omega

/-- A mapped address counts as IPv4. -/
theorem is4_as16 (a : Addr) : IP.is4 a.as16 = (a.is4 || a.is4In6) := by
  have hlt := a.value_lt
  unfold IP.is4 Addr.as16 Addr.is4In6 Addr.is4 Addr.is6
  cases hf : a.family with
  | v4 =>
    rw [hf] at hlt
    have hlt : a.value < 2 ^ 32 := hlt
    simp only [BitVec.toNat_ofNat]
    rw [Nat.mod_eq_of_lt (show 0xffff * 2 ^ 32 + a.value < 2 ^ 128 by omega)]
    simp
    omega
  | v6 =>
    rw [hf] at hlt
    have hlt : a.value < 2 ^ 128 := hlt
    simp only [BitVec.toNat_ofNat]
    rw [Nat.mod_eq_of_lt hlt]
    simp

/-- The address of a binding as the data of a record, if it is of the family. -/
def addressData (f : Family) (b : Binding) : List RData :=
  match parseAddr b.address with
  | some a =>
    if a.family = f then [match f with | .v4 => .a a.as16 | .v6 => .aaaa (some a.as16)] else []
  | none => []

/-- The text is an IPv4-mapped address. -/
def isMapped (address : String) : Bool := (parseAddr address).elim false (·.is4In6)

section Data

variable {q : Question} {zone : String} {now : Int} {b : Binding} (hplain : PlainAddress b.address)

include hplain

/-- What the handler answers for an address, and what it should. -/
theorem leaseRecords_a (hq : q.qtype = .a) :
    (leaseRecords q zone none now b).map (·.data)
      = if isMapped b.address then
          (parseIP b.address).toList.map .a else addressData .v4 b := by
  obtain ⟨a, hzone, ha⟩ := hplain
  have hsplit : a.is4In6 = true → a.family ≠ .v4 := by
    intro h hf
    simp [Addr.is4In6, Addr.is6, hf] at h
  simp only [leaseRecords, addressRecords, hq, ha, parseIP_text_addr hzone, addressData, isMapped,
    parseAddr_text, Option.elim_some, is4_as16, Option.toList_some, map_cons, map_nil]
  cases h46 : a.is4In6 with
  | true => simp
  | false =>
    cases hf : a.family with
    | v4 => simp [Addr.is4, hf]
    | v6 => simp [Addr.is4, hf]

theorem leaseRecords_aaaa (hq : q.qtype = .aaaa) :
    (leaseRecords q zone none now b).map (·.data)
      = if isMapped b.address then [] else addressData .v6 b := by
  obtain ⟨a, hzone, ha⟩ := hplain
  simp only [leaseRecords, addressRecords, hq, ha, parseIP_text_addr hzone, addressData, isMapped,
    parseAddr_text, Option.elim_some, is4_as16]
  cases h46 : a.is4In6 with
  | true => simp
  | false =>
    cases hf : a.family with
    | v4 => simp [Addr.is4, hf]
    | v6 => simp [Addr.is4, hf]

/-- A mapped address is an IPv6 address. -/
theorem addressData_mapped (h : isMapped b.address = true) :
    addressData .v4 b = [] ∧ (addressData .v6 b).length = 1 := by
  obtain ⟨a, hzone, ha⟩ := hplain
  simp only [isMapped, ha, parseAddr_text, Option.elim_some] at h
  have hf : a.family = .v6 := by
    simp only [Addr.is4In6, Addr.is6, Bool.and_eq_true, decide_eq_true_eq] at h
    exact h.1
  simp [addressData, ha, parseAddr_text, hf]

end Data

/-- Lists that are nowhere longer and together as long are everywhere as long. -/
theorem length_eq_of_flatMap {α β : Type} {f g : α → List β} {l : List α}
    (hle : ∀ x ∈ l, (f x).length ≤ (g x).length) (hlen : (l.flatMap g).length ≤ (l.flatMap f).length) :
    ∀ x ∈ l, (f x).length = (g x).length := by
  induction l with
  | nil => simp
  | cons y l ih =>
    have hrest : ∀ x ∈ l, (f x).length ≤ (g x).length := fun x hx => hle x (mem_cons_of_mem _ hx)
    have hsum : (l.flatMap f).length ≤ (l.flatMap g).length := by
      rw [length_flatMap, length_flatMap]
      exact sum_le_sum hrest
    have hy := hle y mem_cons_self
    rw [flatMap_cons, flatMap_cons, length_append, length_append] at hlen
    intro x hx
    rcases mem_cons.mp hx with rfl | hx
    · omega
    · exact ih hrest (by omega) x hx

/-- The addresses that are answered are those of the family exactly when none of them is mapped. -/
theorem answers_a (hq : q.qtype = .a) {bs : List Binding} (hplain : ∀ b ∈ bs, PlainAddress b.address)
    (zone : String) (now : Int) :
    ((bs.flatMap (leaseRecords q zone none now)).map (·.data)).Perm (bs.flatMap (addressData .v4)) ↔
      ∀ b ∈ bs, isMapped b.address = false := by
  rw [map_flatMap]
  constructor
  · intro hperm b hb
    have hle : ∀ b ∈ bs, (addressData .v4 b).length
        ≤ ((leaseRecords q zone none now b).map (·.data)).length := by
      intro b hb
      rw [leaseRecords_a (hplain b hb) hq]
      split
      · rename_i hmapped
        rw [(addressData_mapped (hplain b hb) hmapped).1]
        exact Nat.zero_le _
      · exact Nat.le_refl _
    have heq := length_eq_of_flatMap hle hperm.length_eq.le b hb
    rw [leaseRecords_a (hplain b hb) hq] at heq
    by_contra hmapped
    rw [Bool.not_eq_false] at hmapped
    obtain ⟨a, hzone, ha⟩ := hplain b hb
    rw [if_pos hmapped, (addressData_mapped (hplain b hb) hmapped).1, ha, parseIP_text_addr hzone] at heq
    cases heq
  · intro hmapped
    refine List.Perm.of_eq (flatMap_congr fun b hb => ?_)
    rw [leaseRecords_a (hplain b hb) hq, hmapped b hb, if_neg (by decide)]

theorem answers_aaaa (hq : q.qtype = .aaaa) {bs : List Binding} (hplain : ∀ b ∈ bs, PlainAddress b.address)
    (zone : String) (now : Int) :
    ((bs.flatMap (leaseRecords q zone none now)).map (·.data)).Perm (bs.flatMap (addressData .v6)) ↔
      ∀ b ∈ bs, isMapped b.address = false := by
  rw [map_flatMap]
  constructor
  · intro hperm b hb
    have hle : ∀ b ∈ bs, ((leaseRecords q zone none now b).map (·.data)).length
        ≤ (addressData .v6 b).length := by
      intro b hb
      rw [leaseRecords_aaaa (hplain b hb) hq]
      split
      · exact Nat.zero_le _
      · exact Nat.le_refl _
    have heq := length_eq_of_flatMap hle hperm.length_eq.ge b hb
    rw [leaseRecords_aaaa (hplain b hb) hq] at heq
    by_contra hmapped
    rw [Bool.not_eq_false] at hmapped
    rw [if_pos hmapped, (addressData_mapped (hplain b hb) hmapped).2] at heq
    cases heq
  · intro hmapped
    refine List.Perm.of_eq (flatMap_congr fun b hb => ?_)
    rw [leaseRecords_aaaa (hplain b hb) hq, hmapped b hb, if_neg (by decide)]

/-! ### The property -/

/-- The query is for a name of a zone or for the name of an address in a subnet. -/
def Concerned (c : Config) (name : String) : Prop :=
  (∃ s ∈ c.scopes, withinZone name s.zone = true) ∨ ∃ s ∈ c.scopes, ∃ a, s.holds a = true ∧ name = a.arpa

/-- The label stands for a published binding. -/
def Exists (c : Config) (L : Ledger) (now : Int) (name zone : String) : Prop :=
  ∃ label, name = inZone label zone ∧ named c L now zone label ≠ []

/-- A name of a zone is answered with the addresses of its bindings. -/
structure Forward (c : Config) (L : Ledger) (now : Int) (q : Question) (zone : String) (r : Reply) :
    Prop where
  v4 : ∀ label, label ≠ "ns" → toLower q.name = inZone label zone → q.qtype = .a →
    (r.answer.map (·.data)).Perm ((named c L now zone label).flatMap (addressData .v4))
  v6 : ∀ label, label ≠ "ns" → toLower q.name = inZone label zone → q.qtype = .aaaa →
    (r.answer.map (·.data)).Perm ((named c L now zone label).flatMap (addressData .v6))
  rcode : r.rcode = .nameError ↔ ¬ Exists c L now (toLower q.name) zone ∧
    toLower q.name ≠ apex zone ∧ toLower q.name ≠ inZone "ns" zone

/-- The name of an address is answered with the names of the binding there. -/
structure Reverse (c : Config) (L : Ledger) (now : Int) (q : Question) (zone : String) (a : Addr)
    (r : Reply) : Prop where
  ptr : q.qtype = .ptr →
    (r.answer.map (·.data)).Perm ((heldAt c L now zone a).map fun b => .ptr (inZone b.name zone))
  rcode : r.rcode = .nameError ↔ heldAt c L now zone a = []

/-- The record comes from the binding. -/
def OfLease (b : Binding) (rr : RR) : Prop :=
  match rr.data with
  | .a ip => parseIP b.address = some ip
  | .aaaa ip => parseIP b.address = ip
  | .ptr target => ∃ zone, target = inZone b.name zone
  | .ns _ | .soa _ => False

/-- The record comes from the configuration: it is about the zone, or it is the address of a server. -/
def OfConfig (c : Config) (name : String) (rr : RR) : Prop :=
  match rr.data with
  | .a ip => rr.ttl = 30 ∧ ∃ s ∈ c.scopes, name = inZone "ns" s.zone ∧ parseIP s.server = some ip
  | .aaaa ip => rr.ttl = 30 ∧ ∃ s ∈ c.scopes, name = inZone "ns" s.zone ∧ parseIP s.server = ip
  | .ptr _ => False
  | .ns _ | .soa _ => True

/-- A query is answered from what is published, and from nothing else. -/
structure Shows (c : Config) (L : Ledger) (now : Int) (q : Question) (r : Reply) : Prop where
  forward : ∀ s ∈ c.scopes, withinZone (toLower q.name) s.zone = true → Forward c L now q s.zone r
  reverse : (∀ s ∈ c.scopes, withinZone (toLower q.name) s.zone = false) → ∀ s ∈ c.scopes,
    ∀ a, s.holds a = true → toLower q.name = a.arpa → Reverse c L now q s.zone a r
  ttl : ∀ rr ∈ r.answer, OfConfig c (toLower q.name) rr ∨ ∃ b ∈ scan L, b.current now = true ∧
    OfLease b rr ∧ 1 ≤ rr.ttl ∧ (rr.ttl : Int) ≤ min 30 (b.endsAt - now)

/-- The handler answers the query itself, from what is published. -/
def Projected (c : Config) (L : Ledger) (now : Int) (q : Question) : Prop :=
  ∃ r, serveDNS c L now [q] = .reply r ∧ Shows c L now q r

/-! ### The condition -/

/-- A name that is read as an address, though it is in a zone, has no address in the zone of the family
that is asked for, and it is in use as the name of an address if and only if it is in use in the zone. -/
structure Coincides (c : Config) (L : Ledger) (now : Int) (q : Question) (zone taken : String) (a : Addr) :
    Prop where
  v4 : ∀ label, label ≠ "ns" → toLower q.name = inZone label zone → q.qtype = .a →
    (named c L now zone label).flatMap (addressData .v4) = []
  v6 : ∀ label, label ≠ "ns" → toLower q.name = inZone label zone → q.qtype = .aaaa →
    (named c L now zone label).flatMap (addressData .v6) = []
  inUse : (reverseAddr a.text = toLower q.name ∧ heldAt c L now taken a ≠ []) ↔
    Exists c L now (toLower q.name) zone ∨ toLower q.name = apex zone ∨ toLower q.name = inZone "ns" zone

/-- The first scope that matches the query is the right one, or another one does as well, and no mapped
address is in use where one is asked for. -/
def Clear (c : Config) (L : Ledger) (now : Int) (q : Question) : Prop :=
  match scopeFor c (toLower q.name) with
  | none => True
  | some (s, none) =>
    q.qtype = .a ∨ q.qtype = .aaaa → ∀ label, label ≠ "ns" → toLower q.name = inZone label s.zone →
      ∀ b ∈ named c L now s.zone label, isMapped b.address = false
  | some (s, some a) =>
    (∀ t ∈ c.scopes, withinZone (toLower q.name) t.zone = true → Coincides c L now q t.zone s.zone a) ∧
      ((∀ t ∈ c.scopes, withinZone (toLower q.name) t.zone = false) → a.is4In6 = true →
        heldAt c L now s.zone a = [])

/-! ### What the handler replies -/

/-- The scope that is taken matches by its zone or by its subnet. -/
theorem scopeFor_cases {s : Scope} {reverse : Option Addr} (h : scopeFor c name = some (s, reverse)) :
    s ∈ c.scopes ∧ match reverse with
      | none => withinZone name s.zone = true
      | some a => withinZone name s.zone = false ∧ reverseIP name = some a ∧ s.holds a = true := by
  obtain ⟨t, ht, hmatch⟩ := exists_of_findSome?_eq_some h
  split at hmatch
  · rename_i hzone
    obtain ⟨rfl, rfl⟩ := Prod.mk.inj (Option.some.inj hmatch)
    exact ⟨ht, hzone⟩
  · rename_i hzone
    obtain ⟨a, ha, heq⟩ := Option.map_eq_some_iff.mp hmatch
    obtain ⟨rfl, rfl⟩ := Prod.mk.inj heq
    obtain ⟨hreverse, hholds⟩ := Option.filter_eq_some_iff.mp ha
    exact ⟨ht, by simpa using hzone, hreverse, hholds⟩

/-- The names of the reverse tree are those of addresses without a zone. -/
theorem zone_of_holds {s : Scope} (h : s.holds a = true) : a.zone = "" := by
  unfold Scope.holds at h
  cases hp : parsePrefix s.subnet with
  | none => simp [hp] at h
  | some =>
    rw [hp] at h
    exact (Prefix.contains_iff.mp h).1

/-- A query that concerns the configuration is never handed on. -/
theorem scopeFor_ne_none (h : Concerned c name) : scopeFor c name ≠ none := by
  intro hnone
  have hno := List.findSome?_eq_none_iff.mp hnone
  rcases h with ⟨s, hs, hzone⟩ | ⟨s, hs, a, hholds, rfl⟩
  · have hs := hno s hs
    simp [hzone] at hs
  · have hs := hno s hs
    rw [reverseIP_arpa (zone_of_holds hholds), Option.filter_some, if_pos hholds] at hs
    split at hs
    · cases hs
    · cases hs

section Replies

variable {c : Config} {L : Ledger} {now : Int} {q : Question} {s : Scope} {reverse : Option Addr}

theorem rcode_authoritative : (authoritative c L now q name s reverse).rcode = .nameError ↔
      owned c L now s name reverse = [] ∧ name ≠ apex s.zone ∧ name ≠ inZone "ns" s.zone := by
  unfold authoritative
  by_cases hapex : name = apex s.zone
  · simp [hapex]
  · by_cases hns : name = inZone "ns" s.zone
    · simp [hns]
    · cases howned : owned c L now s name reverse with
      | nil => simp [hapex, hns]
      | cons => simp

/-- Only the apex and `ns` have records of the configuration. -/
theorem configuredRecords_nil (hapex : name ≠ apex zone) (hns : name ≠ inZone "ns" zone) :
    configuredRecords c L q name zone reverse = [] := by
  simp [configuredRecords, hapex, hns]

theorem answer_authoritative (hapex : name ≠ apex s.zone) (hns : name ≠ inZone "ns" s.zone) :
    (authoritative c L now q name s reverse).answer
      = (owned c L now s name reverse).flatMap (leaseRecords q s.zone reverse now) := by
  unfold authoritative
  simp only [configuredRecords_nil hapex hns, append_nil]

/-- An address record is about the address it was made from. -/
theorem addressRecords_of {ttl : Nat} {rr : RR} (h : rr ∈ addressRecords q ttl address) :
    rr.ttl = ttl ∧ ((∃ ip, rr.data = .a ip ∧ parseIP address = some ip) ∨
      ∃ ip, rr.data = .aaaa ip ∧ parseIP address = ip) := by
  have hmem : ∀ {d : RData} {b : Bool}, rr ∈ (if b then [⟨q.name, q.qtype, ttl, d⟩] else []) →
      rr.ttl = ttl ∧ rr.data = d := by
    intro d b hrr
    cases b with
    | false => cases hrr
    | true =>
      rw [mem_singleton.mp hrr]
      exact ⟨rfl, rfl⟩
  cases hip : parseIP address with
  | none =>
    cases hq : q.qtype with
    | aaaa =>
      simp only [addressRecords, hip, hq] at h
      rw [mem_singleton.mp h]
      exact ⟨rfl, Or.inr ⟨none, rfl, rfl⟩⟩
    | a | ns | soa | ptr | other => simp [addressRecords, hip, hq] at h
  | some ip =>
    cases hq : q.qtype with
    | a =>
      simp only [addressRecords, hip, hq] at h
      obtain ⟨httl, hdata⟩ := hmem (b := IP.is4 ip) (d := .a ip) (by rw [hq]; exact h)
      exact ⟨httl, Or.inl ⟨ip, hdata, rfl⟩⟩
    | aaaa =>
      simp only [addressRecords, hip, hq] at h
      obtain ⟨httl, hdata⟩ := hmem (b := !IP.is4 ip) (d := .aaaa (some ip)) (by
        rw [hq]
        cases hfour : IP.is4 ip with
        | true => rw [hfour] at h; cases h
        | false => rw [hfour] at h; exact h)
      exact ⟨httl, Or.inr ⟨some ip, hdata, rfl⟩⟩
    | ns | soa | ptr | other => simp [addressRecords, hip, hq] at h

theorem ofConfig_of_configuredRecords {rr : RR} (h : rr ∈ configuredRecords c L q name s.zone reverse) :
    OfConfig c name rr := by
  unfold configuredRecords at h
  rcases mem_append.mp h with h | h
  · rcases mem_append.mp h with h | h
    · split at h
      · rename_i hns
        obtain ⟨t, ht, hrr⟩ := mem_flatMap.mp h
        have hzone : t.zone = s.zone := by simpa using (mem_filter.mp ht).2
        have ht : t ∈ c.scopes := (mem_filter.mp ht).1
        obtain ⟨httl, ⟨ip, hdata, hip⟩ | ⟨ip, hdata, hip⟩⟩ := addressRecords_of hrr
        · rw [OfConfig, hdata]
          exact ⟨httl, t, ht, by rw [hzone]; exact hns, hip⟩
        · rw [OfConfig, hdata]
          exact ⟨httl, t, ht, by rw [hzone]; exact hns, hip⟩
      · cases h
    · split at h
      · rw [mem_singleton.mp h]
        trivial
      · cases h
  · split at h
    · rw [mem_singleton.mp h]
      trivial
    · cases h

/-- The records of a binding come from it and live no longer. -/
theorem ofLease_of_leaseRecords {rr : RR} (h : rr ∈ leaseRecords q zone reverse now b) :
    OfLease b rr ∧ rr.ttl = leaseTTL b now := by
  unfold leaseRecords at h
  split at h
  · obtain ⟨httl, ⟨ip, hdata, hip⟩ | ⟨ip, hdata, hip⟩⟩ := addressRecords_of h
    · exact ⟨by rw [OfLease, hdata]; exact hip, httl⟩
    · exact ⟨by rw [OfLease, hdata]; exact hip, httl⟩
  · split at h
    · rw [mem_singleton.mp h]
      exact ⟨⟨zone, rfl⟩, rfl⟩
    · cases h

/-- Every record comes from the configuration or from a binding that outlives it. -/
theorem ttl_authoritative (howned : ∀ b ∈ owned c L now s name reverse, b ∈ scan L) :
    ∀ rr ∈ (authoritative c L now q name s reverse).answer, OfConfig c name rr ∨ ∃ b ∈ scan L,
      b.current now = true ∧ OfLease b rr ∧ 1 ≤ rr.ttl ∧ (rr.ttl : Int) ≤ min 30 (b.endsAt - now) := by
  intro rr hrr
  unfold authoritative at hrr
  rcases mem_append.mp hrr with h | h
  · obtain ⟨b, hb, hrr⟩ := mem_flatMap.mp h
    have hcurrent : b.current now = true := by
      simp only [owned] at hb
      have hfilter := (mem_filter.mp hb).2
      rw [Bool.and_eq_true] at hfilter
      exact hfilter.1
    obtain ⟨hof, httl⟩ := ofLease_of_leaseRecords hrr
    rw [httl]
    exact Or.inr ⟨b, howned b hb, hcurrent, hof, leaseTTL_bounds hcurrent⟩
  · exact Or.inl (ofConfig_of_configuredRecords h)

end Replies

/-! ### The result -/

/-- Being in use on both sides, said of not being in use. -/
theorem not_iff_none {p x y z : Prop} : (¬ p ↔ ¬ x ∧ ¬ y ∧ ¬ z) ↔ (p ↔ x ∨ y ∨ z) := by tauto

section Result

variable {c : Config} (hc : c.validate = .ok ()) {L : Ledger} (hO : Orderly L) (hE : Exact L) (now : Int)
  (q : Question) {s : Scope}

include hc hO hE

/-- In a zone the name is in use exactly when the handler finds a binding. -/
theorem owned_nil_forward {label : String} :
    owned c L now s (inZone label s.zone) none = [] ↔ ¬ Exists c L now (inZone label s.zone) s.zone := by
  have hperm := owned_forward hO hE hc now s label
  constructor
  · intro hnil hexists
    obtain ⟨label', hlabel, hne⟩ := hexists
    rw [hnil] at hperm
    rw [← inZone_inj hlabel] at hne
    exact hne hperm.nil_eq.symm
  · intro hno
    by_contra hne
    refine hno ⟨label, rfl, fun hnil => hne ?_⟩
    rw [hnil] at hperm
    exact hperm.eq_nil

/-- As the name of an address it is in use exactly when it is the address's name and something is there. -/
theorem owned_nil_reverse :
    owned c L now s name (some a) ≠ [] ↔ reverseAddr a.text = name ∧ heldAt c L now s.zone a ≠ [] := by
  have hperm := owned_reverse hO hE hc now s name a
  by_cases hname : reverseAddr a.text = name
  · have hsame : (scan L).filter (fun b => isPublished c now s.zone b && b.address = a.text &&
        reverseAddr a.text = name) = heldAt c L now s.zone a := by
      simp [heldAt, hname]
    rw [hsame] at hperm
    constructor
    · intro hne
      refine ⟨hname, fun hnil => hne ?_⟩
      rw [hnil] at hperm
      exact hperm.eq_nil
    · intro h hnil
      rw [hnil] at hperm
      exact h.2 hperm.nil_eq.symm
  · have hnone : (scan L).filter (fun b => isPublished c now s.zone b && b.address = a.text &&
        reverseAddr a.text = name) = [] := by
      simp [hname]
    rw [hnone] at hperm
    constructor
    · intro hne
      exact absurd hperm.eq_nil hne
    · intro h
      exact absurd h.1 hname

theorem mem_scan_of_owned {reverse : Option Addr} (hb : b ∈ owned c L now s name reverse) : b ∈ scan L := by
  have hlookup : ∀ {scope label address : String}, '/' ∉ scope.toList →
      b ∈ L.dnsBindings now scope label address → b ∈ scan L := by
    intro scope label address hslash hmem
    by_cases haddress : address = ""
    · rw [haddress] at hmem
      exact ((mem_dnsBindings_name hO hE).mp hmem).1
    · exact ((mem_dnsBindings_address hO hE hslash haddress).mp hmem).1
  simp only [owned] at hb
  obtain ⟨t, ht, hmem⟩ := mem_flatMap.mp (mem_filter.mp hb).1
  obtain ⟨p, hfacts⟩ := scopeFacts_of_validate hc (mem_filter.mp ht).1
  exact hlookup (slash_not_mem_label hfacts.label) hmem

/-- A name that is matched by its zone is answered from the zone. Only a mapped address makes a
difference. -/
theorem shows_forward (hcanonical : CanonicalTable L) (hs : s ∈ c.scopes)
    (hzone : withinZone (toLower q.name) s.zone = true) :
    Shows c L now q (authoritative c L now q (toLower q.name) s none) ↔
      (q.qtype = .a ∨ q.qtype = .aaaa → ∀ label, label ≠ "ns" → toLower q.name = inZone label s.zone →
        ∀ b ∈ named c L now s.zone label, isMapped b.address = false) := by
  have hplain : ∀ {label : String}, ∀ b ∈ named c L now s.zone label, PlainAddress b.address := by
    intro label b hb
    obtain ⟨hscan, hp⟩ := mem_filter.mp hb
    rw [Bool.and_eq_true] at hp
    exact hcanonical b hscan (isPublished_iff.mp hp.1).2.1
  -- The handler's answer is what the published bindings give.
  have hanswer : ∀ {label : String}, label ≠ "ns" → toLower q.name = inZone label s.zone →
      ((authoritative c L now q (toLower q.name) s none).answer.map (·.data)).Perm
        (((named c L now s.zone label).flatMap (leaseRecords q s.zone none now)).map (·.data)) := by
    intro label hlabel hname
    have hns : toLower q.name ≠ inZone "ns" s.zone := by
      rw [hname]
      exact fun h => hlabel (inZone_inj h)
    rw [answer_authoritative (by rw [hname]; exact inZone_ne_apex _ _) hns, hname]
    exact ((owned_forward hO hE hc now s label).flatMap_right _).map _
  constructor
  · intro h hqtype label hlabel hname
    have hforward := h.forward s hs hzone
    rcases hqtype with hq | hq
    · exact (answers_a hq hplain s.zone now).mp
        ((hanswer hlabel hname).symm.trans (hforward.v4 label hlabel hname hq))
    · exact (answers_aaaa hq hplain s.zone now).mp
        ((hanswer hlabel hname).symm.trans (hforward.v6 label hlabel hname hq))
  · intro hmapped
    refine ⟨?_, ?_, ttl_authoritative fun b hb => mem_scan_of_owned hc hO hE now hb⟩
    · intro t ht hzonet
      rw [← zone_unique hc hs ht hzone hzonet]
      refine ⟨?_, ?_, ?_⟩
      · intro label hlabel hname hq
        exact (hanswer hlabel hname).trans ((answers_a hq hplain s.zone now).mpr
          (hmapped (Or.inl hq) label hlabel hname))
      · intro label hlabel hname hq
        exact (hanswer hlabel hname).trans ((answers_aaaa hq hplain s.zone now).mpr
          (hmapped (Or.inr hq) label hlabel hname))
      · rw [rcode_authoritative]
        rcases withinZone_iff.mp hzone with hapex | ⟨label, hname⟩
        · simp [hapex]
        · rw [hname, owned_nil_forward hc hO hE]
    · intro hno
      rw [hno s hs] at hzone
      cases hzone

/-- The name of an address is answered with the binding there, unless the address is mapped. -/
theorem shows_reverse (hs : s ∈ c.scopes) (hholds : s.holds a = true)
    (hno : ∀ t ∈ c.scopes, withinZone (toLower q.name) t.zone = false) (hname : toLower q.name = a.arpa) :
    Shows c L now q (authoritative c L now q (toLower q.name) s (some a)) ↔
      (a.is4In6 = true → heldAt c L now s.zone a = []) := by
  have hapex : toLower q.name ≠ apex s.zone := by
    intro h
    have hs := hno s hs
    rw [h, withinZone_apex] at hs
    cases hs
  have hns : toLower q.name ≠ inZone "ns" s.zone := by
    intro h
    have hs := hno s hs
    rw [h, withinZone_inZone] at hs
    cases hs
  have hrcode : (authoritative c L now q (toLower q.name) s (some a)).rcode = .nameError ↔
      ¬ (reverseAddr a.text = toLower q.name ∧ heldAt c L now s.zone a ≠ []) := by
    rw [rcode_authoritative, ← owned_nil_reverse hc hO hE]
    simp [hapex, hns]
  have hzone := zone_of_holds hholds
  constructor
  · intro h hmapped
    have hshould := (h.reverse hno s hs a hholds hname).rcode
    rw [hrcode] at hshould
    refine hshould.mp fun hfound => ?_
    exact reverseAddr_mapped hzone hmapped (hfound.1.trans hname)
  · intro hmapped
    refine ⟨?_, ?_, ttl_authoritative fun b hb => mem_scan_of_owned hc hO hE now hb⟩
    · intro t ht hzonet
      rw [hno t ht] at hzonet
      cases hzonet
    · intro _ t ht a' hholds' hname'
      have haddress : a' = a := by
        have hread := reverseIP_arpa (zone_of_holds hholds')
        rw [← hname', hname, reverseIP_arpa hzone, Option.some.injEq] at hread
        exact hread.symm
      subst haddress
      rw [scope_unique hc ht hs hholds' hholds]
      refine ⟨fun hq => ?_, ?_⟩
      · rw [answer_authoritative hapex hns]
        have hrecords : ∀ bs : List Binding, (bs.flatMap (leaseRecords q s.zone (some a') now)).map (·.data)
            = bs.map fun b => .ptr (inZone b.name s.zone) := by
          intro bs
          induction bs with
          | nil => rfl
          | cons b bs ih =>
            rw [flatMap_cons, map_append, ih]
            simp [leaseRecords, hq]
        rw [hrecords]
        refine List.Perm.map _ ?_
        -- What is found is what is there: all of it, or there is nothing.
        cases h46 : a'.is4In6 with
        | false =>
          have hperm := owned_reverse hO hE hc now s (toLower q.name) a'
          have hsame : reverseAddr a'.text = toLower q.name :=
            (reverseAddr_text hzone h46).trans hname.symm
          simpa [heldAt, hsame] using hperm
        | true =>
          have hnil : owned c L now s (toLower q.name) (some a') = [] := by
            by_contra hne
            exact ((owned_nil_reverse hc hO hE now).mp hne).2 (hmapped h46)
          rw [hnil, hmapped h46]
      · rw [hrcode]
        cases h46 : a'.is4In6 with
        | false =>
          have hsame : reverseAddr a'.text = toLower q.name :=
            (reverseAddr_text hzone h46).trans hname.symm
          simp [hsame]
        | true => simp [hmapped h46]

/-- A name of a zone that is read as an address is answered as if it were none of the zone's. -/
theorem shows_captured (hs : s ∈ c.scopes) (hzone : withinZone (toLower q.name) s.zone = false) {t : Scope}
    (ht : t ∈ c.scopes) (hzonet : withinZone (toLower q.name) t.zone = true) :
    Shows c L now q (authoritative c L now q (toLower q.name) s (some a)) ↔
      ∀ t ∈ c.scopes, withinZone (toLower q.name) t.zone = true → Coincides c L now q t.zone s.zone a := by
  have hapex : toLower q.name ≠ apex s.zone := by
    intro h
    rw [h, withinZone_apex] at hzone
    cases hzone
  have hns : toLower q.name ≠ inZone "ns" s.zone := by
    intro h
    rw [h, withinZone_inZone] at hzone
    cases hzone
  have hanswer : q.qtype = .a ∨ q.qtype = .aaaa →
      (authoritative c L now q (toLower q.name) s (some a)).answer.map (·.data) = [] := by
    intro hq
    rw [answer_authoritative hapex hns]
    have hnone : ∀ b, leaseRecords q s.zone (some a) now b = [] := by
      intro b
      rcases hq with hq | hq
      · simp [leaseRecords, hq]
      · simp [leaseRecords, hq]
    simp [hnone]
  have hrcode : (authoritative c L now q (toLower q.name) s (some a)).rcode = .nameError ↔
      ¬ (reverseAddr a.text = toLower q.name ∧ heldAt c L now s.zone a ≠ []) := by
    rw [rcode_authoritative, ← owned_nil_reverse hc hO hE]
    simp [hapex, hns]
  constructor
  · intro h t ht hzonet
    have hforward := h.forward t ht hzonet
    refine ⟨?_, ?_, ?_⟩
    · intro label hlabel hname hq
      have hperm := hforward.v4 label hlabel hname hq
      rw [hanswer (Or.inl hq)] at hperm
      exact hperm.nil_eq.symm
    · intro label hlabel hname hq
      have hperm := hforward.v6 label hlabel hname hq
      rw [hanswer (Or.inr hq)] at hperm
      exact hperm.nil_eq.symm
    · have hshould := hforward.rcode
      rw [hrcode] at hshould
      exact not_iff_none.mp hshould
  · intro h
    refine ⟨?_, ?_, ttl_authoritative fun b hb => mem_scan_of_owned hc hO hE now hb⟩
    · intro t ht hzonet
      have hcoincides := h t ht hzonet
      refine ⟨?_, ?_, ?_⟩
      · intro label hlabel hname hq
        rw [hanswer (Or.inl hq), hcoincides.v4 label hlabel hname hq]
      · intro label hlabel hname hq
        rw [hanswer (Or.inr hq), hcoincides.v6 label hlabel hname hq]
      · rw [hrcode]
        exact not_iff_none.mpr hcoincides.inUse
    · intro hno
      rw [hno t ht] at hzonet
      cases hzonet

end Result

/-- Authoritative DNS is the projection of the ledger. For an accepted configuration, a ledger of the
running program with canonical addresses and a query of class `IN` for a name of a zone or of an address
in a subnet, the handler answers from what is published, exactly when the name is not taken for another
and no mapped address is concerned. -/
theorem dns_projects {c : Config} (hc : c.validate = .ok ()) {L : Ledger} (hL : Standing L)
    (hends : ∀ e ∈ L.events, Int64 e.binding.endsAt) (hcanonical : CanonicalTable L) (now : Int) {q : Question}
    (hclass : q.inet = true) (hname : Concerned c (toLower q.name)) :
    Projected c L now q ↔ Clear c L now q := by
  have hO := orderly_of_standing hL
  have hE := hO.exact hends
  unfold Clear
  cases hmatch : scopeFor c (toLower q.name) with
  | none => exact absurd hmatch (scopeFor_ne_none hname)
  | some found =>
    obtain ⟨s, reverse⟩ := found
    have hreply : serveDNS c L now [q] = .reply (authoritative c L now q (toLower q.name) s reverse) := by
      simp [serveDNS, hmatch, hclass]
    have hshows : Projected c L now q ↔
        Shows c L now q (authoritative c L now q (toLower q.name) s reverse) := by
      constructor
      · intro h
        obtain ⟨r, hr, hshows⟩ := h
        rw [hreply, Handled.reply.injEq] at hr
        rw [hr]
        exact hshows
      · intro h
        exact ⟨_, hreply, h⟩
    rw [hshows]
    cases reverse with
    | none =>
      obtain ⟨hs, hzone⟩ := scopeFor_cases hmatch
      exact shows_forward hc hO hE now q hcanonical hs hzone
    | some a =>
      obtain ⟨hs, hzone, hread, hholds⟩ := scopeFor_cases hmatch
      by_cases hwithin : ∃ t ∈ c.scopes, withinZone (toLower q.name) t.zone = true
      · obtain ⟨t, ht, hzonet⟩ := hwithin
        rw [shows_captured hc hO hE now q hs hzone ht hzonet]
        constructor
        · intro h
          refine ⟨h, fun hno => ?_⟩
          rw [hno t ht] at hzonet
          cases hzonet
        · intro h
          exact h.1
      · have hno : ∀ t ∈ c.scopes, withinZone (toLower q.name) t.zone = false := by
          intro t ht
          rw [Bool.eq_false_iff]
          exact fun hzonet => hwithin ⟨t, ht, hzonet⟩
        have harpa : toLower q.name = a.arpa := by
          rcases hname with hzonet | ⟨t, -, a', hholds', harpa⟩
          · exact absurd hzonet hwithin
          · rw [harpa, reverseIP_arpa (zone_of_holds hholds'), Option.some.injEq] at hread
            rw [harpa, hread]
        rw [shows_reverse hc hO hE now q hs hholds hno harpa]
        constructor
        · intro h
          refine ⟨fun t ht hzonet => ?_, fun _ => h⟩
          rw [hno t ht] at hzonet
          cases hzonet
        · intro h
          exact h.2 hno

/-- A ledger is canonical when its addresses are. -/
theorem canonical_of_map {addresses : List String} (h : (scan L).map (·.address) = addresses)
    (hplain : ∀ s ∈ addresses, PlainAddress s) : CanonicalTable L := by
  intro b hb _
  refine hplain _ ?_
  rw [← h]
  exact mem_map_of_mem hb

/-- The lease of 10.0.0.5 is found under the name of its address. -/
theorem dns_projects_smallLan :
    Projected (smallLan 60) (run {} [requestFive 10 60 "01"]) 20 ⟨"5.0.0.10.IN-ADDR.arpa.", .ptr, true⟩ := by
  have hvalid : (smallLan 60).validate = .ok () := by decide +kernel
  have hprinted : '\x00' ∉ "10.0.0.5".toList := by decide
  have hstanding : Standing (run {} [requestFive 10 60 "01"]) := by
    refine standing_run .empty fun st hst => ?_
    rw [mem_singleton.mp hst]
    exact ⟨hvalid, hprinted⟩
  have hends : ∀ e ∈ (run {} [requestFive 10 60 "01"]).events, Int64 e.binding.endsAt := by decide +kernel
  have hcanonical : CanonicalTable (run {} [requestFive 10 60 "01"]) :=
    canonical_of_map (by decide +kernel : _ = ["10.0.0.5"]) fun s hs => by
      rw [mem_singleton.mp hs]
      exact ⟨.ofValue .v4 0x0a000005, rfl, by decide +kernel⟩
  have hno : ∀ t ∈ (smallLan 60).scopes, withinZone "5.0.0.10.in-addr.arpa." t.zone = false := by
    decide +kernel
  have hlower : toLower "5.0.0.10.IN-ADDR.arpa." = "5.0.0.10.in-addr.arpa." := by decide +kernel
  refine (dns_projects hvalid hstanding hends hcanonical 20 rfl ?_).mpr ?_
  · refine Or.inr ⟨(smallLan 60).scopes.head (by decide), head_mem _, .ofValue .v4 0x0a000005, ?_, ?_⟩
    · decide +kernel
    · decide +kernel
  · have hmatch : (scopeFor (smallLan 60) (toLower "5.0.0.10.IN-ADDR.arpa.")).map Prod.snd =
        some (some (.ofValue .v4 0x0a000005)) := by decide +kernel
    rw [hlower] at hmatch
    unfold Clear
    simp only [hlower]
    cases hfound : scopeFor (smallLan 60) "5.0.0.10.in-addr.arpa." with
    | none => trivial
    | some found =>
      obtain ⟨s, reverse⟩ := found
      rw [hfound, Option.map_some, Option.some.injEq] at hmatch
      have hreverse : reverse = some (.ofValue .v4 0x0a000005) := hmatch
      subst hreverse
      refine ⟨fun t ht hzone => ?_, fun _ hmapped => absurd hmapped (by decide)⟩
      rw [hno t ht] at hzone
      cases hzone

/-- Two networks, the second with a zone in the reverse tree of the first, and a device in it. -/
def reverseZone : Config where
  scopes :=
    [{ id := "lan", interface := "eth0", subnet := "10.0.0.0/24", server := "10.0.0.1",
       start := "10.0.0.5", endAddr := "10.0.0.6", router := "10.0.0.1", zone := "lan.home",
       leaseSeconds := 60, enabled := true },
     { id := "iot", interface := "eth1", subnet := "10.0.1.0/24", server := "10.0.1.1",
       start := "10.0.1.5", endAddr := "10.0.1.8", router := "10.0.1.1", zone := "0.0.10.in-addr.arpa",
       leaseSeconds := 60, enabled := true,
       reservations := [{ client := "mac:02:00:00:00:00:01", address := "10.0.1.7", device := "seven" }] }]
  devices := [{ id := "seven", name := "7" }]

/-- An IPv6 network that the IPv4-mapped addresses are in. -/
def mappedPool : Config where
  scopes :=
    [{ id := "six", interface := "eth0", subnet := "::/64", server := "::1",
       start := "::ffff:10.0.0.5", endAddr := "::ffff:10.0.0.6", router := "", zone := "six.home",
       leaseSeconds := 60, preferredSeconds := 60, enabled := true }]

/-- The device of the second network is granted its address. -/
def grantSeven : Step where
  time := 10
  op := .allocate reverseZone "iot" "mac:02:00:00:00:00:01" "02:00:00:00:00:01" "" "10.0.1.7" true

/-- A client is granted the first address of the pool. -/
def grantMapped : Step where
  time := 10
  op := .allocate mappedPool "six" "duid:00030001020000000001/iaid:00000001" "" "" "::ffff:10.0.0.5" true

/-- The handler says that there is no such name. -/
def deniesName (c : Config) (L : Ledger) (now : Int) (q : Question) : Bool :=
  match serveDNS c L now [q] with
  | .reply r => r.rcode = .nameError
  | .next | .code _ => false

theorem rcode_of_deniesName {r : Reply} (h : deniesName c L now q = true) (hr : serveDNS c L now [q] = .reply r) :
    r.rcode = .nameError := by
  simpa [deniesName, hr] using h

/-- The name 7.0.0.10.in-addr.arpa is in the zone of the second network and belongs to the device that
holds 10.0.1.7, but the query for its address finds the first network, where nobody holds 10.0.0.7: the
reply is that there is no such name. And the lease of ::ffff:10.0.0.5 is not found under the name of its
address. -/
theorem leases_not_found :
    (reverseZone.validate = .ok () ∧ Standing (run {} [grantSeven]) ∧
      (∀ e ∈ (run {} [grantSeven]).events, Int64 e.binding.endsAt) ∧ CanonicalTable (run {} [grantSeven]) ∧
      Concerned reverseZone "7.0.0.10.in-addr.arpa." ∧
      (named reverseZone (run {} [grantSeven]) 20 "0.0.10.in-addr.arpa" "7").map (·.address) = ["10.0.1.7"] ∧
      ¬ Projected reverseZone (run {} [grantSeven]) 20 ⟨"7.0.0.10.in-addr.arpa.", .a, true⟩) ∧
    (mappedPool.validate = .ok () ∧ Standing (run {} [grantMapped]) ∧
      (∀ e ∈ (run {} [grantMapped]).events, Int64 e.binding.endsAt) ∧ CanonicalTable (run {} [grantMapped]) ∧
      Concerned mappedPool (Addr.arpa (.ofValue .v6 0xffff0a000005)) ∧
      (heldAt mappedPool (run {} [grantMapped]) 20 "six.home" (.ofValue .v6 0xffff0a000005)).map (·.address)
        = ["::ffff:10.0.0.5"] ∧
      ¬ Projected mappedPool (run {} [grantMapped]) 20
          ⟨Addr.arpa (.ofValue .v6 0xffff0a000005), .ptr, true⟩) := by
  have hseven : ∀ e ∈ (run {} [grantSeven]).events, Int64 e.binding.endsAt := by decide +kernel
  have hmapped : ∀ e ∈ (run {} [grantMapped]).events, Int64 e.binding.endsAt := by decide +kernel
  have hvalid : reverseZone.validate = .ok () := by decide +kernel
  have hvalid' : mappedPool.validate = .ok () := by decide +kernel
  have hfound : named reverseZone (run {} [grantSeven]) 20 "0.0.10.in-addr.arpa" "7" ≠ [] := by
    decide +kernel
  have hfound' : heldAt mappedPool (run {} [grantMapped]) 20 "six.home" (.ofValue .v6 0xffff0a000005) ≠ [] := by
    decide +kernel
  have hprinted : '\x00' ∉ "10.0.1.7".toList := by decide
  have hprinted' : '\x00' ∉ "::ffff:10.0.0.5".toList := by decide
  refine ⟨⟨hvalid, ?_, ?_, ?_, ?_, ?_, ?_⟩, ⟨hvalid', ?_, ?_, ?_, ?_, ?_, ?_⟩⟩
  · refine standing_run .empty fun st hst => ?_
    rw [mem_singleton.mp hst]
    exact ⟨hvalid, hprinted⟩
  · exact hseven
  · refine canonical_of_map (by decide +kernel : _ = ["10.0.1.7"]) fun s hs => ?_
    rw [mem_singleton.mp hs]
    exact ⟨.ofValue .v4 0x0a000107, rfl, by decide +kernel⟩
  · exact Or.inl (by decide +kernel)
  · decide +kernel
  · intro h
    obtain ⟨r, hr, hshows⟩ := h
    have hdenied := rcode_of_deniesName (by decide +kernel) hr
    obtain ⟨s, hs, hzone⟩ : ∃ s ∈ reverseZone.scopes, s.zone = "0.0.10.in-addr.arpa" := by decide +kernel
    have hlower : toLower "7.0.0.10.in-addr.arpa." = inZone "7" "0.0.10.in-addr.arpa" := by decide +kernel
    have hforward := hshows.forward s hs (by rw [hzone, hlower]; exact withinZone_inZone _ _)
    refine (hforward.rcode.mp hdenied).1 ⟨"7", by rw [hzone]; exact hlower, ?_⟩
    rw [hzone]
    exact hfound
  · refine standing_run .empty fun st hst => ?_
    rw [mem_singleton.mp hst]
    exact ⟨hvalid', hprinted'⟩
  · exact hmapped
  · refine canonical_of_map (by decide +kernel : _ = ["::ffff:10.0.0.5"]) fun s hs => ?_
    rw [mem_singleton.mp hs]
    exact ⟨.ofValue .v6 0xffff0a000005, rfl, by decide +kernel⟩
  · exact Or.inr ⟨_, mem_singleton_self _, .ofValue .v6 0xffff0a000005, by decide +kernel, rfl⟩
  · decide +kernel
  · intro h
    obtain ⟨r, hr, hshows⟩ := h
    have hdenied := rcode_of_deniesName (by decide +kernel) hr
    obtain ⟨s, hs, hzone, hholds⟩ : ∃ s ∈ mappedPool.scopes, s.zone = "six.home" ∧
        s.holds (.ofValue .v6 0xffff0a000005) = true := by decide +kernel
    have hlower : toLower (Addr.arpa (.ofValue .v6 0xffff0a000005)) = Addr.arpa (.ofValue .v6 0xffff0a000005) := by
      decide +kernel
    have hno : ∀ t ∈ mappedPool.scopes,
        withinZone (toLower (Addr.arpa (.ofValue .v6 0xffff0a000005))) t.zone = false := by decide +kernel
    have hreverse := hshows.reverse hno s hs _ hholds hlower
    have hnil := hreverse.rcode.mp hdenied
    rw [hzone] at hnil
    exact hfound' hnil

end Ghostd.Proofs.Addressbook
