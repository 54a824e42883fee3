import Ghostd.Addressbook.Dhcp4
import Ghostd.Lib.Hex
import Ghostd.Proofs.Addressbook.Offer
import Ghostd.Proofs.Addressbook.Reached
import Ghostd.Proofs.Addressbook.Uniqueness

/-!
# `Ghostd.Proofs.Addressbook.Handlers`: what the protocol handlers do to the ledger

The handlers do nothing to a ledger that the operations cannot do (`handle4_reached`,
`handle6Via_reached`), so `Reached` is about the ledgers behind running handlers too.

A DHCPv6 message can name many identity associations, and each is served by transactions of its
own. What the ones after it leave alone is what counts for an association: an allocation never writes
over a live binding of another client (`allocate_other`). `Invariant` collects what is to be shown
of the transactions of an IA_NA, and `handleNA_keeps` is the rule for it.
-/

set_option autoImplicit false

namespace Ghostd.Proofs.Addressbook

open Ghostd.Lib Ghostd.Addressbook Session

variable {client scope : String} {b r : Binding} {current : Option Binding} {now : Int} {s : Scope}
    {L' : Ledger}

/-! ### Clients with a DUID -/

theorem startsWith_duid (duid iaid : String) : startsWith ("duid:" ++ duid ++ "/iaid:" ++ iaid) "duid:" = true := by
  simp [startsWith, String.toList_append]

/-- A DUID and an IAID make a client, if the DUID is as long as one may be. -/
theorem validClient_duid {duid iaid : String} (hduid : (decodeHex duid).isSome = true) (hlower : toLower duid = duid)
    (hiaid : (decodeHex iaid).isSome = true) (hlower' : toLower iaid = iaid) (hlength : byteLength iaid = 8) :
    validClient ("duid:" ++ duid ++ "/iaid:" ++ iaid) =
      (decide (4 ≤ byteLength duid) && decide (byteLength duid ≤ 256)) := by
  have htrim : trimStart ("duid:" ++ duid ++ "/iaid:" ++ iaid) "duid:" =
      duid ++ String.ofList ('/' :: "iaid:".toList) ++ iaid := by
    rw [String.append_assoc, String.append_assoc, trimStart_append, String.append_assoc]
    rfl
  have hsplit : splitText (trimStart ("duid:" ++ duid ++ "/iaid:" ++ iaid) "duid:") "/iaid:" = [duid, iaid] := by
    rw [htrim, show ("/iaid:" : String) = String.ofList ('/' :: "iaid:".toList) by decide]
    exact splitText_two (slash_not_mem_hex hduid) (slash_not_mem_hex hiaid)
  have hall : toLower ("duid:" ++ duid ++ "/iaid:" ++ iaid) = "duid:" ++ duid ++ "/iaid:" ++ iaid := by
    rw [toLower_append, toLower_append, toLower_append, hlower, hlower']
    rfl
  unfold validClient
  rw [if_pos (startsWith_duid duid iaid), hsplit]
  simp [hduid, hiaid, hlength, hall]

/-! ### Transactions -/

theorem on_tryAllocate (f : Ledger → Except Failure (Binding × Ledger)) (L : Ledger) :
    (tryAllocate f).on L =
      match f L with
      | .ok (b, L') => (.ok (some b), L')
      | .error (.unavailable _) => (.ok none, L)
      | .error e => (.error (.failed e), L) := rfl

/-- An allocation that the handler goes on from has given a binding or changed nothing. -/
theorem tryAllocate_ok {f : Ledger → Except Failure (Binding × Ledger)} {L : Ledger} {r : Option Binding}
    (h : (tryAllocate f).on L = (.ok r, L')) : (∃ b, r = some b ∧ f L = .ok (b, L')) ∨ (r = none ∧ L' = L) := by
  rw [on_tryAllocate] at h
  split at h
  · rename_i b L1 hf
    rw [Prod.mk.injEq, Except.ok.injEq] at h
    obtain ⟨rfl, rfl⟩ := h
    exact Or.inl ⟨b, rfl, hf⟩
  · rw [Prod.mk.injEq, Except.ok.injEq] at h
    exact Or.inr ⟨h.1.symm, h.2.symm⟩
  · cases h

theorem keeps_tryAllocate {I : Ledger → Prop} {Q : Binding → Prop}
    {f : Ledger → Except Failure (Binding × Ledger)}
    (h : ∀ L b L', I L → f L = .ok (b, L') → I L' ∧ Q b) :
    Keeps I (fun r => ∀ b, r = some b → Q b) (tryAllocate f) := by
  intro L hL
  rw [on_tryAllocate]
  split
  · rename_i b L' hf
    obtain ⟨hkept, hresult⟩ := h L b L' hL hf
    refine ⟨hkept, fun r hr b' hb' => ?_⟩
    cases hr
    cases hb'
    exact hresult
  · refine ⟨hL, fun r hr b hb => ?_⟩
    cases hr
    cases hb
  · exact ⟨hL, fun r hr => (by cases hr)⟩

section Operations

variable {c : Config} (hc : c.validate = .ok ()) {L L' : Ledger} (hL : Reached L) {now : Int}

include hL

theorem reached_release {ip : String} {decline : Bool} (h : L.release now scope client ip decline = .ok L') :
    Reached L' := by
  have hstep := hL.operate now (show Operation.Called (.release scope client ip decline) from trivial)
  rwa [Operation.apply, h] at hstep

theorem reached_releasePrefix (h : L.releasePrefix now s client = .ok L') : Reached L' := by
  have hstep := hL.operate now (show Operation.Called (.releasePrefix s client) from trivial)
  rwa [Operation.apply, h] at hstep

theorem reached_allocatePrefix (hs : AcceptedScope s) {duidHex hint via : String}
    (hclient : '\x00' ∉ client.toList) {commit : Bool}
    (h : L.allocatePrefix now s client duidHex hint via commit = .ok (r, L')) : Reached L' := by
  have hstep := hL.operate now
    (show Operation.Called (.allocatePrefix s client duidHex hint via commit) from ⟨hs, hclient⟩)
  rwa [Operation.apply, h] at hstep

include hc

theorem reached_allocate {scopeID mac claimed requested : String} {commit : Bool} (hreq : Zoneless requested)
    (h : L.allocate now c scopeID client mac claimed requested commit = .ok (r, L')) : Reached L' := by
  have hstep := hL.operate now
    (show Operation.Called (.allocate c scopeID client mac claimed requested commit) from ⟨hc, hreq⟩)
  rwa [Operation.apply, h] at hstep

end Operations

/-! ### What one allocation does -/

/-- The address a packet names is written without a zone. -/
theorem zoneless_ipText (ip : IP) : Zoneless (IP.text ip) :=
  PlainAddress.zoneless ⟨IP.addr ip, IP.zone_addr ip, rfl⟩

/-- The binding that an allocation returns. -/
structure Granted (L' : Ledger) (now : Int) (s : Scope) (client : String) (commit : Bool) (r : Binding) :
    Prop where
  stored : L'.bindings.get (bindingKey s.id r.address) = some r
  scope : r.scope = s.id
  client : r.client = client
  origin : r.origin ≠ .dhcpv6PD
  held : r.held now = true
  address : ∃ a, parseAddr r.address = some a ∧ a.is6 = s.is6 ∧ a.zone = ""
  committed : commit = true → r.state = .active ∧ r.endsAt = now + s.leaseSeconds

section Allocate

variable {c : Config} (hc : c.validate = .ok ()) {s : Scope} (hs : s ∈ c.scopes) {L L' : Ledger}
  {now : Int} {client mac claimed requested : String} {commit : Bool} {r : Binding}
  (h : L.allocate now c s.id client mac claimed requested commit = .ok (r, L'))

include hc hs h

theorem allocate_granted (hL : Filed L) (hreq : Zoneless requested) : Granted L' now s client commit r := by
  obtain ⟨p, hfacts⟩ := scopeFacts_of_validate hc hs
  have hlease := hfacts.leaseAtLeast
  have hfiled' := allocate_filed hL hc hreq h
  obtain ⟨s', m, ip, hs', -, -, -, -, hip, hcases⟩ := allocate_cases h
  rw [scope_of_mem hc hs, Option.some.injEq] at hs'
  subst hs'
  have hallowed := (available_true (chooseAddress_cases hip).1).1
  have hparsed : ∃ a, parseAddr ip = some a ∧ a.is6 = s.is6 := by
    unfold allowed at hallowed
    cases ha : parseAddr ip with
    | none => simp [ha] at hallowed
    | some a =>
      refine ⟨a, rfl, ?_⟩
      by_contra hfamily
      simp [ha, hfamily] at hallowed
  obtain ⟨a, ha, hfamily⟩ := hparsed
  rcases hcases with ⟨rfl, hr, hclient, hstate, hends, rfl⟩ | ⟨hr, -, rfl⟩
  · -- An active lease is offered again as it is.
    have hstored : L'.bindings.get (bindingKey s.id ip) = some r := by
      rw [hr]
      refine get_of_readBinding ?_
      rw [← hr, hstate]
      decide
    have hdenotes := hL.stored hstored
    obtain ⟨hscope, haddress⟩ := bindingKey_inj hdenotes.slashless (slash_not_mem_label hfacts.label)
      (hL.sound.keyed hstored)
    refine ⟨by rw [haddress]; exact hstored, hscope, hclient, ?_, ?_, ?_, fun hcommit => (by cases hcommit)⟩
    · intro hpd
      obtain ⟨q, hq, -⟩ := hdenotes.delegated hpd
      rw [← haddress, hq, parseAddr_prefixText] at ha
      cases ha
    · simp [Binding.held, hstate, heldState, hends]
    · refine ⟨a, by rw [haddress]; exact ha, hfamily, ?_⟩
      exact hdenotes.zoneless a (by rw [haddress]; exact ha)
  · have hfields := newLease_fields L now c s client m claimed ip commit
    rw [← hr] at hfields
    have hkey : r.key = bindingKey s.id ip := by rw [Binding.key, hfields.scope, hfields.address]
    have hstored : (L.save now r (newLease L now c s client m claimed ip commit).2).bindings.get
        (bindingKey s.id ip) = some r := by rw [get_save, hkey, if_pos rfl]
    refine ⟨by rw [hfields.address]; exact hstored, hfields.scope, hfields.client, ?_, ?_, ?_, ?_⟩
    · rw [hfields.origin]
      split <;> decide
    · simp only [Binding.held, hfields.state, hfields.endsAt, Bool.and_eq_true, decide_eq_true_eq]
      split <;> simp [heldState] <;> omega
    · refine ⟨a, by rw [hfields.address]; exact ha, hfamily, ?_⟩
      exact (hfiled'.stored hstored).zoneless a (by rw [hfields.address]; exact ha)
    · intro hcommit
      rw [hfields.state, hfields.endsAt, hcommit]
      exact ⟨rfl, rfl⟩

/-- A live binding of another client stays as it is. -/
theorem allocate_other {k : String} (hget : L.bindings.get k = some b) (hlive : b.live now = true)
    (hother : b.client ≠ client) : L'.bindings.get k = some b := by
  obtain ⟨s', m, ip, hs', -, -, -, -, hip, hcases⟩ := allocate_cases h
  rw [scope_of_mem hc hs, Option.some.injEq] at hs'
  subst hs'
  rcases hcases with ⟨-, -, -, -, -, rfl⟩ | ⟨hr, -, rfl⟩
  · exact hget
  · have hfields := newLease_fields L now c s client m claimed ip commit
    rw [← hr] at hfields
    rw [get_save]
    split
    · rename_i hk
      rw [Binding.key, hfields.scope, hfields.address] at hk
      have hread : L.readBinding s.id ip = b := readBinding_of_get (by rw [← hk]; exact hget)
      have hguard := (available_true (chooseAddress_cases hip).1).2
      rw [hread] at hguard
      exact absurd (hguard hlive).1 hother
    · exact hget

/-- The address of the binding is written in its one spelling, if all those it can come from are. -/
theorem allocate_canonical (hL : Filed L) (hreq : Canonical requested)
    (hreserved : ∀ r ∈ s.reservations, Canonical r.address)
    (hheld : ∀ k b, L.bindings.get k = some b → b.scope = s.id → b.origin ≠ .dhcpv6PD →
      b.held now = true → Canonical b.address)
    (hgranted : Granted L' now s client commit r) : Canonical r.address := by
  obtain ⟨p, hfacts⟩ := scopeFacts_of_validate hc hs
  obtain ⟨s', m, ip, hs', -, -, -, -, hip, hcases⟩ := allocate_cases h
  rw [scope_of_mem hc hs, Option.some.injEq] at hs'
  subst hs'
  rcases hcases with ⟨-, -, -, -, -, rfl⟩ | ⟨hr, -, rfl⟩
  · exact hheld _ r hgranted.stored hgranted.scope hgranted.origin hgranted.held
  · have hfields := newLease_fields L now c s client m claimed ip commit
    rw [← hr] at hfields
    rw [hfields.address]
    refine chooseAddress_source (Q := Canonical) hfacts hreq ?_ hreserved ?_ hip
    · intro b hb horigin hbheld
      obtain ⟨hstored, -, -, hscope⟩ := mem_liveByClient hL.sound hb
      exact hheld _ b hstored hscope horigin hbheld
    · intro a _ a' ha'
      rw [parseAddr_text, Option.some.injEq] at ha'
      rw [ha']

end Allocate

/-- A release leaves the bindings of other clients as they are. -/
theorem release_other {L : Ledger} (hL : Filed L) {ip : String} {decline : Bool}
    (h : L.release now scope client ip decline = .ok L') {k : String} (hget : L.bindings.get k = some b)
    (hother : b.client ≠ client) : L'.bindings.get k = some b := by
  -- What is saved is at the key of the client's own binding.
  obtain ⟨b', kind, ⟨b0, hget0, hclient, -, hb'⟩, rfl⟩ := release_eq h
  have hkey : b'.key = bindingKey scope ip := by
    rw [← hL.sound.keyed hget0]
    rcases hb' with rfl | rfl <;> rfl
  rw [get_save, hkey]
  split
  · rename_i hk
    rw [hk, hget0, Option.some.injEq] at hget
    rw [hget] at hclient
    exact absurd hclient hother
  · exact hget

/-! ### What one delegation does -/

section Delegate

variable {s : Scope} (hs : AcceptedScope s) {L L' : Ledger} {now : Int} {client duidHex hint via : String}

include hs

/-- The delegation that a commit returns. -/
theorem allocatePrefix_granted (hL : Filed L)
    (h : L.allocatePrefix now s client duidHex hint via true = .ok (r, L')) :
    ∃ p : Prefix, p = p.masked ∧ r.address = p.text ∧ L'.bindings.get (bindingKey s.id p.text) = some r ∧
      r.scope = s.id ∧ r.client = client ∧ r.state = .active ∧ r.endsAt = now + s.leaseSeconds := by
  unfold Ledger.allocatePrefix at h
  cases hpd : s.pd with
  | none => simp [hpd] at h
  | some pd =>
    simp only [hpd, bind_eq_ok, if_true, pure_eq_ok, Prod.mk.injEq] at h
    obtain ⟨pool, hpool, chosen, hchosen, rfl, rfl⟩ := h
    have hchosen : PrefixChosen now s client hint L chosen := by
      refine ⟨pd, pool, hpd, mustParsePrefix_eq_ok.mp hpool, ?_⟩
      unfold settlePrefix at hchosen
      split at hchosen
      · rename_i hmine
        exact Or.inl ⟨hmine, mustParsePrefix_eq_ok.mp hchosen⟩
      · rename_i hmine
        refine Or.inr ⟨not_not.mp hmine, ?_⟩
        split at hchosen
        · rename_i p hp
          rw [pure_eq_ok] at hchosen
          rw [hp, hchosen]
        · cases hchosen
    obtain ⟨hscope, haddress, hclient, -, -, -⟩ := delegation_fields L now s client duidHex via chosen.text
    refine ⟨chosen, prefixChosen_masked hL hs hchosen, haddress, ?_, hscope, hclient, rfl, rfl⟩
    rw [get_save, if_pos]
    show _ = bindingKey (delegation L now s client duidHex via chosen.text).scope
      (delegation L now s client duidHex via chosen.text).address
    rw [hscope, haddress]

end Delegate

/-! ### The handlers stay among the ledgers that are reached -/

/-- The lease that the handler finds for a client. -/
theorem currentClient_some {L : Ledger} (hL : Filed L) (h : L.currentClient now scope client = some b) :
    L.bindings.get b.key = some b ∧ b.scope = scope ∧ b.client = client ∧ b.origin ≠ .dhcpv6PD ∧
      b.state = .active ∧ now < b.endsAt := by
  unfold Ledger.currentClient at h
  simp only at h
  split at h
  · rename_i hfound
    have hne : lastBinding (fun b => b.origin ≠ .dhcpv6PD && b.state = .active && b.endsAt > now)
        (L.liveByClient scope client) ≠ {} := by
      intro hzero
      rw [hzero] at hfound
      exact hfound rfl
    obtain ⟨hmem, hcurrent⟩ := lastBinding_found hne
    rw [Option.some.injEq] at h
    rw [h] at hmem hcurrent
    obtain ⟨hstored, -, hclient, hscope⟩ := mem_liveByClient hL.sound hmem
    simp only [Bool.and_eq_true, decide_eq_true_eq] at hcurrent
    exact ⟨hstored, hscope, hclient, hcurrent.1.1, hcurrent.1.2, hcurrent.2⟩
  · cases h

theorem map_unit_ok {x : Except Failure Ledger} {u : PUnit} (h : x.map (PUnit.unit, ·) = .ok (u, L')) :
    x = .ok L' := by
  cases x with
  | ok =>
    cases h
    rfl
  | error => cases h

/-- What the transactions of an IA_NA keep: allocations, or releases for a message that gives leases
back. `P` is what is known of the addresses that are passed around: the client's own, the hint, and that
of an offer. -/
structure Invariant (c : Config) (s : Scope) (now : Int) (kind : MessageType6) (cid : Duid) (client : String)
    (I : Ledger → Prop) (P : String → Prop) : Prop where
  unnamed : P ""
  hint : ∀ ip, P (IP.text ip)
  current : ∀ {L b}, I L → L.currentClient now s.id client = some b → P b.address
  allocate : kind.givesBack = false → ∀ {L L' requested commit b}, I L → P requested →
    L.allocate now c s.id client (duidMAC cid) "" requested commit = .ok (b, L') → I L' ∧ P b.address
  release : kind.givesBack = true → ∀ {L L' ip decline}, I L →
    L.release now s.id client ip decline = .ok L' → I L'

namespace Invariant

variable {c : Config} {s : Scope} {now : Int} {kind : MessageType6} {cid : Duid} {client : String}
  {I : Ledger → Prop} {P : String → Prop} (h : Invariant c s now kind cid client I P)

include h

theorem requestedAddress (hcurrent : ∀ b, current = some b → P b.address) (ia : IANA) :
    P (requestedAddress current ia) := by
  unfold Addressbook.requestedAddress
  cases current with
  | some b => exact hcurrent b rfl
  | none =>
    cases ia.addresses.head? with
    | none => exact h.unnamed
    | some a => exact h.hint a.ip

section Granting

variable (hgrants : kind.givesBack = false)

include hgrants

theorem tryAllocate {requested : String} (hreq : P requested) (commit : Bool) :
    Keeps I (fun r => ∀ b, r = some b → P b.address)
      (tryAllocate fun L => L.allocate now c s.id client (duidMAC cid) "" requested commit) :=
  keeps_tryAllocate fun _ _ _ hL hstep => h.allocate hgrants hL hreq hstep

theorem targetNA (hcurrent : ∀ b, current = some b → P b.address) (ia : IANA) :
    Keeps I (fun t => ∀ ip, t = some ip → P ip) (targetNA c s now cid client current ia) := by
  unfold Addressbook.targetNA
  refine Keeps.bind (Keeps.ofExcept _ _) fun ok _ => ?_
  split
  · refine Keeps.bind (h.tryAllocate hgrants h.unnamed false) fun offer hoffer => Keeps.pure fun ip hip => ?_
    obtain ⟨b, hb, rfl⟩ := Option.map_eq_some_iff.mp hip
    exact hoffer b hb
  · refine Keeps.pure fun ip hip => ?_
    rw [← Option.some.inj hip]
    exact h.requestedAddress hcurrent ia

theorem grantNA (hcurrent : ∀ b, current = some b → P b.address) (ia : IANA) :
    Keeps I (fun _ => True) (grantNA c s now kind cid client current ia) := by
  unfold Addressbook.grantNA
  refine Keeps.bind (h.targetNA hgrants hcurrent ia) fun target htarget => ?_
  cases target with
  | none => exact Keeps.pure trivial
  | some ip =>
    refine Keeps.bind (h.tryAllocate hgrants (htarget ip rfl) _) fun r _ => ?_
    cases r with
    | none => exact Keeps.pure trivial
    | some => exact Keeps.pure trivial

end Granting

theorem releaseAddress (hreturns : kind.givesBack = true) (current : Binding) (a : IAAddress) :
    Keeps I (fun _ => True) (releaseAddress s now kind client current a) := by
  unfold Addressbook.releaseAddress
  split
  · exact Keeps.pure trivial
  · exact Keeps.transact fun L u L' hL hstep => ⟨h.release hreturns hL (map_unit_ok hstep), trivial⟩

end Invariant

/-- The rule for an IA_NA. -/
theorem handleNA_keeps {c : Config} {kind : MessageType6} {cid : Duid} {I : Ledger → Prop} {P : String → Prop}
    (ia : IANA) (h : Invariant c s now kind cid (pdClient cid ia.iaid) I P) :
    Keeps I (fun _ => True) (handleNA c s now kind cid ia) := by
  unfold handleNA
  refine Keeps.bind (Keeps.stopIf _ _) fun _ _ => ?_
  refine Keeps.bind (Q := fun cur : Option Binding => ∀ b, cur = some b → P b.address)
    (Keeps.read fun L hL b hb => h.current hL hb) fun current hcurrent => ?_
  split
  · rename_i hreturns
    cases current with
    | none => exact Keeps.pure trivial
    | some b =>
      refine Keeps.bind (Keeps.forM fun a _ => h.releaseAddress hreturns b a) fun _ _ => ?_
      exact Keeps.pure trivial
  · rename_i hgrants
    split
    · exact Keeps.pure trivial
    · refine Keeps.bind (h.grantNA (by simpa using hgrants) hcurrent ia) fun r _ => ?_
      cases r with
      | error => exact Keeps.pure trivial
      | ok => exact Keeps.pure trivial

/-- The rule for an IA_PD: it is served by one allocation or one release. -/
theorem handlePD_keeps {kind : MessageType6} {cid : Duid} {via : Option IP} {I : Ledger → Prop} (ia : IAPD)
    (hallocate : ∀ {L L' duidHex hint via commit b}, validClient (pdClient cid ia.iaid) = true → I L →
      L.allocatePrefix now s (pdClient cid ia.iaid) duidHex hint via commit = .ok (b, L') → I L')
    (hrelease : ∀ {L L'}, I L → L.releasePrefix now s (pdClient cid ia.iaid) = .ok L' → I L') :
    Keeps I (fun _ => True) (handlePD s now kind cid via ia) := by
  unfold handlePD
  dsimp only
  split
  · exact Keeps.pure trivial
  · split
    · exact Keeps.pure trivial
    · rename_i hvalid
      refine Keeps.bind (Q := fun _ => True) (Keeps.read fun _ _ => trivial) fun current _ => ?_
      split
      · split
        · exact Keeps.pure trivial
        · refine Keeps.bind (Q := fun _ => True) (Keeps.transact fun L u L' hL h => ⟨?_, trivial⟩)
            fun _ _ => Keeps.pure trivial
          exact hrelease hL (map_unit_ok h)
      · split
        · exact Keeps.pure trivial
        · split
          · exact Keeps.pure trivial
          · refine Keeps.bind (keeps_tryAllocate (Q := fun _ => True) fun L b L' hL h => ⟨?_, trivial⟩)
              fun r _ => ?_
            · exact hallocate (by simpa using hvalid) hL h
            · cases r with
              | none => exact Keeps.pure trivial
              | some => exact Keeps.pure trivial

section Handlers

variable {c : Config} (hc : c.validate = .ok ()) {s : Scope} (hs : s ∈ c.scopes) {now : Int}

include hc hs

theorem reached_invariant (now : Int) (kind : MessageType6) (cid : Duid) (client : String) :
    Invariant c s now kind cid client Reached Zoneless where
  unnamed := zoneless_empty
  hint := zoneless_ipText
  current hL hb := by
    have hfiled := filed_of_reached hL
    exact (hfiled.stored (currentClient_some hfiled hb).1).zoneless
  allocate _ _ _ _ _ _ hL hreq h := by
    have hreached := reached_allocate hc hL hreq h
    have hgranted := allocate_granted hc hs h (filed_of_reached hL) hreq
    exact ⟨hreached, ((filed_of_reached hreached).stored hgranted.stored).zoneless⟩
  release _ _ _ _ _ hL h := reached_release hL h

theorem handlePD_reached (now : Int) (kind : MessageType6) (cid : Duid) (via : Option IP) (ia : IAPD) :
    Keeps Reached (fun _ => True) (handlePD s now kind cid via ia) :=
  handlePD_keeps ia (fun hvalid hL h => reached_allocatePrefix hL ⟨c, hc, hs⟩ (nul_not_mem_client hvalid) h)
    fun hL h => reached_releasePrefix hL h

end Handlers

/-- What is known of a packet once it is opened. -/
def OpenedWell (s : Scope) (packet : Packet6) : Opened → Prop
  | .answered _ => ∃ r, packet.getInnerMessage = some r ∧
      (r.messageType = .informationRequest ∨ r.messageType = .confirm)
  | .serve r cid _ => packet.getInnerMessage = some r ∧ r.clientIDs.head? = some cid ∧ s.is6 = true ∧
      s.enabled = true ∧ r.messageType ≠ .confirm ∧ (r.ianas.map (·.iaid)).Nodup

section Opening

variable {I : Ledger → Prop}
  (hI : ∀ (uuid : Fin 16 → Fin 256) (L : Ledger), I L →
    I { L with duid := if L.duid = [] then 0 :: 4 :: (List.ofFn uuid).map Fin.val else L.duid })

include hI

theorem serverDUID_keeps (uuid : Fin 16 → Fin 256) : Keeps I (fun _ => True) (serverDUID uuid) := by
  unfold serverDUID
  refine Keeps.bind (Q := fun _ => True) (Keeps.transact fun L raw L' hL h => ⟨?_, trivial⟩) fun raw _ => ?_
  · rw [pure_eq_ok, Prod.mk.injEq] at h
    rw [← h.2]
    exact hI uuid L hL
  · split
    · exact Keeps.pure trivial
    · exact Keeps.throw _

/-- Opening a packet writes no more than the identity of the server. -/
theorem openMessage_keeps (s : Scope) (uuid : Fin 16 → Fin 256) (packet : Packet6) :
    Keeps I (OpenedWell s packet) (openMessage s uuid packet) := by
  unfold openMessage
  split
  · exact Keeps.throw _
  · rename_i r hr
    refine Keeps.bind (Keeps.stopIf _ _) fun _ henabled => Keeps.bind (Keeps.stopIf _ _) fun _ _ =>
      Keeps.bind (Keeps.stopIf _ _) fun _ _ => Keeps.bind (Keeps.stopIf _ _) fun _ _ =>
      Keeps.bind (serverDUID_keeps hI uuid) fun server _ => Keeps.bind (Keeps.stopIf _ _) fun _ _ =>
      Keeps.bind (Keeps.stopIf _ _) fun _ _ => ?_
    split
    · rename_i hinformation
      exact Keeps.pure ⟨r, hr, Or.inl hinformation⟩
    · refine Keeps.bind (Keeps.stopIf _ _) fun _ _ => Keeps.bind (Keeps.stopIf _ _) fun _ hnodup => ?_
      split
      · rename_i hconfirm
        exact Keeps.pure ⟨r, hr, Or.inr hconfirm⟩
      · rename_i hconfirm
        split
        · rename_i cid hcid
          simp only [Bool.or_eq_false_iff, Bool.not_eq_false', decide_eq_true_eq] at henabled hnodup
          exact Keeps.pure ⟨hr, hcid, henabled.1, henabled.2, hconfirm, hnodup.1⟩
        · exact Keeps.throw _

end Opening

/-- The rule for a DHCPv4 packet: it is served by one allocation or one release. -/
theorem handle4_keeps {c : Config} {I : Ledger → Prop} (r : Message4) (hallocate : ∀ {L L' commit b}, I L →
      L.allocate now c s.id (client4 r) (macText r.hwAddr) r.hostName (requested4 r) commit = .ok (b, L') → I L')
    (hrelease : ∀ {L L' decline}, I L → L.release now s.id (client4 r) (requested4 r) decline = .ok L' → I L') :
    Keeps I (fun _ => True) (handle4 c s now r) := by
  unfold handle4
  refine Keeps.bind (Keeps.stopIf _ _) fun _ _ => Keeps.bind (Keeps.stopIf _ _) fun _ _ =>
    Keeps.bind (Keeps.stopIf _ _) fun _ _ => ?_
  split
  · refine Keeps.bind (Q := fun _ => True) (Keeps.transact fun L b L' hL h => ⟨?_, trivial⟩) fun b _ =>
      Keeps.ofExcept _ _
    exact hallocate hL h
  · refine Keeps.bind (keeps_tryAllocate (Q := fun _ => True) fun L b L' hL h => ⟨?_, trivial⟩) fun r _ => ?_
    · exact hallocate hL h
    · cases r with
      | none => exact Keeps.pure trivial
      | some => exact Keeps.ofExcept _ _
  · refine Keeps.bind (Q := fun _ => True) (Keeps.transact fun L u L' hL h => ⟨?_, trivial⟩) fun _ _ =>
      Keeps.throw _
    exact hrelease hL (map_unit_ok h)
  · refine Keeps.bind (Q := fun _ => True) (Keeps.transact fun L u L' hL h => ⟨?_, trivial⟩) fun _ _ =>
      Keeps.throw _
    exact hrelease hL (map_unit_ok h)
  · exact Keeps.pure trivial
  all_goals exact Keeps.throw _

section Handlers

variable {c : Config} (hc : c.validate = .ok ()) {s : Scope} (hs : s ∈ c.scopes) (now : Int)

include hc hs

/-- Whatever a DHCPv6 packet does to the ledger, the operations do. -/
theorem handle6Via_reached (uuid : Fin 16 → Fin 256) (packet : Packet6) (via : Option IP) :
    Keeps Reached (fun _ => True) (handle6Via c s now uuid packet via) := by
  unfold handle6Via
  refine Keeps.bind (openMessage_keeps (fun _ L hL => hL.identify _) s uuid packet) fun opened _ => ?_
  cases opened with
  | answered => exact Keeps.pure trivial
  | serve r cid reply =>
    show Keeps Reached _ (serveMessage c s now via r cid reply)
    unfold serveMessage
    refine Keeps.bind (Keeps.mapM fun ia _ => handleNA_keeps ia (reached_invariant hc hs now _ cid _)) fun ianas _ =>
      Keeps.bind (Keeps.stopIf _ _) fun _ _ =>
      Keeps.bind (Keeps.mapM fun ia _ => handlePD_reached hc hs now _ cid via ia) fun iapds _ =>
      Keeps.pure trivial

omit hc hs in
theorem requested4_zoneless (r : Message4) : Zoneless (requested4 r) := by
  unfold requested4
  split
  · exact zoneless_ipText _
  · split
    · exact zoneless_ipText _
    · exact zoneless_empty

end Handlers

end Ghostd.Proofs.Addressbook
