import Ghostd.Lib.Runs
import Ghostd.Proofs.Addressbook.Offer
import Ghostd.Proofs.Addressbook.Sightings

/-!
# `Ghostd.Proofs.Addressbook.Repairs`: how long an operator's repair stands

`Repair` writes the device, name and node that an operator chose into a live binding, and marks it by
its evidence. `Report` refuses to touch a binding so marked, unless the report comes from the very node
that the operator named: then it gives the binding its own device and name. `Allocate` carries the
identity of a running lease on, but puts an earlier persisted association before it.

So a repair stands along every run in which a report of the named node finds the operator's device in
the inventory, and a renewal finds no other association of the client (`repair_stands`). The step lemmas
are `report_keeps_identity` and `allocate_keeps_identity`; the rest of the run does not touch a lease that
lives.
-/

set_option autoImplicit false

namespace Ghostd.Proofs.Addressbook

open Ghostd.Lib Ghostd.Addressbook List

variable {c : Config} {L L' : Ledger} {found : List Binding} {node : Node} {device name : String} {now : Int}
    {b : Binding} {d : DeviceConfig}

/-! ### The identity that a report stands for -/

theorem device_id {id : String} (h : c.device id = some d) : d.id = id := by
  simpa using List.find?_some h

/-- A match whose device is declared decides the identity. -/
theorem judge_declared {start acc : String × String} (h : found.foldlM (judgeMatch c node) start = .ok acc)
    (hid : d.id ≠ "") (hd : c.device d.id = some d)
    (hmem : start = (d.id, d.name) ∨ ∃ b ∈ found, c.device b.device = some d) : acc = (d.id, d.name) := by
  induction found generalizing start with
  | nil =>
    rw [foldlM_nil, pure_eq_ok] at h
    rcases hmem with hmem | ⟨b, hb, -⟩
    · rw [← h, hmem]
    · cases hb
  | cons b found ih =>
    rw [foldlM_cons, bind_eq_ok] at h
    obtain ⟨next, hnext, h⟩ := h
    refine ih h ?_
    simp only [judgeMatch, bind_eq_ok, refuseIf_eq_ok, exists_const] at hnext
    obtain ⟨-, hnext⟩ := hnext
    cases hb : c.device b.device with
    | none =>
      rw [hb, pure_eq_ok] at hnext
      rw [← hnext]
      rcases hmem with hmem | ⟨b', hb', hd'⟩
      · exact Or.inl hmem
      · rcases mem_cons.mp hb' with rfl | hb'
        · rw [hb] at hd'
          cases hd'
        · exact Or.inr ⟨b', hb', hd'⟩
    | some d' =>
      rw [hb] at hnext
      simp only [bind_eq_ok, refuseIf_eq_ok, exists_const, pure_eq_ok] at hnext
      obtain ⟨-, hspan, rfl⟩ := hnext
      rcases hmem with rfl | ⟨b', hb', hd'⟩
      · -- A second declared device would have been refused.
        have hsame : d.id = d'.id := by
          by_contra hne
          simp [hid, hne] at hspan
        rw [← device_id hb, ← hsame, hd, Option.some.injEq] at hb
        exact Or.inl (by rw [hb])
      · rcases mem_cons.mp hb' with rfl | hb'
        · rw [hb, Option.some.injEq] at hd'
          exact Or.inl (by rw [hd'])
        · exact Or.inr ⟨b', hb', hd'⟩

theorem reportIdentity_declared (h : reportIdentity L now c node found = .ok (device, name)) (hb : b ∈ found)
    (hid : d.id ≠ "") (hd : c.device b.device = some d) : device = d.id ∧ name = d.name := by
  simp only [reportIdentity, bind_eq_ok] at h
  obtain ⟨⟨device', name'⟩, hfold, h⟩ := h
  have hsame : c.device d.id = some d := by rwa [device_id hd]
  obtain ⟨rfl, rfl⟩ := Prod.mk.inj (judge_declared hfold hid hsame (Or.inr ⟨b, hb, hd⟩))
  simp only [if_neg hid, pure_eq_ok, Prod.mk.injEq] at h
  exact ⟨h.1.symm, h.2.symm⟩

/-- A match with a node, whose device is not declared, is of the node that reports. -/
theorem judge_node {start acc : String × String} (h : found.foldlM (judgeMatch c node) start = .ok acc)
    (hb : b ∈ found) (hnode : b.nodeID ≠ "") (hd : c.device b.device = none) : b.nodeID = node.id := by
  induction found generalizing start with
  | nil => cases hb
  | cons m found ih =>
    rw [foldlM_cons, bind_eq_ok] at h
    obtain ⟨next, hnext, h⟩ := h
    rcases mem_cons.mp hb with rfl | hb
    · simp only [judgeMatch, bind_eq_ok, refuseIf_eq_ok, exists_const, hd] at hnext
      by_contra hne
      simp [hnode, hne] at hnext
    · exact ih h hb

/-- A report that succeeds has met no operator's repair for another node. -/
theorem joinReport_unrepaired (h : found.foldlM (associate now node device name) L = .ok L') (hb : b ∈ found)
    (hoperator : startsWith b.evidence "operator repair:" = true) : b.nodeID = node.id := by
  induction found generalizing L with
  | nil => cases hb
  | cons m found ih =>
    rw [foldlM_cons, bind_eq_ok] at h
    obtain ⟨L1, hstep, h⟩ := h
    rcases mem_cons.mp hb with rfl | hb
    · simp only [associate, bind_eq_ok, refuseIf_eq_ok, exists_const] at hstep
      by_contra hne
      simp [hoperator, hne] at hstep
    · exact ih h hb

/-! ### A lease with an identity -/

/-- Somebody answers for the identity of the binding: an operator, a node or the inventory. -/
def Vouched (b : Binding) : Prop :=
  startsWith b.evidence "operator repair:" = true ∨ b.nodeID ≠ "" ∨ b.evidence = "inventory reservation"

/-- At the key is an active lease of the client, with the device and the name. -/
def Stands (L : Ledger) (k client device name : String) : Prop :=
  ∃ b, L.bindings.get k = some b ∧ b.state = .active ∧ b.client = client ∧ b.device = device ∧ b.name = name ∧
    Vouched b

/-- Neither a reservation nor the inventory has another identity for the binding. -/
def Uncontested (b : Binding) : Operation → Prop
  | .report c _ =>
    (∀ d, c.device b.device = some d → d.name = b.name) ∧
      (b.evidence = "inventory reservation" → (c.device b.device).isSome)
  | .allocate c scopeID client mac _ _ _ =>
    ∀ s m r, c.scope scopeID = some s → canonicalMAC s mac = .ok m → scopeID = b.scope → client = b.client →
      reservation s client m = some r → ∃ d, c.device r.device = some d ∧ d.id = b.device ∧ d.name = b.name
  | _ => True

/-- The operation defers to the operator. A report of the named node that lists the address finds the device
in the inventory; the client's association, if there is one, says the same. -/
def Defers (L : Ledger) (b : Binding) : Operation → Prop
  | .report c node =>
    node.id = b.nodeID → (∃ iface ∈ node.interfaces, b.address ∈ iface.addresses) → (c.device b.device).isSome
  | .allocate _ _ client _ _ _ _ =>
    client = b.client → ∀ a, L.readAssociation client = some a → a.device = b.device ∧ a.name = b.name
  | _ => True

theorem associated_identity (L : Ledger) (now : Int) (node : Node) (device name : String) (b : Binding) :
    (associated L now node device name b).device = device ∧ (associated L now node device name b).name = name ∧
      (associated L now node device name b).nodeID = node.id := by
  unfold associated
  simp only
  split
  · split <;> exact ⟨rfl, rfl, rfl⟩
  · exact ⟨rfl, rfl, rfl⟩

theorem checkReport_id {u : Unit} (h : checkReport node = .ok u) : node.id ≠ "" := by
  simp only [checkReport, bind_eq_ok, refuseIf_eq_ok, exists_const, Bool.or_eq_false_iff,
    decide_eq_false_iff_not] at h
  exact h.1.1

/-- A report that succeeds stands for the identity of a vouched match: it was refused otherwise, or the
inventory has the device. -/
theorem joinReport_identity (hc : c.validate = .ok ()) {joined : List Binding}
    (hjoin : L.joinReport now c node = .ok (joined, L'))
    (hfound : reportMatches L now c { node with seen := now } = .ok found)
    (hidentity : reportIdentity L now c { node with seen := now } found = .ok (device, name)) (hb : b ∈ found)
    (hvouched : Vouched b) (huncontested : Uncontested b (.report c node))
    (hdefers : node.id = b.nodeID → (c.device b.device).isSome) : b.device = device ∧ b.name = name := by
  simp only [Ledger.joinReport, bind_eq_ok, pure_eq_ok, hfound, Except.ok.injEq, exists_eq_left', hidentity] at hjoin
  obtain ⟨L1, hassociate, -⟩ := hjoin
  have hdeclared : (c.device b.device).isSome := by
    by_contra hnone
    rw [Option.not_isSome_iff_eq_none] at hnone
    have hother : b.nodeID ≠ node.id := fun hsame => by
      have := hdefers hsame.symm
      rw [hnone] at this
      cases this
    rcases hvouched with hoperator | hnode | hinventory
    · exact hother (joinReport_unrepaired hassociate hb hoperator)
    · simp only [reportIdentity, bind_eq_ok] at hidentity
      obtain ⟨acc, hfold, -⟩ := hidentity
      exact hother (judge_node hfold hb hnode hnone)
    · have := huncontested.2 hinventory
      rw [hnone] at this
      cases this
  obtain ⟨d, hd⟩ := Option.isSome_iff_exists.mp hdeclared
  have hid : d.id ≠ "" := by
    intro hempty
    have hlabel := (labels_of_device hc (mem_of_find?_eq_some hd)).1
    rw [hempty] at hlabel
    cases hlabel
  obtain ⟨rfl, rfl⟩ := reportIdentity_declared hidentity hb hid hd
  exact ⟨(device_id hd).symm, (huncontested.1 d hd).symm⟩

/-- The identity of a running lease is carried on where association and reservation, if there are any, say
the same. -/
theorem leaseIdentity_kept {s : Scope} {old : Binding} (hclient : old.client = b.client)
    (hends : now < old.endsAt) (hstate : old.state = .active) (hvouched : Vouched old)
    (hassociation : ∀ a, L.readAssociation b.client = some a → a.device = old.device ∧ a.name = old.name)
    (hreservation : ∀ r, reservation s b.client b.mac = some r →
      ∃ d, c.device r.device = some d ∧ d.id = old.device ∧ d.name = old.name) :
    (leaseIdentity L now c s old b).device = old.device ∧ (leaseIdentity L now c s old b).name = old.name ∧
      Vouched (leaseIdentity L now c s old b) := by
  have hcarry : old.client = b.client ∧ old.endsAt > now ∧ old.state ≠ .declined :=
    ⟨hclient, hends, by rw [hstate]; decide⟩
  unfold leaseIdentity
  simp only [if_pos hcarry]
  cases ha : L.readAssociation b.client with
  | none =>
    cases hr : reservation s b.client b.mac with
    | none => exact ⟨rfl, rfl, hvouched⟩
    | some r =>
      obtain ⟨d, hd, hdevice, hname⟩ := hreservation r hr
      simp only [hd, Option.getD_some]
      exact ⟨hdevice, hname, Or.inr (Or.inr rfl)⟩
  | some a =>
    obtain ⟨hdevice, hname⟩ := hassociation a ha
    cases hr : reservation s b.client b.mac with
    | none =>
      refine ⟨hdevice, hname, Or.inl ?_⟩
      simp [startsWith]
    | some r =>
      obtain ⟨d, hd, hdevice, hname⟩ := hreservation r hr
      simp only [hd, Option.getD_some]
      exact ⟨hdevice, hname, Or.inr (Or.inr rfl)⟩

/-- Device, name, node and evidence of a new lease. -/
theorem newLease_identity (L : Ledger) (now : Int) (c : Config) (s : Scope) (client mac claimed ip : String)
    (commit : Bool) :
    ∃ base : Binding, base.client = client ∧ base.mac = mac ∧
      let r := (newLease L now c s client mac claimed ip commit).1
      let identity := leaseIdentity L now c s (L.readBinding s.id ip) base
      r.device = identity.device ∧ r.name = identity.name ∧ r.nodeID = identity.nodeID ∧
        r.evidence = identity.evidence := by
  refine ⟨{ scope := s.id, address := ip, client := client, mac := mac, claimedName := claimed,
            state := .offered, origin := if s.is6 then .dhcpv6 else .dhcpv4, start := now, endsAt := now + 30,
            duid := if s.is6 then (clientParts client).1 else "",
            iaid := if s.is6 then (clientParts client).2 else "" }, rfl, rfl, ?_⟩
  unfold newLease
  cases commit with
  | true => exact ⟨rfl, rfl, rfl, rfl⟩
  | false => exact ⟨rfl, rfl, rfl, rfl⟩

section Steps

variable {L : Ledger} {now : Int} {k : String} {b : Binding}

/-- A report that the binding is matched with keeps its identity. -/
theorem report_keeps_identity (hL : Reached L) (hb : L.bindings.get k = some b) (hstate : b.state = .active)
    (hends : now < b.endsAt) (hvouched : Vouched b) (hc : c.validate = .ok ())
    (huncontested : Uncontested b (.report c node)) (hdefers : Defers L b (.report c node)) :
    Stands (L.report now c node).2 k b.client b.device b.name := by
  have hsame : Stands L k b.client b.device b.name := ⟨b, hb, hstate, rfl, rfl, rfl, hvouched⟩
  have hfiled := filed_of_reached hL
  have hsighted := sightedAt_of_reached hL
  have hkey := hfiled.sound.keyed hb
  have hlive : b.live now = true := by simp [Binding.live, hstate, liveState, hends]
  unfold Ledger.report
  cases hcheck : checkReport node with
  | error => exact hsame
  | ok =>
    cases hjoin : L.joinReport now c node with
    | error e => cases e <;> exact hsame
    | ok r =>
      obtain ⟨joined, L'⟩ := r
      obtain ⟨found, device, name, hfound, hidentity, hsaves⟩ := joinReport_saves hjoin
      show Stands L' k b.client b.device b.name
      rcases report_writes hsaves k with hget | ⟨m, hm, hmkey, hget⟩
      · exact ⟨b, by rw [hget]; exact hb, hstate, rfl, rfl, rfl, hvouched⟩
      · obtain ⟨iface, hiface, text, htext, hcandidate⟩ := reportMatches_candidate hfound m hm
        cases hcandidate with
        | sighted ip _ sc _ p _ o hseen _ hfree hm =>
          -- Nothing live is left to a sighting.
          have hread : L.readBinding o.scope o.address = b := by
            refine readBinding_of_get ?_
            rw [← hb, ← hmkey, hm]
            rfl
          rw [hread, hlive] at hfree
          cases hfree
        | found hmem _ _ _ =>
          have hstored := get_of_liveByAddress hfiled.sound hmem
          rw [hmkey, hb, Option.some.injEq] at hstored
          subst hstored
          have hlisted : ∃ iface ∈ node.interfaces, b.address ∈ iface.addresses :=
            ⟨iface, hiface, by rw [address_of_liveByAddress hfiled hmem]; exact htext⟩
          obtain ⟨rfl, rfl⟩ :=
            joinReport_identity hc hjoin hfound hidentity hm hvouched huncontested
              fun hnode => hdefers hnode hlisted
          obtain ⟨-, -, hclient, hstate', -, -⟩ :=
            associated_fields L now { node with seen := now } b.device b.name b
          obtain ⟨hdevice, hname, hnodeID⟩ :=
            associated_identity L now { node with seen := now } b.device b.name b
          refine ⟨_, hget, hstate'.trans hstate, hclient, hdevice, hname, Or.inr (Or.inl ?_)⟩
          rw [hnodeID]
          exact checkReport_id hcheck

/-- An allocation keeps the identity of a lease that lives: it is of another address, or a renewal. -/
theorem allocate_keeps_identity (hL : Reached L) (hb : L.bindings.get k = some b) (hstate : b.state = .active)
    (hends : now < b.endsAt) (hvouched : Vouched b) (hc : c.validate = .ok ())
    {scopeID client mac claimed requested : String} {commit : Bool}
    (huncontested : Uncontested b (.allocate c scopeID client mac claimed requested commit))
    (hdefers : Defers L b (.allocate c scopeID client mac claimed requested commit)) {r : Binding}
    (h : L.allocate now c scopeID client mac claimed requested commit = .ok (r, L')) :
    Stands L' k b.client b.device b.name := by
  have hsame : Stands L k b.client b.device b.name := ⟨b, hb, hstate, rfl, rfl, rfl, hvouched⟩
  have hkey := (filed_of_reached hL).sound.keyed hb
  have hlive : b.live now = true := by simp [Binding.live, hstate, liveState, hends]
  obtain ⟨s, m, ip, hs, henabled, hvalid, hmac, hfamily, hchosen, hcases⟩ := allocate_cases h
  rcases hcases with ⟨-, -, -, -, -, rfl⟩ | ⟨hr, hnot, hL'⟩
  · exact hsame
  · have hfields := newLease_fields L now c s client m claimed ip commit
    by_cases hk : r.key = k
    · -- A renewal: the address is the client's own.
      have hwrite : AllocateWrite now c scopeID client mac claimed requested commit L r
          (newLease L now c s client m claimed ip commit).2 :=
        ⟨s, m, ip, hs, henabled, hvalid, hmac, hfamily, hchosen, by rw [hr]⟩
      obtain ⟨-, -, hown, -⟩ := (allocate_guard hc hwrite).2 b (by rw [hk]; exact hb) hlive
      rw [← hr] at hfields
      have hclient : client = b.client := by rw [← hfields.client, hown]
      have hrkey : bindingKey s.id ip = k := by rw [← hfields.scope, ← hfields.address]; exact hk
      have hread : L.readBinding s.id ip = b := readBinding_of_get (by rw [hrkey]; exact hb)
      have hscope : scopeID = b.scope := by
        obtain ⟨-, hid⟩ := mem_of_scope hs
        have hslash : '/' ∉ s.id.toList := by
          rw [hid]
          exact slash_not_mem_label (label_of_scope hc hs)
        rw [← hid]
        exact (bindingKey_inj hslash ((filed_of_reached hL).stored hb).slashless (hrkey.trans hkey.symm)).1
      have hcommit : commit = true := by
        by_contra hoffer
        exact hnot ⟨by simpa using hoffer, by rw [hread, hclient], by rw [hread, hstate], by rw [hread]; exact hends⟩
      obtain ⟨base, hbclient, hbmac, hdevice, hname, hnodeID, hevidence⟩ :=
        newLease_identity L now c s client m claimed ip commit
      rw [hread] at hdevice hname hnodeID hevidence
      obtain ⟨hkept, hkeptName, hkeptVouched⟩ := leaseIdentity_kept (L := L) (c := c) (s := s) (b := base)
        (by rw [hbclient, hclient]) hends hstate hvouched
        (by
          rw [hbclient]
          exact fun a ha => hdefers hclient a ha)
        (by
          rw [hbclient, hbmac]
          exact fun r hr => huncontested s m r hs hmac hscope hclient hr)
      rw [hL']
      refine ⟨r, by rw [get_save, if_pos hk.symm], ?_, hown, ?_, ?_, ?_⟩
      · rw [hfields.state, if_pos hcommit]
      · rw [hr, hdevice, hkept]
      · rw [hr, hname, hkeptName]
      · unfold Vouched
        rw [hr, hnodeID, hevidence]
        exact hkeptVouched
    · rw [hL']
      refine ⟨b, ?_, hstate, rfl, rfl, rfl, hvouched⟩
      rw [get_save, if_neg (Ne.symm hk)]
      exact hb

/-- Expiry does not touch a lease that lives. -/
theorem expire_keeps (hL : Sound L) (hb : L.bindings.get k = some b) (hends : now < b.endsAt) :
    (L.expire now).bindings.get k = some b := by
  have hall := (expire_saves L now).invariant (I := fun L1 => Sound L1 ∧ L1.bindings.get k = some b) ?_ ?_ ⟨hL, hb⟩
  · exact hall.2
  · intro L1 L2 haside h1
    exact ⟨h1.1.aside haside, by rw [haside.bindings]; exact h1.2⟩
  · intro L1 b' kind hb' h1
    obtain ⟨k0, b0, hget, -, hover, rfl⟩ := hb'
    refine ⟨h1.1.save now _ kind, ?_⟩
    have hkey : b0.key = k0 := h1.1.keyed hget
    rw [get_save, if_neg]
    · exact h1.2
    · intro hk
      have hsame : k = k0 := hk.trans hkey
      rw [← hsame, h1.2, Option.some.injEq] at hget
      rw [← hget] at hover
      omega

end Steps

/-! ### Runs -/

/-- What the daemon does by itself: reports, leases, expiry and sightings. -/
def Operation.Automatic : Operation → Prop
  | .report .. | .allocate .. | .expire | .observe .. | .observeSwitch .. => True
  | _ => False

/-- The step comes while the lease at the key lives, nothing contests the identity, and it defers to the
operator. -/
def Respects (k : String) (L : Ledger) (st : Step) : Prop :=
  Operation.Called st.op ∧ Operation.Automatic st.op ∧
    ∀ b, L.bindings.get k = some b → st.time < b.endsAt ∧ Uncontested b st.op ∧ Defers L b st.op

theorem Stands.step {k client : String} (hL : Reached L) (h : Stands L k client device name) {st : Step}
    (hst : Respects k L st) : Stands (st.op.apply st.time L) k client device name := by
  obtain ⟨hcalled, hautomatic, hb⟩ := hst
  obtain ⟨b, hget, hstate, rfl, rfl, rfl, hvouched⟩ := h
  obtain ⟨hends, huncontested, hdefers⟩ := hb b hget
  have hsame : Stands L k b.client b.device b.name := ⟨b, hget, hstate, rfl, rfl, rfl, hvouched⟩
  obtain ⟨now, op⟩ := st
  cases op with
  | report => exact report_keeps_identity hL hget hstate hends hvouched hcalled huncontested hdefers
  | allocate c scopeID client =>
    exact settle_map_cases (Q := fun L' => Stands L' k b.client b.device b.name) hsame fun r L' h =>
      allocate_keeps_identity hL hget hstate hends hvouched hcalled.1 huncontested hdefers h
  | expire =>
    exact ⟨b, expire_keeps (filed_of_reached hL).sound hget hends, hstate, rfl, rfl, rfl, hvouched⟩
  | observe =>
    rw [apply_observe]
    exact ⟨b, by rw [(notes_rest _ L _).1]; exact hget, hstate, rfl, rfl, rfl, hvouched⟩
  | observeSwitch =>
    rw [apply_observeSwitch]
    exact ⟨b, by rw [(notes_rest _ L _).1]; exact hget, hstate, rfl, rfl, rfl, hvouched⟩
  | release => exact hautomatic.elim
  | allocatePrefix => exact hautomatic.elim
  | releasePrefix => exact hautomatic.elim
  | importDocument => exact hautomatic.elim
  | repair => exact hautomatic.elim
  | abandonDelegations => exact hautomatic.elim

/-! ### What a repair sets -/

theorem repairOne_writes (hL : Sound L) {r : IdentityRepair} (h : repairOne now c L r = .ok L') :
    Sound L' ∧ (repaired L r).state = .active ∧ (repaired L r).client = r.client ∧
      ∀ k, L'.bindings.get k = if k = bindingKey r.scope r.address then some (repaired L r) else L.bindings.get k := by
  have hrepair := repairOne_accepted h
  have hkey : (repaired L r).key = bindingKey r.scope r.address := by
    rw [← hL.keyed hrepair.stored]
    rfl
  have haside := putAssociation_aside (L.save now (repaired L r) .identityRepair) now hrepair.label
  rw [hrepair.result]
  refine ⟨(hL.save now _ _).aside haside, hrepair.active, hrepair.client, fun k => ?_⟩
  rw [haside.bindings, get_save, hkey]

/-- What the last repair of a key has set is there afterwards. -/
theorem repair_sets (hL : Sound L) {before after : List IdentityRepair} {r : IdentityRepair}
    (h : L.repair now c (before ++ r :: after) = .ok L')
    (hlast : ∀ r' ∈ after, bindingKey r'.scope r'.address ≠ bindingKey r.scope r.address) :
    Stands L' (bindingKey r.scope r.address) r.client r.device r.name := by
  simp only [Ledger.repair, bind_eq_ok, refuseIf_eq_ok, exists_const, foldlM_append, foldlM_cons] at h
  obtain ⟨-, L1, hbefore, L2, hone, hafter⟩ := h
  have hL1 : Sound L1 := foldlM_invariant (I := Sound) (fun _ _ _ _ h1 hstep => (repairOne_writes h1 hstep).1) hL hbefore
  obtain ⟨hL2, hstate, hclient, hget⟩ := repairOne_writes hL1 hone
  have hvouched : Vouched (repaired L1 r) := Or.inl (by simp [repaired, startsWith])
  have hset : L2.bindings.get (bindingKey r.scope r.address) = some (repaired L1 r) := by rw [hget, if_pos rfl]
  refine ⟨repaired L1 r, ?_, hstate, hclient, rfl, rfl, hvouched⟩
  -- The repairs after it are of other keys.
  have hall := foldlM_invariant
    (I := fun L => Sound L ∧ L.bindings.get (bindingKey r.scope r.address) = some (repaired L1 r)) ?_ ⟨hL2, hset⟩ hafter
  · exact hall.2
  · intro r' hr' L3 L4 h3 hstep
    obtain ⟨hsound, -, -, hget'⟩ := repairOne_writes h3.1 hstep
    refine ⟨hsound, ?_⟩
    rw [hget', if_neg (Ne.symm (hlast r' hr'))]
    exact h3.2

/-! ### The result -/

/-- An operator's repair stands. Take a ledger, a repair and a run of reports, leases, expiry and sightings
after it, and as long as every step of the run comes while the lease lives and respects it. Then in every
state of the run the lease is the client's, with the operator's device and name. -/
theorem repair_stands {L₀ L : Ledger} (hL₀ : Reached L₀) {now : Int} {c : Config} (hc : c.validate = .ok ())
    {before after : List IdentityRepair} {r : IdentityRepair}
    (hrepair : L₀.repair now c (before ++ r :: after) = .ok L)
    (hlast : ∀ r' ∈ after, bindingKey r'.scope r'.address ≠ bindingKey r.scope r.address) {steps : List Step}
    (hsteps : Throughout (fun L st => st.op.apply st.time L) (Respects (bindingKey r.scope r.address)) L steps)
    {until_ : List Step} (huntil : until_ <+: steps) :
    ∃ b, (run L until_).bindings.get (bindingKey r.scope r.address) = some b ∧ b.state = .active ∧
      b.client = r.client ∧ b.device = r.device ∧ b.name = r.name := by
  have hL : Reached L := by
    have hop : Operation.Called (.repair c (before ++ r :: after)) := hc
    have hreached := hL₀.operate now hop
    simp only [Operation.apply, hrepair, Ledger.settle] at hreached
    exact hreached
  have hstands := repair_sets (filed_of_reached hL₀).sound hrepair hlast
  obtain ⟨-, b, hget, hstate, hclient, hdevice, hname, -⟩ := hsteps.invariant
    (I := fun L => Reached L ∧ Stands L (bindingKey r.scope r.address) r.client r.device r.name)
    (fun L st h hst => ⟨h.1.operate st.time hst.1, h.2.step h.1 hst⟩) ⟨hL, hstands⟩ huntil
  exact ⟨b, hget, hstate, hclient, hdevice, hname⟩

/-- A repair that is accepted is the step of a run. -/
theorem repair_eq_apply {changes : List IdentityRepair} (h : (L.repair now c changes).toBool = true) :
    L.repair now c changes = .ok ((Operation.repair c changes).apply now L) := by
  show L.repair now c changes = .ok (L.settle (L.repair now c changes))
  cases hr : L.repair now c changes with
  | error =>
    rw [hr] at h
    cases h
  | ok => rfl

/-- An operator names the holder of 10.0.0.5, and the node it is. -/
def nameFive (expected device : String) (persist : Bool) : IdentityRepair where
  scope := "lan"
  address := "10.0.0.5"
  client := "mac:02:00:00:00:00:01"
  expectedDevice := expected
  device := device
  name := device
  nodeID := "n1"
  reason := "verified"
  persist := persist

/-- A node reports the address of that client. -/
def laptop (id : String) : Node where
  id := id
  dnsName := "laptop.ts.net"
  interfaces := [{ mac := "02:00:00:00:00:01", addresses := ["10.0.0.5"] }]

/-- The client is granted the address, and an operator repairs the binding. -/
def kitchen : List Step :=
  [requestFive 0 7200 "01",
    ⟨10, .repair (smallLan 7200) [nameFive (deviceID "lan" "mac:02:00:00:00:00:01") "kitchen" false]⟩]

/-- The name and device of a binding. -/
def identityAt (L : Ledger) (k : String) : Option (String × String) :=
  (L.bindings.get k).map fun b => (b.device, b.name)

/-- Another node's report and a renewal leave the repair. -/
theorem repair_stands_kitchen :
    identityAt (run (run {} kitchen) [⟨20, .report (smallLan 7200) (laptop "n2")⟩, requestFive 30 7200 "01"])
      "lan/10.0.0.5" = some ("kitchen", "kitchen") := by
  have hc : (smallLan 7200).validate = .ok () := by decide +kernel
  have hcalled : ∀ {time : Int}, Operation.Called (requestFive time 7200 "01").op := by
    intro time
    refine ⟨hc, ?_⟩
    exact PlainAddress.zoneless ⟨((parseAddr "10.0.0.5").get (by decide)), by decide, by decide⟩
  have hL0 : Reached (run {} [requestFive 0 7200 "01"]) := by
    refine reached_run fun st hst => ?_
    rw [mem_singleton.mp hst]
    exact hcalled
  -- What the steps of the run are judged by.
  let held : Binding → Int × String × String := fun b => (b.endsAt, b.nodeID, b.evidence)
  have hfacts : ((run {} [requestFive 0 7200 "01"]).repair 10 (smallLan 7200)
        [nameFive (deviceID "lan" "mac:02:00:00:00:00:01") "kitchen" false]).toBool = true ∧
      ((run {} kitchen).bindings.get "lan/10.0.0.5").map held = some (7200, "n1", "operator repair: verified") ∧
      (((Operation.report (smallLan 7200) (laptop "n2")).apply 20 (run {} kitchen)).bindings.get
        "lan/10.0.0.5").map held = some (7200, "n1", "operator repair: verified") ∧
      ((Operation.report (smallLan 7200) (laptop "n2")).apply 20 (run {} kitchen)).readAssociation
        "mac:02:00:00:00:00:01" = none := by
    decide +kernel
  have hrepair : (run {} [requestFive 0 7200 "01"]).repair 10 (smallLan 7200)
      ([] ++ nameFive (deviceID "lan" "mac:02:00:00:00:00:01") "kitchen" false :: []) = .ok (run {} kitchen) := by
    have hrun : run {} kitchen = (Operation.repair (smallLan 7200)
        [nameFive (deviceID "lan" "mac:02:00:00:00:00:01") "kitchen" false]).apply 10
          (run {} [requestFive 0 7200 "01"]) := run_concat {} [requestFive 0 7200 "01"] _
    rw [hrun]
    exact repair_eq_apply hfacts.1
  have hfound : ∀ {L : Ledger} {b : Binding}, (L.bindings.get "lan/10.0.0.5").map held =
      some (7200, "n1", "operator repair: verified") →
      L.bindings.get "lan/10.0.0.5" = some b →
        b.endsAt = 7200 ∧ b.nodeID = "n1" ∧ b.evidence = "operator repair: verified" := by
    intro L b h hb
    rw [hb, Option.map_some, Option.some.injEq, Prod.mk.injEq, Prod.mk.injEq] at h
    exact h
  have hsteps : Throughout (fun L st => st.op.apply st.time L) (Respects "lan/10.0.0.5") (run {} kitchen)
      [⟨20, .report (smallLan 7200) (laptop "n2")⟩, requestFive 30 7200 "01"] := by
    refine ⟨⟨hc, trivial, ?_⟩, ⟨hcalled, trivial, ?_⟩, trivial⟩
    · intro b hb
      obtain ⟨hends, hnode, hevidence⟩ := hfound hfacts.2.1 hb
      refine ⟨by rw [hends]; decide, ⟨fun d hd => (by cases hd), fun h => ?_⟩, fun h => ?_⟩
      · rw [hevidence] at h
        exact absurd h (by decide)
      · rw [hnode] at h
        exact absurd h (by decide)
    · intro b hb
      obtain ⟨hends, -, -⟩ := hfound hfacts.2.2.1 hb
      refine ⟨by rw [hends]; decide, ?_, ?_⟩
      · intro s m r hs _ _ _ hr
        rw [mem_singleton.mp (mem_of_scope hs).1] at hr
        cases hr
      · intro _ a ha
        exact absurd (hfacts.2.2.2.symm.trans ha) (by simp)
  obtain ⟨b, hget, -, -, hdevice, hname⟩ := repair_stands hL0 hc hrepair (by simp) hsteps prefix_rfl
  have hkey : "lan/10.0.0.5" = bindingKey "lan" "10.0.0.5" := by decide
  rw [identityAt, hkey]
  exact (congrArg _ hget).trans (by rw [Option.map_some, hdevice, hname]; rfl)

/-- The node that the operator named reports itself, and the binding has the name of the report. And where an
operator had persisted another identity before, the next renewal brings that one back. -/
theorem repair_overridden :
    identityAt (run {} kitchen) "lan/10.0.0.5" = some ("kitchen", "kitchen") ∧
      (identityAt (run {} (kitchen ++ [⟨20, .report (smallLan 7200) (laptop "n1")⟩])) "lan/10.0.0.5").map Prod.snd =
        some "laptop" ∧
      identityAt (run {} (kitchen ++
          [⟨20, .repair (smallLan 7200) [nameFive "kitchen" "den" true]⟩,
            ⟨30, .repair (smallLan 7200) [nameFive "den" "kitchen" false]⟩])) "lan/10.0.0.5" =
        some ("kitchen", "kitchen") ∧
      identityAt (run {} (kitchen ++
          [⟨20, .repair (smallLan 7200) [nameFive "kitchen" "den" true]⟩,
            ⟨30, .repair (smallLan 7200) [nameFive "den" "kitchen" false]⟩, requestFive 40 7200 "01"])) "lan/10.0.0.5" =
        some ("den", "den") := by
  decide +kernel

end Ghostd.Proofs.Addressbook
