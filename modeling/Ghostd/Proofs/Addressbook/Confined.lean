import Ghostd.Proofs.Addressbook.Dropped
import Ghostd.Proofs.Addressbook.Repairs

/-!
# `Ghostd.Proofs.Addressbook.Confined`: what the packets of others leave alone

A packet that arrives can do anything to the bindings of its own client. The lease, the offer or the delegation
that another client holds it leaves as it is, in every field, whatever becomes of the packet (`lease_confined`).
-/

set_option autoImplicit false

namespace Ghostd.Proofs.Addressbook

open Ghostd.Lib Ghostd.Addressbook Session List

/-- The ledger is one that the program builds, and has the binding. -/
def Has (k : String) (b : Binding) (L : Ledger) : Prop := Reached L ∧ L.bindings.get k = some b

section Packet

variable {c : Config} (hc : c.validate = .ok ()) {s : Scope} (hs : s ∈ c.scopes) {now : Int} {k : String}
  {b : Binding} (hheld : b.held now = true)

include hc hs hheld

/-- A prefix goes to nobody while another client holds it, and a client returns its own only. -/
theorem handlePD_confined {kind : MessageType6} {cid : Duid} {via : Option IP} (ia : IAPD)
    (hother : b.client ≠ pdClient cid ia.iaid) : Keeps (Has k b) (fun _ => True) (handlePD s now kind cid via ia) := by
  refine handlePD_keeps ia (fun hvalid hL h => ?_) fun hL h => ⟨reached_releasePrefix hL.1 h, ?_⟩
  · have hfiled := filed_of_reached hL.1
    refine ⟨reached_allocatePrefix hL.1 ⟨c, hc, hs⟩ (nul_not_mem_client hvalid) h, ?_⟩
    rcases allocatePrefix_cases h with rfl | ⟨b', kind, hwrite, rfl⟩
    · exact hL.2
    · obtain ⟨chosen, hchosen, hscope, haddress, -, -, -, -⟩ := delegateWrite_fields hwrite
      rw [get_save, Binding.key, hscope, haddress, if_neg]
      · exact hL.2
      · rintro rfl
        refine hother (prefixChosen_free hfiled.sound (fun hb hpd => ?_) hchosen hL.2 hheld)
        obtain ⟨p, hp, -⟩ := (hfiled.stored hb).delegated hpd
        exact ⟨p, hp⟩
  · -- What ends is found under the client that returns it.
    simp only [Ledger.releasePrefix, bind_eq_ok, refuseIf_eq_ok, exists_const, pure_eq_ok] at h
    rw [← h.2]
    rcases endBindings_get _ now _ (fun b => { b with state := .released, endsAt := now })
      (fun _ => rfl) k with hsame | ⟨b0, hb0, hk, -⟩
    · rw [hsame, hL.2]
    · obtain ⟨hstored, -, hclient, -⟩ := mem_liveByClient (filed_of_reached hL.1).sound (mem_filter.mp hb0).1
      rw [hk, hL.2, Option.some.injEq] at hstored
      rw [hstored] at hother
      exact absurd hclient hother

theorem handle4_confined (r : Message4) (hother : b.client ≠ client4 r) :
    Keeps (Has k b) (fun _ => True) (handle4 c s now r) := by
  refine handle4_keeps r (fun hL h => ?_) fun hL h => ?_
  · exact ⟨reached_allocate hc hL.1 (requested4_zoneless r) h,
      allocate_other hc hs h hL.2 (live_of_held hheld) hother⟩
  · exact ⟨reached_release hL.1 h, release_other (filed_of_reached hL.1) h hL.2 hother⟩

theorem handle6Via_confined (uuid : Fin 16 → Fin 256) (packet : Packet6) (via : Option IP)
    (hother : ∀ r cid iaid, packet.getInnerMessage = some r → r.clientIDs.head? = some cid →
      b.client ≠ pdClient cid iaid) : Keeps (Has k b) (fun _ => True) (handle6Via c s now uuid packet via) := by
  unfold handle6Via
  refine Keeps.bind (openMessage_keeps (fun _ L hL => ⟨hL.1.identify _, hL.2⟩) s uuid packet) fun opened hopened => ?_
  cases opened with
  | answered => exact Keeps.pure trivial
  | serve r cid reply =>
    obtain ⟨hr, hcid, -⟩ := hopened
    show Keeps (Has k b) _ (serveMessage c s now via r cid reply)
    unfold serveMessage
    refine Keeps.bind (Keeps.mapM fun ia _ => handleNA_keeps ia
        (other_invariant hc hs ⟨rfl, fun _ => live_of_held hheld⟩ (hother r cid ia.iaid hr hcid))) fun ianas _ =>
      Keeps.bind (Keeps.stopIf _ _) fun _ _ =>
      Keeps.bind (Keeps.mapM fun ia _ => handlePD_confined hc hs hheld ia (hother r cid ia.iaid hr hcid))
        fun iapds _ => Keeps.pure trivial

end Packet

/-! ### Runs -/

/-- What happens at an instant: a packet is served from a scope, or what has run out expires. -/
inductive Exchange where
  | dhcp4 (c : Config) (s : Scope) (r : Message4)
  | dhcp6 (c : Config) (s : Scope) (uuid : Fin 16 → Fin 256) (packet : Packet6) (via : Option IP)
  | expire

/-- The ledger afterwards, whether there is a reply or not. -/
def Exchange.serve (L : Ledger) (now : Int) : Exchange → Ledger
  | .dhcp4 c s r => ((handle4 c s now r).on L).2
  | .dhcp6 c s uuid packet via => ((handle6Via c s now uuid packet via).on L).2
  | .expire => L.expire now

/-- The scope is one of an accepted configuration, and the packet is not of the client. -/
def Exchange.OfOthers (client : String) : Exchange → Prop
  | .dhcp4 c s r => c.validate = .ok () ∧ s ∈ c.scopes ∧ client ≠ client4 r
  | .dhcp6 c s _ packet _ => c.validate = .ok () ∧ s ∈ c.scopes ∧ ∀ r cid iaid,
      packet.getInnerMessage = some r → r.clientIDs.head? = some cid → client ≠ pdClient cid iaid
  | .expire => True

/-- **A lease is confined to its client.** Take any ledger of the program and a lease, an offer or a delegation in
it. As long as it lasts, no packet of other clients, under whatever accepted configuration it is served, and no
expiry changes it in any field. -/
theorem lease_confined {L : Ledger} (hL : Reached L) {k : String} {b : Binding} (hget : L.bindings.get k = some b)
    {run : List (Int × Exchange)} (hrun : ∀ x ∈ run, b.held x.1 = true ∧ x.2.OfOthers b.client) :
    (run.foldl (fun L x => x.2.serve L x.1) L).bindings.get k = some b := by
  refine (foldlRecOn (motive := Has k b) run _ ⟨hL, hget⟩ fun L hL x hx => ?_).2
  obtain ⟨hheld, hothers⟩ := hrun x hx
  obtain ⟨now, x⟩ := x
  cases x with
  | dhcp4 c s r => exact (handle4_confined hothers.1 hothers.2.1 hheld r hothers.2.2 L hL).1
  | dhcp6 c s uuid packet via =>
    exact (handle6Via_confined hothers.1 hothers.2.1 hheld uuid packet via hothers.2.2 L hL).1
  | expire =>
    have hends : now < b.endsAt := by
      simp only [Binding.held, Bool.and_eq_true, decide_eq_true_eq] at hheld
      exact hheld.1
    exact ⟨hL.1.operate now (show Operation.Called .expire from trivial),
      expire_keeps (filed_of_reached hL.1).sound hL.2 hends⟩

/-- A printer asks for 10.0.0.5, and the lease of another client stays. -/
theorem lease_confined_smallLan :
    ∃ s ∈ (smallLan 60).scopes, ∃ b, (run {} [requestFive 10 60 "01"]).bindings.get "lan/10.0.0.5" = some b ∧
      ([(20, Exchange.dhcp4 (smallLan 60) s { printerRequest with requestedIP := some 0x0a000005 }), (30, .expire)].foldl
        (fun L x => x.2.serve L x.1) (run {} [requestFive 10 60 "01"])).bindings.get "lan/10.0.0.5" = some b := by
  have hlease : ((run {} [requestFive 10 60 "01"]).bindings.get "lan/10.0.0.5").map (fun b =>
      (b.held 20, b.held 30, b.client)) = some (true, true, "mac:02:00:00:00:00:01") := by
    decide +kernel
  obtain ⟨b, hget, hb⟩ := Option.map_eq_some_iff.mp hlease
  simp only [Prod.mk.injEq] at hb
  refine ⟨_, mem_singleton_self _, b, hget, lease_confined (reached_run ?_) hget ?_⟩
  · have hfive : IP.text (IP.ofV4 0x0a000005) = "10.0.0.5" := by decide +kernel
    simp only [forall_mem_singleton]
    exact ⟨by decide +kernel, hfive ▸ zoneless_ipText _⟩
  · simp only [forall_mem_cons, hb, Exchange.OfOthers]
    exact ⟨⟨trivial, by decide +kernel, mem_singleton_self _, by decide +kernel⟩, ⟨trivial, trivial⟩, by simp⟩

end Ghostd.Proofs.Addressbook
