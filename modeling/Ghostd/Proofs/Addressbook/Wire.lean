import Ghostd.Proofs.Addressbook.Handlers

/-!
# `Ghostd.Proofs.Addressbook.Wire`: what a reply promises, the ledger holds

A promise made to one identity association of a message has to survive the ones after it. It does:
an allocation leaves the live bindings of other clients alone, and a delegation that meets a held
binding is one of the same client (`Leased.allocatePrefix`). `Session.mapM_collect` puts this together
for the two loops, also for IA_PDs, whose identifiers can repeat.

Two IA_NAs of one message get different addresses if every address is written in its one spelling
(`WellSpelled`). Reserved and imported addresses are compared as the operator wrote them:
`one_address_twice` is a reply that gives one address to two associations.
-/

set_option autoImplicit false

namespace Ghostd.Proofs.Addressbook

open Ghostd.Lib Ghostd.Addressbook Session List

variable {via : Option IP} {L L' : Ledger} {s : Scope} {address client : String} {now : Int} {ia out : IANA}
    {c : Config} {reply : Reply4} {cid : Duid} {outs : List IANA}

/-! ### Promises -/

/-- The ledger holds an address for a client: an active binding that ends no sooner than said. -/
def Leased (L : Ledger) (s : Scope) (client address : String) (ends : Int) : Prop :=
  ∃ b, L.bindings.get (bindingKey s.id address) = some b ∧ b.scope = s.id ∧ b.address = address ∧
    b.client = client ∧ b.state = .active ∧ ends ≤ b.endsAt

/-- Every address with a lifetime that an IA_NA of a reply names is held for its client. -/
def HeldNA (L : Ledger) (s : Scope) (now : Int) (cid : Duid) (ia : IANA) : Prop :=
  ∀ a ∈ ia.addresses, a.valid ≠ 0 →
    ∃ address, parseIP address = some a.ip ∧ Leased L s (pdClient cid ia.iaid) address (now + a.valid)

/-- Every prefix with a lifetime that an IA_PD of a reply names is held for its client. -/
def HeldPD (L : Ledger) (s : Scope) (now : Int) (cid : Duid) (ia : IAPD) : Prop :=
  ∀ a ∈ ia.prefixes, a.valid ≠ 0 →
    ∃ p : Prefix, a.network = some (.ofPrefix p) ∧
      Leased L s (pdClient cid ia.iaid) p.text (now + a.valid)

theorem Leased.held {ends : Int} (h : Leased L s client address ends) (hends : now < ends) :
    ∃ b, L.bindings.get (bindingKey s.id address) = some b ∧ b.client = client ∧ b.held now = true := by
  obtain ⟨b, hget, -, -, hclient, hstate, hlate⟩ := h
  refine ⟨b, hget, hclient, ?_⟩
  simp only [Binding.held, hstate, heldState, Bool.and_true, decide_eq_true_eq]
  omega

/-- An allocation for another client keeps it. -/
theorem Leased.allocate (hc : c.validate = .ok ()) (hs : s ∈ c.scopes) {ends : Int}
    {client' mac claimed requested : String} {commit : Bool} {r : Binding} (h : Leased L s client address ends)
    (hends : now < ends) (hother : client ≠ client')
    (hstep : L.allocate now c s.id client' mac claimed requested commit = .ok (r, L')) :
    Leased L' s client address ends := by
  obtain ⟨b, hget, hclient, hheld⟩ := h.held hends
  obtain ⟨b', hget', hrest⟩ := h
  obtain rfl : b' = b := Option.some.inj (hget'.symm.trans hget)
  refine ⟨b', ?_, hrest⟩
  refine allocate_other hc hs hstep hget (live_of_held hheld) ?_
  rw [hclient]
  exact hother

/-- A delegation keeps it, for whichever client it is. -/
theorem Leased.allocatePrefix (hs : AcceptedScope s) (hL : Filed L) {client' duidHex hint via : String}
    {r : Binding} (hlease : 0 < s.leaseSeconds) (h : Leased L s client address (now + s.leaseSeconds))
    (hstep : L.allocatePrefix now s client' duidHex hint via true = .ok (r, L')) :
    Leased L' s client address (now + s.leaseSeconds) := by
  have hslash := AcceptedScope.slash_not_mem hs
  obtain ⟨b, hget, hclient, hheld⟩ := h.held (show now < now + s.leaseSeconds by omega)
  rcases allocatePrefix_cases hstep with rfl | ⟨b', kind, hwrite, rfl⟩
  · exact h
  · obtain ⟨chosen, hchosen, hscope, haddress, hclient', -, -, -⟩ := delegateWrite_fields hwrite
    unfold Leased
    rw [get_save, Binding.key, hscope, haddress]
    by_cases hk : bindingKey s.id address = bindingKey s.id chosen.text
    · -- Who holds the prefix is the client that it is delegated to again.
      obtain ⟨-, haddr⟩ := bindingKey_inj hslash hslash hk
      rw [hk] at hget
      have hown : b.client = client' := by
        refine prefixChosen_free hL.sound (fun hb hpd => ?_) hchosen hget hheld
        obtain ⟨p, hp, -⟩ := (hL.stored hb).delegated hpd
        exact ⟨p, hp⟩
      obtain ⟨p, -, hp, hstored, -, -, hstate, hends⟩ := allocatePrefix_granted hs hL hstep
      refine ⟨b', by rw [if_pos hk], hscope, by rw [haddress, haddr], ?_, ?_, ?_⟩
      · rw [hclient', ← hown, hclient]
      · obtain ⟨_, -, rfl⟩ := hwrite
        rfl
      · obtain ⟨_, -, rfl⟩ := hwrite
        exact le_refl _
    · rw [if_neg hk]
      exact h

/-! ### One identity association -/

/-- What an IA_NA of a reply says and the ledger holds when its turn is over. -/
structure ServedNA (L : Ledger) (s : Scope) (now : Int) (cid : Duid) (ia out : IANA) : Prop where
  iaid : out.iaid = ia.iaid
  addresses : ∀ a ∈ out.addresses, a.valid = s.leaseSeconds ∧ ∃ address addr,
    parseAddr address = some addr ∧ addr.is6 = s.is6 ∧ addr.zone = "" ∧ addr.as16 = a.ip ∧
      Leased L s (pdClient cid ia.iaid) address (now + s.leaseSeconds)

/-- The same of an IA_PD. -/
structure ServedPD (L : Ledger) (s : Scope) (now : Int) (cid : Duid) (ia out : IAPD) : Prop where
  iaid : out.iaid = ia.iaid
  prefixes : ∀ a ∈ out.prefixes, a.valid = s.leaseSeconds ∧ ∃ p : Prefix,
    a.network = some (.ofPrefix p) ∧ Leased L s (pdClient cid ia.iaid) p.text (now + s.leaseSeconds)

/-- What an IA_NA says stays true as long as the leases of its client last. -/
theorem ServedNA.mono {L L' : Ledger} {s : Scope} {now : Int} {cid : Duid} (h : ServedNA L s now cid ia out)
    (hkept : ∀ {address}, Leased L s (pdClient cid ia.iaid) address (now + s.leaseSeconds) →
      Leased L' s (pdClient cid ia.iaid) address (now + s.leaseSeconds)) : ServedNA L' s now cid ia out := by
  refine ⟨h.iaid, fun a ha => ?_⟩
  obtain ⟨hvalid, address, addr, hparse, hfamily, hzone, hip, hleased⟩ := h.addresses a ha
  exact ⟨hvalid, address, addr, hparse, hfamily, hzone, hip, hkept hleased⟩

/-- The messages that are granted leases. -/
def Grants (kind : MessageType6) : Prop := kind = .request ∨ kind = .renew ∨ kind = .rebind

theorem Grants.givesBack {kind : MessageType6} (h : Grants kind) : kind.givesBack = false := by
  rcases h with rfl | rfl | rfl <;> rfl

theorem Grants.commits {kind : MessageType6} (h : Grants kind) : kind ≠ .solicit ∧ kind ≠ .confirm := by
  rcases h with rfl | rfl | rfl <;> decide

section Served

variable {c : Config} (hc : c.validate = .ok ()) {s : Scope} (hs : s ∈ c.scopes) {now : Int}
  {kind : MessageType6} (hkind : Grants kind) {cid : Duid} {L L' : Ledger}

include hc hs hkind

theorem grantNA_served {current : Option Binding} (hL : Reached L)
    (hcurrent : ∀ b, current = some b → Zoneless b.address) {b : Binding}
    (h : (grantNA c s now kind cid client current ia).on L = (.ok (.ok b), L')) :
    Granted L' now s client true b := by
  unfold grantNA at h
  obtain ⟨target, L1, htarget, h⟩ := bind_ok.mp h
  have hkept := (reached_invariant hc hs now kind cid client).targetNA hkind.givesBack hcurrent ia L hL
  rw [htarget] at hkept
  cases target with
  | none => cases h
  | some ip =>
    obtain ⟨r, L2, hr, hend⟩ := bind_ok.mp h
    rcases tryAllocate_ok hr with ⟨b', rfl, hallocate⟩ | ⟨rfl, rfl⟩
    · obtain ⟨⟨⟩, rfl⟩ := pure_ok.mp hend
      simp only [ne_eq, hkind.commits.1, not_false_eq_true, decide_true] at hallocate
      exact allocate_granted hc hs hallocate (filed_of_reached hkept.1) (hkept.2 _ rfl ip rfl)
    · cases hend

theorem handleNA_served (hL : Reached L) (h : (handleNA c s now kind cid ia).on L = (.ok out, L')) :
    ServedNA L' s now cid ia out := by
  unfold handleNA at h
  obtain ⟨-, h⟩ := stopIf_bind_ok.mp h
  obtain ⟨current, L2, hread, h⟩ := bind_ok.mp h
  rw [on_read, Prod.mk.injEq, Except.ok.injEq] at hread
  obtain ⟨hread, rfl⟩ := hread
  rw [hkind.givesBack, if_neg (by decide)] at h
  split at h
  · rw [pure_ok] at h
    rw [← h.1]
    exact ⟨rfl, by simp⟩
  · obtain ⟨r, L3, hgrant, h⟩ := bind_ok.mp h
    cases r with
    | error =>
      rw [pure_ok] at h
      rw [← h.1]
      exact ⟨rfl, by simp⟩
    | ok b =>
      have hgranted : Granted L3 now s (pdClient cid ia.iaid) true b := by
        refine grantNA_served hc hs hkind hL (fun b' hb' => ?_) hgrant
        exact (reached_invariant hc hs now kind cid _).current hL (hread.trans hb')
      obtain ⟨rfl, rfl⟩ := pure_ok.mp h
      refine ⟨rfl, ?_⟩
      intro a ha
      rw [mem_singleton.mp ha]
      obtain ⟨addr, hparse, hfamily, hzone⟩ := hgranted.address
      obtain ⟨hstate, hends⟩ := hgranted.committed rfl
      refine ⟨rfl, b.address, addr, hparse, hfamily, hzone, ?_, b, hgranted.stored, hgranted.scope, rfl,
        hgranted.client, hstate, by rw [hends]⟩
      rw [parseIP_eq_some.mpr ⟨addr, hparse, hzone, rfl⟩]
      rfl

omit hc hs in
theorem handlePD_cases {ia out : IAPD} (h : (handlePD s now kind cid via ia).on L = (.ok out, L')) :
    out.iaid = ia.iaid ∧ ((L' = L ∧ out.prefixes = []) ∨
      ∃ b, L.allocatePrefix now s (pdClient cid ia.iaid) (encodeHex cid.bytes) (prefixHint ia)
          (via.elim "" IP.text) true = .ok (b, L') ∧
        out.prefixes =
          [{ network := parseCIDR b.address, preferred := s.preferredSeconds, valid := s.leaseSeconds }]) := by
  have hquiet : ∀ {o : IAPD}, (pure o : Handler IAPD).on L = (.ok out, L') → o.iaid = ia.iaid →
      o.prefixes = [] → out.iaid = ia.iaid ∧ L' = L ∧ out.prefixes = [] := by
    intro o ho hiaid hprefixes
    obtain ⟨rfl, rfl⟩ := pure_ok.mp ho
    exact ⟨hiaid, rfl, hprefixes⟩
  unfold handlePD at h
  dsimp only at h
  split at h
  · exact (hquiet h rfl rfl).imp id Or.inl
  · split at h
    · exact (hquiet h rfl rfl).imp id Or.inl
    · obtain ⟨current, L1, hread, h⟩ := bind_ok.mp h
      rw [on_read, Prod.mk.injEq] at hread
      obtain ⟨-, rfl⟩ := hread
      rw [hkind.givesBack, if_neg (by decide)] at h
      split at h
      · exact (hquiet h rfl rfl).imp id Or.inl
      · rw [if_neg hkind.commits.2] at h
        obtain ⟨r, L2, hr, hend⟩ := bind_ok.mp h
        rcases tryAllocate_ok hr with ⟨b, rfl, hallocate⟩ | ⟨rfl, rfl⟩
        · obtain ⟨rfl, rfl⟩ := pure_ok.mp hend
          simp only [ne_eq, hkind.commits.1, not_false_eq_true, decide_true] at hallocate
          exact ⟨rfl, Or.inr ⟨b, hallocate, rfl⟩⟩
        · exact (hquiet hend rfl rfl).imp id Or.inl

/-- A promise outlasts the IA_PDs. -/
theorem Leased.handlePD (hL : Reached L) {pd pdOut : IAPD}
    (hpd : (handlePD s now kind cid via pd).on L = (.ok pdOut, L')) {address : String}
    (h : Leased L s client address (now + s.leaseSeconds)) : Leased L' s client address (now + s.leaseSeconds) := by
  obtain ⟨p, hfacts⟩ := scopeFacts_of_validate hc hs
  have hlease := hfacts.leaseAtLeast
  obtain ⟨-, ⟨rfl, -⟩ | ⟨b, hallocate, -⟩⟩ := handlePD_cases hkind hpd
  · exact h
  · exact h.allocatePrefix ⟨c, hc, hs⟩ (filed_of_reached hL) (by omega) hallocate

theorem handlePD_served (hL : Reached L) {ia out : IAPD}
    (h : (handlePD s now kind cid via ia).on L = (.ok out, L')) : ServedPD L' s now cid ia out := by
  obtain ⟨hiaid, ⟨rfl, hnone⟩ | ⟨b, hallocate, hprefixes⟩⟩ := handlePD_cases hkind h
  · exact ⟨hiaid, by simp [hnone]⟩
  · refine ⟨hiaid, fun a ha => ?_⟩
    rw [hprefixes] at ha
    rw [mem_singleton.mp ha]
    obtain ⟨p, hmasked, haddress, hstored, hscope, hclient, hstate, hends⟩ :=
      allocatePrefix_granted ⟨c, hc, hs⟩ (filed_of_reached hL) hallocate
    refine ⟨rfl, p, ?_, b, hstored, hscope, haddress, hclient, hstate, by rw [hends]⟩
    rw [haddress]
    exact parseCIDR_text hmasked

omit hkind in
/-- The promise to an IA_NA outlasts those of other clients. -/
theorem ServedNA.handleNA {other : IANA} (h : ServedNA L s now cid ia out) (hL : Reached L)
    (hother : pdClient cid ia.iaid ≠ pdClient cid other.iaid) {otherOut : IANA}
    (hstep : (Addressbook.handleNA c s now kind cid other).on L = (.ok otherOut, L')) :
    ServedNA L' s now cid ia out := by
  obtain ⟨p, hfacts⟩ := scopeFacts_of_validate hc hs
  have hlease := hfacts.leaseAtLeast
  refine h.mono fun {address} hleased => ?_
  have hreached := reached_invariant hc hs now kind cid (pdClient cid other.iaid)
  have hinv : Invariant c s now kind cid (pdClient cid other.iaid)
      (fun L => Reached L ∧ Leased L s (pdClient cid ia.iaid) address (now + s.leaseSeconds)) Zoneless :=
    { unnamed := hreached.unnamed
      hint := hreached.hint
      current := fun hL => hreached.current hL.1
      allocate := fun hgrants _ _ _ _ _ hL hreq halloc => by
        obtain ⟨hL', haddress⟩ := hreached.allocate hgrants hL.1 hreq halloc
        exact ⟨⟨hL', hL.2.allocate hc hs (by omega) hother halloc⟩, haddress⟩
      release := fun hreturns _ _ _ _ hL hrel => by
        obtain ⟨b, hget, hscope, haddress, hclient, hactive⟩ := hL.2
        refine ⟨hreached.release hreturns hL.1 hrel, b, ?_, hscope, haddress, hclient, hactive⟩
        refine release_other (filed_of_reached hL.1) hrel hget ?_
        rw [hclient]
        exact hother }
  have hkept := handleNA_keeps other hinv L ⟨hL, hleased⟩
  rw [hstep] at hkept
  exact hkept.1.2

end Served

/-! ### The loops -/

theorem iaidBytes_inj {i j : BitVec 32} (h : iaidBytes i = iaidBytes j) : i = j := by
  have hi := i.isLt
  have hj := j.isLt
  simp only [iaidBytes, List.cons.injEq, and_true] at h
  refine BitVec.eq_of_toNat_eq ?_
  omega

theorem iaidBytes_lt (i : BitVec 32) : ∀ b ∈ iaidBytes i, b < 256 := by
  intro b hb
  simp only [iaidBytes, mem_cons, not_mem_nil, or_false] at hb
  omega

/-- Different identity associations of one client are different clients of the ledger. -/
theorem pdClient_inj {i j : BitVec 32} (h : pdClient cid i = pdClient cid j) : i = j := by
  have hlist := congrArg String.toList h
  simp only [pdClient, String.toList_append] at hlist
  have htail := append_cancel_left hlist
  exact iaidBytes_inj (encodeHex_inj (iaidBytes_lt i) (iaidBytes_lt j) (String.toList_inj.mp htail))

section Loops

variable {c : Config} (hc : c.validate = .ok ()) {s : Scope} (hs : s ∈ c.scopes) {now : Int}
  {kind : MessageType6} (hkind : Grants kind) {cid : Duid} {L L' : Ledger} (hL : Reached L)

include hc hs hkind hL

theorem ianas_served {ias : List IANA} (hnodup : (ias.map (·.iaid)).Nodup)
    (h : (ias.mapM (handleNA c s now kind cid)).on L = (.ok outs, L')) :
    Reached L' ∧ List.Forall₂ (ServedNA L' s now cid) ias outs := by
  have hpairwise : ias.Pairwise fun x y => x.iaid ≠ y.iaid := pairwise_map.mp hnodup
  refine mapM_collect (J := Reached) (Q := fun ia out L => ServedNA L s now cid ia out) ?_ ?_ hpairwise hL h
  · intro ia L1 out L2 h1 hstep
    have hkept := handleNA_keeps ia (reached_invariant hc hs now kind cid _) L1 h1
    rw [hstep] at hkept
    exact ⟨hkept.1, handleNA_served hc hs hkind h1 hstep⟩
  · intro ia0 out0 ia L1 out L2 hne h1 hserved hstep
    exact hserved.handleNA hc hs h1 (fun heq => hne (pdClient_inj heq)) hstep

theorem iapds_served {ianas : List IANA} (hserved : List.Forall₂ (ServedNA L s now cid) ianas outs)
    {ias pdOuts : List IAPD} (h : (ias.mapM (handlePD s now kind cid via)).on L = (.ok pdOuts, L')) :
    List.Forall₂ (ServedNA L' s now cid) ianas outs ∧ List.Forall₂ (ServedPD L' s now cid) ias pdOuts := by
  have hany : ias.Pairwise fun _ _ => True := pairwise_of_forall fun _ _ => trivial
  have hloop := mapM_collect
    (J := fun L => Reached L ∧ List.Forall₂ (ServedNA L s now cid) ianas outs)
    (Q := fun ia out L => ServedPD L s now cid ia out) ?_ ?_ hany ⟨hL, hserved⟩ h
  · exact ⟨hloop.1.2, hloop.2⟩
  · intro ia L1 out L2 h1 hstep
    have hkept := handlePD_reached hc hs now kind cid via ia L1 h1.1
    rw [hstep] at hkept
    refine ⟨⟨hkept.1, ?_⟩, handlePD_served hc hs hkind h1.1 hstep⟩
    exact h1.2.imp fun ia0 out0 h0 => h0.mono fun h => h.handlePD hc hs hkind h1.1 hstep
  · intro ia0 out0 ia L1 out L2 _ h1 h0 hstep
    refine ⟨h0.iaid, fun a ha => ?_⟩
    obtain ⟨hvalid, q, hnetwork, hleased⟩ := h0.prefixes a ha
    exact ⟨hvalid, q, hnetwork, hleased.handlePD hc hs hkind h1.1 hstep⟩

end Loops

/-! ### Spelling -/

/-- The addresses of the scope that are compared as texts have their one spelling: the reserved ones,
and those of the leases that are held. -/
structure WellSpelled (s : Scope) (now : Int) (L : Ledger) : Prop where
  reservations : ∀ r ∈ s.reservations, Canonical r.address
  held : ∀ k b, L.bindings.get k = some b → b.scope = s.id → b.origin ≠ .dhcpv6PD →
    b.held now = true → Canonical b.address

theorem canonical_ipText (ip : IP) : Canonical (IP.text ip) := by
  intro a ha
  rw [IP.text, parseAddr_text, Option.some.injEq] at ha
  rw [IP.text, ha]

section Spelling

variable {c : Config} (hc : c.validate = .ok ()) {s : Scope} (hs : s ∈ c.scopes)

include hc hs

theorem wellSpelled_invariant (now : Int) (kind : MessageType6) (cid : Duid) (client : String) :
    Invariant c s now kind cid client (fun L => Reached L ∧ WellSpelled s now L)
      (fun ip => Zoneless ip ∧ Canonical ip) := by
  have hreached := reached_invariant hc hs now kind cid client
  refine ⟨⟨hreached.unnamed, by decide⟩, fun ip => ⟨hreached.hint ip, canonical_ipText ip⟩, ?_, ?_, ?_⟩
  · intro L b hL hb
    obtain ⟨hstored, hscope, -, horigin, hstate, hends⟩ := currentClient_some (filed_of_reached hL.1) hb
    refine ⟨hreached.current hL.1 hb, hL.2.held _ b hstored hscope horigin ?_⟩
    simp [Binding.held, hstate, heldState, hends]
  · intro hgrants L L' requested commit b hL hreq h
    have hfiled := filed_of_reached hL.1
    obtain ⟨hL', haddress⟩ := hreached.allocate hgrants hL.1 hreq.1 h
    have hgranted := allocate_granted hc hs h hfiled hreq.1
    have hcanonical := allocate_canonical hc hs h hfiled hreq.2 hL.2.reservations hL.2.held hgranted
    refine ⟨⟨hL', hL.2.reservations, ?_⟩, haddress, hcanonical⟩
    intro k b' hget hscope horigin hheld
    obtain ⟨s', m, ip, -, -, -, -, -, -, ⟨-, -, -, -, -, rfl⟩ | ⟨-, -, rfl⟩⟩ := allocate_cases h
    · exact hL.2.held k b' hget hscope horigin hheld
    · rcases get_save_eq_some.mp hget with ⟨-, rfl⟩ | ⟨-, hget⟩
      · exact hcanonical
      · exact hL.2.held k b' hget hscope horigin hheld
  · intro hreturns L L' ip decline hL h
    refine ⟨hreached.release hreturns hL.1 h, hL.2.reservations, ?_⟩
    -- What a release saves is not held any more.
    obtain ⟨b', kind, ⟨b0, -, -, -, hb'⟩, rfl⟩ := release_eq h
    intro k b hget hscope horigin hheld
    rcases get_save_eq_some.mp hget with ⟨-, rfl⟩ | ⟨-, hget⟩
    · rcases hb' with rfl | rfl <;> simp [Binding.held, heldState] at hheld
    · exact hL.2.held k b hget hscope horigin hheld

/-- Two identity associations that are served have different addresses. -/
theorem served_apart (hL : Reached L) (hspelled : WellSpelled s now L) {ia' out' : IANA}
    (hne : ia.iaid ≠ ia'.iaid) (h : ServedNA L s now cid ia out) (h' : ServedNA L s now cid ia' out') :
    ∀ a ∈ out.addresses, ∀ a' ∈ out'.addresses, a.ip ≠ a'.ip := by
  intro a ha a' ha' heq
  obtain ⟨p, hfacts⟩ := scopeFacts_of_validate hc hs
  have hlease := hfacts.leaseAtLeast
  obtain ⟨-, address, addr, hparse, hfamily, hzone, hip, hleased⟩ := h.addresses a ha
  obtain ⟨-, address', addr', hparse', hfamily', hzone', hip', hleased'⟩ := h'.addresses a' ha'
  -- A held lease at an address is no delegation, so it is spelled canonically.
  have hcanonical : ∀ {client text : String} {x : Addr}, parseAddr text = some x →
      Leased L s client text (now + s.leaseSeconds) → text = x.text := by
    intro client text x hx hheld
    obtain ⟨b, hget, hscope, hb, -, hstate, hends⟩ := hheld
    have horigin : b.origin ≠ .dhcpv6PD := by
      intro hpd
      obtain ⟨q, hq, -⟩ := ((filed_of_reached hL).stored hget).delegated hpd
      rw [← hb, hq, parseAddr_prefixText] at hx
      cases hx
    have hcan := hspelled.held _ b hget hscope horigin (by
      simp only [Binding.held, hstate, heldState, Bool.and_true, decide_eq_true_eq]
      omega)
    rw [hb] at hcan
    exact hcan x hx
  have hsame : addr = addr' := by
    refine Addr.as16_inj ?_ hzone hzone' (by rw [hip, hip', heq])
    have hboth : addr.is6 = addr'.is6 := by rw [hfamily, hfamily']
    revert hboth
    unfold Addr.is6
    cases addr.family <;> cases addr'.family <;> simp
  have htext : address = address' := by rw [hcanonical hparse hleased, hcanonical hparse' hleased', hsame]
  obtain ⟨b, hget, -, -, hclient, -⟩ := hleased
  obtain ⟨b', hget', -, -, hclient', -⟩ := hleased'
  rw [htext, hget', Option.some.injEq] at hget
  have hclients : pdClient cid ia.iaid = pdClient cid ia'.iaid := by rw [← hclient, ← hclient', hget]
  exact hne (pdClient_inj hclients)

end Spelling

/-! ### DHCPv4 -/

/-- An extra option changes neither the address nor an option that the server sets itself. -/
theorem withOption_ok {reply' : Reply4} {o : DHCPOption} (h : withOption reply o = .ok reply') {k : Nat}
    (hk : k ≠ genericOptionCode o.code) :
    reply'.yourIP = reply.yourIP ∧ reply'.options.get k = reply.options.get k := by
  simp only [withOption, bind_eq_ok, pure_eq_ok] at h
  obtain ⟨value, -, rfl⟩ := h
  refine ⟨rfl, ?_⟩
  rw [Bucket.get_put, if_neg hk]

/-- The address and the lease time of an answer. -/
theorem answerLease_ok (hc : c.validate = .ok ()) (hs : s ∈ c.scopes) {r : Message4} {server : IP}
    {type : MessageType4} {b : Binding} (h : answerLease s r server type b = .ok reply) :
    reply.yourIP = (parseIP b.address).getD 0 ∧
      reply.options.get optionLeaseTime = some (fourBytes (s.leaseSeconds % 2 ^ 32).toNat) := by
  unfold answerLease at h
  cases hnetwork : parsePrefix s.subnet with
  | none => simp [hnetwork] at h
  | some =>
    simp only [hnetwork, bind_eq_ok] at h
    obtain ⟨extended, hoptions, h⟩ := h
    have hextended : extended.yourIP = (parseIP b.address).getD 0 ∧
        extended.options.get optionLeaseTime = some (fourBytes (s.leaseSeconds % 2 ^ 32).toNat) := by
      refine foldlM_invariant (I := fun reply : Reply4 => reply.yourIP = (parseIP b.address).getD 0 ∧
        reply.options.get optionLeaseTime = some (fourBytes (s.leaseSeconds % 2 ^ 32).toNat)) ?_ ?_ hoptions
      · intro o ho reply1 reply2 h1 hstep
        obtain ⟨hleast, hmost, hfree⟩ := optionCode_of_validate hc hs ho
        have hcode : optionLeaseTime ≠ genericOptionCode o.code := by
          intro heq
          have hcode : o.code = 51 := by
            unfold optionLeaseTime genericOptionCode at heq
            omega
          exact hfree (by rw [hcode]; decide)
        obtain ⟨hip, hget⟩ := withOption_ok hstep hcode
        rw [hip, hget]
        exact h1
      · refine ⟨rfl, ?_⟩
        show (Bucket.put _ optionDomainSearch _).get optionLeaseTime = _
        rw [Bucket.get_put, if_neg (by decide), Bucket.get_put_self]
    cases hboot : s.boot with
    | none =>
      rw [hboot, pure_eq_ok] at h
      rw [← h]
      exact hextended
    | some =>
      simp only [hboot, pure_eq_ok] at h
      split at h
      · rw [← h]
        refine ⟨hextended.1, ?_⟩
        show ((extended.options.put optionTFTPServerName _).put optionBootfileName _).get optionLeaseTime = _
        rw [Bucket.get_put, if_neg (by decide), Bucket.get_put, if_neg (by decide)]
        exact hextended.2
      · rw [← h]
        exact hextended

/-- A Request that is acknowledged was granted. -/
theorem handle4_acknowledged {r : Message4} (h : (handle4 c s now r).on L = (.ok reply, L'))
    (hrequest : r.messageType = .request)
    (hack : reply.options.get optionMessageType = some [MessageType4.ack.code]) :
    ∃ b, L.allocate now c s.id (client4 r) (macText r.hwAddr) r.hostName (requested4 r) true = .ok (b, L') ∧
      answerLease s r ((parseIP s.server).getD 0) .ack b = .ok reply := by
  unfold handle4 at h
  obtain ⟨-, h⟩ := stopIf_bind_ok.mp h
  obtain ⟨-, h⟩ := stopIf_bind_ok.mp h
  obtain ⟨-, h⟩ := stopIf_bind_ok.mp h
  simp only [hrequest] at h
  obtain ⟨granted, L4, hgranted, hend⟩ := bind_ok.mp h
  rcases tryAllocate_ok hgranted with ⟨b, rfl, hallocate⟩ | ⟨rfl, rfl⟩
  · obtain ⟨hanswer, rfl⟩ := ofExcept_ok.mp hend
    exact ⟨b, hallocate, hanswer⟩
  · -- A refusal carries another message type.
    rw [pure_ok] at hend
    rw [← hend.1] at hack
    have hnak : (plainReply ((parseIP s.server).getD 0) .nak).options.get optionMessageType =
        some [MessageType4.nak.code] := by
      show ((Bucket.empty.put optionMessageType _).put optionServerIdentifier _).get optionMessageType = _
      rw [Bucket.get_put, if_neg (by decide), Bucket.get_put_self]
    rw [hnak] at hack
    exact absurd hack (by decide)

/-! ### The result -/

/-- What becomes of a packet that is granted leases. -/
theorem handle6Via_served {uuid : Fin 16 → Fin 256} {packet : Packet6} {r : Message6} {reply : Message6}
    (hr : packet.getInnerMessage = some r) (hkind : Grants r.messageType)
    (h : (handle6Via c s now uuid packet via).on L = (.ok reply, L')) :
    ∃ cid duid L2, r.clientIDs.head? = some cid ∧ (r.ianas.map (·.iaid)).Nodup ∧
      (r.ianas.mapM (handleNA c s now r.messageType cid)).on { L with duid := duid } =
        (.ok reply.ianas, L2) ∧
      (r.iapds.mapM (handlePD s now r.messageType cid via)).on L2 = (.ok reply.iapds, L') := by
  unfold handle6Via at h
  obtain ⟨opened, L1, hopen, h⟩ := bind_ok.mp h
  have hopened := openMessage_keeps (I := fun L1 => ∃ duid, L1 = { L with duid := duid })
    (fun _ L1 hL1 => by
      obtain ⟨duid, rfl⟩ := hL1
      exact ⟨_, rfl⟩) s uuid packet L ⟨L.duid, rfl⟩
  rw [hopen] at hopened
  obtain ⟨⟨duid, rfl⟩, hwell⟩ := hopened
  cases opened with
  | answered =>
    obtain ⟨r', hr', hkind'⟩ := hwell _ rfl
    rw [hr, Option.some.injEq] at hr'
    rw [← hr'] at hkind'
    rcases hkind with h' | h' | h' <;> rw [h'] at hkind' <;> simp at hkind'
  | serve r' cid =>
    obtain ⟨hr', hcid, -, -, -, hnodup⟩ := hwell _ rfl
    rw [hr, Option.some.injEq] at hr'
    subst hr'
    simp only [serveMessage] at h
    obtain ⟨ianas, L2, hianas, h⟩ := bind_ok.mp h
    obtain ⟨-, h⟩ := stopIf_bind_ok.mp h
    obtain ⟨iapds, L4, hiapds, h⟩ := bind_ok.mp h
    obtain ⟨rfl, rfl⟩ := pure_ok.mp h
    exact ⟨cid, duid, L2, hcid, hnodup, hianas, hiapds⟩

theorem exists_of_forall₂ {α β : Type} {R : α → β → Prop} {xs : List α} {ys : List β}
    (h : List.Forall₂ R xs ys) {y : β} (hy : y ∈ ys) : ∃ x ∈ xs, R x y := by
  obtain ⟨i, hi, rfl⟩ := mem_iff_getElem.mp hy
  have hlen := h.length_eq
  exact ⟨_, getElem_mem (by omega), h.get (by omega) hi⟩

/-- The addresses of different IA_NAs of a reply are different. -/
def AddressesApart (reply : Message6) : Prop :=
  reply.ianas.Pairwise fun x y => ∀ a ∈ x.addresses, ∀ b ∈ y.addresses, a.ip ≠ b.ip

instance (reply : Message6) : Decidable (AddressesApart reply) :=
  inferInstanceAs (Decidable (List.Pairwise _ _))

theorem apart_of_served (hc : c.validate = .ok ()) (hs : s ∈ c.scopes) (hL : Reached L)
    (hspelled : WellSpelled s now L) {ias : List IANA} (hnodup : (ias.map (·.iaid)).Nodup)
    (h : List.Forall₂ (ServedNA L s now cid) ias outs) :
    outs.Pairwise fun x y => ∀ a ∈ x.addresses, ∀ b ∈ y.addresses, a.ip ≠ b.ip := by
  induction h with
  | nil => exact List.Pairwise.nil
  | cons hserved hrest ih =>
    rw [map_cons, nodup_cons] at hnodup
    refine pairwise_cons.mpr ⟨?_, ih hnodup.2⟩
    intro out' hout'
    obtain ⟨ia', hia', hserved'⟩ := exists_of_forall₂ hrest hout'
    refine served_apart hc hs hL hspelled ?_ hserved hserved'
    intro heq
    exact hnodup.1 (by rw [heq]; exact mem_map_of_mem hia')

/-- **The ledger holds what replies promise.** The address of an ACK to a Request, and every address
and prefix of a Reply to a Request, Renew or Rebind, is in the ledger: an active binding of that scope,
address and client that ends no sooner than the reply says. Different IA_NAs have different addresses
if the addresses of the scope are well spelled. -/
theorem promises_held {c : Config} (hc : c.validate = .ok ()) {s : Scope} (hs : s ∈ c.scopes) {L : Ledger}
    (hL : Reached L) (now : Int) :
    (∀ r reply L', (handle4 c s now r).on L = (.ok reply, L') → r.messageType = .request →
      reply.options.get optionMessageType = some [MessageType4.ack.code] →
      ∃ seconds address, reply.options.get optionLeaseTime = some (fourBytes seconds) ∧ seconds < 2 ^ 32 ∧
        parseIP address = some reply.yourIP ∧ Leased L' s (client4 r) address (now + seconds)) ∧
    (∀ uuid packet via r reply L', packet.getInnerMessage = some r → Grants r.messageType →
      (handle6Via c s now uuid packet via).on L = (.ok reply, L') →
      ∃ cid, r.clientIDs.head? = some cid ∧ (∀ ia ∈ reply.ianas, HeldNA L' s now cid ia) ∧
        (∀ ia ∈ reply.iapds, HeldPD L' s now cid ia) ∧
        reply.ianas.map (·.iaid) = r.ianas.map (·.iaid) ∧ (r.ianas.map (·.iaid)).Nodup ∧
        (WellSpelled s now L → AddressesApart reply)) := by
  refine ⟨fun r reply L' h hrequest hack => ?_, fun uuid packet via r reply L' hr hkind h => ?_⟩
  · obtain ⟨b, hallocate, hanswer⟩ := handle4_acknowledged h hrequest hack
    have hgranted := allocate_granted hc hs hallocate (filed_of_reached hL) (requested4_zoneless r)
    obtain ⟨hip, htime⟩ := answerLease_ok hc hs hanswer
    obtain ⟨a, hparse, -, hzone⟩ := hgranted.address
    obtain ⟨hstate, hends⟩ := hgranted.committed rfl
    obtain ⟨p, hfacts⟩ := scopeFacts_of_validate hc hs
    have hleast := hfacts.leaseAtLeast
    have hmost := hfacts.leaseAtMost
    have hip' : parseIP b.address = some a.as16 := parseIP_eq_some.mpr ⟨a, hparse, hzone, rfl⟩
    refine ⟨_, b.address, htime, by omega, ?_, b, hgranted.stored, hgranted.scope, rfl, hgranted.client,
      hstate, ?_⟩
    · rw [hip, hip']
      rfl
    · rw [hends]
      omega
  · obtain ⟨cid, duid, L2, hcid, hnodup, hianas, hiapds⟩ := handle6Via_served hr hkind h
    have hL1 := hL.identify duid
    obtain ⟨hL2, hserved⟩ := ianas_served hc hs hkind hL1 hnodup hianas
    obtain ⟨hnas, hpds⟩ := iapds_served hc hs hkind hL2 hserved hiapds
    refine ⟨cid, hcid, ?_, ?_, ?_, hnodup, ?_⟩
    · intro out hout a ha _
      obtain ⟨ia, -, hia⟩ := exists_of_forall₂ hnas hout
      obtain ⟨hvalid, address, addr, hparse, -, hzone, hip, hleased⟩ := hia.addresses a ha
      rw [hia.iaid, hvalid]
      exact ⟨address, parseIP_eq_some.mpr ⟨addr, hparse, hzone, hip⟩, hleased⟩
    · intro out hout a ha _
      obtain ⟨ia, -, hia⟩ := exists_of_forall₂ hpds hout
      obtain ⟨hvalid, p, hnetwork, hleased⟩ := hia.prefixes a ha
      rw [hia.iaid, hvalid]
      exact ⟨p, hnetwork, hleased⟩
    · refine ext_getElem (by simp [hserved.length_eq]) fun i hi hi' => ?_
      rw [getElem_map, getElem_map]
      exact (hserved.get (by simpa using hi') (by simpa using hi)).iaid
    · intro hspelled
      have hloop : Keeps (fun L => Reached L ∧ WellSpelled s now L) (fun _ => True)
          (r.ianas.mapM (handleNA c s now r.messageType cid)) :=
        Keeps.mapM fun ia _ => handleNA_keeps ia (wellSpelled_invariant hc hs now _ cid _)
      have hkept := hloop { L with duid := duid } ⟨hL1, hspelled.reservations, hspelled.held⟩
      rw [hianas] at hkept
      exact apart_of_served hc hs hL2 hkept.1.2 hnodup hserved

/-! ### Two networks -/

/-- An IPv6 network that delegates prefixes, with a reservation for the second identity association
of a host. -/
def hostScope (reserved : String) : Scope where
  id := "lan"
  interface := "eth0"
  subnet := "fd00::/64"
  server := "fd00::1"
  start := "fd00::5"
  endAddr := "fd00::f"
  router := ""
  zone := "lan.home"
  leaseSeconds := 3600
  preferredSeconds := 1800
  enabled := true
  pd := some ⟨"fd78::/62", 64, false⟩
  reservations := [{ client := "duid:00030001020000000001/iaid:00000002", address := reserved, device := "nas" }]

/-- An IPv4 network. -/
def printerScope : Scope where
  id := "old"
  interface := "eth1"
  subnet := "10.0.0.0/24"
  server := "10.0.0.1"
  start := "10.0.0.5"
  endAddr := "10.0.0.9"
  router := "10.0.0.1"
  zone := "old.home"
  leaseSeconds := 3600
  preferredSeconds := 0
  enabled := true

def hostNet (reserved : String) : Config where
  devices := [{ id := "nas", name := "nas" }]
  scopes := [hostScope reserved, printerScope]

def hostDuid : Duid := ⟨[0, 3, 0, 1, 2, 0, 0, 0, 0, 1], by decide, by decide⟩

def routerDuid : Duid := ⟨[0, 3, 0, 1, 2, 0, 0, 0, 0, 255], by decide, by decide⟩

/-- The host asks for an address with a hint, for another one, and for a prefix. -/
def hostRequest (hint : String) : Message6 where
  messageType := .request
  clientIDs := [hostDuid]
  serverIDs := [routerDuid]
  ianas := [{ iaid := 1, addresses := [{ ip := (parseIP hint).getD 0 }] }, { iaid := 2 }]
  iapds := [{ iaid := 1 }]

/-- A printer asks for an address. -/
def printerRequest : Message4 where
  hwAddr := [2, 0, 0, 0, 0, 9]
  messageType := .request
  requestedIP := some (BitVec.ofNat 32 0x0a000007)

/-- The ledger of a server that has its identity and no leases. -/
def identified : Ledger := { duid := routerDuid.bytes }

theorem reached_identified : Reached identified := Reached.empty.identify routerDuid.bytes

/-- The reservation is written in upper case. The host gets the reserved address for its second
identity association, and by a hint in lower case for its first one too. -/
theorem one_address_twice :
    (hostNet "fd00::A").validate = .ok () ∧ hostScope "fd00::A" ∈ (hostNet "fd00::A").scopes ∧
      Reached identified ∧
      ∃ reply L', (handle6Via (hostNet "fd00::A") (hostScope "fd00::A") 0 (fun _ => 0)
          (.message (hostRequest "fd00::a")) none).on identified = (.ok reply, L') ∧
        reply.messageType = .reply ∧
        reply.ianas.map (fun ia => (ia.iaid, ia.addresses.map fun a => (some a.ip, a.valid))) =
          [(1, [(parseIP "fd00::a", 3600)]), (2, [(parseIP "fd00::a", 3600)])] := by
  refine ⟨by decide +kernel, mem_cons_self, reached_identified, ?_⟩
  rcases hrun : (handle6Via (hostNet "fd00::A") (hostScope "fd00::A") 0 (fun _ => 0)
    (.message (hostRequest "fd00::a")) none).on identified with ⟨result, L'⟩
  have hreply : ((handle6Via (hostNet "fd00::A") (hostScope "fd00::A") 0 (fun _ => 0)
      (.message (hostRequest "fd00::a")) none).on identified).1.toOption.any (fun reply =>
        reply.messageType = .reply ∧
          reply.ianas.map (fun ia => (ia.iaid, ia.addresses.map fun a => (some a.ip, a.valid))) =
            [(1, [(parseIP "fd00::a", 3600)]), (2, [(parseIP "fd00::a", 3600)])]) = true := by
    decide +kernel
  rw [hrun] at hreply
  cases result with
  | error => cases hreply
  | ok reply => exact ⟨reply, L', rfl, of_decide_eq_true hreply⟩

/-- With the reservation in its one spelling the promises are held and the addresses are apart, and
an IPv4 host has the address that it got an ACK for. -/
theorem promises_held_hostNet :
    (∃ reply L', (handle6Via (hostNet "fd00::a") (hostScope "fd00::a") 0 (fun _ => 0)
        (.message (hostRequest "fd00::a")) none).on identified = (.ok reply, L') ∧
      (reply.ianas.map fun ia => ia.addresses.length) = [1, 1] ∧
      (reply.iapds.map fun ia => ia.prefixes.length) = [1] ∧
      (∀ ia ∈ reply.ianas, HeldNA L' (hostScope "fd00::a") 0 hostDuid ia) ∧
      (∀ ia ∈ reply.iapds, HeldPD L' (hostScope "fd00::a") 0 hostDuid ia) ∧ AddressesApart reply) ∧
    ∃ reply L' seconds address,
      (handle4 (hostNet "fd00::a") printerScope 0 printerRequest).on identified = (.ok reply, L') ∧
      reply.options.get optionLeaseTime = some (fourBytes seconds) ∧ parseIP address = some reply.yourIP ∧
      Leased L' printerScope (client4 printerRequest) address seconds := by
  have hvalid : (hostNet "fd00::a").validate = .ok () := by decide +kernel
  refine ⟨?_, ?_⟩
  · rcases hrun : (handle6Via (hostNet "fd00::a") (hostScope "fd00::a") 0 (fun _ => 0)
      (.message (hostRequest "fd00::a")) none).on identified with ⟨result, L'⟩
    have hcounts : ((handle6Via (hostNet "fd00::a") (hostScope "fd00::a") 0 (fun _ => 0)
        (.message (hostRequest "fd00::a")) none).on identified).1.toOption.map (fun reply =>
          ((reply.ianas.map fun ia => ia.addresses.length), reply.iapds.map fun ia => ia.prefixes.length)) =
        some ([1, 1], [1]) := by
      decide +kernel
    have hspelled : WellSpelled (hostScope "fd00::a") 0 identified := by
      refine ⟨?_, fun k b hget => (by simp [identified] at hget)⟩
      intro r hr
      rw [mem_singleton.mp hr]
      decide +kernel
    rw [hrun] at hcounts
    cases result with
    | error => cases hcounts
    | ok reply =>
      obtain ⟨cid, hcid, hnas, hpds, -, -, hapart⟩ :=
        (promises_held hvalid mem_cons_self reached_identified 0).2 _ _ _ (hostRequest "fd00::a") reply L' rfl
          (Or.inl rfl) hrun
      obtain rfl : hostDuid = cid := Option.some.inj hcid
      have hlengths := Prod.mk.inj (Option.some.inj hcounts)
      exact ⟨reply, L', rfl, hlengths.1, hlengths.2, hnas, hpds, hapart hspelled⟩
  · rcases hrun : (handle4 (hostNet "fd00::a") printerScope 0 printerRequest).on identified with ⟨result, L'⟩
    have hack : ((handle4 (hostNet "fd00::a") printerScope 0 printerRequest).on identified).1.toOption.map
            (fun reply => reply.options.get optionMessageType) = some (some [MessageType4.ack.code]) := by
      decide +kernel
    rw [hrun] at hack
    cases result with
    | error => cases hack
    | ok reply =>
      obtain ⟨seconds, address, htime, -, hip, hleased⟩ :=
        (promises_held hvalid (mem_cons_of_mem _ mem_cons_self) reached_identified 0).1 _ reply L' hrun rfl
          (Option.some.inj hack)
      rw [zero_add] at hleased
      exact ⟨reply, L', seconds, address, rfl, htime, hip, hleased⟩

end Ghostd.Proofs.Addressbook
