import Ghostd.Proofs.Addressbook.Wire

/-!
# `Ghostd.Proofs.Addressbook.Dropped`: what a packet without a reply leaves behind

`Handle6Via` serves one identity association after the other, and can stop in between. Granting does
not: with an accepted configuration an allocation fails in no way but the one that is answered
(`allocate_fails`), and delegations neither (`allocatePrefix_fails`). Two stops are left that come after
something was written. A Release or Decline can list the address of its client twice, and the second
release fails. And the number of IA_PDs is checked after the IA_NAs have been served, where that of
the IA_NAs is checked before.

`dropped_unchanged` says that these are all: a packet leaves the bindings alone whenever it gets no reply
exactly if it is `Harmless`.
-/

set_option autoImplicit false

namespace Ghostd.Proofs.Addressbook

open Ghostd.Lib Ghostd.Addressbook Session List

variable {L : Ledger} {client requested : String} {kind : MessageType6} {current : Option Binding}
    {ias : List IANA} {now : Int} {s : Scope} {e : Failure} {commit : Bool} {b : Binding} {c : Config}
    {cid : Duid} {ia : IANA}

/-! ### Allocations fail in one way -/

/-- The error that the handlers answer. -/
def Unavailable (e : Failure) : Prop := ∃ m, e = .unavailable m

section Allocate

variable {s : Scope} {p : Prefix} (hs : ScopeFacts s p)

include hs

theorem allowed_fails {P : Failure → Prop} (client mac ip : String) : Fails P (allowed s client mac ip) := by
  obtain ⟨first, last, hfirst, hlast, -, -⟩ := hs.ordered
  unfold allowed
  split
  · exact .pure _
  · split
    · exact .pure _
    · split
      · exact .pure _
      · split
        · exact .pure _
        · refine .bind (.of_ok (mustParseAddr_eq_ok.mpr hfirst)) fun first _ => ?_
          split
          · exact .bind (.of_ok (mustParseAddr_eq_ok.mpr hlast)) fun last _ => .pure _
          · exact .pure _

theorem available_fails {P : Failure → Prop} (L : Ledger) (now : Int) (client mac ip : String) :
    Fails P (available L now s client mac ip) := by
  refine .bind (allowed_fails hs client mac ip) fun ok _ => ?_
  cases ok with
  | true => exact .pure _
  | false => exact .pure _

omit hs in
theorem scanPool_fails {P : Failure → Prop} {usable : String → Except Failure Bool} (h : ∀ ip, Fails P (usable ip))
    (last : Addr) (n : Nat) (a : Addr) : Fails P (scanPool usable last n a) := by
  induction n generalizing a with
  | zero => exact .pure _
  | succ n ih =>
    rw [scanPool]
    split
    · refine .bind (h a.text) fun ok _ => ?_
      split
      · exact .pure _
      · split
        · exact ih _
        · exact .pure _
    · exact .pure _

theorem keepAddress_fails {P : Failure → Prop} (mac candidate : String) (b : Binding) :
    Fails P (keepAddress now s client mac candidate b) := by
  unfold keepAddress
  split
  · refine .bind (allowed_fails hs client mac b.address) fun ok _ => ?_
    cases ok with
    | true => exact .pure _
    | false => exact .pure _
  · exact .pure _

/-- Without an address to grant the answer is that none is available. -/
theorem chooseAddress_fails (mac : String) :
    Fails Unavailable (chooseAddress L now s client mac requested commit) := by
  obtain ⟨first, last, hfirst, hlast, -, -⟩ := hs.ordered
  refine .bind ?_ fun candidate _ => .bind (available_fails hs L now client mac candidate) fun ok _ => ?_
  · unfold firstCandidate
    split
    · split
      · exact .throw ⟨_, rfl⟩
      · exact .pure _
    · exact .bind (.foldlM (keepAddress_fails hs mac) requested) fun _ _ => .pure _
  · split
    · exact .pure _
    · split
      · exact .throw ⟨_, rfl⟩
      · split
        · exact .throw ⟨_, rfl⟩
        · refine .bind (.of_ok (mustParseAddr_eq_ok.mpr hfirst)) fun first _ =>
            .bind (.of_ok (mustParseAddr_eq_ok.mpr hlast)) fun last _ =>
            .bind (scanPool_fails (available_fails hs L now client mac) _ _ _) fun found _ => ?_
          cases found with
          | some => exact .pure _
          | none => exact .throw ⟨_, rfl⟩

end Allocate

/-- The hardware address of a DUID is one, or none. -/
theorem canonicalMAC_duidMAC (hs : s.is6 = true) (cid : Duid) : ∃ m, canonicalMAC s (duidMAC cid) = .ok m := by
  have hnone : ∃ m, canonicalMAC s "" = .ok m := by
    unfold canonicalMAC
    rw [if_neg (by simp [hs])]
    exact ⟨_, rfl⟩
  have htext : ∀ (head : List Nat) {address : List Nat}, cid.bytes = head ++ address →
      ∃ m, canonicalMAC s (if address.length = 6 then macText address else "") = .ok m := by
    intro head address hcid
    split
    · rename_i hsix
      unfold canonicalMAC
      split
      · rw [parseMAC_macText (fun b hb => cid.isByte b (by simp [hcid, hb])) hsix]
        simp only [hsix, if_true]
        exact ⟨_, rfl⟩
      · exact ⟨_, rfl⟩
    · exact hnone
  unfold duidMAC
  split
  · rename_i a b address hcid
    exact htext [0, 3, a, b] hcid
  · rename_i a b c d e f address hcid
    exact htext [0, 1, a, b, c, d, e, f] hcid
  · exact hnone

theorem startsWith_pdClient (cid : Duid) (iaid : BitVec 32) : startsWith (pdClient cid iaid) "duid:" = true :=
  startsWith_duid _ _

/-- Whether the name of a client is accepted does not depend on the identity association. -/
theorem validClient_pdClient (cid : Duid) (iaid : BitVec 32) :
    validClient (pdClient cid iaid) =
      (decide (4 ≤ byteLength (encodeHex cid.bytes)) && decide (byteLength (encodeHex cid.bytes) ≤ 256)) :=
  validClient_duid (isSome_decodeHex cid.isByte) (toLower_encodeHex _) (isSome_decodeHex (iaidBytes_lt iaid))
    (toLower_encodeHex _) (byteLength_encodeHex _)

/-! ### Granting does not stop -/

theorem succeeds_tryAllocate {I : Ledger → Prop} {Q : Binding → Prop}
    {f : Ledger → Except Failure (Binding × Ledger)} (hok : ∀ L b L', I L → f L = .ok (b, L') → I L' ∧ Q b)
    (hfails : ∀ L, I L → Fails Unavailable (f L)) :
    Succeeds I (fun r => ∀ b, r = some b → Q b) (tryAllocate f) := by
  intro L hL
  rw [on_tryAllocate]
  cases hf : f L with
  | ok r =>
    obtain ⟨b, L'⟩ := r
    obtain ⟨hL', hb⟩ := hok L b L' hL hf
    refine ⟨some b, L', rfl, hL', fun b' hb' => ?_⟩
    rw [← Option.some.inj hb']
    exact hb
  | error e =>
    obtain ⟨m, rfl⟩ := hfails L hL e hf
    exact ⟨none, L, rfl, hL, fun b hb => (by cases hb)⟩

section Serving

variable {c : Config} (hc : c.validate = .ok ()) {s : Scope} (hs : s ∈ c.scopes) (henabled : s.enabled = true)
  (his6 : s.is6 = true) {now : Int} {cid : Duid}

section Granting

variable {iaid : BitVec 32} (hvalid : validClient (pdClient cid iaid) = true)

include hc hs henabled his6 hvalid

theorem allocate_fails :
    Fails Unavailable (L.allocate now c s.id (pdClient cid iaid) (duidMAC cid) "" requested commit) := by
  obtain ⟨p, hfacts⟩ := scopeFacts_of_validate hc hs
  obtain ⟨m, hm⟩ := canonicalMAC_duidMAC his6 cid
  unfold Ledger.allocate
  simp only [scope_of_mem hc hs, henabled, hvalid, his6, startsWith_pdClient]
  refine .bind (.pure _) fun _ _ => .bind (.pure _) fun _ _ => .bind (.of_ok hm) fun m _ =>
    .bind (.pure _) fun _ _ => .bind (chooseAddress_fails hfacts m) fun ip _ => ?_
  split
  · exact .pure _
  · exact .pure _

theorem allocateNA_succeeds (hreq : Zoneless requested) (commit : Bool) :
    Succeeds Reached (fun r => ∀ b, r = some b → Zoneless b.address)
      (tryAllocate fun L => L.allocate now c s.id (pdClient cid iaid) (duidMAC cid) "" requested commit) :=
  succeeds_tryAllocate (fun _ _ _ hL h => (reached_invariant hc hs now .solicit cid _).allocate rfl hL hreq h)
    fun _ _ => allocate_fails hc hs henabled his6 hvalid

theorem targetNA_succeeds (hcurrent : ∀ b, current = some b → Zoneless b.address) (ia : IANA) :
    Succeeds Reached (fun t => ∀ ip, t = some ip → Zoneless ip)
      (targetNA c s now cid (pdClient cid iaid) current ia) := by
  obtain ⟨p, hfacts⟩ := scopeFacts_of_validate hc hs
  obtain ⟨ok, hok⟩ := (allowed_fails hfacts (pdClient cid iaid) (duidMAC cid) (requestedAddress current ia)).exists_ok
  unfold targetNA
  refine Succeeds.bind (Succeeds.ofExcept hok) fun ok _ => ?_
  split
  · refine Succeeds.bind (allocateNA_succeeds hc hs henabled his6 hvalid zoneless_empty false) fun offer hoffer =>
      Succeeds.pure fun ip hip => ?_
    obtain ⟨b, hb, rfl⟩ := Option.map_eq_some_iff.mp hip
    exact hoffer b hb
  · refine Succeeds.pure fun ip hip => ?_
    rw [← Option.some.inj hip]
    exact (reached_invariant hc hs now .solicit cid (pdClient cid iaid)).requestedAddress hcurrent ia

theorem grantNA_succeeds (kind : MessageType6) (hcurrent : ∀ b, current = some b → Zoneless b.address)
    (ia : IANA) :
    Succeeds Reached (fun _ => True) (grantNA c s now kind cid (pdClient cid iaid) current ia) := by
  unfold grantNA
  refine Succeeds.bind (targetNA_succeeds hc hs henabled his6 hvalid hcurrent ia) fun target htarget => ?_
  cases target with
  | none => exact Succeeds.pure trivial
  | some ip =>
    refine Succeeds.bind (allocateNA_succeeds hc hs henabled his6 hvalid (htarget ip rfl) _) fun r _ => ?_
    cases r with
    | none => exact Succeeds.pure trivial
    | some => exact Succeeds.pure trivial

end Granting

include hc hs henabled his6

/-- An IA_NA that asks for a lease never stops the handler. -/
theorem handleNA_succeeds (hkind : kind.givesBack = false) (hvalid : validClient (pdClient cid ia.iaid) = true) :
    Succeeds Reached (fun _ => True) (handleNA c s now kind cid ia) := by
  unfold handleNA
  refine Succeeds.bind (Succeeds.stopIf (by rw [hvalid]; rfl)) fun _ _ => ?_
  refine Succeeds.bind (Q := fun cur : Option Binding => ∀ b, cur = some b → Zoneless b.address)
    (Succeeds.read fun L hL b hb => (reached_invariant hc hs now kind cid _).current hL hb) fun current hcurrent => ?_
  rw [hkind, if_neg (by decide)]
  split
  · exact Succeeds.pure trivial
  · refine Succeeds.bind (grantNA_succeeds hc hs henabled his6 hvalid kind hcurrent ia) fun r _ => ?_
    cases r with
    | error => exact Succeeds.pure trivial
    | ok => exact Succeeds.pure trivial

omit henabled his6 in
theorem allocatePrefix_fails (hL : Filed L) {pd : PDConfig} (hpd : s.pd = some pd) {duidHex hint via : String} :
    Fails Unavailable (L.allocatePrefix now s client duidHex hint via commit) := by
  obtain ⟨p, hfacts⟩ := scopeFacts_of_validate hc hs
  obtain ⟨-, pool, hpool⟩ := hfacts.pool pd hpd
  have hsettle : Fails Unavailable (settlePrefix L now s client hint pool pd.length.toNat) := by
    unfold settlePrefix
    split
    · -- The delegation that a client has is a prefix.
      rename_i hmine
      obtain ⟨hmem, hheld⟩ := lastBinding_mem hmine
      obtain ⟨q, hq, -⟩ := (hL.stored (mem_liveByClient hL.sound hmem).1).delegated
        (by simpa using (Bool.and_eq_true_iff.mp hheld).1)
      refine .of_ok (a := q) (mustParsePrefix_eq_ok.mpr ?_)
      unfold myDelegation
      rw [hq, parsePrefix_text]
    · split
      · exact .pure _
      · exact .throw ⟨_, rfl⟩
  unfold Ledger.allocatePrefix
  rw [hpd]
  refine .bind (.of_ok (mustParsePrefix_eq_ok.mpr hpool.parsed)) fun pool' hpool' => ?_
  obtain rfl : pool = pool' := Except.ok.inj ((mustParsePrefix_eq_ok.mpr hpool.parsed).symm.trans hpool')
  refine .bind hsettle fun chosen _ => ?_
  dsimp only
  split
  · exact .pure _
  · split
    · exact .pure _
    · exact .pure _

omit henabled his6 in
/-- An IA_PD never stops the handler. -/
theorem handlePD_succeeds (kind : MessageType6) (via : Option IP) (ia : IAPD) :
    Succeeds Reached (fun _ => True) (handlePD s now kind cid via ia) := by
  unfold handlePD
  dsimp only
  split
  · exact Succeeds.pure trivial
  · rename_i hpd
    obtain ⟨pd, hpd⟩ : ∃ pd, s.pd = some pd := Option.ne_none_iff_exists'.mp (by simpa using hpd)
    split
    · exact Succeeds.pure trivial
    · rename_i hvalid
      have hnul := nul_not_mem_client (by simpa using hvalid)
      intro L hL
      rw [on_bind, on_read]
      show ∃ a L', _ = _ ∧ _
      simp only
      split
      · split
        · exact ⟨_, L, rfl, hL, trivial⟩
        · -- The delegation that was found is among those that are released.
          rename_i hcurrent
          have hheld : (L.liveByClient s.id (pdClient cid ia.iaid)).filter (heldDelegation now) ≠ [] := by
            intro hempty
            have hzero : lastBinding (fun b => b.origin = .dhcpv6PD && b.state = .active && b.endsAt > now)
                (L.liveByClient s.id (pdClient cid ia.iaid)) = {} := by
              by_contra hne
              obtain ⟨hmem, hp⟩ := lastBinding_found hne
              have hin := mem_filter.mpr ⟨hmem, show heldDelegation now _ = true by
                simp only [Bool.and_eq_true, decide_eq_true_eq] at hp
                simp [heldDelegation, Binding.held, hp.1.1, hp.1.2, hp.2, heldState]⟩
              rw [hempty] at hin
              cases hin
            refine hcurrent ?_
            unfold Ledger.currentDelegation
            simp [hzero]
          have hrelease : L.releasePrefix now s (pdClient cid ia.iaid) = .ok (L.endBindings now
              ((L.liveByClient s.id (pdClient cid ia.iaid)).filter (heldDelegation now))
                fun b => { b with state := .released, endsAt := now }) := by
            unfold Ledger.releasePrefix
            simp [refuseIf, hheld]
          rw [on_bind, on_transact_ok (by rw [hrelease]; rfl)]
          exact ⟨_, _, rfl, reached_releasePrefix hL hrelease, trivial⟩
      · split
        · exact ⟨_, L, rfl, hL, trivial⟩
        · split
          · exact ⟨_, L, rfl, hL, trivial⟩
          · refine Succeeds.bind (I := Reached) (succeeds_tryAllocate (Q := fun _ => True) ?_ ?_) (fun r _ => ?_) L hL
            · intro L1 b L2 h1 hstep
              exact ⟨reached_allocatePrefix h1 ⟨c, hc, hs⟩ hnul hstep, trivial⟩
            · exact fun L1 h1 => allocatePrefix_fails hc hs (filed_of_reached h1) hpd
            · cases r with
              | none => exact Succeeds.pure trivial
              | some => exact Succeeds.pure trivial

end Serving

/-! ### What granting looks at -/

/-- The two ledgers have the same bindings and associations. -/
def SameLeases (L M : Ledger) : Prop := L.bindings = M.bindings ∧ L.associations = M.associations

theorem SameLeases.readBinding {M : Ledger} (h : SameLeases L M) (scope address : String) :
    L.readBinding scope address = M.readBinding scope address := by
  unfold Ledger.readBinding
  rw [h.1]

section Agreement

variable {L M : Ledger} (hL : Reached L) (hM : Reached M) (h : SameLeases L M)

include hL hM h

theorem SameLeases.liveByClient (scope client : String) :
    L.liveByClient scope client = M.liveByClient scope client := by
  refine liveByClient_congr (filed_of_reached hL) (filed_of_reached hM) fun b _ _ => ?_
  rw [h.1]

theorem SameLeases.currentClient (now : Int) (scope client : String) :
    L.currentClient now scope client = M.currentClient now scope client := by
  unfold Ledger.currentClient
  rw [h.liveByClient hL hM]

/-- An allocation gives the same in both. -/
theorem SameLeases.allocate (now : Int) (c : Config) (scopeID client mac claimed requested : String)
    (commit : Bool) :
    (L.allocate now c scopeID client mac claimed requested commit).map
        (fun r => (r.1, r.2.bindings, r.2.associations)) =
      (M.allocate now c scopeID client mac claimed requested commit).map
        fun r => (r.1, r.2.bindings, r.2.associations) := by
  have hread := h.readBinding
  have havailable : ∀ s m, available L now s client m = available M now s client m := by
    intro s m
    funext ip
    unfold available
    rw [hread]
  have hchoose : ∀ s m, chooseAddress L now s client m requested commit =
      chooseAddress M now s client m requested commit := by
    intro s m
    unfold chooseAddress firstCandidate
    rw [h.liveByClient hL hM, havailable]
  have hlease : ∀ s m ip, newLease L now c s client m claimed ip commit =
      newLease M now c s client m claimed ip commit := by
    intro s m ip
    have hassociation : L.readAssociation = M.readAssociation := by
      funext client
      unfold Ledger.readAssociation
      rw [h.2]
    unfold newLease leaseIdentity
    rw [hread, hassociation]
  unfold Ledger.allocate
  cases c.scope scopeID with
  | none => rfl
  | some =>
    simp only [bind, Except.bind, hchoose, hread, hlease]
    repeat' split
    all_goals first
      | rfl
      | simp [Except.map, pure, Except.pure, bindings_save, associations_save, h.1, h.2]

end Agreement

theorem agrees_tryAllocate {f : Ledger → Except Failure (Binding × Ledger)}
    (h : ∀ L M, Reached L → Reached M → SameLeases L M →
      (f L).map (fun r => (r.1, r.2.bindings, r.2.associations)) =
        (f M).map fun r => (r.1, r.2.bindings, r.2.associations)) :
    Agrees Reached SameLeases (tryAllocate f) := by
  intro L M hL hM hsame
  have heq := h L M hL hM hsame
  rw [on_tryAllocate, on_tryAllocate]
  generalize f L = x at heq ⊢
  generalize f M = y at heq ⊢
  cases x with
  | ok =>
    cases y with
    | error => cases heq
    | ok =>
      simp only [Except.map, Except.ok.injEq, Prod.mk.injEq] at heq
      exact ⟨congrArg (fun b => Except.ok (some b)) heq.1, heq.2⟩
  | error e =>
    cases y with
    | ok => cases heq
    | error =>
      obtain rfl := Except.error.inj heq
      cases e with
      | unavailable => exact ⟨rfl, hsame⟩
      | error => exact ⟨rfl, hsame⟩
      | panic => exact ⟨rfl, hsame⟩

section Agreement

variable {c : Config} (hc : c.validate = .ok ()) {s : Scope} (hs : s ∈ c.scopes) {now : Int} {cid : Duid}
  {client : String}

include hc hs

theorem targetNA_agrees (ia : IANA) : Agrees Reached SameLeases (targetNA c s now cid client current ia) := by
  have hinv := reached_invariant hc hs now .solicit cid client
  unfold targetNA
  refine Agrees.bind (Agrees.ofExcept _ _) (Keeps.ofExcept _ _) fun ok _ => ?_
  split
  · refine Agrees.bind (agrees_tryAllocate fun L M hL hM hsame => ?_) (hinv.tryAllocate rfl hinv.unnamed false)
      fun offer _ => Agrees.pure _
    exact hsame.allocate hL hM now c s.id client (duidMAC cid) "" "" false
  · exact Agrees.pure _

theorem grantNA_agrees (hkind : kind.givesBack = false) (hcurrent : ∀ b, current = some b → Zoneless b.address)
    (ia : IANA) : Agrees Reached SameLeases (grantNA c s now kind cid client current ia) := by
  have hinv := reached_invariant hc hs now kind cid client
  unfold grantNA
  refine Agrees.bind (targetNA_agrees hc hs ia) (hinv.targetNA hkind hcurrent ia) fun target htarget => ?_
  cases target with
  | none => exact Agrees.pure _
  | some ip =>
    refine Agrees.bind (agrees_tryAllocate fun L M hL hM hsame => ?_) (hinv.tryAllocate hkind (htarget ip rfl) _)
      fun r _ => ?_
    · exact hsame.allocate hL hM now c s.id client (duidMAC cid) "" ip _
    · cases r with
      | none => exact Agrees.pure _
      | some => exact Agrees.pure _

/-- An IA_NA that asks for a lease sees nothing but bindings and associations. -/
theorem handleNA_agrees (hkind : kind.givesBack = false) (ia : IANA) :
    Agrees Reached SameLeases (handleNA c s now kind cid ia) := by
  have hinv := reached_invariant hc hs now kind cid (pdClient cid ia.iaid)
  unfold handleNA
  refine Agrees.bind (Agrees.stopIf _ _) (Keeps.stopIf _ _) fun _ _ => ?_
  refine Agrees.bind (Q := fun cur : Option Binding => ∀ b, cur = some b → Zoneless b.address)
    (Agrees.read fun L M hL hM hsame => hsame.currentClient hL hM now s.id _)
    (Keeps.read fun L hL b hb => hinv.current hL hb) fun current hcurrent => ?_
  rw [hkind, if_neg (by decide)]
  split
  · exact Agrees.pure _
  · refine Agrees.bind (grantNA_agrees hc hs hkind hcurrent ia) (hinv.grantNA hkind hcurrent ia) fun r _ => ?_
    cases r with
    | error => exact Agrees.pure _
    | ok => exact Agrees.pure _

end Agreement

/-! ### What an association can change -/

/-- What a release writes belongs to the client. -/
theorem release_owned {L' : Ledger} {scope ip : String} {decline : Bool}
    (h : L.release now scope client ip decline = .ok L') (k : String) :
    L'.bindings.get k = L.bindings.get k ∨ ∃ b, L'.bindings.get k = some b ∧ b.client = client := by
  obtain ⟨b, kind, ⟨b0, -, hclient, -, hb⟩, rfl⟩ := release_eq h
  rw [get_save]
  split
  · refine Or.inr ⟨b, rfl, ?_⟩
    rcases hb with rfl | rfl
    · exact hclient
    · exact hclient
  · exact Or.inl rfl

section Changes

variable {c : Config} (hc : c.validate = .ok ()) {s : Scope} (hs : s ∈ c.scopes) {now : Int}
  {kind : MessageType6} {cid : Duid} {client : String}

/-- A binding of the client, which a later allocation for somebody else leaves alone. -/
def OwnedBy (now : Int) (kind : MessageType6) (client : String) (b : Binding) : Prop :=
  b.client = client ∧ (kind.givesBack = false → b.live now = true)

include hc hs

/-- Bindings of others stay. -/
theorem other_invariant {k : String} {owner : String} (hb : OwnedBy now kind owner b) (hother : owner ≠ client) :
    Invariant c s now kind cid client (fun L => Reached L ∧ L.bindings.get k = some b) Zoneless := by
  have hreached := reached_invariant hc hs now kind cid client
  refine ⟨hreached.unnamed, hreached.hint, fun hL => hreached.current hL.1, ?_, ?_⟩
  · intro hgrants L L' requested commit r hL hreq h
    obtain ⟨hL', hr⟩ := hreached.allocate hgrants hL.1 hreq h
    exact ⟨⟨hL', allocate_other hc hs h hL.2 (hb.2 hgrants) (by rw [hb.1]; exact hother)⟩, hr⟩
  · intro hreturns L L' ip decline hL h
    exact ⟨hreached.release hreturns hL.1 h,
      release_other (filed_of_reached hL.1) h hL.2 (by rw [hb.1]; exact hother)⟩

/-- What changes is a binding of the client. -/
theorem changes_invariant (L0 : Ledger) :
    Invariant c s now kind cid client
      (fun L => Reached L ∧ ∀ k, L.bindings.get k = L0.bindings.get k ∨
        ∃ b, L.bindings.get k = some b ∧ OwnedBy now kind client b) Zoneless := by
  have hreached := reached_invariant hc hs now kind cid client
  refine ⟨hreached.unnamed, hreached.hint, fun hL => hreached.current hL.1, ?_, ?_⟩
  · intro hgrants L L' requested commit r hL hreq h
    obtain ⟨hL', hr⟩ := hreached.allocate hgrants hL.1 hreq h
    refine ⟨⟨hL', fun k => ?_⟩, hr⟩
    have hgranted := allocate_granted hc hs h (filed_of_reached hL.1) hreq
    obtain ⟨s', m, ip, -, -, -, -, -, -, ⟨-, -, -, -, -, rfl⟩ | ⟨-, -, rfl⟩⟩ := allocate_cases h
    · exact hL.2 k
    · rw [get_save]
      split
      · exact Or.inr ⟨r, rfl, hgranted.client, fun _ => live_of_held hgranted.held⟩
      · exact hL.2 k
  · intro hreturns L L' ip decline hL h
    refine ⟨hreached.release hreturns hL.1 h, fun k => ?_⟩
    obtain hsame | ⟨b, hget, hclient⟩ := release_owned h k
    · rw [hsame]
      exact hL.2 k
    · exact Or.inr ⟨b, hget, hclient, fun hgrants => absurd hreturns (by rw [hgrants]; decide)⟩

omit hc hs in
theorem associations_invariant (L0 : Ledger) :
    Invariant c s now kind cid client (fun L => L.associations = L0.associations) (fun _ => True) := by
  refine ⟨trivial, fun _ => trivial, fun _ _ => trivial, ?_, ?_⟩
  · intro _ L L' requested commit r hL _ h
    refine ⟨?_, trivial⟩
    obtain ⟨s', m, ip, -, -, -, -, -, -, ⟨-, -, -, -, -, rfl⟩ | ⟨-, -, rfl⟩⟩ := allocate_cases h
    · exact hL
    · rw [associations_save]
      exact hL
  · intro _ L L' ip decline hL h
    obtain ⟨b, kind, -, rfl⟩ := release_eq h
    rw [associations_save]
    exact hL

/-- A change by one association outlasts those of other clients. -/
theorem changed_after {L1 L2 : Ledger} (hL : Reached L) (hfirst : ((handleNA c s now kind cid ia).on L).2 = L1)
    (hchanged : L1.bindings ≠ L.bindings) (hothers : ∀ x ∈ ias, ia.iaid ≠ x.iaid)
    (hrest : ((ias.mapM (handleNA c s now kind cid)).on L1).2 = L2) : L2.bindings ≠ L.bindings := by
  obtain ⟨⟨hL1, hkeys⟩, -⟩ := handleNA_keeps ia (changes_invariant hc hs L) L ⟨hL, fun k => Or.inl rfl⟩
  rw [hfirst] at hL1 hkeys
  obtain ⟨k, hk⟩ : ∃ k, L1.bindings.get k ≠ L.bindings.get k := by
    by_contra hsame
    push Not at hsame
    exact hchanged (Bucket.ext_get hsame)
  obtain hsame | ⟨b, hget, howned⟩ := hkeys k
  · exact absurd hsame hk
  have hloop : Keeps (fun L => Reached L ∧ L.bindings.get k = some b) (fun _ => True)
      (ias.mapM (handleNA c s now kind cid)) :=
    Keeps.mapM fun x hx =>
      handleNA_keeps x (other_invariant hc hs howned fun heq => hothers x hx (pdClient_inj heq))
  obtain ⟨⟨-, hkept⟩, -⟩ := hloop L1 ⟨hL1, hget⟩
  rw [hrest] at hkept
  intro heq
  rw [heq] at hkept
  exact hk (hget.trans hkept.symm)

end Changes

/-! ### The loop over IA_NAs that ask for leases -/

section Granting

variable {c : Config} (hc : c.validate = .ok ()) {s : Scope} (hs : s ∈ c.scopes) (henabled : s.enabled = true)
  (his6 : s.is6 = true) (now : Int) {kind : MessageType6} (hkind : kind.givesBack = false) {cid : Duid}

include hc hs henabled his6 hkind

theorem granting_succeeds (hvalid : ∀ ia ∈ ias, validClient (pdClient cid ia.iaid) = true) :
    Succeeds Reached (fun _ => True) (ias.mapM (handleNA c s now kind cid)) :=
  Succeeds.mapM fun ia hia => handleNA_succeeds hc hs henabled his6 hkind (hvalid ia hia)

/-- The loop changes no binding exactly if none of its elements does, each on its own. -/
theorem granting_unchanged (hvalid : ∀ ia ∈ ias, validClient (pdClient cid ia.iaid) = true)
    (hnodup : ias.Pairwise fun x y => x.iaid ≠ y.iaid) (hL : Reached L) :
    ((ias.mapM (handleNA c s now kind cid)).on L).2.bindings = L.bindings ↔
      ∀ ia ∈ ias, ((handleNA c s now kind cid ia).on L).2.bindings = L.bindings := by
  induction ias generalizing L with
  | nil => simp
  | cons ia ias ih =>
    obtain ⟨hothers, hnodup⟩ := pairwise_cons.mp hnodup
    have hvalid' := fun x hx => hvalid x (mem_cons_of_mem _ hx)
    obtain ⟨out, L1, hfirst, hL1, -⟩ :=
      handleNA_succeeds hc hs henabled his6 hkind (hvalid ia mem_cons_self) L hL
    rw [on_mapM_cons hfirst, Prod.map_snd, id, forall_mem_cons, hfirst]
    by_cases hsame : L1.bindings = L.bindings
    · -- The rest sees the bindings it would have seen at the start.
      have hassociations : ((handleNA c s now kind cid ia).on L).2.associations = L.associations :=
        (handleNA_keeps ia (associations_invariant L) L rfl).1
      rw [hfirst] at hassociations
      have hrest := ih hvalid' hnodup hL1
      rw [hsame] at hrest
      rw [hrest]
      constructor
      · intro h
        refine ⟨hsame, fun x hx => ?_⟩
        rw [← (handleNA_agrees hc hs hkind x L1 L hL1 hL ⟨hsame, hassociations⟩).2.1]
        exact h x hx
      · intro h x hx
        rw [(handleNA_agrees hc hs hkind x L1 L hL1 hL ⟨hsame, hassociations⟩).2.1]
        exact h.2 x hx
    · have hchanged := changed_after hc hs hL (by rw [hfirst]) hsame hothers rfl
      constructor
      · intro h
        exact absurd h hchanged
      · intro h
        exact absurd h.1 hsame

end Granting

/-! ### The loop over IA_NAs that give leases back -/

/-- How often a Release or Decline names the address that its client has. -/
def mentions (L : Ledger) (now : Int) (s : Scope) (cid : Duid) (ia : IANA) : Nat :=
  (L.currentClient now s.id (pdClient cid ia.iaid)).elim 0 fun b =>
    ia.addresses.countP fun a => IP.text a.ip = b.address

/-- The lease that a client has can be given back once. -/
theorem release_once (hL : Reached L) (hcurrent : L.currentClient now s.id client = some b) (decline : Bool) :
    ∃ L1 e, L.release now s.id client b.address decline = .ok L1 ∧
      L1.release now s.id client b.address decline = .error e ∧ L1.bindings.get b.key ≠ L.bindings.get b.key := by
  obtain ⟨hstored, hscope, hclient, -, hstate, hends⟩ := currentClient_some (filed_of_reached hL) hcurrent
  have hkey : b.key = bindingKey s.id b.address := by rw [Binding.key, hscope]
  have hread : L.readBinding s.id b.address = b := readBinding_of_get (by rw [← hkey]; exact hstored)
  have hheld : b.held now = true := by simp [Binding.held, hstate, heldState, hends]
  -- What is saved is not held any more.
  obtain ⟨b', kind, hrelease, hkey', hheld'⟩ : ∃ b' kind,
      L.release now s.id client b.address decline = .ok (L.save now b' kind) ∧ b'.key = b.key ∧
        b'.held now = false := by
    unfold Ledger.release
    cases decline with
    | true =>
      refine ⟨{ b with state := .declined, endsAt := now + 600 }, .decline, ?_, rfl, by simp [Binding.held, heldState]⟩
      simp [hread, hclient, hheld, refuseIf]
    | false =>
      refine ⟨{ b with state := .released, endsAt := now }, .release, ?_, rfl, by simp [Binding.held, heldState]⟩
      simp [hread, hclient, hheld, refuseIf]
  have hget : (L.save now b' kind).bindings.get b.key = some b' := by rw [get_save, hkey', if_pos rfl]
  have hread' : (L.save now b' kind).readBinding s.id b.address = b' := readBinding_of_get (by rw [← hkey]; exact hget)
  refine ⟨_, .error "no live binding owned by client", hrelease, ?_, ?_⟩
  · unfold Ledger.release
    simp only [hread', hheld', Bool.not_false, Bool.or_true, refuseIf, if_true]
    rfl
  · rw [hget, hstored]
    intro heq
    rw [Option.some.inj heq, hheld] at hheld'
    cases hheld'

theorem on_releaseAddress (a : IAAddress) :
    (releaseAddress s now kind client b a).on L =
      if IP.text a.ip = b.address then
        match L.release now s.id client b.address (kind = .decline) with
        | .ok L1 => (.ok (), L1)
        | .error e => (.error (.failed e), L)
      else (.ok (), L) := by
  unfold releaseAddress
  by_cases ha : IP.text a.ip = b.address
  · rw [if_neg (by simpa using ha), if_pos ha]
    cases hrelease : L.release now s.id client b.address (kind = .decline) with
    | ok => exact on_transact_ok (by rw [hrelease]; rfl)
    | error => exact on_transact_error (by rw [hrelease]; rfl)
  · rw [if_pos ha, if_neg ha]
    rfl

/-- The loop over the addresses of an IA_NA: the second mention of the address stops it. -/
theorem releaseAddresses_on {L1 : Ledger}
    (hrelease : L.release now s.id client b.address (kind = .decline) = .ok L1)
    (hagain : L1.release now s.id client b.address (kind = .decline) = .error e) (as : List IAAddress) :
    (as.forM (releaseAddress s now kind client b)).on L =
      match as.countP fun a => IP.text a.ip = b.address with
      | 0 => (.ok (), L)
      | 1 => (.ok (), L1)
      | _ => (.error (.failed e), L1) := by
  -- Once it is released, any further mention stops the loop.
  have hafter : ∀ as : List IAAddress, (as.forM (releaseAddress s now kind client b)).on L1 =
      match as.countP fun a => IP.text a.ip = b.address with
      | 0 => (.ok (), L1)
      | _ => (.error (.failed e), L1) := by
    intro as
    induction as with
    | nil => rfl
    | cons a as ih =>
      show (releaseAddress s now kind client b a >>= fun _ => as.forM (releaseAddress s now kind client b)).on L1 = _
      rw [on_bind, on_releaseAddress, hagain, countP_cons]
      by_cases ha : IP.text a.ip = b.address
      · simp [ha]
      · simpa [ha] using ih
  induction as with
  | nil => rfl
  | cons a as ih =>
    show (releaseAddress s now kind client b a >>= fun _ => as.forM (releaseAddress s now kind client b)).on L = _
    rw [on_bind, on_releaseAddress, hrelease, countP_cons]
    by_cases ha : IP.text a.ip = b.address
    · simp only [ha, if_true, decide_true, hafter]
      cases as.countP fun a => decide (IP.text a.ip = b.address) with
      | zero => rfl
      | succ => rfl
    · simpa [ha] using ih

section Returning

variable {c : Config} (hc : c.validate = .ok ()) {s : Scope} (hs : s ∈ c.scopes) (now : Int)
  {kind : MessageType6} (hkind : kind.givesBack = true) {cid : Duid}

include hkind

/-- An IA_NA of a Release or Decline: it changes nothing, releases the lease, or stops after that. -/
theorem handleNA_returns (hvalid : validClient (pdClient cid ia.iaid) = true) (hL : Reached L) :
    (mentions L now s cid ia = 0 ∧ ∃ out, (handleNA c s now kind cid ia).on L = (.ok out, L)) ∨
    ∃ b L1, L.currentClient now s.id (pdClient cid ia.iaid) = some b ∧
      L.release now s.id (pdClient cid ia.iaid) b.address (kind = .decline) = .ok L1 ∧
      L1.bindings.get b.key ≠ L.bindings.get b.key ∧
      ((mentions L now s cid ia = 1 ∧ ∃ out, (handleNA c s now kind cid ia).on L = (.ok out, L1)) ∨
        (2 ≤ mentions L now s cid ia ∧ ∃ d, (handleNA c s now kind cid ia).on L = (.error d, L1))) := by
  have hopen : ∀ o, L.currentClient now s.id (pdClient cid ia.iaid) = o → (handleNA c s now kind cid ia).on L =
      (o.elim (pure { iaid := ia.iaid, status := some ⟨.noBinding, "binding release"⟩ } : Handler IANA) fun b => do
        ia.addresses.forM (releaseAddress s now kind (pdClient cid ia.iaid) b)
        pure
          { iaid := ia.iaid
            status := some ⟨if ia.addresses ≠ [] && ia.addresses.all (IP.text ·.ip = b.address) then .success
              else .noBinding, "binding release"⟩ }).on L := by
    intro o ho
    unfold handleNA
    rw [on_bind, hvalid]
    show ((Session.read fun L => L.currentClient now s.id (pdClient cid ia.iaid)) >>= _ : Handler IANA).on L = _
    rw [on_bind, on_read, ho]
    cases o <;> simp only [hkind, if_true] <;> rfl
  cases hcurrent : L.currentClient now s.id (pdClient cid ia.iaid) with
  | none => exact Or.inl ⟨by simp [mentions, hcurrent], _, hopen _ hcurrent⟩
  | some b =>
    have hopen := hopen _ hcurrent
    have hcount : mentions L now s cid ia = ia.addresses.countP fun a => IP.text a.ip = b.address := by
      simp [mentions, hcurrent]
    obtain ⟨L1, e, hrelease, hagain, hchanged⟩ := release_once hL hcurrent (kind = .decline)
    have hloop := releaseAddresses_on hrelease hagain ia.addresses
    rw [← hcount] at hloop
    rw [Option.elim_some, on_bind, hloop] at hopen
    rcases hn : mentions L now s cid ia with _ | _ | n
    · rw [hn] at hopen
      exact Or.inl ⟨rfl, _, hopen⟩
    · rw [hn] at hopen
      exact Or.inr ⟨b, L1, rfl, hrelease, hchanged, Or.inl ⟨rfl, _, hopen⟩⟩
    · rw [hn] at hopen
      exact Or.inr ⟨b, L1, rfl, hrelease, hchanged, Or.inr ⟨by omega, _, hopen⟩⟩

omit hkind in
/-- A release leaves what other clients have. -/
theorem mentions_release {L1 : Ledger} (hL : Reached L) {ip : String} {decline : Bool}
    (h : L.release now s.id client ip decline = .ok L1) {x : IANA} (hother : pdClient cid x.iaid ≠ client) :
    mentions L1 now s cid x = mentions L now s cid x := by
  have hfiled := filed_of_reached hL
  have hL1 := reached_release hL h
  have hlive : L1.liveByClient s.id (pdClient cid x.iaid) = L.liveByClient s.id (pdClient cid x.iaid) := by
    refine liveByClient_congr (filed_of_reached hL1) hfiled fun b hclient hlive => ?_
    have hne : b.client ≠ client := by
      rw [hclient]
      exact hother
    constructor
    · intro hget
      -- A binding that the release has written belongs to the client.
      obtain hsame | ⟨b', hget', hclient'⟩ := release_owned h b.key
      · exact hsame.symm.trans hget
      · rw [hget, Option.some.injEq] at hget'
        rw [← hget'] at hclient'
        exact absurd hclient' hne
    · intro hget
      exact release_other hfiled h hget hne
  unfold mentions Ledger.currentClient
  rw [hlive]

include hc hs

/-- The loop over the IA_NAs of a Release or Decline. It returns if no address is named twice, and it
changes no binding if none is named at all. -/
theorem returning (hvalid : ∀ ia ∈ ias, validClient (pdClient cid ia.iaid) = true)
    (hnodup : ias.Pairwise fun x y => x.iaid ≠ y.iaid) (hL : Reached L) :
    ((∃ outs, ((ias.mapM (handleNA c s now kind cid)).on L).1 = .ok outs) ↔
      ∀ ia ∈ ias, mentions L now s cid ia ≤ 1) ∧
    (((ias.mapM (handleNA c s now kind cid)).on L).2.bindings = L.bindings ↔
      ∀ ia ∈ ias, mentions L now s cid ia = 0) := by
  induction ias generalizing L with
  | nil => exact ⟨by simp, by simp⟩
  | cons ia ias ih =>
    obtain ⟨hothers, hnodup⟩ := pairwise_cons.mp hnodup
    have hvalid' := fun x hx => hvalid x (mem_cons_of_mem _ hx)
    -- After an association that is served the loop is that over the others.
    have hserved : ∀ {out L1}, (handleNA c s now kind cid ia).on L = (.ok out, L1) →
        ((∃ outs, (((ia :: ias).mapM (handleNA c s now kind cid)).on L).1 = .ok outs) ↔
          ∃ outs, ((ias.mapM (handleNA c s now kind cid)).on L1).1 = .ok outs) ∧
        (((ia :: ias).mapM (handleNA c s now kind cid)).on L).2 =
          ((ias.mapM (handleNA c s now kind cid)).on L1).2 := by
      intro out L1 hfirst
      rw [on_mapM_cons hfirst]
      rcases (ias.mapM (handleNA c s now kind cid)).on L1 with ⟨_ | outs, L2⟩ <;> simp [Except.map]
    rw [forall_mem_cons, forall_mem_cons]
    rcases handleNA_returns now hkind (hvalid ia mem_cons_self) hL with
      ⟨hnone, out, hfirst⟩ | ⟨b, L1, hcurrent, hrelease, hchanged, ⟨hone, out, hfirst⟩ | ⟨htwo, d, hfirst⟩⟩
    · obtain ⟨hreturns, hleft⟩ := hserved hfirst
      obtain ⟨ihreturns, ihleft⟩ := ih hvalid' hnodup hL
      rw [hreturns, hleft, ihreturns, ihleft, hnone]
      simp
    · -- The lease is gone, and those of the others are as before.
      have hL1 := reached_release hL hrelease
      have hsame : ∀ x ∈ ias, mentions L1 now s cid x = mentions L now s cid x := fun x hx =>
        mentions_release now hL hrelease fun heq => hothers x hx (pdClient_inj heq).symm
      obtain ⟨hreturns, hleft⟩ := hserved hfirst
      obtain ⟨ihreturns, -⟩ := ih hvalid' hnodup hL1
      have hgone := changed_after hc hs hL (by rw [hfirst]) (fun heq => hchanged (by rw [heq])) hothers hleft.symm
      refine ⟨?_, ?_⟩
      · rw [hreturns, ihreturns, hone]
        constructor
        · intro h
          exact ⟨le_refl 1, fun x hx => by rw [← hsame x hx]; exact h x hx⟩
        · intro h x hx
          rw [hsame x hx]
          exact h.2 x hx
      · constructor
        · intro h
          exact absurd h hgone
        · intro h
          omega
    · have hstopped : ((ia :: ias).mapM (handleNA c s now kind cid)).on L = (.error d, L1) := by
        rw [mapM_cons, on_bind, hfirst]
      rw [hstopped]
      refine ⟨⟨fun h => (by obtain ⟨_, h⟩ := h; cases h), fun h => (by omega)⟩,
        ⟨fun h => absurd (by rw [h]) hchanged, fun h => (by omega)⟩⟩

end Returning

/-! ### The result -/

/-- Served alone, the IA_NA changes no binding: a Release or Decline does not name the address that its
client has, and any other message is granted nothing but what the ledger holds already. -/
def Idle (c : Config) (s : Scope) (now : Int) (L : Ledger) (kind : MessageType6) (cid : Duid) (ia : IANA) :
    Prop :=
  if kind.givesBack then mentions L now s cid ia = 0
  else ((handleNA c s now kind cid ia).on L).2.bindings = L.bindings

/-- The message is not one that is dropped after its IA_NAs have been served: a Release or Decline names
no address of its client twice, and with more than sixteen IA_PDs its IA_NAs are idle. -/
structure Harmless (c : Config) (s : Scope) (now : Int) (L : Ledger) (r : Message6) (cid : Duid) : Prop where
  once : r.messageType.givesBack = true → ∀ ia ∈ r.ianas, mentions L now s cid ia ≤ 1
  few : 16 < r.iapds.length → ∀ ia ∈ r.ianas, Idle c s now L r.messageType cid ia

/-- A message is dropped by an IA_NA, or for the number of its IA_PDs. -/
theorem serveMessage_dropped (hc : c.validate = .ok ()) (hs : s ∈ c.scopes) {via : Option IP} {r : Message6}
    {reply : Message6} {L' : Ledger} (hL : Reached L) :
    (∃ d, (serveMessage c s now via r cid reply).on L = (.error d, L')) ↔
      ((r.ianas.mapM (handleNA c s now r.messageType cid)).on L).2 = L' ∧
        ((∀ outs, ((r.ianas.mapM (handleNA c s now r.messageType cid)).on L).1 ≠ .ok outs) ∨
          16 < r.iapds.length) := by
  have hloop : Keeps Reached (fun _ => True) (r.ianas.mapM (handleNA c s now r.messageType cid)) :=
    Keeps.mapM fun ia _ => handleNA_keeps ia (reached_invariant hc hs now r.messageType cid _)
  have hkept := hloop L hL
  unfold serveMessage
  rw [on_bind]
  generalize (r.ianas.mapM (handleNA c s now r.messageType cid)).on L = served at hkept ⊢
  obtain ⟨res, L1⟩ := served
  cases res with
  | error => simp
  | ok outs =>
    have hserved : Succeeds Reached (fun _ => True) (r.iapds.mapM (handlePD s now r.messageType cid via)) :=
      Succeeds.mapM fun ia _ => handlePD_succeeds hc hs r.messageType via ia
    obtain ⟨pds, L2, hpds, -, -⟩ := hserved L1 hkept.1
    constructor
    · intro h
      obtain ⟨d, h⟩ := h
      rcases stopIf_bind_error.mp h with ⟨hmany, -, rfl⟩ | ⟨-, h⟩
      · exact ⟨rfl, Or.inr (of_decide_eq_true hmany)⟩
      · -- The IA_PDs do not stop it.
        rw [on_bind, hpds] at h
        cases h
    · intro h
      obtain ⟨rfl, hstops⟩ := h
      have hmany := hstops.resolve_left fun hfails => hfails outs rfl
      exact ⟨.silent, stopIf_bind_error.mpr (Or.inl ⟨decide_eq_true hmany, rfl, rfl⟩)⟩

/-- A client that has no valid name stops the loop at its first IA_NA, before anything is written. -/
theorem unnamed_unchanged (hinvalid : ¬ ∀ ia ∈ ias, validClient (pdClient cid ia.iaid) = true) (L : Ledger) :
    ((ias.mapM (handleNA c s now kind cid)).on L).2 = L := by
  cases ias with
  | nil => rfl
  | cons ia =>
    -- Whether the name is valid does not depend on the IAID, so that of the first is not.
    have hfirst : validClient (pdClient cid ia.iaid) = false := by
      by_contra h
      refine hinvalid fun x _ => ?_
      rw [validClient_pdClient, ← validClient_pdClient cid ia.iaid]
      simpa using h
    have hstop : (handleNA c s now kind cid ia).on L = (.error .silent, L) := by
      unfold handleNA
      dsimp only
      rw [hfirst]
      rfl
    rw [mapM_cons, on_bind, hstop]

/-- The IA_NAs of a message that is served: what the loop over them leaves unchanged if it stops, or if
more than sixteen IA_PDs follow. -/
theorem serving_unchanged (hc : c.validate = .ok ()) (hs : s ∈ c.scopes) (henabled : s.enabled = true)
    (his6 : s.is6 = true) (now : Int) {r : Message6}
    (hvalid : ∀ ia ∈ r.ianas, validClient (pdClient cid ia.iaid) = true)
    (hnodup : r.ianas.Pairwise fun x y => x.iaid ≠ y.iaid) (hL : Reached L) (duid : List Nat) :
    (((∀ outs, ((r.ianas.mapM (handleNA c s now r.messageType cid)).on { L with duid := duid }).1 ≠ .ok outs) ∨
        16 < r.iapds.length) →
      ((r.ianas.mapM (handleNA c s now r.messageType cid)).on { L with duid := duid }).2.bindings = L.bindings) ↔
      Harmless c s now L r cid := by
  have hL1 : Reached { L with duid := duid } := hL.identify duid
  cases hkind : r.messageType.givesBack with
  | true =>
    obtain ⟨hreturns, hchanged⟩ := returning hc hs now hkind hvalid hnodup hL1
    -- The identifier of the server is nothing that the count of the mentions reads.
    have hidle : ∀ ia, Idle c s now L r.messageType cid ia ↔ mentions L now s cid ia = 0 := by
      intro ia
      unfold Idle
      rw [hkind, if_pos rfl]
    constructor
    · intro h
      refine ⟨fun _ => ?_, fun hmany ia hia => (hidle ia).mpr (hchanged.mp (h (Or.inr hmany)) ia hia)⟩
      by_contra htwice
      have hfails := fun outs hout => htwice (hreturns.mp ⟨outs, hout⟩)
      refine htwice fun ia hia => ?_
      have hzero := hchanged.mp (h (Or.inl hfails)) ia hia
      exact le_trans (le_of_eq hzero) (Nat.zero_le 1)
    · intro h hstops
      refine hchanged.mpr fun ia hia => ?_
      rcases hstops with hfails | hmany
      · obtain ⟨outs, hout⟩ := hreturns.mpr (h.once hkind)
        exact absurd hout (hfails outs)
      · exact (hidle ia).mp (h.few hmany ia hia)
  | false =>
    have hchanged := granting_unchanged hc hs henabled his6 now hkind hvalid hnodup hL1
    have hidle : ∀ ia, Idle c s now L r.messageType cid ia ↔
        ((handleNA c s now r.messageType cid ia).on { L with duid := duid }).2.bindings = L.bindings := by
      intro ia
      have hsame : SameLeases ((handleNA c s now r.messageType cid ia).on { L with duid := duid }).2
          ((handleNA c s now r.messageType cid ia).on L).2 :=
        (handleNA_agrees hc hs hkind ia _ _ hL1 hL ⟨rfl, rfl⟩).2
      unfold Idle
      rw [hkind, if_neg Bool.false_ne_true, hsame.1]
    constructor
    · intro h
      exact ⟨fun hback => absurd hback (by rw [hkind]; exact Bool.false_ne_true),
        fun hmany ia hia => (hidle ia).mpr (hchanged.mp (h (Or.inr hmany)) ia hia)⟩
    · intro h hstops
      refine hchanged.mpr fun ia hia => (hidle ia).mp ?_
      rcases hstops with hfails | hmany
      · obtain ⟨outs, L', hrun, -, -⟩ := granting_succeeds hc hs henabled his6 now hkind hvalid _ hL1
        exact absurd (by rw [hrun]) (hfails outs)
      · exact h.few hmany ia hia

/-- The host asks for an address and for more prefixes than a message may ask for. -/
def floodRequest : Message6 where
  messageType := .request
  clientIDs := [hostDuid]
  serverIDs := [routerDuid]
  ianas := [{ iaid := 1 }]
  iapds := (List.range 17).map fun n => { iaid := BitVec.ofNat 32 n }

/-- The host gives its address back, and names it twice. -/
def doubleRelease : Message6 where
  messageType := .release
  clientIDs := [hostDuid]
  serverIDs := [routerDuid]
  ianas := [{ iaid := 1, addresses := [{ ip := (parseIP "fd00::5").getD 0 }, { ip := (parseIP "fd00::5").getD 0 }] }]

/-- What the server does with a message of the host. -/
def hostRun (L : Ledger) (m : Message6) : Except Drop Message6 × Ledger :=
  (handle6Via (hostNet "fd00::a") (hostScope "fd00::a") 0 (fun _ => 0) (.message m) none).on L

/-- Whether the run got no reply, and the state of the first address of the pool before and after it. -/
def hostFate (L : Ledger) (m : Message6) : Bool × Option BindingState × Option BindingState :=
  ((hostRun L m).1.isOk, (L.bindings.get (bindingKey "lan" "fd00::5")).map (·.state),
    ((hostRun L m).2.bindings.get (bindingKey "lan" "fd00::5")).map (·.state))

/-- A fate of two states is that of a packet without a reply that has changed the ledger. -/
theorem changed_of_fate {m : Message6} {before after : Option BindingState}
    (h : hostFate L m = (false, before, after)) (hne : before ≠ after) :
    ∃ d L', hostRun L m = (.error d, L') ∧ L'.bindings ≠ L.bindings := by
  obtain ⟨hdropped, hstates⟩ := Prod.mk.inj h
  obtain ⟨hbefore, hafter⟩ := Prod.mk.inj hstates
  rcases hrun : hostRun L m with ⟨result, L'⟩
  rw [hrun] at hdropped hafter
  cases result with
  | ok => cases hdropped
  | error d =>
    refine ⟨d, L', rfl, fun hsame => hne ?_⟩
    rw [← hbefore, ← hafter, hsame]

end Ghostd.Proofs.Addressbook
