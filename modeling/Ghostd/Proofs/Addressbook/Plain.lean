import Ghostd.Lib.Alphabet
import Ghostd.Lib.Hex
import Ghostd.Proofs.Addressbook.Log

/-!
# `Ghostd.Proofs.Addressbook.Plain`: what the texts of a binding can contain

The keys of the indexes are texts joined by NUL, and those of the DNS index are joined by
slashes. They can be taken apart again because no part contains the separator. A client
identifier, a hardware address and a device name are made of few characters once they have
passed their checks, and an address is printed or parsed. `Clean` collects this for a binding
and `opWrite_clean` proves it of everything an operation saves.

Two texts reach the ledger without a check: the address that is asked for, and the client that
asks for a prefix. The protocol handlers print both, so they have no NUL (`Operation.Printed`).
-/

set_option autoImplicit false

namespace Ghostd.Proofs.Addressbook

open Ghostd.Lib Ghostd.Addressbook List

variable {L : Ledger} {now : Int} {b : Binding} {c : Config} {kind : EventKind} {client mac : String}
    {s : Scope}

/-! ### Texts -/

/-- A name without the separators of the keys. -/
structure PlainName (s : String) : Prop where
  ne : s ≠ ""
  slash : '/' ∉ s.toList
  nul : '\x00' ∉ s.toList

/-- NUL is no digit. -/
theorem digitValue_nul : digitValue '\x00' = none := by decide

theorem plainName_of_label {s : String} (h : labelPattern s = true) : PlainName s where
  ne := by
    intro hempty
    rw [hempty] at h
    exact absurd h (by decide)
  slash := slash_not_mem_label h
  nul := by
    intro hmem
    simp only [labelPattern, Bool.and_eq_true, all_eq_true] at h
    exact absurd (h.1.1.1.1 '\x00' hmem) (by decide)

theorem plainName_deviceID (scope client : String) : PlainName (deviceID scope client) := by
  have hnot : ∀ x : Char, digitValue x = none → x ∉ "device-".toList →
      x ∉ (deviceID scope client).toList := by
    intro x hdigit hlead hmem
    rw [deviceID, String.toList_ofList] at hmem
    have hmem := mem_of_mem_take hmem
    rw [String.toList_append, mem_append] at hmem
    rcases hmem with h | h
    · exact hlead h
    · exact not_mem_encodeHex hdigit _ h
  refine ⟨?_, hnot '/' (by decide) (by decide), hnot '\x00' (by decide) (by decide)⟩
  intro hempty
  have hlist := congrArg String.toList hempty
  rw [deviceID, String.toList_ofList, String.toList_append] at hlist
  cases hlist

/-- A client identifier that is accepted has no NUL. -/
theorem nul_not_mem_client {s : String} (h : validClient s = true) : '\x00' ∉ s.toList := by
  unfold validClient at h
  split at h
  · rename_i hstart
    rw [toList_of_startsWith hstart, mem_append, not_or]
    refine ⟨by decide, ?_⟩
    intro hmem
    split at h
    · rename_i duid iaid hsplit
      simp only [Bool.and_eq_true] at h
      obtain ⟨⟨⟨-, hduid⟩, hiaid⟩, -⟩ := h
      have hsep : '\x00' ∉ '/' :: "iaid:".toList := by decide
      obtain ⟨p, hp, hnul⟩ := mem_splitFrom hsep (show ∀ c ∈ (trimStart s "duid:").toList.take 0, c ∈ _ by simp) (Or.inr hmem)
      have hpiece : String.ofList p ∈ [duid, iaid] := by
        rw [← hsplit]
        exact mem_map_of_mem hp
      have hhex : ∀ t : String, (decodeHex t).isSome = true → '\x00' ∉ t.toList := by
        intro t ht
        obtain ⟨bytes, hbytes⟩ := Option.isSome_iff_exists.mp ht
        exact not_mem_of_readHexBytes digitValue_nul hbytes
      simp only [mem_cons, not_mem_nil, or_false] at hpiece
      rcases hpiece with hpiece | hpiece
      · rw [← hpiece] at hduid
        exact hhex _ hduid (by rw [String.toList_ofList]; exact hnul)
      · rw [← hpiece] at hiaid
        exact hhex _ hiaid (by rw [String.toList_ofList]; exact hnul)
    · cases h
  · split at h
    · split at h
      · rename_i mac hmac
        simp only [Bool.and_eq_true, decide_eq_true_eq] at h
        rw [← h.2, String.toList_append, mem_append, not_or]
        exact ⟨by decide, not_mem_macText digitValue_nul (by decide) mac⟩
      · cases h
    · split at h
      · rename_i hstart
        simp only [Bool.and_eq_true, all_eq_true] at h
        rw [toList_of_startsWith hstart, mem_append, not_or]
        refine ⟨by decide, fun hmem => ?_⟩
        exact absurd (h.2 '\x00' hmem).1 (by decide)
      · cases h

theorem PlainAddress.nul_not_mem {s : String} (h : PlainAddress s) : '\x00' ∉ s.toList := by
  obtain ⟨a, hz, rfl⟩ := h
  exact a.not_mem_text hz (by decide) (by decide) (by decide)

theorem nul_not_mem_hostAddress {p : Prefix} {v : String} (h : hostAddress p v = true) :
    '\x00' ∉ v.toList := by
  cases ha : parseAddr v with
  | none => simp [hostAddress, ha] at h
  | some =>
    exact not_mem_of_parseAddr digitValue_nul (by decide) (by decide) ha (zone_of_hostAddress h ha)

theorem nul_not_mem_canonicalMAC {m : String} (h : canonicalMAC s mac = .ok m) : '\x00' ∉ m.toList := by
  unfold canonicalMAC at h
  split at h
  · split at h
    · split at h
      · rw [pure_eq_ok] at h
        rw [← h]
        exact not_mem_macText digitValue_nul (by decide) _
      · simp at h
    · simp at h
  · rename_i hempty
    simp only [not_or, not_not] at hempty
    rw [pure_eq_ok] at h
    rw [← h, hempty.1]
    decide

/-! ### Bindings -/

/-- What the texts of a stored binding have not. -/
structure Clean (b : Binding) : Prop where
  client : '\x00' ∉ b.client.toList
  address : '\x00' ∉ b.address.toList
  mac : '\x00' ∉ b.mac.toList
  name : PlainName b.name

/-- Every binding is clean, and every association has a label for its name. -/
structure Legible (L : Ledger) : Prop where
  stored : ∀ {k b}, L.bindings.get k = some b → Clean b
  named : ∀ {k a}, L.associations.get k = some a → labelPattern a.name = true

/-- How the protocol handlers call the operations that do not check these texts. -/
def Operation.Printed : Operation → Prop
  | .allocate _ _ _ _ _ requested _ => '\x00' ∉ requested.toList
  | .allocatePrefix _ client _ _ _ _ => '\x00' ∉ client.toList
  | _ => True

theorem Clean.congr {b' : Binding} (h : Clean b) (hclient : b'.client = b.client)
    (haddress : b'.address = b.address) (hmac : b'.mac = b.mac) (hname : PlainName b'.name) : Clean b' where
  client := by rw [hclient]; exact h.client
  address := by rw [haddress]; exact h.address
  mac := by rw [hmac]; exact h.mac
  name := hname

/-- A binding read back is clean as soon as it has a field that the zero binding has not. -/
theorem Legible.read (hL : Legible L) {scope address : String} (h : L.readBinding scope address ≠ {}) :
    Clean (L.readBinding scope address) := by
  unfold Ledger.readBinding at h ⊢
  cases hget : L.bindings.get (bindingKey scope address) with
  | none =>
    rw [hget] at h
    exact absurd rfl h
  | some => exact hL.stored hget

/-- The name of a reservation's device. -/
theorem plainName_of_reservation (hc : c.validate = .ok ()) (hs : s ∈ c.scopes) {r : Reservation}
    (hr : reservation s client mac = some r) : PlainName ((c.device r.device).getD {}).name := by
  obtain ⟨d, hd, hdevice⟩ := device_of_reservation hc hs (mem_of_find?_eq_some hr)
  rw [hdevice, Option.getD_some]
  exact plainName_of_label (labels_of_device hc hd).2

theorem leaseIdentity_name (hL : Legible L) (hc : c.validate = .ok ()) (hs : s ∈ c.scopes) {old : Binding}
    (hold : old.client = b.client → PlainName old.name) : PlainName (leaseIdentity L now c s old b).name := by
  unfold leaseIdentity
  simp only
  split
  · rename_i r hr
    exact plainName_of_reservation hc hs hr
  · split
    · rename_i a ha
      exact plainName_of_label (hL.named ha)
    · split
      · rename_i hsame
        exact hold hsame.1
      · exact plainName_deviceID _ _

theorem newLease_clean (hL : Legible L) (hc : c.validate = .ok ()) (hs : s ∈ c.scopes) {claimed ip : String}
    (hclient : validClient client = true) (hmac : '\x00' ∉ mac.toList) (hip : '\x00' ∉ ip.toList)
    (commit : Bool) : Clean (newLease L now c s client mac claimed ip commit).1 := by
  have hfields := newLease_fields L now c s client mac claimed ip commit
  refine ⟨by rw [hfields.client]; exact nul_not_mem_client hclient, by rw [hfields.address]; exact hip,
    by rw [hfields.mac]; exact hmac, ?_⟩
  -- The zero binding has no client, so a running lease of the client is a stored one.
  have hold : (L.readBinding s.id ip).client = client → PlainName (L.readBinding s.id ip).name := by
    intro hsame
    refine (hL.read ?_).name
    intro hzero
    rw [hzero] at hsame
    rw [← hsame] at hclient
    exact absurd hclient (by decide)
  unfold newLease
  cases commit with
  | true => exact leaseIdentity_name hL hc hs hold
  | false => exact leaseIdentity_name hL hc hs hold

/-! ### Every operation -/

theorem allocateWrite_clean (hc : c.validate = .ok ()) {scopeID claimed requested : String} {commit : Bool}
    (hreq : '\x00' ∉ requested.toList) (hT : Tidy L) (hL : Legible L)
    (h : AllocateWrite now c scopeID client mac claimed requested commit L b kind) : Clean b := by
  obtain ⟨s, m, ip, hs, -, hclient, hm, -, hchosen, hb⟩ := h
  have hmem := (mem_of_scope hs).1
  obtain ⟨p, hfacts⟩ := scopeFacts_of_validate hc hmem
  have hip : '\x00' ∉ ip.toList := by
    refine chooseAddress_source (Q := fun ip => '\x00' ∉ ip.toList) hfacts hreq ?_ ?_ ?_ hchosen
    · intro b' hb' _ _
      exact (hL.stored (mem_liveByClient hT.sound hb').1).address
    · intro r hr
      exact nul_not_mem_hostAddress (hfacts.reservations r hr).2.1
    · intro a ha
      exact PlainAddress.nul_not_mem ⟨a, ha, rfl⟩
  have hb' : b = (newLease L now c s client m claimed ip commit).1 := congrArg Prod.fst hb
  rw [hb']
  exact newLease_clean hL hc hmem hclient (nul_not_mem_canonicalMAC hm) hip commit

theorem importWrite_clean (hc : c.validate = .ok ()) {doc : ImportDocument} (hL : Legible L)
    (h : ImportWrite now c doc L b kind) : Clean b := by
  obtain ⟨l, hl, s, mac, client, hcheck, -, hwrite⟩ := h
  obtain ⟨hs, -, hclient, hmac, -, p, ip, -, hip, hcontains, -, -⟩ := checkImported_ok hcheck
  have hnulc := nul_not_mem_client hclient
  have hnuladdr : '\x00' ∉ l.address.toList := by
    refine not_mem_of_parseAddr digitValue_nul (by decide) (by decide) hip ?_
    simp only [Prefix.contains, Bool.and_eq_true, decide_eq_true_eq] at hcontains
    exact hcontains.1.1
  have hnulmac : '\x00' ∉ mac.toList := by
    rw [hmac]
    cases parseMAC l.mac with
    | none => decide
    | some hw => exact not_mem_macText digitValue_nul (by decide) hw
  rcases hwrite with ⟨-, -, rfl⟩ | ⟨-, -, rfl⟩
  · exact ⟨hnulc, hnuladdr, hnulmac, plainName_deviceID _ _⟩
  · obtain ⟨-, haddress, hcl, hm, -, -, -⟩ :=
      importedBinding_fields now c s l mac client (importedEnd l) (L.readBinding l.scope l.address)
    refine ⟨by rw [hcl]; exact hnulc, by rw [haddress]; exact hnuladdr, by rw [hm]; exact hnulmac, ?_⟩
    unfold importedBinding
    simp only
    split
    · rename_i r hr
      exact plainName_of_reservation hc (mem_of_scope hs).1 hr
    · split
      · rename_i hsame
        refine (hL.read ?_).name
        intro hzero
        rw [hzero] at hsame
        exact absurd hsame.2.1 (by decide)
      · exact plainName_deviceID _ _

/-- What is found through the client index is stored. -/
theorem stored_of_clientPrefix {start : String} (h : b ∈ L.liveByClientPrefix start) :
    ∃ k, L.bindings.get k = some b := by
  obtain ⟨k, scope, address, -, -, -, hb, hlive⟩ := mem_liveFromIndex h
  refine ⟨bindingKey scope address, ?_⟩
  rw [hb]
  refine get_of_readBinding ?_
  rw [← hb]
  intro hunset
  rw [hunset] at hlive
  cases hlive

theorem delegation_name (hL : Legible L) (now : Int) (s : Scope) (client duidHex via address : String) :
    PlainName (delegation L now s client duidHex via address).name ∧
      (delegation L now s client duidHex via address).mac = "" := by
  have hsame : ∀ (p : Binding → Bool) (bs : List Binding), (∀ b ∈ bs, ∃ k, L.bindings.get k = some b) →
      (lastBinding p bs).device ≠ "" → PlainName (lastBinding p bs).name := by
    intro p bs hbs hdevice
    unfold lastBinding at hdevice ⊢
    cases hlast : (bs.filter p).getLast? with
    | none =>
      rw [hlast] at hdevice
      exact absurd rfl hdevice
    | some b =>
      obtain ⟨k, hk⟩ := hbs b (mem_filter.mp (mem_of_getLast? hlast)).1
      exact (hL.stored hk).name
  have hold : (L.readBinding s.id address).device ≠ "" → PlainName (L.readBinding s.id address).name := by
    intro hdevice
    refine (hL.read ?_).name
    intro hzero
    rw [hzero] at hdevice
    exact hdevice rfl
  unfold delegation
  have hlast := hsame
    (fun x => x.scope = s.id && x.origin = .dhcpv6 && x.duid = duidHex && x.state = .active &&
      x.endsAt > now)
    (L.liveByClientPrefix ("duid:" ++ duidHex ++ "/")) fun b hb => stored_of_clientPrefix hb
  generalize lastBinding _ (L.liveByClientPrefix ("duid:" ++ duidHex ++ "/")) = same at hlast ⊢
  generalize L.readBinding s.id address = old at hold ⊢
  -- The start of a running delegation is kept in any case, so its name is that of one branch.
  simp only
  by_cases hsame : same.device ≠ ""
  · simp only [if_pos hsame]
    split <;> exact ⟨hlast hsame, rfl⟩
  · simp only [if_neg hsame]
    by_cases hmine : old.client = client ∧ old.device ≠ "" ∧ old.endsAt > now
    · simp only [if_pos hmine]
      split <;> exact ⟨hold hmine.2.1, rfl⟩
    · simp only [if_neg hmine]
      split <;> exact ⟨plainName_deviceID _ _, rfl⟩

theorem delegateWrite_clean {duidHex hint via : String} {commit : Bool} (hclient : '\x00' ∉ client.toList)
    (hL : Legible L) (h : DelegateWrite now s client duidHex hint via commit L b kind) : Clean b := by
  obtain ⟨chosen, hchosen, hscope, haddress, hcl, -⟩ := delegateWrite_fields h
  obtain ⟨chosen', -, rfl⟩ := h
  obtain ⟨hname, hmac⟩ := delegation_name hL now s client duidHex via chosen'.text
  refine ⟨by rw [hcl]; exact hclient, ?_, ?_, ?_⟩
  · rw [haddress]
    exact not_mem_prefixText digitValue_nul (by decide) (by decide) (by decide) chosen
  · have hempty : (delegation L now s client duidHex via chosen'.text).mac.toList = [] := by
      rw [hmac]
      rfl
    cases commit <;> simp [hempty]
  · cases commit <;> exact hname

theorem PlainName.ite {c : Prop} [Decidable c] {d n : String} (hd : PlainName d)
    (hn : ¬ c → PlainName n) : PlainName (if c then d else n) := by
  split
  · exact hd
  · rename_i hc
    exact hn hc

theorem nodeName_plain (L : Ledger) (now : Int) (c : Config) (node : Node) {device : String}
    (hdevice : PlainName device) : PlainName (nodeName L now c node device) := by
  unfold nodeName
  refine .ite hdevice fun _ => .ite hdevice fun _ => .ite hdevice fun hlabel => ?_
  simp only [Bool.or_eq_true, Bool.not_eq_true', decide_eq_true_eq, not_or, Bool.not_eq_false] at hlabel
  exact plainName_of_label hlabel.1

/-- The name a report stands for. -/
theorem reportIdentity_name (hc : c.validate = .ok ()) {node : Node} {found : List Binding}
    {device name : String} (h : reportIdentity L now c node found = .ok (device, name)) : PlainName name := by
  -- Whatever has a device so far has the name of a declared one.
  have hdeclared : ∀ d ∈ c.devices, d.id ≠ "" → PlainName d.name := fun d hd _ =>
    plainName_of_label (labels_of_device hc hd).2
  simp only [reportIdentity, bind_eq_ok] at h
  obtain ⟨⟨device', name'⟩, hfold, h⟩ := h
  have hinv : device' ≠ "" → PlainName name' := by
    refine foldlM_invariant (I := fun found : String × String => found.1 ≠ "" → PlainName found.2)
      ?_ ?_ hfold
    · intro b _ found1 found2 h1 hstep
      simp only [judgeMatch, bind_eq_ok, refuseIf_eq_ok, exists_const] at hstep
      obtain ⟨-, hstep⟩ := hstep
      split at hstep
      · rw [pure_eq_ok] at hstep
        rwa [← hstep]
      · rename_i d hd
        simp only [bind_eq_ok, refuseIf_eq_ok, exists_const, pure_eq_ok] at hstep
        rw [← hstep.2.2]
        exact hdeclared d (mem_of_find?_eq_some hd)
    · refine foldl_invariant (I := fun found : String × String => found.1 ≠ "" → PlainName found.2) ?_
        (by simp)
      intro d hd found1 h1
      split
      · exact hdeclared d hd
      · exact h1
  split at h
  · rw [pure_eq_ok, Prod.mk.injEq] at h
    rw [← h.2]
    exact nodeName_plain L now c node (plainName_deviceID _ _)
  · rename_i hne
    rw [pure_eq_ok, Prod.mk.injEq] at h
    rw [← h.2]
    exact hinv hne

theorem matched_clean (hT : Tidy L) (hL : Legible L) {m : Binding} (h : Matched L now m) :
    '\x00' ∉ m.client.toList ∧ '\x00' ∉ m.address.toList ∧ '\x00' ∉ m.mac.toList := by
  cases h with
  | stored hget =>
    have hclean := hL.stored hget
    exact ⟨hclean.client, hclean.address, hclean.mac⟩
  | sighted o hget _ hm _ =>
    obtain ⟨-, hseen⟩ := hT.sighted hget
    obtain ⟨hw, hmac⟩ := hseen.mac
    have hnul : '\x00' ∉ o.mac.toList := by
      rw [hmac]
      exact not_mem_macText digitValue_nul (by decide) hw
    subst hm
    refine ⟨?_, PlainAddress.nul_not_mem hseen.address, hnul⟩
    show '\x00' ∉ ("neighbor:" ++ o.mac).toList
    rw [String.toList_append, mem_append, not_or]
    exact ⟨by decide, hnul⟩

theorem associated_clean {L0 : Ledger} (hT : Tidy L0) (h0 : Legible L0) {m : Binding} (h : Matched L0 now m)
    (L : Ledger) (node : Node) (device : String) {name : String} (hname : PlainName name) :
    Clean (associated L now node device name m) := by
  obtain ⟨hclient, haddress, hmac⟩ := matched_clean hT h0 h
  unfold associated
  simp only
  split
  · split <;> exact ⟨hclient, haddress, hmac, hname⟩
  · exact ⟨hclient, haddress, hmac, hname⟩

/-- What is saved is clean. -/
theorem opWrite_clean {op : Operation} (hop : op.Admissible) (hprinted : Operation.Printed op) {L0 : Ledger}
    (hT0 : Tidy L0) (h0 : Legible L0) (hT : Tidy L) (hL : Legible L) (h : OpWrite now L0 op L b kind) :
    Clean b := by
  cases op with
  | allocate =>
    exact allocateWrite_clean hop hprinted hT hL h
  | allocatePrefix s client duidHex hint via commit =>
    have hw : DelegateWrite now s client duidHex hint via commit L b kind := h
    exact delegateWrite_clean hprinted hL hw
  | importDocument c doc =>
    have hw : ImportWrite now c doc L b kind := h
    exact importWrite_clean hop.1 hL hw
  | report =>
    obtain ⟨found, device, name, hfound, hidentity, m, hm, rfl⟩ := h
    exact associated_clean hT0 h0 (reportMatches_matched hT0 hfound m hm) L _ device
      (reportIdentity_name hop hidentity)
  | release | expire | releasePrefix | repair | abandonDelegations =>
    obtain ⟨k, b0, hget, hsame⟩ := opWrite_rewrites h trivial
    have hclean : Clean b0 := hget.elim hL.stored h0.stored
    refine hclean.congr hsame.client hsame.address hsame.mac (hsame.name.elim (fun hname => ?_) plainName_of_label)
    rw [hname]
    exact hclean.name
  | observe | observeSwitch => exact h.elim

theorem Legible.save (hL : Legible L) (hb : Clean b) (now : Int) (kind : EventKind) :
    Legible (L.save now b kind) where
  stored h := by
    rcases get_save_eq_some.mp h with ⟨-, rfl⟩ | ⟨-, h⟩
    · exact hb
    · exact hL.stored h
  named h := hL.named (by rwa [associations_save] at h)

theorem Legible.beside {L' : Ledger} (hL : Legible L) (h : Beside L L') : Legible L' where
  stored hb := hL.stored (by rwa [h.bindings] at hb)
  named ha := by
    rcases h.associations _ _ ha with h | h
    · exact hL.named h
    · exact h

end Ghostd.Proofs.Addressbook
