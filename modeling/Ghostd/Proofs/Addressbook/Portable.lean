import Ghostd.Lib.Lines
import Ghostd.Lib.NetipRange
import Ghostd.Proofs.Addressbook.Handlers
import Ghostd.Proofs.Addressbook.Export

/-!
# `Ghostd.Proofs.Addressbook.Portable`: bindings that another ledger would import

`ImportDocument` checks more than `Allocate` writes down: the place of the address in its subnet, the
hardware address, the client in its one spelling. `Portable` is what it checks, of a binding and its
scope. The bindings that the protocol handlers and the import itself write are portable, and a ledger with
an IPv6 lease has a server identity (`Carried`). So whatever `Handle4`, `Handle6Via`, `Release`, `Expire`
and `ImportDocument` have made of a ledger could be imported again (`ready_of_served`).

Scopes may be switched on and off between the operations, since a scope has to be off for an import
and on for a lease (`Switched`).
-/

set_option autoImplicit false

namespace Ghostd.Proofs.Addressbook

open Ghostd.Lib Ghostd.Addressbook Session List

variable {client mac x : String} {s : Scope} {doc : ImportDocument} {c c' : Config} {now : Int} {b : Binding}
    {p : Prefix} {L : Ledger}

/-! ### Clients -/

/-- A DHCPv6 client by its parts. -/
structure DuidClient (client duid iaid : String) : Prop where
  eq : client = "duid:" ++ duid ++ "/iaid:" ++ iaid
  parts : clientParts client = (duid, iaid)
  duidHex : (decodeHex duid).isSome = true
  iaidHex : (decodeHex iaid).isSome = true
  duidLower : toLower duid = duid
  iaidLower : toLower iaid = iaid
  iaidLength : byteLength iaid = 8
  duidLength : 4 ≤ byteLength duid

theorem append_inj_of_length {y x' y' : String} (h : x ++ y = x' ++ y')
    (hlen : x.toList.length = x'.toList.length) : x = x' ∧ y = y' := by
  have hlist := congrArg String.toList h
  rw [String.toList_append, String.toList_append] at hlist
  obtain ⟨hx, hy⟩ := append_inj hlist hlen
  exact ⟨String.toList_inj.mp hx, String.toList_inj.mp hy⟩

theorem duidClient_of_valid (h : validClient client = true) (hstart : startsWith client "duid:" = true) :
    ∃ duid iaid, DuidClient client duid iaid := by
  unfold validClient at h
  rw [if_pos hstart] at h
  match hsplit : splitText (trimStart client "duid:") "/iaid:" with
  | [duid, iaid] =>
    rw [hsplit] at h
    simp only [Bool.and_eq_true, decide_eq_true_eq] at h
    obtain ⟨⟨⟨⟨⟨hiaid, hmin⟩, -⟩, hduidHex⟩, hiaidHex⟩, hlower⟩ := h
    have hjoin := joinText_splitText (trimStart client "duid:") (show "/iaid:" ≠ "" by decide)
    rw [hsplit] at hjoin
    have htwo : joinText [duid, iaid] "/iaid:" = duid ++ "/iaid:" ++ iaid := by
      rw [← String.toList_inj]
      simp [joinText, intercalate_cons_cons, String.toList_append]
    have heq : client = "duid:" ++ duid ++ "/iaid:" ++ iaid := by
      conv_lhs => rw [eq_of_startsWith hstart]
      rw [← hjoin, htwo, ← String.append_assoc, ← String.append_assoc]
    have hparts : clientParts client = (duid, iaid) := by simp [clientParts, hsplit]
    rw [heq, toLower_append, toLower_append, toLower_append] at hlower
    -- Lower-casing keeps the length of every part.
    obtain ⟨hfirst, hlast⟩ := append_inj_of_length hlower (by
      simp only [String.toList_append, length_toLower, length_append])
    obtain ⟨hfirst, -⟩ := append_inj_of_length hfirst (by
      simp only [String.toList_append, length_toLower, length_append])
    obtain ⟨-, hduid⟩ := append_inj_of_length hfirst (by simp [length_toLower])
    exact ⟨duid, iaid, heq, hparts, hduidHex, hiaidHex, hduid, hlast, hiaid, hmin⟩
  | [] => simp [hsplit] at h
  | [_] => simp [hsplit] at h
  | _ :: _ :: _ :: _ => simp [hsplit] at h

/-- Two parts are those of the client, if there are no others. -/
theorem DuidClient.parts_eq {duid iaid y : String} (h : DuidClient client duid iaid)
    (heq : client = "duid:" ++ x ++ "/iaid:" ++ y) : x = duid ∧ y = iaid := by
  have hlists : x.toList ++ '/' :: ("iaid:" ++ y).toList = duid.toList ++ '/' :: ("iaid:" ++ iaid).toList := by
    have hboth := congrArg String.toList (heq.symm.trans h.eq)
    simpa [String.toList_append] using hboth
  -- There is one slash on the right, so there is none in the first part on the left.
  have hcount := congrArg (List.count '/') hlists
  have hduid : (duid.toList).count '/' = 0 := count_eq_zero.mpr (slash_not_mem_hex h.duidHex)
  have hiaid : ("iaid:" ++ iaid).toList.count '/' = 0 := by
    rw [String.toList_append, count_append, count_eq_zero.mpr (slash_not_mem_hex h.iaidHex)]
    rfl
  rw [count_append, count_append, count_cons_self, count_cons_self, hduid, hiaid] at hcount
  have hx : '/' ∉ x.toList := count_eq_zero.mp (by omega)
  obtain ⟨hfirst, hlast⟩ := append_cons_inj hx (slash_not_mem_hex h.duidHex) hlists
  exact ⟨String.toList_inj.mp hfirst, (append_inj_of_length (String.toList_inj.mp hlast) rfl).2⟩

/-- The DUID that an import takes from the client. -/
theorem DuidClient.split {duid iaid : String} (h : DuidClient client duid iaid) :
    trimStart ((splitText client "/iaid:").getD 0 "") "duid:" = duid := by
  have hslash : '/' ∉ ("duid:" ++ duid).toList := by
    rw [String.toList_append, mem_append, not_or]
    exact ⟨by decide, slash_not_mem_hex h.duidHex⟩
  have hsplit : splitText client "/iaid:" = ["duid:" ++ duid, iaid] := by
    rw [h.eq]
    exact splitText_two hslash (slash_not_mem_hex h.iaidHex)
  rw [hsplit]
  exact trimStart_append "duid:" duid

/-- The client of a hardware address has its one spelling. -/
theorem mac_of_valid (h : validClient ("mac:" ++ mac) = true) {hw : List Nat} (hmac : parseMAC mac = some hw) :
    macText hw = mac := by
  unfold validClient at h
  rw [if_neg (by simp [startsWith, String.toList_append]), if_pos (by simp [startsWith, String.toList_append]),
    trimStart_append, hmac] at h
  simp only [Bool.and_eq_true, decide_eq_true_eq] at h
  exact (append_inj_of_length h.2 rfl).2

/-! ### Places -/

/-- `ImportDocument` accepts the address in the subnet. -/
def Importable (p : Prefix) (ip : Addr) : Prop :=
  p.contains ip = true ∧ ip ≠ p.addr ∧ (p.addr.is6 = true ∨ ip ≠ lastAddr p)

theorem importable_of_host {v : String} {ip : Addr} (h : hostAddress p v = true) (hip : parseAddr v = some ip) :
    Importable p ip := by
  simp only [hostAddress, hip, Option.elim_some, Bool.and_eq_true, Bool.or_eq_true, decide_eq_true_eq,
    Bool.not_eq_true'] at h
  obtain ⟨⟨hcontains, hne⟩, hlast⟩ := h
  refine ⟨hcontains, hne, hlast.imp (fun h4 => ?_) id⟩
  obtain ⟨-, hfamily, -⟩ := Prefix.contains_iff.mp hcontains
  rw [Addr.is6, ← hfamily]
  cases hf : ip.family with
  | v4 =>
    rw [Addr.is4, hf] at h4
    cases h4
  | v6 => rfl

theorem lastAddr_value (hmasked : p = p.masked) (hfamily : p.addr.family = .v4) :
    (lastAddr p).value = p.addr.value + p.size - 1 := by
  have hbits : p.bits ≤ 32 := by
    have hle := p.bits_le
    rwa [hfamily] at hle
  have hsize : p.size = 2 ^ (32 - p.bits) := by
    unfold Prefix.size
    rw [hfamily]
    rfl
  have hpos := p.size_pos
  have hbase := Prefix.masked_value hmasked
  have hlt : p.addr.value < 2 ^ 32 := by
    have hlt := p.addr.value_lt
    rwa [hfamily] at hlt
  have hpow : p.size * 2 ^ p.bits = 2 ^ 32 := by
    rw [hsize, ← Nat.pow_add]
    congr 1
    omega
  have hones : 0xffffffff >>> p.bits = p.size - 1 := by
    rw [Nat.shiftRight_eq_div_pow]
    refine Nat.div_eq_of_lt_le ?_ ?_
    · rw [Nat.sub_mul, hpow]
      have := Nat.two_pow_pos p.bits
      omega
    · rw [Nat.sub_add_cancel hpos, hpow]
      decide
  have hor : p.addr.value ||| (p.size - 1) = p.addr.value + (p.size - 1) := by
    have hsum := Nat.two_pow_add_eq_or_of_lt (show p.size - 1 < 2 ^ (32 - p.bits) by omega) (p.addr.value / p.size)
    rw [← hsize, Nat.mul_comm, hbase] at hsum
    exact hsum.symm
  have hfits : p.addr.value + p.size ≤ 2 ^ 32 := by
    -- The number of the network is a multiple of the size, and so is the end.
    rw [← hbase, ← hpow, Nat.mul_comm p.size, ← Nat.succ_mul]
    refine Nat.mul_le_mul_right _ ?_
    refine Nat.div_lt_of_lt_mul ?_
    rw [hpow]
    exact hlt
  show (p.addr.value ||| 0xffffffff >>> p.bits) % 2 ^ 32 = _
  rw [hones, hor, Nat.mod_eq_of_lt (by omega)]
  omega

/-- What lies between two host addresses is one. -/
theorem importable_between (hmasked : p = p.masked) {first last a : Addr} (hfirst : Importable p first)
    (hlast : Importable p last) (hzone : a.zone = "") (hlow : first.le a = true) (hhigh : a.le last = true) :
    Importable p a := by
  obtain ⟨hfirstIn, hfirstNe, -⟩ := hfirst
  obtain ⟨hlastIn, -, hlastNe⟩ := hlast
  obtain ⟨hfirstZone, hfirstFamily, -⟩ := Prefix.contains_iff.mp hfirstIn
  obtain ⟨hlastZone, hlastFamily, -⟩ := Prefix.contains_iff.mp hlastIn
  have hlow' := Addr.le_bounds hlow
  have hhigh' := Addr.le_bounds hhigh
  have hfamily : a.family = p.addr.family := by
    refine Family.bits_inj ?_
    rw [hfirstFamily] at hlow'
    rw [hlastFamily] at hhigh'
    omega
  have hmin := hlow'.2 (hfirstFamily.trans hfamily.symm)
  have hmax := hhigh'.2 (hfamily.trans hlastFamily.symm)
  have hfirstBounds := Prefix.bounds_of_contains hmasked hfirstIn
  have hlastBounds := Prefix.bounds_of_contains hmasked hlastIn
  refine ⟨Prefix.contains_of_bounds hmasked hzone hfamily (by omega) (by omega), ?_, ?_⟩
  · rintro rfl
    exact hfirstNe (Addr.ext' hfirstFamily (by omega) (hfirstZone.trans p.no_zone.symm))
  · refine hlastNe.imp id fun hlastNe ha => hlastNe ?_
    have hv4 : p.addr.family = .v4 := by
      rw [← hfamily, ha]
      rfl
    have hvalue := lastAddr_value hmasked hv4
    rw [← ha] at hvalue ⊢
    exact Addr.ext' (hlastFamily.trans hfamily.symm) (by omega) (hlastZone.trans hzone.symm)

/-- What `Allocate` may give out. -/
theorem importable_of_allowed (hs : ScopeFacts s p) {ip : String} (h : allowed s client mac ip = .ok true)
    (hzone : Zoneless ip) : (∃ a, parseAddr ip = some a ∧ Importable p a) ∧ ip ≠ s.server ∧ ip ≠ s.router := by
  unfold allowed at h
  cases ha : parseAddr ip with
  | none => simp [ha] at h
  | some a =>
    simp only [ha] at h
    split at h
    · simp at h
    · rename_i hplace
      simp only [not_or] at hplace
      refine ⟨⟨a, rfl, ?_⟩, hplace.2⟩
      cases hr : reservation s client mac with
      | some r =>
        simp only [hr, pure_eq_ok, decide_eq_true_eq] at h
        obtain ⟨-, hhost, -, -⟩ := hs.reservations r (mem_of_find?_eq_some hr)
        rw [h] at hhost
        exact importable_of_host hhost ha
      | none =>
        simp only [hr] at h
        split at h
        · simp at h
        · simp only [bind_eq_ok, mustParseAddr_eq_ok] at h
          obtain ⟨first, hfirst, h⟩ := h
          split at h
          · rename_i hlow
            simp only [bind_eq_ok, mustParseAddr_eq_ok, pure_eq_ok] at h
            obtain ⟨last, hlast, hhigh⟩ := h
            exact importable_between hs.masked (importable_of_host hs.start hfirst)
              (importable_of_host hs.endAddr hlast) (hzone a ha) hlow hhigh
          · simp at h

/-! ### Portable bindings -/

/-- What `ImportDocument` would ask of a lease that is the binding. -/
structure Portable (s : Scope) (b : Binding) : Prop where
  place : ∃ p ip, parsePrefix s.subnet = some p ∧ parseAddr b.address = some ip ∧ Importable p ip
  server : b.address ≠ s.server
  router : b.address ≠ s.router
  client : validClient b.client = true
  family : s.is6 = startsWith b.client "duid:"
  hardware : s.is6 = false → ∃ hw, parseMAC b.mac = some hw ∧ hw.length = 6 ∧ macText hw = b.mac
  anonymous : startsWith b.client "mac:" = true → b.client = "mac:" ++ b.mac
  identified : s.is6 = true → DuidClient b.client b.duid (toLower b.iaid)

/-- It depends on the place and the identity. -/
theorem Portable.congr {b' : Binding} (h : Portable s b) (haddress : b'.address = b.address)
    (hclient : b'.client = b.client) (hmac : b'.mac = b.mac) (hduid : b'.duid = b.duid)
    (hiaid : b'.iaid = b.iaid) : Portable s b' where
  place := by rw [haddress]; exact h.place
  server := by rw [haddress]; exact h.server
  router := by rw [haddress]; exact h.router
  client := by rw [hclient]; exact h.client
  family := by rw [hclient]; exact h.family
  hardware := by rw [hmac]; exact h.hardware
  anonymous := by rw [hclient, hmac]; exact h.anonymous
  identified := by rw [hclient, hduid, hiaid]; exact h.identified

/-- The scope switched off, as `disabled` leaves it. -/
def switchedOff (s : Scope) : Scope := { s with enabled := false }

/-- The two scopes are one, apart from being switched on. -/
def SameScope (s s' : Scope) : Prop := switchedOff s = switchedOff s'

theorem SameScope.fields {s' : Scope} (h : SameScope s s') :
    s.id = s'.id ∧ s.subnet = s'.subnet ∧ s.server = s'.server ∧ s.router = s'.router ∧ s.is6 = s'.is6 := by
  have hoff : switchedOff s = switchedOff s' := h
  have hid := congrArg Scope.id hoff
  have hsubnet := congrArg Scope.subnet hoff
  have hserver := congrArg Scope.server hoff
  have hrouter := congrArg Scope.router hoff
  simp only [switchedOff] at hid hsubnet hserver hrouter
  refine ⟨hid, hsubnet, hserver, hrouter, ?_⟩
  unfold Scope.is6
  rw [hsubnet]

theorem Portable.same {s' : Scope} (h : Portable s b) (hs : SameScope s s') : Portable s' b := by
  obtain ⟨-, hsubnet, hserver, hrouter, his6⟩ := hs.fields
  exact ⟨by rw [← hsubnet]; exact h.place, by rw [← hserver]; exact h.server, by rw [← hrouter]; exact h.router,
    h.client, by rw [← his6]; exact h.family, by rw [← his6]; exact h.hardware, h.anonymous,
    by rw [← his6]; exact h.identified⟩

/-- The configuration is accepted, and is the other one apart from what is switched on. -/
def Switched (c c' : Config) : Prop := c'.validate = .ok () ∧ disabled c' = disabled c

theorem Switched.scope (h : Switched c c') (hs : s ∈ c'.scopes) : ∃ s' ∈ c.scopes, SameScope s s' := by
  have hscopes : c'.scopes.map switchedOff = c.scopes.map switchedOff := congrArg Config.scopes h.2
  have hmem : switchedOff s ∈ c'.scopes.map switchedOff := mem_map.mpr ⟨s, hs, rfl⟩
  rw [hscopes] at hmem
  obtain ⟨s', hs', hsame⟩ := mem_map.mp hmem
  exact ⟨s', hs', hsame.symm⟩

/-- The ledger could be imported: its leases are portable, and an IPv6 lease has the identity of the
server beside it. -/
structure Carried (c : Config) (L : Ledger) : Prop where
  portable : ∀ {k b}, L.bindings.get k = some b → b.origin ≠ .dhcpv6PD →
    ∃ s ∈ c.scopes, s.id = b.scope ∧ Portable s b
  identified : ∀ {k b}, L.bindings.get k = some b → b.origin ≠ .dhcpv6PD → startsWith b.client "duid:" = true →
    L.duid ≠ []
  wellFormed : L.duid ≠ [] → duidWellFormed L.duid = true ∧ ∀ x ∈ L.duid, x < 256

theorem carried_empty (c : Config) : Carried c {} where
  portable h := by simp at h
  identified h := by simp at h
  wellFormed h := absurd rfl h

section Writing

variable {c : Config} {L L' : Ledger}

theorem Carried.save (h : Carried c L) (now : Int) (kind : EventKind)
    (hb : b.origin ≠ .dhcpv6PD → (∃ s ∈ c.scopes, s.id = b.scope ∧ Portable s b) ∧
      (startsWith b.client "duid:" = true → L.duid ≠ [])) : Carried c (L.save now b kind) where
  portable hget horigin := by
    rcases get_save_eq_some.mp hget with ⟨-, rfl⟩ | ⟨-, hget⟩
    · exact (hb horigin).1
    · exact h.portable hget horigin
  identified hget horigin hclient := by
    rw [duid_save]
    rcases get_save_eq_some.mp hget with ⟨-, rfl⟩ | ⟨-, hget⟩
    · exact (hb horigin).2 hclient
    · exact h.identified hget horigin hclient
  wellFormed := by
    rw [duid_save]
    exact h.wellFormed

/-- A stored binding may be saved in another state. -/
theorem Carried.restate (h : Carried c L) {k : String} (hget : L.bindings.get k = some b) (state : BindingState)
    (endsAt now : Int) (kind : EventKind) :
    Carried c (L.save now { b with state := state, endsAt := endsAt } kind) := by
  refine h.save now kind fun hpd => ?_
  obtain ⟨s, hs, hid, hportable⟩ := h.portable hget hpd
  have hidentified : startsWith b.client "duid:" = true → L.duid ≠ [] := h.identified hget hpd
  exact ⟨⟨s, hs, hid, hportable.congr rfl rfl rfl rfl rfl⟩, hidentified⟩

theorem Carried.release (h : Carried c L) {scope ip : String} {decline : Bool}
    (hrelease : L.release now scope client ip decline = .ok L') : Carried c L' := by
  obtain ⟨_, kind, ⟨b0, hget, -, -, rfl | rfl⟩, rfl⟩ := release_eq hrelease
  · exact h.restate hget _ _ now kind
  · exact h.restate hget _ _ now kind

theorem Carried.expire (h : Carried c L) (now : Int) : Carried c (L.expire now) := by
  unfold Ledger.expire
  refine foldl_invariant (I := Carried c) (fun k _ L1 h1 => ?_) h
  unfold Ledger.expireKey
  cases hget : L1.bindings.get (ofLex k).2 with
  | none => exact ⟨h1.portable, h1.identified, h1.wellFormed⟩
  | some =>
    simp only
    split
    · exact h1.restate hget _ _ now _
    · exact ⟨h1.portable, h1.identified, h1.wellFormed⟩

theorem Carried.releasePrefix (h : Carried c L) (hrelease : L.releasePrefix now s client = .ok L') :
    Carried c L' := by
  simp only [Ledger.releasePrefix, bind_eq_ok, refuseIf_eq_ok, exists_const, pure_eq_ok] at hrelease
  obtain ⟨-, rfl⟩ := hrelease
  refine foldl_invariant (I := Carried c) (fun b hb L1 h1 => h1.save now _ fun hpd => ?_) h
  have hheld := (mem_filter.mp hb).2
  simp only [heldDelegation, Bool.and_eq_true, decide_eq_true_eq] at hheld
  exact absurd hheld.1 hpd

theorem Carried.allocatePrefix (h : Carried c L) {duidHex hint via : String} {commit : Bool} {r : Binding}
    (hallocate : L.allocatePrefix now s client duidHex hint via commit = .ok (r, L')) : Carried c L' := by
  rcases allocatePrefix_cases hallocate with rfl | ⟨b, kind, hwrite, rfl⟩
  · exact h
  · refine h.save now kind fun hpd => ?_
    obtain ⟨chosen, -, -, -, -, horigin, -⟩ := delegateWrite_fields hwrite
    exact absurd horigin hpd

omit L L' c in
theorem canonicalMAC_v4 {m : String} (h : canonicalMAC s mac = .ok m) (h4 : s.is6 = false) :
    ∃ hw, parseMAC mac = some hw ∧ hw.length = 6 ∧ m = macText hw := by
  unfold canonicalMAC at h
  rw [if_pos (Or.inr (by rw [h4]; rfl))] at h
  cases hhw : parseMAC mac with
  | none => simp [hhw] at h
  | some hw =>
    simp only [hhw] at h
    split at h
    · rename_i hsix
      exact ⟨hw, rfl, hsix, (pure_eq_ok.mp h).symm⟩
    · simp at h

/-- A lease that is given out is portable. -/
theorem Carried.allocate (h : Carried c L) (hL : Filed L) (hc' : Switched c c')
    {scopeID claimed requested : String} {commit : Bool} (hreq : Zoneless requested)
    (hmac : startsWith client "mac:" = true → client = "mac:" ++ mac)
    (hduid : startsWith client "duid:" = true → L.duid ≠ []) {r : Binding}
    (hallocate : L.allocate now c' scopeID client mac claimed requested commit = .ok (r, L')) :
    Carried c L' := by
  have hL' := allocate_filed hL hc'.1 hreq hallocate
  obtain ⟨s, m, ip, hs, -, hvalid, hm, hfamily, hip, hcases⟩ := allocate_cases hallocate
  rcases hcases with ⟨-, -, -, -, -, rfl⟩ | ⟨hr, -, rfl⟩
  · exact h
  · have hfields := newLease_fields L now c' s client m claimed ip commit
    rw [← hr] at hfields
    obtain ⟨hmem, hid⟩ := mem_of_scope hs
    obtain ⟨p, hfacts⟩ := scopeFacts_of_validate hc'.1 hmem
    obtain ⟨s', hs', hsame⟩ := hc'.scope hmem
    have hzone : Zoneless ip := by
      have hdenotes : Denotes r := hL'.stored (by rw [get_save, if_pos rfl])
      rw [← hfields.address]
      exact hdenotes.zoneless
    obtain ⟨⟨a, ha, himportable⟩, hserver, hrouter⟩ :=
      importable_of_allowed hfacts (available_true (chooseAddress_cases hip).1).1 hzone
    refine h.save now _ fun _ => ⟨⟨s', hs', ?_, Portable.same ?_ hsame⟩, by rw [hfields.client]; exact hduid⟩
    · rw [← hsame.fields.1, hfields.scope]
    · refine ⟨⟨p, a, hfacts.subnet, by rw [hfields.address]; exact ha, himportable⟩, by rw [hfields.address]; exact hserver,
        by rw [hfields.address]; exact hrouter, by rw [hfields.client]; exact hvalid,
        by rw [hfields.client]; exact hfamily, fun h4 => ?_, fun hanonymous => ?_, fun h6 => ?_⟩
      · -- The hardware address is written in its one spelling.
        obtain ⟨hw, hparse, hsix, hm⟩ := canonicalMAC_v4 hm h4
        rw [hfields.mac, hm]
        exact ⟨hw, parseMAC_macText (parseMAC_lt hparse) hsix, hsix, rfl⟩
      · rw [hfields.client] at hanonymous ⊢
        have heq := hmac hanonymous
        have h4 : s.is6 = false := by
          rw [hfamily, heq]
          simp [startsWith, String.toList_append, List.isPrefixOf]
        obtain ⟨hw, hparse, -, hm⟩ := canonicalMAC_v4 hm h4
        rw [heq] at hvalid
        rw [hfields.mac, hm, mac_of_valid hvalid hparse]
        exact heq
      · rw [hfamily] at h6
        obtain ⟨duid, iaid, hclient⟩ := duidClient_of_valid hvalid h6
        rw [hfields.duid, hfields.iaid, hfields.client, hfamily, if_pos h6, if_pos h6, hclient.parts, hclient.iaidLower]
        exact hclient

omit L' in
/-- The checks of an imported lease, in the words of `Portable`. -/
theorem checkImported_place {l : ImportedLease} (h : checkImported L c doc l = .ok (s, mac, client)) :
    (∃ p ip, parsePrefix s.subnet = some p ∧ parseAddr l.address = some ip ∧ Importable p ip) ∧
      l.address ≠ s.server ∧ l.address ≠ s.router ∧
      (s.is6 = false → ∃ hw, parseMAC l.mac = some hw ∧ hw.length = 6) ∧
      (l.duid ≠ "" → doc.serverDUID = "" → L.duid ≠ []) := by
  unfold checkImported at h
  cases hs : c.scope l.scope with
  | none => simp [hs] at h
  | some =>
    simp only [hs, bind_eq_ok, refuseIf_eq_ok, exists_const, mustParsePrefix_eq_ok, pure_eq_ok,
      Prod.mk.injEq] at h
    obtain ⟨-, hknown, -, p, hp, haddr, hmac, -, rfl, -, -⟩ := h
    cases hip : parseAddr l.address with
    | none => simp [hip] at haddr
    | some ip =>
      simp only [hip, Option.elim_some, Bool.not_eq_false', Bool.and_eq_true, Bool.or_eq_true,
        decide_eq_true_eq] at haddr
      refine ⟨⟨p, ip, hp, rfl, haddr.1.1.1.1, haddr.1.1.1.2, haddr.1.1.2⟩, haddr.1.2, haddr.2, fun h4 => ?_, ?_⟩
      · cases hhw : parseMAC l.mac with
        | none => simp [h4, hhw] at hmac
        | some hw => exact ⟨hw, rfl, by simpa [h4, hhw] using hmac⟩
      · intro hduid hserver hnone
        simp [hduid, hserver, hnone] at hknown

omit c L L' in
theorem importedBinding_parts (now : Int) (c : Config) (s : Scope) (l : ImportedLease) (mac client : String) (ends : Int)
    (old : Binding) :
    (importedBinding now c s l mac client ends old).duid =
        (if s.is6 then trimStart ((splitText client "/iaid:").getD 0 "") "duid:" else "") ∧
      (importedBinding now c s l mac client ends old).iaid = if s.is6 then l.iaid else "" := by
  unfold importedBinding
  simp only
  split
  · split <;> exact ⟨rfl, rfl⟩
  · split <;> exact ⟨rfl, rfl⟩

omit c L L' in
/-- The client of an imported lease is of the family of its scope. -/
theorem importedClient_family (s : Scope) (l : ImportedLease) (mac : String) :
    s.is6 = startsWith (importedClient s l mac) "duid:" := by
  unfold importedClient
  cases s.is6 with
  | true => simp [startsWith, String.toList_append]
  | false =>
    by_cases hid : l.clientID ≠ "" ∧ l.clientID ≠ "*"
    · simp [hid, startsWith, String.toList_append, List.isPrefixOf]
    · simp [hid, startsWith, String.toList_append, List.isPrefixOf]

omit c L L' in
theorem importedClient_anonymous {l : ImportedLease} (h : startsWith (importedClient s l mac) "mac:" = true) :
    importedClient s l mac = "mac:" ++ mac := by
  unfold importedClient at h ⊢
  cases hs : s.is6 with
  | true => simp [hs, startsWith, String.toList_append] at h
  | false =>
    by_cases hid : l.clientID ≠ "" ∧ l.clientID ≠ "*"
    · simp [hs, hid, startsWith, String.toList_append] at h
    · simp [hid]

/-- What an import writes is portable. -/
theorem portable_of_import {kind : EventKind} (h : ImportWrite now c doc L b kind) :
    (∃ s ∈ c.scopes, s.id = b.scope ∧ Portable s b) ∧
      (startsWith b.client "duid:" = true → (doc.serverDUID ≠ "" → L.duid ≠ []) → L.duid ≠ []) := by
  obtain ⟨l, -, s, mac, client, hcheck, -, hwrite⟩ := h
  obtain ⟨hs, -, hvalid, hmac, hclient, -⟩ := checkImported_ok hcheck
  obtain ⟨hplace, hserver, hrouter, hhw, hknown⟩ := checkImported_place hcheck
  obtain ⟨hmem, hid⟩ := mem_of_scope hs
  have hfamily := importedClient_family s l mac
  rw [← hclient] at hfamily
  -- The fields that both kinds of import write in the same way.
  have hb : b.scope = l.scope ∧ b.address = l.address ∧ b.client = client ∧ b.mac = mac ∧
      b.duid = (if s.is6 then trimStart ((splitText client "/iaid:").getD 0 "") "duid:" else "") ∧
      b.iaid = if s.is6 then l.iaid else "" := by
    rcases hwrite with ⟨-, -, rfl⟩ | ⟨-, -, rfl⟩
    · exact ⟨rfl, rfl, rfl, rfl, rfl, rfl⟩
    · obtain ⟨hscope, haddress, hclient, hmac, -⟩ := importedBinding_fields now c s l mac client (importedEnd l)
        (L.readBinding l.scope l.address)
      obtain ⟨hduid, hiaid⟩ := importedBinding_parts now c s l mac client (importedEnd l)
        (L.readBinding l.scope l.address)
      exact ⟨hscope, haddress, hclient, hmac, hduid, hiaid⟩
  obtain ⟨hscope, haddress, hbclient, hbmac, hduid, hiaid⟩ := hb
  have hparts : s.is6 = true → DuidClient client b.duid (toLower b.iaid) ∧
      b.duid = toLower (removeAll l.duid ':') := by
    intro h6
    obtain ⟨duid, iaid, hduidClient⟩ := duidClient_of_valid hvalid (by rw [← hfamily]; exact h6)
    have heq : client = "duid:" ++ toLower (removeAll l.duid ':') ++ "/iaid:" ++ toLower l.iaid := by
      rw [hclient, importedClient, if_pos h6]
    obtain ⟨hfirst, hlast⟩ := hduidClient.parts_eq heq
    rw [hduid, hiaid, if_pos h6, if_pos h6, hduidClient.split, hlast, hfirst]
    exact ⟨hduidClient, rfl⟩
  refine ⟨⟨s, hmem, by rw [hid, hscope], ?_⟩, fun h6 hadopted => ?_⟩
  · refine ⟨by rw [haddress]; exact hplace, by rw [haddress]; exact hserver, by rw [haddress]; exact hrouter,
      by rw [hbclient]; exact hvalid, by rw [hbclient]; exact hfamily, fun h4 => ?_, fun hanonymous => ?_, fun h6 => ?_⟩
    · obtain ⟨hw, hparse, hsix⟩ := hhw h4
      rw [hbmac, hmac, hparse]
      exact ⟨hw, parseMAC_macText (parseMAC_lt hparse) hsix, hsix, rfl⟩
    · rw [hbclient, hclient] at hanonymous
      rw [hbclient, hbmac, hclient]
      exact importedClient_anonymous hanonymous
    · rw [hbclient]
      exact (hparts h6).1
  · rw [hbclient, ← hfamily] at h6
    obtain ⟨hduidClient, hlower⟩ := hparts h6
    have hne : l.duid ≠ "" := by
      intro hempty
      rw [hempty] at hlower
      have hlength := hduidClient.duidLength
      rw [hlower] at hlength
      exact absurd hlength (by decide)
    by_cases hserver : doc.serverDUID = ""
    · exact hknown hne hserver
    · exact hadopted hserver

/-- The identity that a document brings is well-formed, and is there when its leases are read. -/
theorem Carried.adopt (h : Carried c L) (hadopt : L.adoptServer c' doc = .ok L') :
    Carried c L' ∧ (doc.serverDUID ≠ "" → L'.duid ≠ []) := by
  unfold Ledger.adoptServer Ledger.adoptDUID at hadopt
  split at hadopt
  · split at hadopt
    · rename_i raw hraw
      simp only [bind_eq_ok, refuseIf_eq_ok, exists_const, pure_eq_ok, Bool.not_eq_false'] at hadopt
      obtain ⟨hwell, -, -, rfl⟩ := hadopt
      have hne : raw ≠ [] := by
        rintro rfl
        cases hwell
      exact ⟨⟨h.portable, fun _ _ _ => hne, fun _ => ⟨hwell, readHexBytes_lt hraw⟩⟩, fun _ => hne⟩
    · simp at hadopt
  · rename_i hserver
    rw [pure_eq_ok] at hadopt
    rw [← hadopt]
    exact ⟨h, fun hne => absurd hne hserver⟩

theorem Carried.importDocument (h : Carried c L) (hc' : Switched c c')
    (himport : L.importDocument now c' doc = .ok L') : Carried c L' := by
  simp only [Ledger.importDocument, bind_eq_ok, refuseIf_eq_ok, exists_const] at himport
  obtain ⟨-, L1, hadopt, hloop⟩ := himport
  have hfinal := foldlM_invariant (I := fun L2 => Carried c L2 ∧ (doc.serverDUID ≠ "" → L2.duid ≠ []))
    (fun l hl L2 L3 h2 hstep => ?_) (h.adopt hadopt) hloop
  · exact hfinal.1
  · rcases importLease_writes hl hstep with rfl | ⟨b, rfl, hwrite⟩
    · exact h2
    · obtain ⟨⟨s, hs, hid, hportable⟩, hidentified⟩ := portable_of_import hwrite
      obtain ⟨s', hs', hsame⟩ := hc'.scope hs
      refine ⟨h2.1.save now _ fun _ => ⟨⟨s', hs', hsame.fields.1.symm.trans hid, hportable.same hsame⟩, fun h6 => ?_⟩, ?_⟩
      · exact hidentified h6 h2.2
      · rw [duid_save]
        exact h2.2

end Writing

/-! ### Handlers -/

/-- What the handlers keep. -/
def Ready (c : Config) (L : Ledger) : Prop := Reached L ∧ Carried c L

/-- A DHCPv4 client is known by its identifier or by its hardware address. -/
theorem client4_start (r : Message4) :
    startsWith (client4 r) "duid:" = false ∧
      (startsWith (client4 r) "mac:" = true → client4 r = "mac:" ++ macText r.hwAddr) := by
  unfold client4
  by_cases hid : r.clientIdentifier ≠ []
  · simp [hid, startsWith, String.toList_append, List.isPrefixOf]
  · simp [hid, startsWith, String.toList_append, List.isPrefixOf]

/-- A DHCPv6 client is known by its DUID. -/
theorem pdClient_start (cid : Duid) (iaid : BitVec 32) : startsWith (pdClient cid iaid) "mac:" = false := by
  simp [pdClient, startsWith, String.toList_append, List.isPrefixOf]

/-- Once a server has told its identity, it has one. -/
theorem serverDUID_identified {uuid : Fin 16 → Fin 256} {L' : Ledger} {server : Duid}
    (h : (serverDUID uuid).on L = (.ok server, L')) : L'.duid ≠ [] := by
  unfold serverDUID at h
  obtain ⟨raw, L1, hdraw, h⟩ := bind_ok.mp h
  have hL' : L' = L1 := by
    split at h
    · exact (Prod.mk.inj h).2.symm
    · cases (Prod.mk.inj h).1
  rw [hL']
  -- The transaction stores the identity it returns, and draws one when there is none.
  have hL1 := (Prod.mk.inj hdraw).2
  rw [← hL1]
  show (if L.duid = [] then 0 :: 4 :: (List.ofFn uuid).map Fin.val else L.duid) ≠ []
  split
  · exact cons_ne_nil _ _
  · assumption

/-- When the associations of a packet are served, the server has an identity. -/
theorem openMessage_identified {uuid : Fin 16 → Fin 256} {packet : Packet6} {L' : Ledger} {r : Message6}
    {cid : Duid} {reply : Message6} (h : (openMessage s uuid packet).on L = (.ok (.serve r cid reply), L')) :
    L'.duid ≠ [] := by
  unfold openMessage at h
  split at h
  · cases (Prod.mk.inj h).1
  · obtain ⟨_, L1, -, h⟩ := bind_ok.mp h
    obtain ⟨_, L2, -, h⟩ := bind_ok.mp h
    obtain ⟨_, L3, -, h⟩ := bind_ok.mp h
    obtain ⟨_, L4, -, h⟩ := bind_ok.mp h
    obtain ⟨server, L5, hserver, h⟩ := bind_ok.mp h
    -- Nothing is written after the identity is known.
    have hL' : L' = L5 := by
      obtain ⟨-, h⟩ := stopIf_bind_ok.mp h
      obtain ⟨-, h⟩ := stopIf_bind_ok.mp h
      split at h
      · cases (Prod.mk.inj h).1
      · obtain ⟨-, h⟩ := stopIf_bind_ok.mp h
        obtain ⟨-, h⟩ := stopIf_bind_ok.mp h
        split at h
        · cases (Prod.mk.inj h).1
        · split at h
          · exact (Prod.mk.inj h).2.symm
          · cases (Prod.mk.inj h).1
    rw [hL']
    exact serverDUID_identified hserver

/-- A drawn identity is a well-formed DUID. -/
theorem Ready.draw (hL : Ready c L) (uuid : Fin 16 → Fin 256) :
    Ready c { L with duid := if L.duid = [] then 0 :: 4 :: (List.ofFn uuid).map Fin.val else L.duid } := by
  refine ⟨hL.1.identify _, ?_⟩
  split
  · refine ⟨hL.2.portable, fun _ _ _ => cons_ne_nil _ _, fun _ => ⟨?_, ?_⟩⟩
    · show decide (((List.ofFn uuid).map Fin.val).length = 16) = true
      simp
    · intro x hx
      rcases mem_cons.mp hx with rfl | hx
      · omega
      · rcases mem_cons.mp hx with rfl | hx
        · omega
        · obtain ⟨y, -, rfl⟩ := mem_map.mp hx
          exact y.isLt
  · exact hL.2

section Serving

variable {c c' : Config} (hc' : Switched c c') {s : Scope} (hs : s ∈ c'.scopes) (now : Int)

include hc' hs

omit hs in
theorem handle4_ready (r : Message4) : Keeps (Ready c) (fun _ => True) (handle4 c' s now r) := by
  obtain ⟨hnot, hanonymous⟩ := client4_start r
  refine handle4_keeps r (fun hL h => ?_) fun hL h => ⟨reached_release hL.1 h, hL.2.release h⟩
  have hreq := requested4_zoneless r
  refine ⟨reached_allocate hc'.1 hL.1 hreq h, ?_⟩
  refine hL.2.allocate (filed_of_reached hL.1) hc' hreq hanonymous (fun h6 => ?_) h
  rw [hnot] at h6
  cases h6

/-- What is kept while the associations of a packet are served. -/
theorem ready_invariant (kind : MessageType6) (cid : Duid) (iaid : BitVec 32) :
    Invariant c' s now kind cid (pdClient cid iaid) (fun L => Ready c L ∧ L.duid ≠ []) Zoneless where
  unnamed := zoneless_empty
  hint := zoneless_ipText
  current hL hb := (reached_invariant hc'.1 hs now kind cid _).current hL.1.1 hb
  allocate hkind _ _ _ _ _ hL hreq h := by
    obtain ⟨hreached, hzoneless⟩ := (reached_invariant hc'.1 hs now kind cid _).allocate hkind hL.1.1 hreq h
    refine ⟨⟨⟨hreached, hL.1.2.allocate (filed_of_reached hL.1.1) hc' hreq (fun hmac => ?_) (fun _ => hL.2) h⟩, ?_⟩,
      hzoneless⟩
    · rw [pdClient_start] at hmac
      cases hmac
    · obtain ⟨s', m, ip, -, -, -, -, -, -, hcases⟩ := allocate_cases h
      rcases hcases with ⟨-, -, -, -, -, rfl⟩ | ⟨-, -, rfl⟩
      · exact hL.2
      · rw [duid_save]
        exact hL.2
  release _ _ _ _ _ hL h := by
    refine ⟨⟨reached_release hL.1.1 h, hL.1.2.release h⟩, ?_⟩
    obtain ⟨b, kind, -, rfl⟩ := release_eq h
    rw [duid_save]
    exact hL.2

theorem handlePD_ready (kind : MessageType6) (cid : Duid) (via : Option IP) (ia : IAPD) :
    Keeps (fun L => Ready c L ∧ L.duid ≠ []) (fun _ => True) (handlePD s now kind cid via ia) := by
  refine handlePD_keeps ia (fun hvalid hL h => ⟨⟨?_, hL.1.2.allocatePrefix h⟩, ?_⟩) fun hL h =>
    ⟨⟨reached_releasePrefix hL.1.1 h, hL.1.2.releasePrefix h⟩, ?_⟩
  · exact reached_allocatePrefix hL.1.1 ⟨c', hc'.1, hs⟩ (nul_not_mem_client hvalid) h
  · rcases allocatePrefix_cases h with rfl | ⟨b, kind, -, rfl⟩
    · exact hL.2
    · rw [duid_save]
      exact hL.2
  · simp only [Ledger.releasePrefix, bind_eq_ok, refuseIf_eq_ok, exists_const, pure_eq_ok] at h
    rw [← h.2]
    refine foldl_invariant (I := fun L1 : Ledger => L1.duid ≠ []) (fun b _ L1 h1 => ?_) hL.2
    rw [duid_save]
    exact h1

theorem handle6Via_ready (uuid : Fin 16 → Fin 256) (packet : Packet6) (via : Option IP) :
    Keeps (Ready c) (fun _ => True) (handle6Via c' s now uuid packet via) := by
  intro L hL
  unfold handle6Via
  obtain ⟨hL1, -⟩ := openMessage_keeps (I := Ready c) (fun uuid L hL => hL.draw uuid) s uuid packet L hL
  refine ⟨?_, fun _ _ => trivial⟩
  rw [on_bind]
  rcases hopened : (openMessage s uuid packet).on L with ⟨opened, L1⟩
  rw [hopened] at hL1
  cases opened with
  | error => exact hL1
  | ok opened =>
    cases opened with
    | answered => exact hL1
    | serve r cid reply =>
      have hidentified := openMessage_identified hopened
      have hserve : Keeps (fun L => Ready c L ∧ L.duid ≠ []) (fun _ => True) (serveMessage c' s now via r cid reply) := by
        unfold serveMessage
        exact Keeps.bind (Keeps.mapM fun ia _ => handleNA_keeps ia (ready_invariant hc' hs now _ cid _)) fun ianas _ =>
          Keeps.bind (Keeps.stopIf _ _) fun _ _ =>
          Keeps.bind (Keeps.mapM fun ia _ => handlePD_ready hc' hs now _ cid via ia) fun iapds _ =>
          Keeps.pure trivial
      exact (hserve L1 ⟨hL1, hidentified⟩).1.1

end Serving

/-- The ledgers that the service builds under a configuration: by answering packets, by releases and expiry,
and by imports. Scopes may be switched on and off in between. -/
inductive Served (c : Config) : Ledger → Prop where
  | empty : Served c {}
  | handle4 {L : Ledger} (h : Served c L) {c' : Config} (hc' : Switched c c') {s : Scope} (hs : s ∈ c'.scopes)
      (now : Int) (r : Message4) : Served c ((handle4 c' s now r).on L).2
  | handle6Via {L : Ledger} (h : Served c L) {c' : Config} (hc' : Switched c c') {s : Scope} (hs : s ∈ c'.scopes)
      (now : Int) (uuid : Fin 16 → Fin 256) (packet : Packet6) (via : Option IP) :
      Served c ((handle6Via c' s now uuid packet via).on L).2
  | release {L : Ledger} (h : Served c L) (now : Int) (scope client ip : String) (decline : Bool) :
      Served c (L.settle (L.release now scope client ip decline))
  | expire {L : Ledger} (h : Served c L) (now : Int) : Served c (L.expire now)
  | importDocument {L : Ledger} (h : Served c L) {c' : Config} (hc' : Switched c c') (now : Int) (doc : ImportDocument) :
      Served c (L.settle (L.importDocument now c' doc))

theorem ready_of_served (h : Served c L) : Ready c L := by
  induction h with
  | empty => exact ⟨.empty, carried_empty c⟩
  | handle4 _ hc' hs now r ih => exact (handle4_ready hc' now r _ ih).1
  | handle6Via _ hc' hs now uuid packet via ih => exact (handle6Via_ready hc' hs now uuid packet via _ ih).1
  | release _ now scope client ip decline ih =>
    refine settle_cases ih fun L' h => ⟨reached_release ih.1 h, ih.2.release h⟩
  | expire _ now ih => exact ⟨ih.1.operate now (show Operation.Called .expire from trivial), ih.2.expire now⟩
  | importDocument _ hc' now doc ih =>
    refine settle_cases ih fun L' h => ⟨?_, ih.2.importDocument hc' h⟩
    have hstep := ih.1.operate now (show Operation.Called (.importDocument _ doc) from hc'.1)
    rwa [Operation.apply, h] at hstep

end Ghostd.Proofs.Addressbook
