import Ghostd.Addressbook.CorePlugin
import Ghostd.Proofs.Addressbook.Handlers
import Ghostd.Proofs.Addressbook.Zones

/-!
# `Ghostd.Proofs.Addressbook.Sockets`: the scope a packet is served from

The guard of a socket and the plugin behind it look for a scope with two predicates. The guard asks
for the peer, the port and the hops of a relayed packet, the plugin for its link only. They find the
same scope because a link has one scope: the links of two relayed scopes lie in subnets that have no
address in common, no link is the unspecified address that a direct packet has, and a socket has one
direct scope.

`guard_handler_agree` is the result: what the guard admits for a scope is served from that scope,
and what it admits for none reaches no handler. `boot_handoff_iff` says when the reply to a client
that boots from the network names one next server, after the plugin has written the server's
address into it.
-/

set_option autoImplicit false

namespace Ghostd.Proofs.Addressbook

open Ghostd.Lib Ghostd.Addressbook Session List

variable {s t : Scope} {c : Config} {key : String} {relay : RelayConfig} {r : Message4}

/-! ### Selectors -/

/-- The selector of a scope of an accepted configuration. -/
theorem selector_of_validate (hc : c.validate = .ok ()) (hs : s ∈ c.scopes) :
    ∃ p selector, parsePrefix s.subnet = some p ∧ validateSelector s p = .ok selector := by
  obtain ⟨seen, one, -, hone⟩ := accepted_of_validate hc hs
  obtain ⟨p, selector, -, hp, hselector, -⟩ := claims_of_validateScope hone
  exact ⟨p, selector, hp, hselector⟩

/-- The selector of a direct scope is that of its socket. -/
theorem validateSelector_direct {p : Prefix} {selector : String} (h : validateSelector s p = .ok selector)
    (hdirect : s.relay = none) : selector = s.socketKey ++ "/direct" := by
  unfold validateSelector at h
  cases ha : parseAddr s.server with
  | none => simp [ha] at h
  | some =>
    simp only [ha, hdirect, bind_eq_ok, refuseIf_eq_ok, exists_const, pure_eq_ok] at h
    exact h.2.2.symm

/-- The link of a relayed scope is an address of its subnet, and not the unspecified one. -/
theorem validateSelector_relay {p : Prefix} {selector : String} (h : validateSelector s p = .ok selector)
    (hrelay : s.relay = some relay) :
    ∃ link, parseAddr relay.link = some link ∧ p.contains link = true ∧ link.isUnspecified = false := by
  unfold validateSelector at h
  cases ha : parseAddr s.server with
  | none => simp [ha] at h
  | some =>
    cases hpeer : parseAddr relay.peer with
    | none => simp [ha, hrelay, hpeer, bind_eq_ok] at h
    | some =>
      cases hlink : parseAddr relay.link with
      | none => simp [ha, hrelay, hpeer, hlink, bind_eq_ok] at h
      | some link =>
        simp only [ha, hrelay, hpeer, hlink, bind_eq_ok, refuseIf_eq_ok, exists_const, pure_eq_ok,
          Bool.or_eq_false_iff, Bool.not_eq_false'] at h
        obtain ⟨-, ⟨⟨-, hcontains⟩, hspecified⟩, -⟩ := h
        exact ⟨link, rfl, hcontains, hspecified⟩

/-- A socket has one direct scope. -/
theorem direct_unique (hc : c.validate = .ok ()) (hs : s ∈ c.scopes) (ht : t ∈ c.scopes)
    (hsdirect : s.relay = none) (htdirect : t.relay = none) (hkey : s.socketKey = t.socketKey) : s = t := by
  obtain ⟨p, selector, hp, hselector⟩ := selector_of_validate hc hs
  obtain ⟨q, selector', hq, hselector'⟩ := selector_of_validate hc ht
  have hsame : selector' = selector := by
    rw [validateSelector_direct hselector hsdirect, validateSelector_direct hselector' htdirect, hkey]
  by_contra hne
  rw [hsame] at hselector'
  exact (apart hc hs ht hne).selectors p q selector hp hq hselector hselector'

/-- The link of a relayed scope of an accepted configuration. -/
theorem link_of_validate (hc : c.validate = .ok ()) (hs : s ∈ c.scopes) (hrelay : s.relay = some relay) :
    ∃ link, parseAddr relay.link = some link ∧ parseIP relay.link = some link.as16 ∧ s.holds link = true ∧
      link.zone = "" ∧ link.is6 = s.is6 ∧ link.isUnspecified = false := by
  obtain ⟨p, selector, hp, hselector⟩ := selector_of_validate hc hs
  obtain ⟨link, hlink, hcontains, hspecified⟩ := validateSelector_relay hselector hrelay
  obtain ⟨hzone, hfamily, -⟩ := Prefix.contains_iff.mp hcontains
  refine ⟨link, hlink, ?_, ?_, hzone, ?_, hspecified⟩
  · exact parseIP_eq_some.mpr ⟨link, hlink, hzone, rfl⟩
  · rw [Scope.holds, hp]
    exact hcontains
  · rw [Scope.is6, hp]
    simp [Addr.is6, hfamily]

theorem is6_of_socketKey (h : s.socketKey = t.socketKey) : s.is6 = t.is6 := by
  have hhead := congrArg (fun k => k.toList.head?) h
  unfold Scope.socketKey at hhead
  cases hs : s.is6 <;> cases ht : t.is6 <;> simp_all

/-- A link has one scope of a socket. -/
theorem link_unique (hc : c.validate = .ok ()) (hs : s ∈ c.scopes) (ht : t ∈ c.scopes)
    (hkey : s.socketKey = t.socketKey) {relay' : RelayConfig} (hrelay : s.relay = some relay)
    (hrelay' : t.relay = some relay') (hlink : parseIP relay.link = parseIP relay'.link) : s = t := by
  obtain ⟨link, -, hparsed, hholds, hzone, hfamily, -⟩ := link_of_validate hc hs hrelay
  obtain ⟨link', -, hparsed', hholds', hzone', hfamily', -⟩ := link_of_validate hc ht hrelay'
  rw [hparsed, hparsed', Option.some.injEq] at hlink
  have hsame : link.family = link'.family := by
    rw [is6_of_socketKey hkey, ← hfamily'] at hfamily
    simp only [Addr.is6, decide_eq_decide] at hfamily
    cases hv : link.family <;> cases hv' : link'.family <;> simp_all
  obtain rfl := Addr.as16_inj hsame hzone hzone' hlink
  exact scope_unique hc hs ht hholds hholds'

/-! ### What the plugin serves -/

theorem onSocket_iff : s.onSocket key = true ↔ s.enabled = true ∧ s.socketKey = key := by
  simp [Scope.onSocket]

theorem socketKey_eq (hs : s.onSocket key = true) (ht : t.onSocket key = true) : s.socketKey = t.socketKey :=
  (onSocket_iff.mp hs).2.trans (onSocket_iff.mp ht).2.symm

/-- The unspecified address is no link. -/
theorem link_ne_unspecified (hc : c.validate = .ok ()) (hs : s ∈ c.scopes) (hs4 : s.is6 = false)
    (hrelay : s.relay = some relay) : parseIP relay.link ≠ some (IP.ofV4 0) := by
  obtain ⟨link, -, hparsed, -, hzone, hfamily, hspecified⟩ := link_of_validate hc hs hrelay
  rw [hparsed]
  intro heq
  have hv4 : link.family = .v4 := by
    rw [hs4] at hfamily
    simp only [Addr.is6, decide_eq_false_iff_not] at hfamily
    cases hv : link.family <;> simp_all
  have hzero : link = Addr.ofValue .v4 0 := by
    refine Addr.as16_inj hv4 hzone rfl ?_
    rw [Option.some.inj heq]
    rfl
  rw [hzero] at hspecified
  exact absurd hspecified (by decide)

/-- A DHCPv4 packet on a socket of that family has at most one scope. -/
theorem serves4_unique (hc : c.validate = .ok ()) (hs : s ∈ c.scopes) (ht : t ∈ c.scopes) (hs4 : s.is6 = false)
    (hservesS : serves4 key r s = true) (hservesT : serves4 key r t = true) : s = t := by
  unfold serves4 at hservesS hservesT
  obtain ⟨hsocket, hservesS⟩ := Bool.and_eq_true_iff.mp hservesS
  obtain ⟨hsocket', hservesT⟩ := Bool.and_eq_true_iff.mp hservesT
  have hkey := socketKey_eq hsocket hsocket'
  have ht4 : t.is6 = false := by rw [← is6_of_socketKey hkey, hs4]
  cases hrelay : s.relay with
  | none =>
    cases hrelay' : t.relay with
    | none => exact direct_unique hc hs ht hrelay hrelay' hkey
    | some =>
      simp only [hrelay, hrelay', decide_eq_true_eq] at hservesS hservesT
      rw [hservesS] at hservesT
      exact absurd hservesT.symm (link_ne_unspecified hc ht ht4 hrelay')
  | some relay =>
    cases hrelay' : t.relay with
    | none =>
      simp only [hrelay, hrelay', decide_eq_true_eq] at hservesS hservesT
      rw [hservesT] at hservesS
      exact absurd hservesS.symm (link_ne_unspecified hc hs hs4 hrelay)
    | some =>
      simp only [hrelay, hrelay', decide_eq_true_eq] at hservesS hservesT
      exact link_unique hc hs ht hkey hrelay hrelay' (hservesS.symm.trans hservesT)

/-- A DHCPv6 packet has at most one scope. -/
theorem serves6_unique (hc : c.validate = .ok ()) {r : Packet6} (hs : s ∈ c.scopes) (ht : t ∈ c.scopes)
    (hservesS : serves6 key r s = true) (hservesT : serves6 key r t = true) : s = t := by
  unfold serves6 at hservesS hservesT
  obtain ⟨hsocket, hservesS⟩ := Bool.and_eq_true_iff.mp hservesS
  obtain ⟨hsocket', hservesT⟩ := Bool.and_eq_true_iff.mp hservesT
  have hkey := socketKey_eq hsocket hsocket'
  -- A packet without a relay has no link, and every relayed scope has one.
  have hunlinked : ∀ {s : Scope} {relay : RelayConfig}, s ∈ c.scopes → s.relay = some relay →
      r.isRelay = false → relayLink 0 r ≠ parseIP relay.link := by
    intro s relay hs hrelay hdirect heq
    obtain ⟨link, -, hparsed, -⟩ := link_of_validate hc hs hrelay
    cases r with
    | message =>
      rw [hparsed] at heq
      cases heq
    | relay => cases hdirect
  cases hrelay : s.relay with
  | none =>
    cases hrelay' : t.relay with
    | none => exact direct_unique hc hs ht hrelay hrelay' hkey
    | some =>
      simp only [hrelay, hrelay', decide_eq_true_eq, Bool.not_eq_true'] at hservesS hservesT
      exact absurd hservesT (hunlinked ht hrelay' hservesS)
  | some relay =>
    cases hrelay' : t.relay with
    | none =>
      simp only [hrelay, hrelay', decide_eq_true_eq, Bool.not_eq_true'] at hservesS hservesT
      exact absurd hservesS (hunlinked hs hrelay hservesT)
    | some =>
      simp only [hrelay, hrelay', decide_eq_true_eq] at hservesS hservesT
      exact link_unique hc hs ht hkey hrelay hrelay' (hservesS.symm.trans hservesT)

/-! ### What the guard admits -/

/-- What the guard admits for a scope, the plugin would serve from it. -/
theorem serves4_of_matches4 {peer : NetAddr} (hsocket : s.onSocket key = true) (h : matches4 s r peer = true) :
    s.is6 = false ∧ serves4 key r s = true := by
  unfold matches4 at h
  unfold serves4
  rw [hsocket]
  cases hs6 : s.is6 with
  | true => simp [hs6] at h
  | false =>
    refine ⟨rfl, ?_⟩
    rw [hs6, if_neg (by decide)] at h
    cases hrelay : s.relay with
    | none => simpa [hrelay] using h
    | some =>
      cases peer with
      | other => simp [hrelay] at h
      | udp =>
        simp only [hrelay, Bool.and_eq_true, decide_eq_true_eq] at h
        simpa using h.1.2

/-- The two loops over the relay layers find the same link: the limits of the plugin's loop are
within those of the guard's. -/
theorem relayLink_of_relayedFrom {link : Option IP} {n : Nat} {r : Packet6} (h : relayedFrom link n r = true) :
    relayLink n r = link := by
  fun_induction relayedFrom link n r with
  | case1 | case2 => cases h
  | case3 => cases h
  | case4 n header inner hlimits hdirect =>
    have hn : ¬ n ≥ 32 := fun hn => hlimits (Or.inr (Or.inr hn))
    rw [relayLink, if_neg hn, if_pos hdirect]
    exact of_decide_eq_true h
  | case5 n header inner hlimits hrelayed ih =>
    have hn : ¬ n ≥ 32 := fun hn => hlimits (Or.inr (Or.inr hn))
    rw [relayLink, if_neg hn, if_neg hrelayed]
    exact ih h

theorem serves6_of_matches6 {r : Packet6} {peer : NetAddr} (hsocket : s.onSocket key = true)
    (h : matches6 s r peer = true) : serves6 key r s = true := by
  unfold matches6 at h
  unfold serves6
  rw [hsocket]
  cases hs6 : s.is6 with
  | false => simp [hs6] at h
  | true =>
    rw [hs6, if_neg (by decide)] at h
    cases hrelay : s.relay with
    | none => simpa [hrelay] using h
    | some =>
      cases peer with
      | other => simp [hrelay] at h
      | udp =>
        simp only [hrelay, Bool.and_eq_true] at h
        simpa using relayLink_of_relayedFrom h.2

/-- The first element with a property is the only one. -/
theorem find?_eq_of_unique {α : Type} {p : α → Bool} {xs : List α} {x : α} (hx : x ∈ xs) (hp : p x = true)
    (hunique : ∀ y ∈ xs, p y = true → x = y) : xs.find? p = some x := by
  cases hfind : xs.find? p with
  | none => exact absurd hp (List.find?_eq_none.mp hfind x hx)
  | some y => rw [hunique y (mem_of_find?_eq_some hfind) (List.find?_some hfind)]

/-- A packet that the guard admits because a scope matches is served from that scope: the plugin
calls the handler with it. A packet that no enabled scope of the socket matches is dropped, without
a call of any handler and with the ledger as it was. -/
theorem guard_handler_agree {c : Config} (hc : c.validate = .ok ()) (key : String) :
    (∀ r peer s, s ∈ c.scopes → s.onSocket key = true → matches4 s r peer = true →
      ∀ handle, ghostleases4 handle c key r = (do
        let reply ← handle c s r
        pure { reply with serverIP := (parseIP s.server).getD 0 })) ∧
    (∀ r peer, (∀ s ∈ c.scopes, s.onSocket key = true → matches4 s r peer = false) →
      ∀ handle before after L, socket4 handle before after c key r peer L = (none, L)) ∧
    (∀ r peer s, s ∈ c.scopes → s.onSocket key = true → matches6 s r (.udp peer) = true →
      ∀ handle, ghostleases6 handle c key r peer = handle c s r (clientLinkLocal r peer)) ∧
    (∀ r peer, (∀ s ∈ c.scopes, s.onSocket key = true → matches6 s r (.udp peer) = false) →
      ∀ handle library before after L, socket6 handle library before after c key r peer L = (none, L)) := by
  refine ⟨?_, ?_, ?_, ?_⟩
  · intro r peer s hs hsocket hmatches handle
    obtain ⟨hs4, hserves⟩ := serves4_of_matches4 hsocket hmatches
    have hfind : c.scopes.find? (serves4 key r) = some s :=
      find?_eq_of_unique hs hserves fun t ht hservesT => serves4_unique hc hs ht hs4 hserves hservesT
    rw [ghostleases4, hfind]
  · intro r peer hnone handle before after L
    have hguard : guard4 c key r peer = false := by
      refine any_eq_false.mpr fun s hs => ?_
      rw [Bool.and_eq_true, not_and]
      exact fun hsocket => by simp [hnone s hs hsocket]
    simp [socket4, handleMsg4, hguard]
  · intro r peer s hs hsocket hmatches handle
    have hserves := serves6_of_matches6 hsocket hmatches
    have hfind : c.scopes.find? (serves6 key r) = some s :=
      find?_eq_of_unique hs hserves fun t ht hservesT => serves6_unique hc hs ht hserves hservesT
    rw [ghostleases6, hfind]
  · intro r peer hnone handle library before after L
    have hguard : guard6 c key r (.udp peer) = false := by
      refine any_eq_false.mpr fun s hs => ?_
      rw [Bool.and_eq_true, not_and]
      exact fun hsocket => by simp [hnone s hs hsocket]
    simp [socket6, handleMsg6, hguard]

/-- A scope on the socket itself, and one behind a relay. -/
def relayNet : Config where
  scopes :=
    [{ id := "near", interface := "eth0", subnet := "10.0.0.0/24", server := "10.0.0.1",
       start := "10.0.0.5", endAddr := "10.0.0.6", router := "10.0.0.1", zone := "near.home",
       leaseSeconds := 3600, enabled := true },
     { id := "far", interface := "eth0", subnet := "10.0.1.0/24", server := "10.0.0.1",
       start := "10.0.1.5", endAddr := "10.0.1.6", router := "10.0.1.1", zone := "far.home",
       leaseSeconds := 3600, enabled := true, relay := some { peer := "10.0.0.2", link := "10.0.1.1" } }]

/-- A Discover that the relay has passed on. -/
def relayedDiscover : Message4 where
  hwAddr := [2, 0, 0, 0, 0, 1]
  messageType := .discover
  gatewayIP := 0x0a000101
  hopCount := 1

/-- The Discover is served from the scope behind the relay, and dropped when another host sends it. -/
theorem guard_handler_agree_relayNet :
    ghostleases4 (fun c s r => handle4 c s 0 r) relayNet "4/eth0" relayedDiscover =
      (do let reply ← handle4 relayNet relayNet.scopes[1] 0 relayedDiscover
          pure { reply with serverIP := (parseIP "10.0.0.1").getD 0 }) ∧
    socket4 (fun c s r => handle4 c s 0 r) [] [] relayNet "4/eth0" relayedDiscover
      (.udp ⟨parseIP "10.0.0.3", 67⟩) {} = (none, {}) := by
  have hvalid : relayNet.validate = .ok () := by decide +kernel
  obtain ⟨hserved, hdropped, -, -⟩ := guard_handler_agree hvalid "4/eth0"
  constructor
  · exact hserved relayedDiscover (.udp ⟨parseIP "10.0.0.2", 67⟩) relayNet.scopes[1] (getElem_mem _)
      (by decide +kernel) (by decide +kernel) _
  · exact hdropped relayedDiscover (.udp ⟨parseIP "10.0.0.3", 67⟩) (by decide +kernel) _ _ _ _

/-! ### Network boot -/

/-- The next server of a scope's boot settings: the one they name, or the server of the scope. -/
def configuredNext (s : Scope) (boot : BootConfig) : Option IP :=
  if boot.nextServer ≠ "" then parseIP boot.nextServer else parseIP s.server

/-- The reply hands the client over to the next server: the address field and option 66 name it,
and the file field and option 67 the boot file. -/
def HandsOff (s : Scope) (boot : BootConfig) (reply : Reply4) : Prop :=
  ∃ next, configuredNext s boot = some next ∧ reply.serverIP = next ∧
    reply.options.get optionTFTPServerName = some (utf8Bytes (IP.text next)) ∧
    reply.bootFileName = boot.file ∧ reply.options.get optionBootfileName = some (utf8Bytes boot.file)

/-- A Discover or Request that is answered got a lease, or is refused. -/
theorem handle4_answer {now : Int} {L L' : Ledger} {reply : Reply4}
    (hkind : r.messageType = .discover ∨ r.messageType = .request)
    (h : (handle4 c s now r).on L = (.ok reply, L')) :
    (∃ type b, answerLease s r ((parseIP s.server).getD 0) type b = .ok reply) ∨
      reply = plainReply ((parseIP s.server).getD 0) .nak := by
  unfold handle4 at h
  obtain ⟨-, L1, -, h⟩ := bind_ok.mp h
  obtain ⟨-, L2, -, h⟩ := bind_ok.mp h
  obtain ⟨-, L3, -, h⟩ := bind_ok.mp h
  rcases hkind with hkind | hkind
  · simp only [hkind] at h
    obtain ⟨b, L4, -, h⟩ := bind_ok.mp h
    exact Or.inl ⟨.offer, b, (ofExcept_ok.mp h).1⟩
  · simp only [hkind] at h
    obtain ⟨granted, L4, -, h⟩ := bind_ok.mp h
    cases granted with
    | some b => exact Or.inl ⟨.ack, b, (ofExcept_ok.mp h).1⟩
    | none =>
      cases h
      exact Or.inr rfl

/-- What `Handle4` writes for a client that wants to boot, into the reply with the other options. -/
theorem answerLease_boot {server : IP} {type : MessageType4} {b : Binding} {boot : BootConfig}
    (hboot : s.boot = some boot) (hwants : wantsBoot r boot = true) {reply : Reply4}
    (h : answerLease s r server type b = .ok reply) : ∃ reply0, reply = withBoot server boot reply0 := by
  unfold answerLease at h
  cases hp : parsePrefix s.subnet with
  | none => simp [hp] at h
  | some =>
    simp only [hp, hboot, hwants, if_true, bind_eq_ok, pure_eq_ok] at h
    obtain ⟨reply0, -, rfl⟩ := h
    exact ⟨reply0, rfl⟩

/-- The server of an accepted scope is an address. -/
theorem parseIP_server (hc : c.validate = .ok ()) (hs : s ∈ c.scopes) :
    ∃ server, parseIP s.server = some server := by
  obtain ⟨p, hfacts⟩ := scopeFacts_of_validate hc hs
  obtain ⟨a, ha, hzone, -⟩ := hfacts.server
  exact ⟨a.as16, parseIP_eq_some.mpr ⟨a, ha, hzone, rfl⟩⟩

/-- The next server of accepted boot settings is an address. -/
theorem parseIP_nextServer (hc : c.validate = .ok ()) (hs : s ∈ c.scopes) {boot : BootConfig}
    (hboot : s.boot = some boot) (hnext : boot.nextServer ≠ "") :
    ∃ next, parseIP boot.nextServer = some next := by
  obtain ⟨seen, one, -, hone⟩ := accepted_of_validate hc hs
  simp only [validateScope, bind_eq_ok, refuseIf_eq_ok, exists_const, discard_eq_ok, pure_eq_ok] at hone
  obtain ⟨-, p, -, selector, -, -, ⟨⟩, -, ⟨⟩, -, ⟨⟩, -, pools, -, ⟨⟩, hvalid, -⟩ := hone
  simp only [validateBoot, hboot, bind_eq_ok, refuseIf_eq_ok, exists_const, Bool.and_eq_false_iff,
    decide_eq_false_iff_not, Bool.not_eq_false'] at hvalid
  have hunicast : unicast4 boot.nextServer = true := hvalid.2.2.resolve_left fun h => h hnext
  unfold unicast4 at hunicast
  cases ha : parseAddr boot.nextServer with
  | none => simp [ha] at hunicast
  | some a =>
    simp only [ha, Option.elim_some, Bool.and_eq_true] at hunicast
    have hv4 : a.family = .v4 := of_decide_eq_true hunicast.1.1
    exact ⟨a.as16, parseIP_eq_some.mpr ⟨a, ha, a.zone_v4 hv4, rfl⟩⟩

/-- The reply that the plugin returns hands the client over to the configured next server, if and
only if none is configured or it is the server of the scope. -/
theorem boot_handoff_iff {c : Config} (hc : c.validate = .ok ()) {key : String} {r : Message4} {s : Scope}
    (hs : c.scopes.find? (serves4 key r) = some s) {boot : BootConfig} (hboot : s.boot = some boot)
    (hwants : wantsBoot r boot = true) (hkind : r.messageType = .discover ∨ r.messageType = .request)
    {now : Int} {L L' : Ledger} {reply : Reply4}
    (h : (ghostleases4 (fun c s r => handle4 c s now r) c key r).on L = (.ok reply, L'))
    (hanswer : reply.options.get optionMessageType = some [MessageType4.offer.code] ∨
      reply.options.get optionMessageType = some [MessageType4.ack.code]) :
    HandsOff s boot reply ↔ boot.nextServer = "" ∨ parseIP boot.nextServer = parseIP s.server := by
  have hmem : s ∈ c.scopes := mem_of_find?_eq_some hs
  obtain ⟨server, hserver⟩ := parseIP_server hc hmem
  rw [ghostleases4, hs] at h
  obtain ⟨given, L1, hgiven, hreply⟩ := bind_ok.mp h
  rw [pure_ok] at hreply
  obtain ⟨rfl, -⟩ := hreply
  rcases handle4_answer hkind hgiven with ⟨type, b, hlease⟩ | rfl
  · obtain ⟨reply0, rfl⟩ := answerLease_boot hboot hwants hlease
    rw [hserver, Option.getD_some]
    by_cases hnext : boot.nextServer = ""
    · refine iff_of_true ⟨server, ?_, rfl, ?_, rfl, ?_⟩ (Or.inl hnext)
      · rw [configuredNext, if_neg (not_not.mpr hnext), hserver]
      · rw [withBoot, Bucket.get_put_of_ne _ (by decide), Bucket.get_put_self, if_neg (not_not.mpr hnext)]
      · rw [withBoot, Bucket.get_put_self]
    · obtain ⟨next, hparsed⟩ := parseIP_nextServer hc hmem hboot hnext
      constructor
      · intro hoff
        obtain ⟨next', hconfigured, hsame, -⟩ := hoff
        rw [configuredNext, if_pos hnext] at hconfigured
        exact Or.inr (hconfigured.trans (congrArg some hsame.symm))
      · intro hsame
        have heq := hsame.resolve_left hnext
        refine ⟨server, ?_, rfl, ?_, rfl, ?_⟩
        · rw [configuredNext, if_pos hnext, heq]
        · rw [withBoot, Bucket.get_put_of_ne _ (by decide), Bucket.get_put_self, if_pos hnext, heq,
            Option.getD_some]
        · rw [withBoot, Bucket.get_put_self]
  · -- A refusal is neither an Offer nor an Ack.
    have hnak : (plainReply ((parseIP s.server).getD 0) .nak).options.get optionMessageType =
        some [MessageType4.nak.code] := by
      rw [plainReply, Bucket.get_put_of_ne _ (by decide), Bucket.get_put_self]
    rw [hnak] at hanswer
    exact absurd hanswer (by decide)

/-- A network whose clients boot from the given server. -/
def bootNet (nextServer : String) : Config where
  scopes :=
    [{ id := "lan", interface := "eth0", subnet := "10.0.0.0/24", server := "10.0.0.1",
       start := "10.0.0.5", endAddr := "10.0.0.6", router := "10.0.0.1", zone := "lan.home",
       leaseSeconds := 3600, enabled := true,
       boot := some { always := true, file := "pxelinux.0", nextServer := nextServer } }]

/-- A Discover of a client that boots from the network. -/
def bootDiscover : Message4 where
  hwAddr := [2, 0, 0, 0, 0, 1]
  messageType := .discover
  classIdentifier := "PXEClient"

/-- What it gets there. -/
def bootOffer (nextServer : String) : Except Drop Reply4 × Ledger :=
  (ghostleases4 (fun c s r => handle4 c s 0 r) (bootNet nextServer) "4/eth0" bootDiscover).on {}

/-- The boot settings of the one scope. -/
def bootOf (nextServer : String) : BootConfig := { always := true, file := "pxelinux.0", nextServer := nextServer }

/-- The client is sent to 10.0.0.9 by option 66 and to 10.0.0.1 by the address field. -/
theorem boot_names_two_servers :
    (bootNet "10.0.0.9").validate = .ok () ∧ wantsBoot bootDiscover (bootOf "10.0.0.9") = true ∧
      ∃ reply L', bootOffer "10.0.0.9" = (.ok reply, L') ∧
        reply.options.get optionMessageType = some [MessageType4.offer.code] ∧
        reply.options.get optionTFTPServerName = some (utf8Bytes "10.0.0.9") ∧
        ¬ HandsOff ((bootNet "10.0.0.9").scopes[0]) (bootOf "10.0.0.9") reply := by
  have hrun : (bootNet "10.0.0.9").validate = .ok () ∧ wantsBoot bootDiscover (bootOf "10.0.0.9") = true ∧
      (bootOffer "10.0.0.9").1.toOption.map (fun reply =>
        (reply.options.get optionMessageType, reply.options.get optionTFTPServerName, reply.serverIP)) =
          some (some [MessageType4.offer.code], some (utf8Bytes "10.0.0.9"), IP.ofV4 0x0a000001) ∧
      parseIP "10.0.0.9" ≠ some (IP.ofV4 0x0a000001) := by
    decide +kernel
  obtain ⟨hvalid, hwants, hreply, hother⟩ := hrun
  refine ⟨hvalid, hwants, ?_⟩
  rcases hoffer : bootOffer "10.0.0.9" with ⟨reply, L'⟩
  rw [hoffer] at hreply
  cases reply with
  | error => cases hreply
  | ok reply =>
    simp only [Except.toOption, Option.map_some, Option.some.injEq, Prod.mk.injEq] at hreply
    obtain ⟨htype, htftp, haddress⟩ := hreply
    refine ⟨reply, L', rfl, htype, htftp, ?_⟩
    rintro ⟨next, hnext, hsame, -⟩
    have hconfigured : parseIP "10.0.0.9" = some next := hnext
    rw [hconfigured, ← hsame, haddress] at hother
    exact hother rfl

/-- Without a next server of its own the scope's server is named everywhere. -/
theorem boot_handoff_bootNet :
    ∃ reply L', bootOffer "" = (.ok reply, L') ∧ HandsOff ((bootNet "").scopes[0]) (bootOf "") reply := by
  have hrun : (bootNet "").validate = .ok () ∧
      (bootNet "").scopes.find? (serves4 "4/eth0" bootDiscover) = some ((bootNet "").scopes[0]) ∧
      (bootOffer "").1.toOption.map (fun reply => reply.options.get optionMessageType) =
        some (some [MessageType4.offer.code]) := by
    decide +kernel
  obtain ⟨hvalid, hscope, hreply⟩ := hrun
  rcases hoffer : bootOffer "" with ⟨reply, L'⟩
  rw [hoffer] at hreply
  cases reply with
  | error => cases hreply
  | ok reply =>
    have htype : reply.options.get optionMessageType = some [MessageType4.offer.code] := Option.some.inj hreply
    exact ⟨reply, L', rfl, (boot_handoff_iff hvalid hscope rfl rfl (Or.inl rfl) hoffer (Or.inl htype)).mpr
      (Or.inl rfl)⟩

end Ghostd.Proofs.Addressbook
