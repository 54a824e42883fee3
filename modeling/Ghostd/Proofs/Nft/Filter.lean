import Ghostd.Nft.Policy
import Ghostd.Proofs.Nft.Reachability
import Mathlib.Data.List.Dedup
import Mathlib.Data.List.Pairwise

/-!
# `Ghostd.Proofs.Nft.Filter`: the rendered chains decide as the policy says

The rendered rules either accept or jump, so a chain's decision does not depend on their order:
a packet is accepted exactly when some rule lets it in (`evalRules_accept_iff`). The rest is a
comparison of sets of rules with lists of reasons. `any_zoneRules_iff` does it for a zone's chain,
`decision_input_iff` for the input chain with its jumps, and `decision_forward_iff` for the forward
chain.

The input chain jumps for every zone that has the packet's interface, and the policy asks the one
zone that owns it. `owner_iff` says that there is no other, because `validate` assigns every
interface once.
-/

set_option autoImplicit false

namespace Ghostd.Proofs.Nft

open Ghostd.Lib Ghostd.Nft List

variable {assigned : List (String × String)} {name : String} {names : List String} {c : Chain} {r : Rule}
    {zone : Zone}

variable {ds : DesiredState} {guard : ReachabilityGuard} {p : Packet}

/-! ### Every interface is in one zone -/

theorem lookup_cons_eq_none {iface other : String} :
    List.lookup iface ((other, name) :: assigned) = none ↔ iface ≠ other ∧ assigned.lookup iface = none := by
  by_cases heq : iface = other
  · simp [heq]
  · simp [lookup_cons, beq_eq_false_iff_ne.mpr heq, heq]

/-- The interfaces of a zone were not assigned before, and they are afterwards. -/
theorem assignInterfaces_fresh {interfaces : List String} {result : List (String × String)}
    (h : assignInterfaces name interfaces assigned = .ok result) :
    (∀ i ∈ interfaces, assigned.lookup i = none) ∧
      ∀ i, result.lookup i = none → i ∉ interfaces ∧ assigned.lookup i = none := by
  induction interfaces generalizing assigned with
  | nil =>
    simp only [assignInterfaces, pure_eq_ok] at h
    rw [← h]
    exact ⟨fun i hi => absurd hi not_mem_nil, fun i hi => ⟨not_mem_nil, hi⟩⟩
  | cons iface rest ih =>
    simp only [assignInterfaces, bind_eq_ok, refuseIf_eq_ok, exists_const] at h
    obtain ⟨-, h⟩ := h
    cases hl : assigned.lookup iface with
    | some =>
      rw [hl] at h
      exact absurd h (by simp)
    | none =>
      rw [hl] at h
      obtain ⟨hfresh, hresult⟩ := ih h
      refine ⟨fun i hi => ?_, fun i hi => ?_⟩
      · rcases mem_cons.mp hi with rfl | hi
        · exact hl
        · exact (lookup_cons_eq_none.mp (hfresh i hi)).2
      · obtain ⟨hrest, hcons⟩ := hresult i hi
        obtain ⟨hne, hassigned⟩ := lookup_cons_eq_none.mp hcons
        exact ⟨fun hmem => (mem_cons.mp hmem).elim hne hrest, hassigned⟩

theorem validateZone_assigns {result : List (String × String)}
    (h : validateZone ds name zone assigned = .ok result) :
    assignInterfaces name zone.interfaces assigned = .ok result := by
  simp only [validateZone, bind_eq_ok, refuseIf_eq_ok, pure_eq_ok, exists_const] at h
  obtain ⟨-, -, -, _, hassign, -, -, -, -, -, -, -, -, -, -, -, -, rfl⟩ := h
  exact hassign

/-- Two zones without a common interface. -/
def Apart (z z' : String × Zone) : Prop := ∀ i ∈ z.2.interfaces, i ∉ z'.2.interfaces

instance : Std.Symm Apart where
  symm _ _ h i hi hi' := h i hi' hi

/-- No interface of a zone is one of a zone behind it. -/
theorem validateZones_apart {zones : List (String × Zone)} {u : Unit}
    (h : validateZones ds zones assigned = .ok u) :
    (∀ z ∈ zones, ∀ i ∈ z.2.interfaces, assigned.lookup i = none) ∧
      zones.Pairwise Apart := by
  induction zones generalizing assigned with
  | nil => exact ⟨fun z hz => absurd hz not_mem_nil, List.Pairwise.nil⟩
  | cons z rest ih =>
    obtain ⟨name, zone⟩ := z
    simp only [validateZones, bind_eq_ok] at h
    obtain ⟨assigned', hzone, hrest⟩ := h
    obtain ⟨hfresh, hresult⟩ := assignInterfaces_fresh (validateZone_assigns hzone)
    obtain ⟨hbehind, hpairwise⟩ := ih hrest
    refine ⟨fun z hz i hi => ?_, List.Pairwise.cons (fun z hz i hi hi' => ?_) hpairwise⟩
    · rcases mem_cons.mp hz with rfl | hz
      · exact hfresh i hi
      · exact (hresult i (hbehind z hz i hi)).2
    · exact (hresult i (hbehind z hz i hi')).1 hi

/-- The owner of an interface is the zone that has it. -/
theorem owner_iff (h : validate ds = .ok ()) {z : String × Zone} (hz : z ∈ ds.zones.entries)
    (iface : String) : ds.owner iface = some z ↔ iface ∈ z.2.interfaces := by
  simp only [validate, bind_eq_ok, refuseIf_eq_ok, exists_const] at h
  obtain ⟨-, -, -, -, -, -, _, hzones, -⟩ := h
  obtain ⟨-, hapart⟩ := validateZones_apart hzones
  constructor
  · intro howner
    simpa using List.find?_some howner
  · intro hmem
    cases howner : ds.owner iface with
    | none =>
      have hnone := List.find?_eq_none.mp howner z hz
      simp [hmem] at hnone
    | some z' =>
      -- Two zones with the interface are one.
      have hmem' : iface ∈ z'.2.interfaces := by simpa using List.find?_some howner
      by_contra hne
      have hdiff : z' ≠ z := fun heq => hne (by rw [heq])
      exact hapart.forall (mem_of_find?_eq_some howner) hz hdiff iface hmem' hmem

theorem owner_mem {iface : String} {z : String × Zone} (h : ds.owner iface = some z) :
    z ∈ ds.zones.entries := mem_of_find?_eq_some h

/-! ### Rules that accept or jump -/

/-- The rule matches and lets the packet in, by itself or through the chain it jumps to. -/
def Lets (jump : String → Option Verdict) (p : Packet) (r : Rule) : Prop :=
  r.holds p = true ∧ (r.action = .accept ∨ ∃ c, r.action = .jump c ∧ jump c = some .accept)

theorem evalRules_ne_drop {jump : String → Option Verdict} (hjump : ∀ c, jump c ≠ some .drop)
    (rules : List Rule) : evalRules jump p rules ≠ some .drop := by
  induction rules with
  | nil => simp [evalRules]
  | cons r rest ih =>
    unfold evalRules
    by_cases hr : r.holds p = true
    · rw [if_pos hr]
      cases r.action with
      | accept => simp
      | jump c =>
        cases hc : jump c with
        | none => simpa [hc] using ih
        | some => simpa [hc] using hjump c
      | redirect => exact ih
      | dnat => exact ih
      | masquerade => exact ih
      | ctHelperSet => exact ih
    · rw [if_neg hr]
      exact ih

/-- Where no chain can drop, the order of the rules does not matter. -/
theorem evalRules_accept_iff {jump : String → Option Verdict} (hjump : ∀ c, jump c ≠ some .drop)
    (rules : List Rule) : evalRules jump p rules = some .accept ↔ ∃ r ∈ rules, Lets jump p r := by
  induction rules with
  | nil => simp [evalRules]
  | cons r rest ih =>
    have hskip : ¬ Lets jump p r → ((∃ r' ∈ r :: rest, Lets jump p r') ↔ ∃ r' ∈ rest, Lets jump p r') := by
      intro hr
      simp [hr]
    unfold evalRules
    by_cases hr : r.holds p = true
    · rw [if_pos hr]
      cases ha : r.action with
      | accept => simp [Lets, hr, ha]
      | jump c =>
        cases hc : jump c with
        | none =>
          rw [hskip (by simp [Lets, ha, hc]), ← ih]
          simp [hc]
        | some v =>
          cases v with
          | accept => simp [Lets, hr, ha, hc]
          | drop => exact absurd hc (hjump c)
      | redirect => rw [hskip (by simp [Lets, ha]), ← ih]
      | dnat => rw [hskip (by simp [Lets, ha]), ← ih]
      | masquerade => rw [hskip (by simp [Lets, ha]), ← ih]
      | ctHelperSet => rw [hskip (by simp [Lets, ha]), ← ih]
    · rw [if_neg hr, hskip fun hlets => hr hlets.1, ← ih]

theorem evalChain_ne_drop (s : Script) (depth : Nat) (name : String) :
    s.evalChain p depth name ≠ some .drop := by
  induction depth generalizing name with
  | zero => simp [Script.evalChain]
  | succ depth ih => exact evalRules_ne_drop ih _

/-- The decision of a base chain that drops what it does not accept. -/
theorem decision_iff {s : Script} {hook : String} (hbase : s.baseChain "filter" hook = some c)
    (hpolicy : c.base.any (·.policy = some "drop") = true) :
    s.decision hook p = .accept ↔ ∃ r ∈ c.rules, Lets (s.evalChain p s.chains.length) p r := by
  have hnever := evalChain_ne_drop (p := p) s s.chains.length
  rw [← evalRules_accept_iff hnever]
  unfold Script.decision
  rw [hbase]
  simp only [hpolicy, if_true]
  cases heval : evalRules (s.evalChain p s.chains.length) p c.rules with
  | none => simp
  | some => simp

/-! ### A zone's chain -/

theorem zone_name_inj {name' : String} (h : "zone_" ++ name = "zone_" ++ name') : name = name' := by
  have hlist := congrArg String.toList h
  rw [String.toList_append, String.toList_append] at hlist
  exact String.toList_inj.mp (append_cancel_left hlist)

/-- The names of the chains that are not a zone's. -/
def fixedNames : List String :=
  ["tftp_helper", "input", "forward", "output", "prerouting", "output_redirect", "postrouting"]

theorem fixedName_ne {other : String} (hother : other ∈ fixedNames) (name : String) :
    other ≠ "zone_" ++ name := by
  have hhead : ∀ n ∈ fixedNames, n.toList.head? ≠ some 'z' := by decide
  intro heq
  refine hhead other hother ?_
  rw [heq, String.toList_append]
  rfl

theorem fixedName_of_tftpHelperChain (hc : c ∈ tftpHelperChain ds names) : c.name ∈ fixedNames := by
  unfold tftpHelperChain at hc
  split at hc
  · simp at hc
  · rw [mem_singleton.mp hc]
    simp [fixedNames]

theorem fixedName_of_outputChain {o : Option OutputPolicy} (hc : c ∈ outputChain o) : c.name ∈ fixedNames := by
  cases o with
  | none => simp [outputChain] at hc
  | some =>
    rw [outputChain, mem_singleton] at hc
    rw [hc]
    simp [fixedNames]

theorem fixedName_of_ingressOutputChain (hc : c ∈ ingressOutputChain ds) : c.name ∈ fixedNames := by
  unfold ingressOutputChain at hc
  cases hg : ds.ingress with
  | none => rw [hg] at hc; simp at hc
  | some =>
    rw [hg] at hc
    simp only at hc
    split at hc
    · simp at hc
    · rw [mem_singleton.mp hc]
      simp [fixedNames]

/-- The chain that a jump to a zone runs. -/
theorem rulesOf_zone (hfull : ds.redirectOnly = false) {z : String × Zone} (hz : z ∈ ds.zones.entries) :
    (script ds guard).rulesOf ("zone_" ++ z.1) = zoneRules z.1 z.2 := by
  have hname : z.1 ∈ sortedZoneNames ds.zones := mem_sortedStrings.mpr (mem_map_of_mem hz)
  unfold Script.rulesOf
  simp only [script, hfull, Bool.false_eq_true, if_false]
  rw [List.find?_append, List.find?_eq_none.mpr ?_, Option.none_or, List.find?_map]
  · cases hfind : (sortedZoneNames ds.zones).find?
        ((fun c => decide (c.name = "zone_" ++ z.1)) ∘ fun name => zoneChain name (ds.zones.get name)) with
    | none =>
      have hnone := List.find?_eq_none.mp hfind z.1 hname
      simp [zoneChain] at hnone
    | some name =>
      have hsome := List.find?_some hfind
      obtain rfl : name = z.1 := zone_name_inj (by simpa [zoneChain] using hsome)
      simp only [Option.map_some, Option.getD_some]
      rw [get_of_mem hz]
      rfl
  · intro c hc
    have hother : c.name ∈ fixedNames := by
      simp only [mem_append, mem_cons, not_mem_nil, or_false] at hc
      rcases hc with ((((hc | rfl | rfl) | hc) | rfl) | hc) | rfl
      · exact fixedName_of_tftpHelperChain hc
      · simp [inputChain, fixedNames]
      · simp [forwardChain, fixedNames]
      · exact fixedName_of_outputChain hc
      · simp [preroutingChain, fixedNames]
      · exact fixedName_of_ingressOutputChain hc
      · simp [postroutingChain, fixedNames]
    simpa using fixedName_ne hother z.1

/-- The rules of a zone that is not the trusted one. -/
theorem mem_zoneRules (hname : name ≠ "trusted") : r ∈ zoneRules name zone ↔
      (∃ ssh, zone.ssh = some ssh ∧ ⟨[.dport "tcp" ssh.port], .accept⟩ = r) ∨
      (∃ rr ∈ zone.redirects, ⟨[.ctStatusDnat, .l4proto rr.proto, .ctOriginalProtoDst rr.port,
        .dport rr.proto rr.toPort], .accept⟩ = r) ∨
      (∃ nfs, zone.nfs = some nfs ∧ ∃ source ∈ nfs.exports,
        ⟨[.saddr "ip" source, .dportSet "tcp" nfsPorts], .accept⟩ = r) ∨
      (∃ svc ∈ zone.services,
        (∃ rr ∈ serviceReplyPorts svc,
          ⟨[.sport rr.proto rr.port, .dportRange rr.proto 1024 65535], .accept⟩ = r) ∨
        ∃ rr ∈ (builtinServices svc).getD [], ⟨[.dport rr.proto rr.port], .accept⟩ = r) ∨
      (∃ rr ∈ zone.ports, ⟨[.dport rr.proto rr.port], .accept⟩ = r) ∨
      (equalFold zone.target "ACCEPT" = true ∧ ⟨[], .accept⟩ = r) := by
  have hssh : r ∈ (zone.ssh.map fun ssh => (⟨[.dport "tcp" ssh.port], .accept⟩ : Rule)).toList ↔
      ∃ ssh, zone.ssh = some ssh ∧ ⟨[.dport "tcp" ssh.port], .accept⟩ = r := by
    cases zone.ssh <;> simp [eq_comm]
  have hnfs : r ∈ (zone.nfs.map fun nfs => (sortedStrings nfs.exports).map fun source =>
        (⟨[.saddr "ip" source, .dportSet "tcp" nfsPorts], .accept⟩ : Rule)).getD [] ↔
      ∃ nfs, zone.nfs = some nfs ∧ ∃ source ∈ nfs.exports,
        ⟨[.saddr "ip" source, .dportSet "tcp" nfsPorts], .accept⟩ = r := by
    cases zone.nfs <;> simp [mem_sortedStrings]
  have htarget : r ∈ (if equalFold zone.target "ACCEPT" then [(⟨[], .accept⟩ : Rule)] else []) ↔
      equalFold zone.target "ACCEPT" = true ∧ ⟨[], .accept⟩ = r := by
    cases equalFold zone.target "ACCEPT" <;> simp [eq_comm]
  unfold zoneRules
  rw [if_neg hname]
  simp only [mem_append, hssh, hnfs, htarget, mem_map, mem_flatMap, mem_sortedStrings,
    or_assoc]

section Holds

variable {action : Action}

theorem holds_dport {proto : String} {port : Int} :
    (⟨[.dport proto port], action⟩ : Rule).holds p = true ↔ p.To proto port := by
  simp [Rule.holds, Match.holds, Packet.To]

theorem holds_redirected {rr : RedirectRule} :
    (⟨[.ctStatusDnat, .l4proto rr.proto, .ctOriginalProtoDst rr.port, .dport rr.proto rr.toPort],
        action⟩ : Rule).holds p = true ↔
      p.dnat = true ∧ p.originalDport = rr.port ∧ p.To rr.proto rr.toPort := by
  simp only [Rule.holds, all_cons, all_nil, Match.holds, Bool.and_eq_true, decide_eq_true_eq,
    Packet.To]
  tauto

theorem holds_export {source : String} :
    (⟨[.saddr "ip" source, .dportSet "tcp" nfsPorts], action⟩ : Rule).holds p = true ↔
      (p.src.is4 = true ∧ covers source p.src = true) ∧ p.l4proto = "tcp" ∧ p.dport ∈ nfsPorts := by
  simp [Rule.holds, Match.holds, familyMatches]

theorem holds_reply {rr : PortRule} :
    (⟨[.sport rr.proto rr.port, .dportRange rr.proto 1024 65535], action⟩ : Rule).holds p = true ↔
      p.l4proto = rr.proto ∧ p.sport = rr.port ∧ 1024 ≤ p.dport ∧ p.dport ≤ 65535 := by
  simp only [Rule.holds, all_cons, all_nil, Match.holds, Bool.and_eq_true, decide_eq_true_eq]
  tauto

end Holds

/-- A zone's chain accepts what the zone opens. -/
theorem any_zoneRules_iff (name : String) (zone : Zone) :
    (∃ r ∈ zoneRules name zone, r.holds p = true) ↔ Opens name zone p := by
  by_cases hname : name = "trusted"
  · -- The trusted zone has one rule, without a condition.
    refine iff_of_true ⟨⟨[], .accept⟩, ?_, rfl⟩ (.trusted hname)
    unfold zoneRules
    rw [if_pos hname]
    exact mem_singleton.mpr rfl
  constructor
  · rintro ⟨r, hr, hholds⟩
    rcases (mem_zoneRules hname).mp hr with ⟨ssh, hssh, rfl⟩ | ⟨rr, hrr, rfl⟩ | ⟨nfs, hnfs, source, hsource, rfl⟩ |
      ⟨svc, hsvc, ⟨rr, hrr, rfl⟩ | ⟨rr, hrr, rfl⟩⟩ | ⟨rr, hrr, rfl⟩ | ⟨htarget, -⟩
    · exact .ssh ssh hssh (holds_dport.mp hholds)
    · obtain ⟨hdnat, horiginal, hto⟩ := holds_redirected.mp hholds
      exact .redirect rr hrr hdnat horiginal hto
    · obtain ⟨⟨hfamily, hcovers⟩, hproto, hport⟩ := holds_export.mp hholds
      exact .nfs nfs hnfs source hsource hfamily hcovers hproto hport
    · obtain ⟨hproto, hfrom, hlow, hhigh⟩ := holds_reply.mp hholds
      exact .reply svc hsvc rr hrr hproto hfrom hlow hhigh
    · cases hports : builtinServices svc with
      | none =>
        rw [hports] at hrr
        exact absurd hrr not_mem_nil
      | some ports =>
        rw [hports] at hrr
        exact .service svc hsvc ports hports rr hrr (holds_dport.mp hholds)
    · exact .port rr hrr (holds_dport.mp hholds)
    · exact .target htarget
  · intro hopens
    have hmem : ∀ r, _ → r ∈ zoneRules name zone := fun r => (mem_zoneRules hname).mpr
    cases hopens with
    | trusted htrusted => exact absurd htrusted hname
    | ssh rule hssh hto => exact ⟨_, hmem _ (.inl ⟨rule, hssh, rfl⟩), holds_dport.mpr hto⟩
    | redirect rule hrule hdnat horiginal hto =>
      exact ⟨_, hmem _ (.inr (.inl ⟨rule, hrule, rfl⟩)), holds_redirected.mpr ⟨hdnat, horiginal, hto⟩⟩
    | nfs rule hnfs source hsource hfamily hcovers hproto hport =>
      exact ⟨_, hmem _ (.inr (.inr (.inl ⟨rule, hnfs, source, hsource, rfl⟩))),
        holds_export.mpr ⟨⟨hfamily, hcovers⟩, hproto, hport⟩⟩
    | reply svc hsvc rule hrule hproto hfrom hlow hhigh =>
      exact ⟨_, hmem _ (.inr (.inr (.inr (.inl ⟨svc, hsvc, .inl ⟨rule, hrule, rfl⟩⟩)))),
        holds_reply.mpr ⟨hproto, hfrom, hlow, hhigh⟩⟩
    | service svc hsvc ports hports rule hrule hto =>
      refine ⟨_, hmem _ (.inr (.inr (.inr (.inl ⟨svc, hsvc, .inr ⟨rule, ?_, rfl⟩⟩)))), holds_dport.mpr hto⟩
      rw [hports]
      exact hrule
    | port rule hrule hto =>
      exact ⟨_, hmem _ (.inr (.inr (.inr (.inr (.inl ⟨rule, hrule, rfl⟩))))), holds_dport.mpr hto⟩
    | target htarget => exact ⟨_, hmem _ (.inr (.inr (.inr (.inr (.inr ⟨htarget, rfl⟩))))), rfl⟩

theorem action_of_mem_zoneRules (hr : r ∈ zoneRules name zone) : r.action = .accept := by
  by_cases hname : name = "trusted"
  · unfold zoneRules at hr
    rw [if_pos hname] at hr
    rw [mem_singleton.mp hr]
  · rcases (mem_zoneRules hname).mp hr with ⟨_, _, rfl⟩ | ⟨_, _, rfl⟩ | ⟨_, _, _, _, rfl⟩ |
      ⟨_, _, ⟨_, _, rfl⟩ | ⟨_, _, rfl⟩⟩ | ⟨_, _, rfl⟩ | ⟨_, rfl⟩ <;> rfl

/-- A jump to a zone's chain accepts what the zone opens. -/
theorem evalChain_zone_iff (hfull : ds.redirectOnly = false) {z : String × Zone} (hz : z ∈ ds.zones.entries) :
    (script ds guard).evalChain p (script ds guard).chains.length ("zone_" ++ z.1) = some .accept ↔
      Opens z.1 z.2 p := by
  obtain ⟨depth, hdepth⟩ : ∃ depth, (script ds guard).chains.length = depth + 1 := by
    refine ⟨(script ds guard).chains.length - 1, ?_⟩
    have hpos : (script ds guard).chains ≠ [] := by simp [script, hfull]
    have := length_pos_iff.mpr hpos
    omega
  rw [hdepth]
  unfold Script.evalChain
  rw [rulesOf_zone hfull hz, evalRules_of_accepts fun r hr => action_of_mem_zoneRules hr,
    ← any_zoneRules_iff, ← any_eq_true]
  cases (zoneRules z.1 z.2).any (Rule.holds p) <;> simp

/-! ### The input chain -/

theorem any_ifnameMatches {interfaces : List String} (hvalid : ∀ i ∈ interfaces, validInterface i = true)
    (iface : String) : (sortedStrings interfaces).any (ifnameMatches · iface) = true ↔ iface ∈ interfaces := by
  rw [any_eq_true]
  constructor
  · rintro ⟨i, hi, hmatch⟩
    have hmem := mem_sortedStrings.mp hi
    rw [ifnameMatches_valid (hvalid i hmem), decide_eq_true_eq] at hmatch
    rw [← hmatch]
    exact hmem
  · intro hmem
    refine ⟨iface, mem_sortedStrings.mpr hmem, ?_⟩
    rw [ifnameMatches_valid (hvalid iface hmem), decide_eq_true_eq]

theorem mem_backendPorts {g : Ingress} {port : Int} :
    port ∈ backendPorts g ↔ ∃ rr ∈ g.redirects, rr.toPort = port := by
  unfold backendPorts
  rw [(perm_insertionSort _ _).mem_iff, mem_dedup, mem_map]
  simp only [mem_sortedIngressRedirects]

theorem lets_accept {jump : String → Option Verdict} {conditions : List Match} :
    Lets jump p ⟨conditions, .accept⟩ ↔ (⟨conditions, .accept⟩ : Rule).holds p = true := by
  simp [Lets]

theorem lets_jump {jump : String → Option Verdict} {conditions : List Match} {chain : String} :
    Lets jump p ⟨conditions, .jump chain⟩ ↔
      (⟨conditions, .jump chain⟩ : Rule).holds p = true ∧ jump chain = some .accept := by
  simp [Lets]

/-- The rules of the input chain. -/
theorem mem_inputRules : r ∈ (inputChain ds guard names).rules ↔
      r ∈ inputPreamble ∨ r ∈ guardRule guard ∨
      (∃ name ∈ names, ⟨[.iifnameSet (sortedStrings (ds.zones.get name).interfaces)],
        .jump ("zone_" ++ name)⟩ = r) ∨
      (∃ g, ds.ingress = some g ∧ g.redirects ≠ [] ∧
        ⟨[.iifnameSet (sortedStrings g.interfaces), .dportSet "tcp" (backendPorts g)], .accept⟩ = r) := by
  unfold inputChain
  simp only [mem_append, mem_map, or_assoc]
  cases ds.ingress with
  | none => simp
  | some g =>
    by_cases hnil : g.redirects = []
    · simp [hnil]
    · simp [hnil, eq_comm]

/-- The first rules of the input chain, in the words of the policy. -/
theorem any_inputPreamble_iff {jump : String → Option Verdict} :
    (∃ r ∈ inputPreamble, Lets jump p r) ↔
      p.established = true ∨ p.iif = "lo" ∨ (p.OnPodman ∧ p.To "udp" 53) ∨ (p.OnPodman ∧ p.To "tcp" 53) ∨
      (p.OnPodman ∧ p.To "udp" 5353) ∨
      (p.l4proto = "ipv6-icmp" ∧ p.icmpType ∈ ["destination-unreachable", "packet-too-big",
        "time-exceeded", "parameter-problem"]) ∨
      (p.l4proto = "ipv6-icmp" ∧ p.icmpType ∈ ["nd-router-solicit", "nd-router-advert",
        "nd-neighbor-solicit", "nd-neighbor-advert"] ∧ p.hoplimit = 255) := by
  have hlo : ifnameMatches "lo" p.iif = true ↔ p.iif = "lo" := by
    rw [ifnameMatches_valid (by decide), decide_eq_true_eq, eq_comm]
  have hpodman : ifnameMatches "podman*" p.iif = true ↔ p.OnPodman := by
    have hstar : ifnameMatches "podman*" p.iif = "podman".toList.isPrefixOf p.iif.toList := rfl
    rw [hstar, isPrefixOf_iff_prefix]
    rfl
  unfold inputPreamble
  simp only [exists_mem_cons_iff, lets_accept, Rule.holds, all_cons, all_nil, Match.holds,
    Bool.and_eq_true, decide_eq_true_eq, hlo, hpodman, and_true, Packet.To]
  simp only [not_mem_nil, false_and, exists_false, or_false]

theorem any_guardRule_iff (hiface : validInterface guard.tailscaleInterface = true)
    (hport : validPort guard.port = true) {jump : String → Option Verdict} :
    (∃ r ∈ guardRule guard, Lets jump p r) ↔ p.iif = guard.tailscaleInterface ∧ p.To "tcp" guard.port := by
  rw [guardRule_eq hiface hport]
  simp only [mem_singleton, exists_eq_left, lets_accept, Rule.holds, all_cons, all_nil,
    Match.holds, ifnameMatches_valid hiface, Bool.and_eq_true, decide_eq_true_eq, and_true, Packet.To]
  exact and_congr_left fun _ => eq_comm

/-- The rule of the ingress. -/
theorem lets_ingress (hacc : Accepted ds) {g : Ingress} (hg : ds.ingress = some g)
    {jump : String → Option Verdict} :
    Lets jump p ⟨[.iifnameSet (sortedStrings g.interfaces), .dportSet "tcp" (backendPorts g)], .accept⟩ ↔
      p.iif ∈ g.interfaces ∧ ∃ rr ∈ g.redirects, p.To "tcp" rr.toPort := by
  rw [lets_accept]
  simp only [Rule.holds, all_cons, all_nil, Match.holds, Bool.and_eq_true, decide_eq_true_eq,
    and_true, any_ifnameMatches (hacc.ingressInterfaces g hg), mem_backendPorts, Packet.To]
  constructor
  · rintro ⟨hiface, hproto, rr, hrr, hport⟩
    exact ⟨hiface, rr, hrr, hproto, hport.symm⟩
  · rintro ⟨hiface, rr, hrr, hproto, hport⟩
    exact ⟨hiface, hproto, rr, hrr, hport.symm⟩

/-- The jump for a zone. -/
theorem lets_zone (hvalid : validate ds = .ok ()) (hfull : ds.redirectOnly = false) {z : String × Zone}
    (hz : z ∈ ds.zones.entries) :
    Lets ((script ds guard).evalChain p (script ds guard).chains.length) p
        ⟨[.iifnameSet (sortedStrings (ds.zones.get z.1).interfaces)], .jump ("zone_" ++ z.1)⟩ ↔
      ds.owner p.iif = some z ∧ Opens z.1 z.2 p := by
  have hacc := Accepted.of_validate hvalid
  rw [lets_jump, evalChain_zone_iff hfull hz, owner_iff hvalid hz, get_of_mem hz]
  simp only [Rule.holds, all_cons, all_nil, Match.holds, Bool.and_true,
    any_ifnameMatches (hacc.zoneInterfaces z hz)]

/-- The input chain accepts what the policy admits. -/
theorem decision_input_iff (hiface : validInterface guard.tailscaleInterface = true)
    (hport : validPort guard.port = true) (hvalid : validate ds = .ok ()) (hfull : ds.redirectOnly = false) :
    (script ds guard).decision "input" p = .accept ↔ Admits ds guard p := by
  have hacc := Accepted.of_validate hvalid
  rw [decision_iff (baseChain_input hfull) rfl]
  constructor
  · rintro ⟨r, hr, hlets⟩
    rcases mem_inputRules.mp hr with hr | hr | ⟨name, hname, rfl⟩ | ⟨g, hg, -, rfl⟩
    · rcases any_inputPreamble_iff.mp ⟨r, hr, hlets⟩ with h | h | ⟨h, hto⟩ | ⟨h, hto⟩ | ⟨h, hto⟩ |
        ⟨h, htype⟩ | ⟨h, htype, hlimit⟩
      · exact .established h
      · exact .loopback h
      · exact .podmanDNS h (.inl hto)
      · exact .podmanDNS h (.inr hto)
      · exact .podmanMDNS h hto
      · exact .icmpError h htype
      · exact .discovery h htype hlimit
    · obtain ⟨hif, hto⟩ := (any_guardRule_iff hiface hport).mp ⟨r, hr, hlets⟩
      exact .guard hif hto
    · obtain ⟨z, hz, rfl⟩ := mem_map.mp (mem_sortedStrings.mp hname)
      obtain ⟨howner, hopens⟩ := (lets_zone hvalid hfull hz).mp hlets
      exact .zone z.1 z.2 howner hopens
    · obtain ⟨hif, rr, hrr, hto⟩ := (lets_ingress hacc hg).mp hlets
      exact .ingress g hg hif rr hrr hto
  · intro hadmits
    have hpreamble : _ → ∃ r ∈ (inputChain ds guard (sortedZoneNames ds.zones)).rules,
        Lets ((script ds guard).evalChain p (script ds guard).chains.length) p r := fun h =>
      (any_inputPreamble_iff.mpr h).imp fun r hr => ⟨mem_inputRules.mpr (.inl hr.1), hr.2⟩
    cases hadmits with
    | established h => exact hpreamble (.inl h)
    | loopback h => exact hpreamble (.inr (.inl h))
    | podmanDNS h hto =>
      rcases hto with hto | hto
      · exact hpreamble (.inr (.inr (.inl ⟨h, hto⟩)))
      · exact hpreamble (.inr (.inr (.inr (.inl ⟨h, hto⟩))))
    | podmanMDNS h hto => exact hpreamble (.inr (.inr (.inr (.inr (.inl ⟨h, hto⟩)))))
    | icmpError h htype => exact hpreamble (.inr (.inr (.inr (.inr (.inr (.inl ⟨h, htype⟩))))))
    | discovery h htype hlimit =>
      exact hpreamble (.inr (.inr (.inr (.inr (.inr (.inr ⟨h, htype, hlimit⟩))))))
    | guard hif hto =>
      obtain ⟨r, hr, hlets⟩ := (any_guardRule_iff hiface hport).mpr ⟨hif, hto⟩
      exact ⟨r, mem_inputRules.mpr (.inr (.inl hr)), hlets⟩
    | zone name zone howner hopens =>
      have hz := owner_mem howner
      refine ⟨_, mem_inputRules.mpr (.inr (.inr (.inl ⟨name, ?_, rfl⟩))),
        (lets_zone hvalid hfull hz).mpr ⟨howner, hopens⟩⟩
      exact mem_sortedStrings.mpr (mem_map_of_mem hz)
    | ingress g hg hif rr hrr hto =>
      exact ⟨_, mem_inputRules.mpr (.inr (.inr (.inr ⟨g, hg, ne_nil_of_mem hrr, rfl⟩))),
        (lets_ingress hacc hg).mpr ⟨hif, rr, hrr, hto⟩⟩

/-! ### The forward chain -/

theorem baseChain_forward (hfull : ds.redirectOnly = false) :
    (script ds guard).baseChain "filter" "forward" = some (forwardChain ds (sortedZoneNames ds.zones)) := by
  simp only [script, hfull, Bool.false_eq_true, if_false, append_assoc]
  rw [baseChain_append]
  · rfl
  · intro c hc
    rw [mem_tftpHelperChain hc]
    rfl

/-- The rules of the forward chain. -/
theorem mem_forwardRules : r ∈ (forwardChain ds names).rules ↔
      ⟨[.ctStateEstablishedRelated], .accept⟩ = r ∨
      (ds.allowDNATForward = true ∧ ⟨[.ctStatusDnat], .accept⟩ = r) ∨
      (∃ name ∈ names, ∃ egress ∈ (ds.zones.get name).forward,
        ⟨[.iifnameSet (sortedStrings (ds.zones.get name).interfaces),
          .oifnameSet (sortedStrings (ds.zones.get egress).interfaces)], .accept⟩ = r) := by
  unfold forwardChain
  simp only [mem_append, mem_flatMap, mem_map, mem_sortedStrings, or_assoc]
  cases ds.allowDNATForward <;> simp [eq_comm]

/-- The interfaces of a zone that was looked up by name; one that is missing has none. -/
theorem valid_of_get (hacc : Accepted ds) (name : String) :
    ∀ i ∈ (ds.zones.get name).interfaces, validInterface i = true := by
  intro i hi
  unfold ZoneMap.get at hi
  cases hl : ds.zones.entries.lookup name with
  | none =>
    rw [hl] at hi
    exact absurd hi not_mem_nil
  | some zone =>
    rw [hl] at hi
    obtain ⟨before, after, hentries, -⟩ := lookup_eq_some_iff.mp hl
    refine hacc.zoneInterfaces (name, zone) ?_ i hi
    rw [hentries]
    exact mem_append_right _ mem_cons_self

/-- The rule from a zone to another. -/
theorem lets_forward (hvalid : validate ds = .ok ()) {z : String × Zone} (hz : z ∈ ds.zones.entries)
    (egress : String) {jump : String → Option Verdict} :
    Lets jump p ⟨[.iifnameSet (sortedStrings (ds.zones.get z.1).interfaces),
        .oifnameSet (sortedStrings (ds.zones.get egress).interfaces)], .accept⟩ ↔
      ds.owner p.iif = some z ∧ p.oif ∈ (ds.zones.get egress).interfaces := by
  have hacc := Accepted.of_validate hvalid
  rw [lets_accept, owner_iff hvalid hz, get_of_mem hz]
  simp only [Rule.holds, all_cons, all_nil, Match.holds, Bool.and_true, Bool.and_eq_true,
    any_ifnameMatches (hacc.zoneInterfaces z hz), any_ifnameMatches (valid_of_get hacc egress)]

/-- The forward chain accepts what the policy forwards. -/
theorem decision_forward_iff (hvalid : validate ds = .ok ()) (hfull : ds.redirectOnly = false) :
    (script ds guard).decision "forward" p = .accept ↔ Forwards ds p := by
  rw [decision_iff (baseChain_forward hfull) rfl]
  constructor
  · rintro ⟨r, hr, hlets⟩
    rcases mem_forwardRules.mp hr with rfl | ⟨hallow, rfl⟩ | ⟨name, hname, egress, hegress, rfl⟩
    · refine .established ?_
      simpa [Rule.holds, Match.holds] using lets_accept.mp hlets
    · refine .dnat hallow ?_
      simpa [Rule.holds, Match.holds] using lets_accept.mp hlets
    · obtain ⟨z, hz, rfl⟩ := mem_map.mp (mem_sortedStrings.mp hname)
      obtain ⟨howner, hout⟩ := (lets_forward hvalid hz egress).mp hlets
      rw [get_of_mem hz] at hegress
      exact .zones z.1 z.2 howner egress hegress hout
  · intro hforwards
    cases hforwards with
    | established hstate =>
      refine ⟨_, mem_forwardRules.mpr (.inl rfl), lets_accept.mpr ?_⟩
      simpa [Rule.holds, Match.holds] using hstate
    | dnat hallow hdnat =>
      refine ⟨_, mem_forwardRules.mpr (.inr (.inl ⟨hallow, rfl⟩)), lets_accept.mpr ?_⟩
      simpa [Rule.holds, Match.holds] using hdnat
    | zones name zone howner egress hegress hout =>
      have hz := owner_mem howner
      refine ⟨_, mem_forwardRules.mpr (.inr (.inr ⟨name, ?_, egress, ?_, rfl⟩)),
        (lets_forward hvalid hz egress).mpr ⟨howner, hout⟩⟩
      · exact mem_sortedStrings.mpr (mem_map_of_mem hz)
      · rw [get_of_mem hz]
        exact hegress

/-! ### The policy -/

/-- What the policy admits depends on the zone that owns the input interface, and on no other. -/
theorem Admits.congr {ds' : DesiredState} (hingress : ds'.ingress = ds.ingress)
    (howner : ds'.owner p.iif = ds.owner p.iif) : Admits ds guard p → Admits ds' guard p := by
  intro h
  cases h with
  | established h => exact .established h
  | loopback h => exact .loopback h
  | podmanDNS h hto => exact .podmanDNS h hto
  | podmanMDNS h hto => exact .podmanMDNS h hto
  | icmpError h htype => exact .icmpError h htype
  | discovery h htype hlimit => exact .discovery h htype hlimit
  | guard hif hto => exact .guard hif hto
  | ingress g hg hif rr hrr hto => exact .ingress g (hingress.trans hg) hif rr hrr hto
  | zone name zone hown hopens => exact .zone name zone (howner.trans hown) hopens

/-- What the policy forwards depends on the owner of the input interface and on the interfaces of
the zones in its forward list. -/
theorem Forwards.congr {ds' : DesiredState} (hallow : ds'.allowDNATForward = ds.allowDNATForward)
    (howner : ds'.owner p.iif = ds.owner p.iif)
    (hegress : ∀ z, ds.owner p.iif = some z → ∀ egress ∈ z.2.forward,
      (p.oif ∈ (ds'.zones.get egress).interfaces ↔ p.oif ∈ (ds.zones.get egress).interfaces)) :
    Forwards ds p → Forwards ds' p := by
  intro h
  cases h with
  | established h => exact .established h
  | dnat h hdnat => exact .dnat (hallow.trans h) hdnat
  | zones name zone hown egress hmem hout =>
    exact .zones name zone (howner.trans hown) egress hmem ((hegress (name, zone) hown egress hmem).mpr hout)

theorem verdict_eq {v v' : Verdict} (h : v = .accept ↔ v' = .accept) : v = v' := by
  cases v <;> cases v' <;> simp_all

theorem render_valid {s : Script} (h : render ds guard = .ok s) : validate ds = .ok () := by
  simp only [render, bind_eq_ok] at h
  obtain ⟨-, -, _, hvalid, -⟩ := h
  exact hvalid

/-- Rendering preserves the policy. For every accepted policy that is not redirect-only and every
packet: at most one zone owns the packet's input interface; the input chain accepts the packet
exactly when the policy admits it, and the forward chain exactly when the policy forwards it.
Another accepted policy that agrees on the owner decides the same, whatever its other zones
declare. For the input chain it has the same ingress. For the forward chain it has the same
`allow_dnat_forward`, and the zones in the owner's forward list have the output interface or not as
before. -/
theorem render_preserves_policy (ds : DesiredState) (guard : ReachabilityGuard) (s : Script)
    (h : render ds guard = .ok s) (hfull : ds.redirectOnly = false) (p : Packet) :
    (∀ z ∈ ds.zones.entries, p.iif ∈ z.2.interfaces ↔ ds.owner p.iif = some z) ∧
    (s.decision "input" p = .accept ↔ Admits ds guard p) ∧
    (s.decision "forward" p = .accept ↔ Forwards ds p) ∧
    (∀ ds' s', render ds' guard = .ok s' → ds'.redirectOnly = false → ds'.owner p.iif = ds.owner p.iif →
      (ds'.ingress = ds.ingress → s'.decision "input" p = s.decision "input" p) ∧
      (ds'.allowDNATForward = ds.allowDNATForward →
        (∀ z, ds.owner p.iif = some z → ∀ egress ∈ z.2.forward,
          (p.oif ∈ (ds'.zones.get egress).interfaces ↔ p.oif ∈ (ds.zones.get egress).interfaces)) →
        s'.decision "forward" p = s.decision "forward" p)) := by
  have hvalid := render_valid h
  obtain ⟨hiface, hport, -, rfl⟩ := render_ok h
  refine ⟨fun z hz => (owner_iff hvalid hz p.iif).symm, decision_input_iff hiface hport hvalid hfull,
    decision_forward_iff hvalid hfull, ?_⟩
  intro ds' s' h' hfull' howner
  have hvalid' := render_valid h'
  obtain ⟨-, -, -, rfl⟩ := render_ok h'
  refine ⟨fun hingress => verdict_eq ?_, fun hallow hegress => verdict_eq ?_⟩
  · rw [decision_input_iff hiface hport hvalid' hfull', decision_input_iff hiface hport hvalid hfull]
    exact ⟨Admits.congr hingress.symm howner.symm, Admits.congr hingress howner⟩
  · rw [decision_forward_iff hvalid' hfull', decision_forward_iff hvalid hfull]
    refine ⟨Forwards.congr hallow.symm howner.symm fun z hz egress hmem => ?_,
      Forwards.congr hallow howner hegress⟩
    exact (hegress z (howner.symm.trans hz) egress hmem).symm

/-- A network behind the host, with a web server on it, that may use the uplink. -/
def lanPolicy : DesiredState where
  zones :=
    { entries :=
        [("lan", { interfaces := ["eth0"], ssh := some ⟨22⟩, ports := [⟨80, "tcp"⟩], forward := ["wan"] }),
          ("wan", { interfaces := ["eth1"] })]
      nodup := by decide }

/-- The first packet of a connection from the network to a port, on its way to the host or through
it. -/
def lanPacket (port : Int) : Packet where
  iif := "eth0"
  oif := "eth1"
  src := Addr.ofValue .v4 0xC0A80102
  dst := Addr.ofValue .v4 0xC0A80101
  dstLocal := true
  l4proto := "tcp"
  sport := 50000
  dport := port
  established := false
  dnat := false
  originalDport := port
  icmpType := ""
  hoplimit := 64

/-- The port that the zone lists is open, and the packet may leave through the uplink. -/
theorem render_preserves_lanPolicy :
    (script lanPolicy tailnetGuard).decision "input" (lanPacket 80) = .accept ∧
      (script lanPolicy tailnetGuard).decision "forward" (lanPacket 80) = .accept := by
  obtain ⟨-, hinput, hforward, -⟩ :=
    render_preserves_policy lanPolicy tailnetGuard (script lanPolicy tailnetGuard) rfl rfl (lanPacket 80)
  refine ⟨hinput.mpr (.zone "lan" _ rfl (.port ⟨80, "tcp"⟩ ?_ ⟨rfl, rfl⟩)),
    hforward.mpr (.zones "lan" _ rfl "wan" ?_ ?_)⟩
  · exact mem_singleton.mpr rfl
  · exact mem_singleton.mpr rfl
  · exact mem_singleton.mpr rfl

end Ghostd.Proofs.Nft
