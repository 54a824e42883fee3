import Ghostd.Nft.Semantics

/-!
# `Ghostd.Proofs.Nft.Reachability`: when the daemon's own listener stays reachable

The reachability guard is one rule of the input chain. It is always rendered, no rule before
it can drop, and so the input chain always lets a connection to the guard's port in
(`decision_input`). Two other hooks can still cut the listener off, and nothing in `validate`
looks at them.

* A zone redirect or an ingress redirect of the guard's port on the guard's interface moves
  the connection to another port before the input chain sees it.
* An output policy that drops, without the established rule, loses the replies.

`reaches_iff` says that these are the only ways: for every accepted policy and every
connection, the listener is reached exactly when no redirect takes its port and the output
policy admits the reply.
-/

set_option autoImplicit false

namespace Ghostd.Proofs.Nft

open Ghostd.Lib Ghostd.Nft List

variable {ds : DesiredState} {guard : ReachabilityGuard}

/-! ### What an accepted policy satisfies -/

/-- The facts of an accepted policy that the rules' meaning depends on. -/
structure Accepted (ds : DesiredState) : Prop where
  zoneInterfaces : ∀ z ∈ ds.zones.entries, ∀ i ∈ z.2.interfaces, validInterface i = true
  zoneRedirects : ∀ z ∈ ds.zones.entries, ∀ r ∈ z.2.redirects, r.port ≠ r.toPort
  ingressInterfaces : ∀ g, ds.ingress = some g → ∀ i ∈ g.interfaces, validInterface i = true
  ingressRedirects : ∀ g, ds.ingress = some g → ∀ r ∈ g.redirects, r.port ≠ r.toPort
  outputPolicy : ∀ o, ds.output = some o → o.policy = "DROP" ∨ o.policy = "ACCEPT"
  outputRules : ∀ o, ds.output = some o → ∀ r ∈ o.rules,
    (r.family = "" ∨ r.family = "ip" ∨ r.family = "ip6") ∧
      (r.interface = "" ∨ validInterface r.interface = true)
  redirectOnly : ds.redirectOnly = true → ds.ingress = none ∧ ds.output = none

theorem validateIngressRedirects_ok {seen : List Int} {rules : List RedirectRule} {u : Unit}
    (h : validateIngressRedirects seen rules = .ok u) : ∀ r ∈ rules, r.port ≠ r.toPort := by
  induction rules generalizing seen with
  | nil => simp
  | cons rule rest ih =>
    simp only [validateIngressRedirects, bind_eq_ok, refuseIf_eq_ok, exists_const] at h
    intro r hr
    rcases mem_cons.mp hr with rfl | hr
    · intro heq
      simp [heq] at h
    · exact ih h.2 r hr

theorem validateRedirects_ok {seen : List (String × Int)} {rules : List RedirectRule} {u : Unit}
    (h : validateRedirects seen rules = .ok u) : ∀ r ∈ rules, r.port ≠ r.toPort := by
  induction rules generalizing seen with
  | nil => simp
  | cons rule rest ih =>
    simp only [validateRedirects, bind_eq_ok, refuseIf_eq_ok, exists_const] at h
    intro r hr
    rcases mem_cons.mp hr with rfl | hr
    · intro heq
      simp [heq] at h
    · exact ih h.2 r hr

theorem assignInterfaces_ok {name : String} {interfaces : List String}
    {assigned result : List (String × String)}
    (h : assignInterfaces name interfaces assigned = .ok result) :
    ∀ i ∈ interfaces, validInterface i = true := by
  induction interfaces generalizing assigned with
  | nil => simp
  | cons iface rest ih =>
    simp only [assignInterfaces, bind_eq_ok, refuseIf_eq_ok, exists_const] at h
    obtain ⟨hvalid, hrest⟩ := h
    intro i hi
    cases hl : assigned.lookup iface with
    | some =>
      rw [hl] at hrest
      exact absurd hrest (by simp)
    | none =>
      rw [hl] at hrest
      rcases mem_cons.mp hi with rfl | hi
      · simpa using hvalid
      · exact ih hrest i hi

theorem validateZones_ok {zones : List (String × Zone)} {assigned : List (String × String)}
    {u : Unit} (h : validateZones ds zones assigned = .ok u) :
    ∀ z ∈ zones, (∀ i ∈ z.2.interfaces, validInterface i = true) ∧
      ∀ r ∈ z.2.redirects, r.port ≠ r.toPort := by
  induction zones generalizing assigned with
  | nil => simp
  | cons z rest ih =>
    obtain ⟨name, zone⟩ := z
    simp only [validateZones, bind_eq_ok] at h
    obtain ⟨assigned', hzone, hrest⟩ := h
    intro z hz
    rcases mem_cons.mp hz with rfl | hz
    · simp only [validateZone, bind_eq_ok] at hzone
      obtain ⟨-, -, -, -, -, -, _, hassign, -, -, -, -, _, hredirects, -⟩ := hzone
      exact ⟨assignInterfaces_ok hassign, validateRedirects_ok hredirects⟩
    · exact ih hrest z hz

theorem validateOutputRule_ok {rule : OutputRule} (h : validateOutputRule rule = .ok ()) :
    (rule.family = "" ∨ rule.family = "ip" ∨ rule.family = "ip6") ∧
      (rule.interface = "" ∨ validInterface rule.interface = true) := by
  simp only [validateOutputRule, bind_eq_ok, refuseIf_eq_ok, exists_const] at h
  obtain ⟨-, hfamily, hiface, -⟩ := h
  constructor
  · by_cases h1 : rule.family = ""
    · exact Or.inl h1
    · by_cases h2 : rule.family = "ip"
      · exact Or.inr (Or.inl h2)
      · refine Or.inr (Or.inr ?_)
        simpa [h1, h2] using hfamily
  · by_cases h1 : rule.interface = ""
    · exact Or.inl h1
    · exact Or.inr (by simpa [h1] using hiface)

theorem Accepted.of_validate (h : validate ds = .ok ()) : Accepted ds := by
  simp only [validate, bind_eq_ok, refuseIf_eq_ok, exists_const] at h
  obtain ⟨honly, _, houtput, _, _, hingress, _, hzones, _⟩ := h
  have hz := validateZones_ok hzones
  refine ⟨fun z hm => (hz z hm).1, fun z hm => (hz z hm).2, ?_, ?_, ?_, ?_, ?_⟩
  · intro g hg i hi
    rw [hg] at hingress
    simp only [validateIngress, bind_eq_ok, refuseIf_eq_ok, forM_eq_forM, forM_eq_ok,
      exists_const] at hingress
    simpa using hingress.2.1 i hi
  · intro g hg
    rw [hg] at hingress
    simp only [validateIngress, bind_eq_ok, refuseIf_eq_ok, exists_const] at hingress
    obtain ⟨-, _, -, hredirects⟩ := hingress
    exact validateIngressRedirects_ok hredirects
  · intro o ho
    rw [ho] at houtput
    simp only [validateOutput, bind_eq_ok, refuseIf_eq_ok, exists_const] at houtput
    by_cases hdrop : o.policy = "DROP"
    · exact Or.inl hdrop
    · exact Or.inr (by simpa [hdrop] using houtput.1)
  · intro o ho r hr
    rw [ho] at houtput
    simp only [validateOutput, bind_eq_ok, refuseIf_eq_ok, forM_eq_forM, forM_eq_ok,
      exists_const] at houtput
    exact validateOutputRule_ok (houtput.2 r hr)
  · intro hred
    rw [hred] at honly
    simp only [Bool.true_and, Bool.or_eq_false_iff] at honly
    exact ⟨by simpa using honly.1.2, by simpa using honly.1.1⟩

/-! ### Interface names -/

/-- A valid interface name has no star, so a rule with it matches that interface only. -/
theorem ifnameMatches_valid {pattern : String} (h : validInterface pattern = true)
    (name : String) : ifnameMatches pattern name = decide (pattern = name) := by
  have hstar : pattern.toList.getLast? ≠ some '*' := by
    intro hlast
    have hmem : '*' ∈ pattern.toList := mem_of_getLast? hlast
    simp only [validInterface, Bool.and_eq_true, all_eq_true] at h
    exact absurd (h.1.1.1.1 '*' hmem) (by decide)
  unfold ifnameMatches
  rw [if_neg hstar]

/-! ### Zones by name -/

theorem lookup_of_mem {α : Type} {entries : List (String × α)}
    (hnodup : (entries.map Prod.fst).Nodup) {name : String} {a : α} (hz : (name, a) ∈ entries) :
    entries.lookup name = some a := by
  induction entries with
  | nil => simp at hz
  | cons e rest ih =>
    obtain ⟨key, b⟩ := e
    simp only [map_cons, nodup_cons] at hnodup
    rcases mem_cons.mp hz with heq | hz
    · cases heq
      simp
    · have hne : name ≠ key := by
        intro heq
        exact hnodup.1 (heq ▸ mem_map_of_mem hz)
      rw [lookup_cons, beq_eq_false_iff_ne.mpr hne]
      exact ih hnodup.2 hz

theorem get_of_mem {z : String × Zone} (hz : z ∈ ds.zones.entries) : ds.zones.get z.1 = z.2 := by
  unfold ZoneMap.get
  rw [lookup_of_mem ds.zones.nodup hz]
  rfl

theorem mem_sortedStrings {items : List String} {x : String} : x ∈ sortedStrings items ↔ x ∈ items :=
  (perm_insertionSort _ items).mem_iff

theorem mem_sortedIngressRedirects {g : Ingress} {r : RedirectRule} :
    r ∈ sortedIngressRedirects g ↔ r ∈ g.redirects :=
  (perm_insertionSort _ g.redirects).mem_iff

/-! ### Prerouting -/

/-- A rule of the prerouting chain: a redirect of a zone on one of its interfaces, or an
ingress redirect on one of the ingress interfaces. -/
theorem mem_preroutingRules {r : Rule} :
    r ∈ (preroutingChain ds).rules ↔
      (∃ z ∈ ds.zones.entries, ∃ i ∈ z.2.interfaces, ∃ rr ∈ z.2.redirects,
        r = ⟨[.iifname i, .fibDaddrLocal, .dport rr.proto rr.port], .redirect rr.toPort⟩) ∨
      (∃ g, ds.ingress = some g ∧ ∃ i ∈ g.interfaces, ∃ rr ∈ g.redirects,
        r = ⟨[.iifname i, .fibDaddrLocal, .dport "tcp" rr.port], .dnat rr.toPort⟩) := by
  unfold preroutingChain
  simp only [mem_append, mem_flatMap, mem_map]
  constructor
  · rintro (⟨name, hname, i, hi, rr, hrr, rfl⟩ | hing)
    · left
      obtain ⟨z, hz, rfl⟩ := mem_map.mp (mem_sortedStrings.mp hname)
      rw [get_of_mem hz] at hi hrr
      exact ⟨z, hz, i, mem_sortedStrings.mp hi, rr, hrr, rfl⟩
    · right
      cases hg : ds.ingress with
      | none => rw [hg] at hing; simp at hing
      | some g =>
        rw [hg] at hing
        simp only [mem_flatMap, mem_map] at hing
        obtain ⟨i, hi, rr, hrr, rfl⟩ := hing
        exact ⟨g, rfl, i, mem_sortedStrings.mp hi, rr, mem_sortedIngressRedirects.mp hrr, rfl⟩
  · rintro (⟨z, hz, i, hi, rr, hrr, rfl⟩ | ⟨g, hg, i, hi, rr, hrr, rfl⟩)
    · left
      refine ⟨z.1, mem_sortedStrings.mpr (mem_map_of_mem hz), i, ?_, rr, ?_, rfl⟩
      · rw [get_of_mem hz]; exact mem_sortedStrings.mpr hi
      · rw [get_of_mem hz]; exact hrr
    · right
      rw [hg]
      simp only [mem_flatMap, mem_map]
      exact ⟨i, mem_sortedStrings.mpr hi, rr, mem_sortedIngressRedirects.mpr hrr, rfl⟩

theorem firstTranslation_of_none {p : Packet} {rules : List Rule}
    (h : ∀ r ∈ rules, r.holds p = false) : firstTranslation p rules = none := by
  induction rules with
  | nil => rfl
  | cons r rest ih =>
    have hr : r.holds p = false := h r (by simp)
    simp only [firstTranslation, hr]
    exact ih fun r' hr' => h r' (by simp [hr'])

/-- When a rule that translates matches, the first one that does decides. -/
theorem firstTranslation_of_some {p : Packet} {rules : List Rule}
    (hnat : ∀ r ∈ rules, ∃ port, r.action = .redirect port ∨ r.action = .dnat port)
    (h : ∃ r ∈ rules, r.holds p = true) :
    ∃ r ∈ rules, ∃ port, r.holds p = true ∧ (r.action = .redirect port ∨ r.action = .dnat port) ∧
      firstTranslation p rules = some port := by
  induction rules with
  | nil => simp at h
  | cons r rest ih =>
    cases hr : r.holds p with
    | true =>
      obtain ⟨port, hport⟩ := hnat r (by simp)
      refine ⟨r, by simp, port, hr, hport, ?_⟩
      rcases hport with ha | ha
      · simp [firstTranslation, hr, ha]
      · simp [firstTranslation, hr, ha]
    | false =>
      have hrest : ∃ r ∈ rest, r.holds p = true := by
        obtain ⟨r', hmem, hholds⟩ := h
        rcases mem_cons.mp hmem with rfl | hmem
        · exact absurd (hr.symm.trans hholds) (by simp)
        · exact ⟨r', hmem, hholds⟩
      obtain ⟨r', hmem, port, hholds, hact, hfirst⟩ :=
        ih (fun r' hr' => hnat r' (by simp [hr'])) hrest
      refine ⟨r', by simp [hmem], port, hholds, hact, ?_⟩
      simp only [firstTranslation, hr]
      exact hfirst

/-- A redirect of the guard's port on the guard's interface, by a zone or by the ingress. -/
def Redirected (ds : DesiredState) (guard : ReachabilityGuard) : Prop :=
  (∃ z ∈ ds.zones.entries, guard.tailscaleInterface ∈ z.2.interfaces ∧
    ∃ r ∈ z.2.redirects, r.proto = "tcp" ∧ r.port = guard.port) ∨
  (∃ g, ds.ingress = some g ∧ guard.tailscaleInterface ∈ g.interfaces ∧
    ∃ r ∈ g.redirects, r.port = guard.port)

theorem holds_translation {i proto : String} (hi : validInterface i = true) {port : Int}
    {action : Action} {conn : Connection} :
    (⟨[.iifname i, .fibDaddrLocal, .dport proto port], action⟩ : Rule).holds (conn.request guard)
      = true ↔ i = guard.tailscaleInterface ∧ proto = "tcp" ∧ port = guard.port := by
  simp only [Rule.holds, all_cons, all_nil, Match.holds, Connection.request,
    ifnameMatches_valid hi, Bool.and_eq_true, decide_eq_true_eq, Bool.and_true, true_and]
  constructor
  · rintro ⟨h1, h2, h3⟩
    exact ⟨h1, h2.symm, h3.symm⟩
  · rintro ⟨h1, h2, h3⟩
    exact ⟨h1, h2.symm, h3.symm⟩

theorem exists_holds_iff (hacc : Accepted ds) (conn : Connection) :
    (∃ r ∈ (preroutingChain ds).rules, r.holds (conn.request guard) = true) ↔
      Redirected ds guard := by
  constructor
  · rintro ⟨r, hr, hholds⟩
    rcases mem_preroutingRules.mp hr with ⟨z, hz, i, hi, rr, hrr, rfl⟩ | ⟨g, hg, i, hi, rr, hrr, rfl⟩
    · obtain ⟨rfl, hproto, hport⟩ := (holds_translation (hacc.zoneInterfaces z hz i hi)).mp hholds
      exact Or.inl ⟨z, hz, hi, rr, hrr, hproto, hport⟩
    · obtain ⟨rfl, -, hport⟩ := (holds_translation (hacc.ingressInterfaces g hg i hi)).mp hholds
      exact Or.inr ⟨g, hg, hi, rr, hrr, hport⟩
  · rintro (⟨z, hz, hi, rr, hrr, hproto, hport⟩ | ⟨g, hg, hi, rr, hrr, hport⟩)
    · exact ⟨_, mem_preroutingRules.mpr (Or.inl ⟨z, hz, _, hi, rr, hrr, rfl⟩),
        (holds_translation (hacc.zoneInterfaces z hz _ hi)).mpr ⟨rfl, hproto, hport⟩⟩
    · exact ⟨_, mem_preroutingRules.mpr (Or.inr ⟨g, hg, _, hi, rr, hrr, rfl⟩),
        (holds_translation (hacc.ingressInterfaces g hg _ hi)).mpr ⟨rfl, rfl, hport⟩⟩

/-! ### Which chain a hook runs -/

/-- The chains that are not base chains of a kind at a hook are passed over. -/
theorem baseChain_append {pre post : List Chain} {kind hook : String}
    (hpre : ∀ c ∈ pre, c.base.any (fun b => b.kind = kind && b.hook = hook) = false) (helper : Bool) :
    (Script.mk helper (pre ++ post)).baseChain kind hook = (Script.mk helper post).baseChain kind hook := by
  unfold Script.baseChain
  rw [List.find?_append, List.find?_eq_none.mpr ?_, Option.none_or]
  intro c hc
  rw [hpre c hc]
  simp

theorem mem_tftpHelperChain {names : List String} {c : Chain} (hc : c ∈ tftpHelperChain ds names) :
    c.base = some ⟨"filter", "prerouting", -300, some "accept"⟩ := by
  unfold tftpHelperChain at hc
  split at hc
  · simp at hc
  · rw [mem_singleton.mp hc]

theorem mem_outputChain {o : Option OutputPolicy} {c : Chain} (hc : c ∈ outputChain o) :
    ∃ policy, c.base = some ⟨"filter", "output", 0, policy⟩ := by
  cases o with
  | none => simp [outputChain] at hc
  | some =>
    rw [outputChain, mem_singleton] at hc
    exact ⟨_, by rw [hc]⟩

theorem mem_ingressOutputChain {c : Chain} (hc : c ∈ ingressOutputChain ds) :
    c.base = some ⟨"nat", "output", -100, none⟩ := by
  unfold ingressOutputChain at hc
  cases hg : ds.ingress with
  | none => rw [hg] at hc; simp at hc
  | some =>
    rw [hg] at hc
    simp only at hc
    split at hc
    · simp at hc
    · rw [mem_singleton.mp hc]

theorem baseChain_prerouting :
    (script ds guard).baseChain "nat" "prerouting" = some (preroutingChain ds) := by
  by_cases hred : ds.redirectOnly = true
  · simp only [script, hred, if_true]
    rfl
  · simp only [script, hred, Bool.false_eq_true, if_false, append_assoc]
    rw [baseChain_append, baseChain_append, baseChain_append]
    · rfl
    · intro c hc
      obtain ⟨policy, hb⟩ := mem_outputChain hc
      rw [hb]
      rfl
    · intro c hc
      simp only [mem_cons, not_mem_nil, or_false] at hc
      rcases hc with rfl | rfl <;> rfl
    · intro c hc
      rw [mem_tftpHelperChain hc]
      rfl

theorem baseChain_input (hred : ds.redirectOnly = false) :
    (script ds guard).baseChain "filter" "input" =
      some (inputChain ds guard (sortedZoneNames ds.zones)) := by
  simp only [script, hred, Bool.false_eq_true, if_false, append_assoc]
  rw [baseChain_append]
  · rfl
  · intro c hc
    rw [mem_tftpHelperChain hc]
    rfl

/-- The output hook runs the output chain when one is rendered, and nothing else. -/
theorem baseChain_output (hacc : Accepted ds) :
    (script ds guard).baseChain "filter" "output" = (outputChain ds.output).head? := by
  by_cases hred : ds.redirectOnly = true
  · rw [(hacc.redirectOnly hred).2]
    simp only [script, hred, if_true]
    rfl
  · simp only [script, hred, Bool.false_eq_true, if_false, append_assoc]
    rw [baseChain_append, baseChain_append]
    · cases ho : ds.output with
      | some => rfl
      | none =>
        -- Without an output chain, none of the chains behind it is a filter of this hook.
        unfold Script.baseChain
        simp only [outputChain, nil_append, List.head?_nil, List.find?_eq_none]
        intro c hc
        simp only [mem_append, mem_singleton, mem_map] at hc
        rcases hc with rfl | hc | rfl | ⟨name, -, rfl⟩
        · simp [preroutingChain]
        · rw [mem_ingressOutputChain hc]
          simp
        · simp [postroutingChain]
        · simp [zoneChain]
    · intro c hc
      simp only [mem_cons, not_mem_nil, or_false] at hc
      rcases hc with rfl | rfl <;> rfl
    · intro c hc
      rw [mem_tftpHelperChain hc]
      rfl

/-! ### Decisions -/

theorem prerouted_of_not_redirected (hacc : Accepted ds) (conn : Connection)
    (hred : ¬ Redirected ds guard) :
    (script ds guard).prerouted (conn.request guard) = conn.request guard := by
  unfold Script.prerouted
  rw [baseChain_prerouting, Option.bind_some, firstTranslation_of_none fun r hr => ?_]
  cases hh : r.holds (conn.request guard) with
  | false => rfl
  | true => exact absurd ((exists_holds_iff hacc conn).mp ⟨r, hr, hh⟩) hred

/-- The port survives prerouting exactly when no redirect takes it. -/
theorem prerouted_dport_iff (hacc : Accepted ds) (conn : Connection) :
    ((script ds guard).prerouted (conn.request guard)).dport = guard.port ↔
      ¬ Redirected ds guard := by
  unfold Script.prerouted
  rw [baseChain_prerouting, Option.bind_some]
  constructor
  · intro hport hred
    have hnat : ∀ r ∈ (preroutingChain ds).rules,
        ∃ port, r.action = .redirect port ∨ r.action = .dnat port := by
      intro r hr
      rcases mem_preroutingRules.mp hr with ⟨z, -, i, -, rr, -, rfl⟩ | ⟨g, -, i, -, rr, -, rfl⟩
      · exact ⟨rr.toPort, Or.inl rfl⟩
      · exact ⟨rr.toPort, Or.inr rfl⟩
    obtain ⟨r, hr, port, hholds, hact, hfirst⟩ :=
      firstTranslation_of_some hnat ((exists_holds_iff hacc conn).mpr hred)
    rw [hfirst] at hport
    -- A redirect never goes to the port it takes.
    have hto : port = guard.port := hport
    rcases mem_preroutingRules.mp hr with ⟨z, hz, i, hi, rr, hrr, rfl⟩ | ⟨g, hg, i, hi, rr, hrr, rfl⟩
    · obtain ⟨-, -, hfrom⟩ := (holds_translation (hacc.zoneInterfaces z hz i hi)).mp hholds
      have hrr' : rr.toPort = port := by simpa using hact
      exact hacc.zoneRedirects z hz rr hrr (by omega)
    · obtain ⟨-, -, hfrom⟩ := (holds_translation (hacc.ingressInterfaces g hg i hi)).mp hholds
      have hrr' : rr.toPort = port := by simpa using hact
      exact hacc.ingressRedirects g hg rr hrr (by omega)
  · intro hred
    have hsame := prerouted_of_not_redirected hacc conn hred
    unfold Script.prerouted at hsame
    rw [baseChain_prerouting, Option.bind_some] at hsame
    rw [hsame]
    rfl

/-- Rules that can only accept never drop. -/
theorem evalRules_of_accepts {jump : String → Option Verdict} {p : Packet} {rules : List Rule}
    (h : ∀ r ∈ rules, r.action = .accept) :
    evalRules jump p rules = if rules.any (Rule.holds p) then some .accept else none := by
  induction rules with
  | nil => rfl
  | cons r rest ih =>
    have hact : r.action = .accept := h r (by simp)
    have hrest := ih fun r' hr' => h r' (by simp [hr'])
    cases hr : r.holds p with
    | true => simp [evalRules, hr, hact]
    | false => simp [evalRules, hr, hrest]

theorem evalRules_append {jump : String → Option Verdict} {p : Packet} (xs ys : List Rule) :
    evalRules jump p (xs ++ ys) = (evalRules jump p xs).or (evalRules jump p ys) := by
  induction xs with
  | nil => rfl
  | cons r rest ih =>
    simp only [cons_append, evalRules]
    by_cases hr : r.holds p = true
    · rw [if_pos hr, if_pos hr]
      cases r.action with
      | accept => rfl
      | jump => simp only [ih, Option.or_assoc]
      | redirect => exact ih
      | dnat => exact ih
      | masquerade => exact ih
      | ctHelperSet => exact ih
    · rw [if_neg hr, if_neg hr]
      exact ih

/-- The guard of an accepted policy has its rule. -/
theorem guardRule_eq (hiface : validInterface guard.tailscaleInterface = true)
    (hport : validPort guard.port = true) :
    guardRule guard = [⟨[.iifname guard.tailscaleInterface, .dport "tcp" guard.port], .accept⟩] := by
  have hne : guard.tailscaleInterface ≠ "" := by
    intro hempty
    rw [hempty] at hiface
    exact absurd hiface (by decide)
  have hpos : guard.port ≠ 0 := by
    intro hzero
    rw [hzero] at hport
    exact absurd hport (by decide)
  exact if_pos ⟨hne, hpos⟩

/-- The input chain lets the connection in: the guard's rule matches, and the rules before it
can only accept. -/
theorem decision_input (hiface : validInterface guard.tailscaleInterface = true)
    (hport : validPort guard.port = true) (conn : Connection) :
    (script ds guard).decision "input" (conn.request guard) = .accept := by
  by_cases hred : ds.redirectOnly = true
  · -- A redirect-only table has no input chain.
    have hnone : (script ds guard).baseChain "filter" "input" = none := by
      simp only [script, hred, if_true]
      rfl
    unfold Script.decision
    rw [hnone]
  · have hguard := guardRule_eq hiface hport
    have hholds : (guardRule guard).any (Rule.holds (conn.request guard)) = true := by
      rw [hguard]
      simp [Rule.holds, Match.holds, Connection.request, ifnameMatches_valid hiface]
    have hpre : ∀ r ∈ inputPreamble ++ guardRule guard, r.action = .accept := by
      intro r hr
      rw [hguard] at hr
      simp only [inputPreamble, mem_append, mem_cons, not_mem_nil, or_false] at hr
      rcases hr with (rfl | rfl | rfl | rfl | rfl | rfl | rfl) | rfl <;> rfl
    unfold Script.decision
    rw [baseChain_input (by simpa using hred)]
    simp only [inputChain]
    rw [append_assoc, evalRules_append, evalRules_of_accepts hpre, any_append, hholds]
    simp

/-! ### Replies -/

/-- An output rule of the policy admits the reply of a connection. A destination is looked at
in the family its text has. -/
def admits (guard : ReachabilityGuard) (conn : Connection) (r : OutputRule) : Bool :=
  (r.family = "" || (r.family = "ip" && conn.client.is4) || (r.family = "ip6" && conn.client.is6)) &&
  (r.interface = "" || r.interface = guard.tailscaleInterface) &&
  (r.destination = "" ||
    ((if ':' ∈ r.destination.toList then conn.client.is6 else conn.client.is4) &&
      covers r.destination conn.client)) &&
  r.proto = "tcp" && r.port = conn.clientPort

/-- The output policy lets the replies of a connection out. -/
def RepliesPass (ds : DesiredState) (guard : ReachabilityGuard) (conn : Connection) : Prop :=
  ∀ o, ds.output = some o →
    o.policy = "ACCEPT" ∨ o.establishedRelated = true ∨
    (o.loopback = true ∧ guard.tailscaleInterface = "lo") ∨ ∃ r ∈ o.rules, admits guard conn r = true

theorem holds_outputRule (guard : ReachabilityGuard) {r : OutputRule} (conn : Connection)
    (hr : (r.family = "" ∨ r.family = "ip" ∨ r.family = "ip6") ∧
      (r.interface = "" ∨ validInterface r.interface = true)) :
    (outputRule r).holds (conn.reply guard) = admits guard conn r := by
  have hfamily : (if r.family ≠ "" then
        [Match.nfproto (if r.family = "ip6" then "ipv6" else "ipv4")] else []).all
        (Match.holds (conn.reply guard)) =
      (r.family = "" || (r.family = "ip" && conn.client.is4) ||
        (r.family = "ip6" && conn.client.is6)) := by
    rcases hr.1 with h | h | h <;> simp [h, Match.holds, Connection.reply]
  have hiface : (if r.interface ≠ "" then [Match.oifname r.interface] else []).all
        (Match.holds (conn.reply guard)) =
      (r.interface = "" || r.interface = guard.tailscaleInterface) := by
    by_cases h : r.interface = ""
    · simp [h]
    · rcases hr.2 with h' | hvalid
      · exact absurd h' h
      · simp [h, Match.holds, Connection.reply, ifnameMatches_valid hvalid]
  have hdest : (if r.destination ≠ "" then
        [Match.daddr (if ':' ∈ r.destination.toList then "ip6" else "ip") r.destination] else []).all
        (Match.holds (conn.reply guard)) =
      (r.destination = "" || ((if ':' ∈ r.destination.toList then conn.client.is6
        else conn.client.is4) && covers r.destination conn.client)) := by
    by_cases h : r.destination = ""
    · simp [h]
    · by_cases hcolon : ':' ∈ r.destination.toList
      · simp [h, hcolon, Match.holds, familyMatches, Connection.reply]
      · simp [h, hcolon, Match.holds, familyMatches, Connection.reply]
  have hport : [Match.dport r.proto r.port].all (Match.holds (conn.reply guard)) =
      (decide (r.proto = "tcp") && decide (r.port = conn.clientPort)) := by
    simp only [all_cons, all_nil, Match.holds, Connection.reply, Bool.and_true,
      eq_comm]
  unfold outputRule Rule.holds admits
  simp only [all_append]
  rw [hfamily, hiface, hdest, hport]
  simp only [Bool.and_assoc]

theorem action_of_mem_outputRules {o : OutputPolicy} {r : Rule} (hr : r ∈ outputRules o) :
    r.action = .accept := by
  simp only [outputRules, mem_append, mem_map] at hr
  rcases hr with (hr | hr) | ⟨_, _, rfl⟩
  · split at hr
    · rw [mem_singleton.mp hr]
    · simp at hr
  · split at hr
    · rw [mem_singleton.mp hr]
    · simp at hr
  · rfl

/-- What the output rules accept of a reply, in the words of the policy. -/
theorem any_outputRules_iff (guard : ReachabilityGuard) (hacc : Accepted ds) (conn : Connection) {o : OutputPolicy}
    (ho : ds.output = some o) :
    (outputRules o).any (Rule.holds (conn.reply guard)) = true ↔
      o.establishedRelated = true ∨ (o.loopback = true ∧ guard.tailscaleInterface = "lo") ∨
        ∃ r ∈ o.rules, admits guard conn r = true := by
  have hrules : (o.rules.map outputRule).any (Rule.holds (conn.reply guard)) = true ↔
      ∃ r ∈ o.rules, admits guard conn r = true := by
    rw [any_map, any_eq_true]
    constructor
    · rintro ⟨r, hr, hh⟩
      have heq := holds_outputRule guard conn (hacc.outputRules o ho r hr)
      exact ⟨r, hr, heq.symm.trans hh⟩
    · rintro ⟨r, hr, hh⟩
      have heq := holds_outputRule guard conn (hacc.outputRules o ho r hr)
      exact ⟨r, hr, heq.trans hh⟩
  have hestablished : (if o.establishedRelated then
        [(⟨[.ctStateEstablishedRelated], .accept⟩ : Rule)] else []).any
        (Rule.holds (conn.reply guard)) = o.establishedRelated := by
    cases o.establishedRelated <;> simp [Rule.holds, Match.holds, Connection.reply]
  have hloopback : (if o.loopback then [(⟨[.oifname "lo"], .accept⟩ : Rule)] else []).any
        (Rule.holds (conn.reply guard)) =
      (o.loopback && decide (guard.tailscaleInterface = "lo")) := by
    have hlo : ifnameMatches "lo" guard.tailscaleInterface =
        decide (guard.tailscaleInterface = "lo") := by
      rw [ifnameMatches_valid (by decide)]
      simp only [eq_comm]
    cases o.loopback <;> simp [Rule.holds, Match.holds, Connection.reply, hlo]
  unfold outputRules
  rw [any_append, any_append, hestablished, hloopback, Bool.or_eq_true, Bool.or_eq_true,
    hrules, or_assoc]
  simp

theorem decision_output_iff (hacc : Accepted ds) (conn : Connection) :
    (script ds guard).decision "output" (conn.reply guard) = .accept ↔
      RepliesPass ds guard conn := by
  unfold Script.decision
  rw [baseChain_output hacc]
  cases ho : ds.output with
  | none => simp [outputChain, RepliesPass, ho]
  | some o =>
    simp only [outputChain, List.head?_cons]
    rw [evalRules_of_accepts fun r hr => action_of_mem_outputRules hr]
    have hany := any_outputRules_iff guard hacc conn ho
    unfold RepliesPass
    simp only [ho, Option.some.injEq, forall_eq']
    by_cases hrule : (outputRules o).any (Rule.holds (conn.reply guard)) = true
    · rw [if_pos hrule]
      exact ⟨fun _ => Or.inr (hany.mp hrule), fun _ => rfl⟩
    · -- No rule matches: the policy decides.
      rw [if_neg hrule]
      rcases hacc.outputPolicy o ho with hpol | hpol
      · have hdrop : String.ofList ("DROP".toList.map lowerChar) = "drop" := by decide
        simp only [hpol, hdrop, Option.any_some, decide_true, if_true, Option.getD_none]
        constructor
        · intro h
          exact absurd h (by decide)
        · rintro (h | h)
          · exact absurd h (by decide)
          · exact absurd (hany.mpr h) hrule
      · have haccept : String.ofList ("ACCEPT".toList.map lowerChar) = "accept" := by decide
        simp only [hpol, haccept, true_or, iff_true]
        decide

theorem render_ok {s : Script} (h : render ds guard = .ok s) :
    validInterface guard.tailscaleInterface = true ∧ validPort guard.port = true ∧
      Accepted ds ∧ s = script ds guard := by
  simp only [render, bind_eq_ok, refuseIf_eq_ok, pure_eq_ok, exists_const,
    Bool.or_eq_false_iff] at h
  obtain ⟨⟨hiface, hport⟩, _, hvalid, rfl⟩ := h
  exact ⟨by simpa using hiface, by simpa using hport, Accepted.of_validate hvalid, rfl⟩

/-- For every accepted policy and every connection to the guard's port: the connection
reaches the listener and its replies leave exactly when no redirect takes the port on the
guard's interface and the output policy admits the replies. -/
theorem reaches_iff (ds : DesiredState) (guard : ReachabilityGuard) (s : Script)
    (h : render ds guard = .ok s) (conn : Connection) :
    s.Reaches guard conn ↔ ¬ Redirected ds guard ∧ RepliesPass ds guard conn := by
  obtain ⟨hiface, hport, hacc, rfl⟩ := render_ok h
  unfold Script.Reaches
  constructor
  · rintro ⟨hdport, -, hout⟩
    exact ⟨(prerouted_dport_iff hacc conn).mp hdport, (decision_output_iff hacc conn).mp hout⟩
  · rintro ⟨hred, hreplies⟩
    refine ⟨(prerouted_dport_iff hacc conn).mpr hred, ?_, (decision_output_iff hacc conn).mpr hreplies⟩
    rw [prerouted_of_not_redirected hacc conn hred]
    exact decision_input hiface hport conn

/-! ### Accepted policies that cut the listener off -/

/-- A guard and a connection from a tailnet client. -/
def tailnetGuard : ReachabilityGuard := ⟨"tailscale0", 8443⟩

@[inherit_doc tailnetGuard]
def tailnetConnection : Connection where
  client := Addr.ofValue .v4 0x64400002
  server := Addr.ofValue .v4 0x64400001
  clientPort := 50000
  same_family := rfl
  client_zone := rfl

/-- One zone with ssh on the guard's interface. -/
def tailnetZone (redirects : List RedirectRule) : ZoneMap where
  entries := [("tailnet", { interfaces := ["tailscale0"], ssh := some ⟨22⟩, redirects })]
  nodup := by simp

/-- The zone redirects the daemon's own port. -/
def zoneRedirectPolicy : DesiredState := { zones := tailnetZone [⟨8443, 9443, "tcp"⟩] }

/-- The ingress redirects the daemon's own port. -/
def ingressPolicy : DesiredState :=
  { zones := tailnetZone [], ingress := some ⟨["tailscale0"], [⟨8443, 9443, "tcp"⟩]⟩ }

/-- The output policy drops what it does not list, and lists web traffic only. -/
def outputDropPolicy : DesiredState :=
  { zones := tailnetZone [], output := some ⟨"DROP", false, true, [⟨"tcp", 443, "", "", ""⟩]⟩ }

/-- Three policies that `Render` accepts and under which the listener is cut off. -/
theorem accepted_unreachable :
    (∃ s, render zoneRedirectPolicy tailnetGuard = .ok s ∧
      ¬ s.Reaches tailnetGuard tailnetConnection) ∧
    (∃ s, render ingressPolicy tailnetGuard = .ok s ∧
      ¬ s.Reaches tailnetGuard tailnetConnection) ∧
    (∃ s, render outputDropPolicy tailnetGuard = .ok s ∧
      ¬ s.Reaches tailnetGuard tailnetConnection) :=
  ⟨⟨script zoneRedirectPolicy tailnetGuard, rfl, by decide⟩,
    ⟨script ingressPolicy tailnetGuard, rfl, by decide⟩,
    ⟨script outputDropPolicy tailnetGuard, rfl, by decide⟩⟩

/-- With the established rule the same output policy lets the replies out. -/
def outputEstablishedPolicy : DesiredState :=
  { zones := tailnetZone [], output := some ⟨"DROP", true, true, [⟨"tcp", 443, "", "", ""⟩]⟩ }

theorem outputEstablishedPolicy_reaches :
    (script outputEstablishedPolicy tailnetGuard).Reaches tailnetGuard tailnetConnection := by
  refine (reaches_iff outputEstablishedPolicy tailnetGuard _ rfl tailnetConnection).mpr ⟨?_, ?_⟩
  · rintro (⟨z, hz, -, r, hr, -⟩ | ⟨g, hg, -⟩)
    · rw [mem_singleton.mp hz] at hr
      exact absurd hr (by simp)
    · exact absurd hg (by simp [outputEstablishedPolicy])
  · intro o ho
    obtain rfl := (Option.some.inj ho).symm
    exact Or.inr (Or.inl rfl)

end Ghostd.Proofs.Nft
