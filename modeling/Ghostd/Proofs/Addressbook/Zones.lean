import Ghostd.Addressbook.Dns
import Ghostd.Proofs.Addressbook.Validate

/-!
# `Ghostd.Proofs.Addressbook.Zones`: the names that a configuration answers for

What validation gives the DNS handler. No zone is nested in another, so that a name is in at most one
(`zone_unique`). No two subnets overlap, so that an address is in at most one (`scope_unique`). No
device is called like an alias, so that the loop over the aliases replaces a label at most once, by the
name of the device that has it (`resolveAliases_inZone`).

`reverseIP_arpa` says that the handler reads every name of the reverse tree back into its address.
-/

set_option autoImplicit false

namespace Ghostd.Proofs.Addressbook

open Ghostd.Lib Ghostd.Addressbook List

variable {name zone : String} {c : Config} {s : Scope}

/-! ### Names in a zone -/

theorem inZone_inj {l l' : String} (h : inZone l zone = inZone l' zone) : l = l' := by
  rw [← String.toList_inj] at h ⊢
  simpa [inZone] using h

theorem inZone_ne_apex (l zone : String) : inZone l zone ≠ apex zone := by
  intro h
  have hlen := congrArg (fun s => s.toList.length) h
  simp only [inZone, apex, String.toList_append, length_append] at hlen
  have hdot : ".".toList.length = 1 := by decide
  omega

theorem inZone_eq_append (l zone : String) : inZone l zone = l ++ inZone "" zone := by
  simp [inZone, String.append_assoc]

theorem withinZone_inZone (l zone : String) : withinZone (inZone l zone) zone = true := by
  rw [withinZone, inZone_eq_append, endsWith_append, Bool.or_true]

theorem withinZone_apex (zone : String) : withinZone (apex zone) zone = true := by
  simp [withinZone]

/-- A name in a zone is its apex or has a label there. -/
theorem withinZone_iff : withinZone name zone = true ↔ name = apex zone ∨ ∃ l, name = inZone l zone := by
  constructor
  · intro h
    rw [withinZone, Bool.or_eq_true, decide_eq_true_eq] at h
    rcases h with h | h
    · exact Or.inl h
    · obtain ⟨cs, hcs⟩ := isSuffixOf_iff_suffix.mp h
      refine Or.inr ⟨String.ofList cs, ?_⟩
      rw [inZone_eq_append, ← String.toList_inj, String.toList_append, String.toList_ofList, hcs]
  · intro h
    rcases h with rfl | ⟨l, rfl⟩
    · exact withinZone_apex zone
    · exact withinZone_inZone l zone

theorem trimEnd_inZone (l zone : String) : trimEnd (inZone l zone) (inZone "" zone) = l := by
  rw [inZone_eq_append, trimEnd_append]

/-- The characters of a name in a zone: the zone ends it, behind a dot unless nothing is in front. -/
theorem chars_of_withinZone (h : withinZone name zone = true) :
    name.toList = zone.toList ++ ['.'] ∨ '.' :: zone.toList ++ ['.'] <:+ name.toList := by
  rcases withinZone_iff.mp h with rfl | ⟨l, rfl⟩
  · left
    simp [apex]
  · right
    exact ⟨l.toList, by simp [inZone]⟩

theorem suffix_of_withinZone (h : withinZone name zone = true) : zone.toList ++ ['.'] <:+ name.toList := by
  rcases chars_of_withinZone h with heq | hsuffix
  · exact heq ▸ suffix_refl _
  · exact (suffix_cons _ _).trans hsuffix

/-- Of two zones with a name in common, the longer is below the shorter. -/
theorem nested_of_withinZone {zone' : String} (h : withinZone name zone = true)
    (h' : withinZone name zone' = true) (hlt : zone.toList.length < zone'.toList.length) :
    endsWith zone' ("." ++ zone) = true := by
  have hsuffix' := suffix_of_withinZone h'
  rcases chars_of_withinZone h with heq | hsuffix
  · -- The name is too short to end with the longer zone.
    have hlen := hsuffix'.length_le
    rw [heq, length_append, length_append] at hlen
    omega
  · have hboth : '.' :: zone.toList ++ ['.'] <:+ zone'.toList ++ ['.'] := by
      refine suffix_of_suffix_length_le hsuffix hsuffix' ?_
      simp only [length_append, length_cons, length_nil]
      omega
    have hzone : '.' :: zone.toList <:+ zone'.toList := by
      obtain ⟨front, hfront⟩ := hboth
      refine ⟨front, ?_⟩
      rw [← append_assoc] at hfront
      exact append_cancel_right hfront
    rw [endsWith, isSuffixOf_iff_suffix, String.toList_append]
    exact hzone

/-! ### What is checked of the scopes together -/

/-- A name is in at most one zone. -/
theorem zone_unique (h : c.validate = .ok ()) {t : Scope} (hs : s ∈ c.scopes) (ht : t ∈ c.scopes)
    (hns : withinZone name s.zone = true) (hnt : withinZone name t.zone = true) : s.zone = t.zone := by
  by_cases heq : s = t
  · rw [heq]
  have hunnested := (apart h hs ht heq).zones
  rcases Nat.lt_trichotomy s.zone.toList.length t.zone.toList.length with hlt | heq | hgt
  · rw [nested_of_withinZone hns hnt hlt] at hunnested
    cases hunnested.2
  · -- Both end the name, and they are equally long.
    have hsame := suffix_of_suffix_length_le (suffix_of_withinZone hns) (suffix_of_withinZone hnt)
      (by simp [heq])
    have hall := hsame.eq_of_length (by simp [heq])
    exact String.toList_inj.mp (append_cancel_right hall)
  · rw [nested_of_withinZone hnt hns hgt] at hunnested
    cases hunnested.1

/-- An address is in the subnet of at most one scope. -/
theorem scope_unique (h : c.validate = .ok ()) {t : Scope} (hs : s ∈ c.scopes) (ht : t ∈ c.scopes) {a : Addr}
    (hsa : s.holds a = true) (hta : t.holds a = true) : s = t := by
  have hparse : ∀ {s : Scope}, s.holds a = true → ∃ p, parsePrefix s.subnet = some p ∧ p.contains a = true := by
    intro s hsa
    unfold Scope.holds at hsa
    cases hp : parsePrefix s.subnet with
    | none => simp [hp] at hsa
    | some p => exact ⟨p, rfl, by simpa [hp] using hsa⟩
  obtain ⟨p, hp, hpa⟩ := hparse hsa
  obtain ⟨q, hq, hqa⟩ := hparse hta
  by_contra hne
  have hno := (apart h hs ht hne).subnets p q hp hq
  rw [Prefix.overlaps_of_contains hpa hqa] at hno
  cases hno

/-! ### Aliases -/

/-- The names that the aliases of a device have added. -/
theorem validateAliases_names {aliases names names' : List String}
    (h : aliases.foldlM validateAlias names = .ok names') :
    (∀ a ∈ aliases, a ∉ names ∧ a ∈ names') ∧ ∀ n ∈ names, n ∈ names' := by
  have hstep : ∀ {names names' a}, validateAlias names a = .ok names' → a ∉ names ∧ names' = a :: names := by
    intro names names' a h
    simp only [validateAlias, bind_eq_ok, refuseIf_eq_ok, exists_const, pure_eq_ok, Bool.or_eq_false_iff,
      decide_eq_false_iff_not] at h
    exact ⟨h.1.2, h.2.symm⟩
  have hkept : ∀ n, ∀ a ∈ aliases, ∀ names names', n ∈ names → validateAlias names a = .ok names' → n ∈ names' := by
    intro n a _ names names' hn h
    rw [(hstep h).2]
    exact mem_cons_of_mem _ hn
  have hfresh := (foldlM_pairwise (R := fun _ _ => True) (fun h => (hstep h).1) (fun h hy => ⟨trivial, fun hmem =>
    hy (by rw [(hstep h).2]; exact mem_cons_of_mem _ hmem)⟩) h).2
  refine ⟨fun a ha => ⟨hfresh a ha, ?_⟩, fun n hn => foldlM_invariant (hkept n) hn h⟩
  refine foldlM_establish ha (I := fun _ => True) (fun _ _ _ _ _ _ => trivial) (fun names names' _ h => ?_) (hkept a)
    trivial h
  rw [(hstep h).2]
  exact mem_cons_self

/-- The device has a name and aliases that have not been seen. -/
structure UnseenNames (seen : SeenDevices) (d : DeviceConfig) : Prop where
  name : d.name ∉ seen.names
  aliases : ∀ a ∈ d.aliases, a ∉ seen.names

/-- What is checked of a device, and what it adds to the names. -/
theorem validateDevice_names {d : DeviceConfig} {seen seen' : SeenDevices} (h : validateDevice seen d = .ok seen') :
    UnseenNames seen d ∧ d.name ∉ d.aliases ∧ ∀ n, n = d.name ∨ n ∈ d.aliases ∨ n ∈ seen.names → n ∈ seen'.names := by
  simp only [validateDevice, bind_eq_ok, refuseIf_eq_ok, exists_const, pure_eq_ok, Bool.or_eq_false_iff,
    decide_eq_false_iff_not] at h
  obtain ⟨⟨-, hname⟩, names, haliases, nodes, -, rfl⟩ := h
  obtain ⟨hnew, hkept⟩ := validateAliases_names haliases
  refine ⟨⟨hname, fun a ha hmem => (hnew a ha).1 (mem_cons_of_mem _ hmem)⟩,
    fun hmem => (hnew _ hmem).1 mem_cons_self, ?_⟩
  rintro n (rfl | hn | hn)
  · exact hkept _ mem_cons_self
  · exact (hnew n hn).2
  · exact hkept n (mem_cons_of_mem _ hn)

/-- The devices of an accepted configuration have different names, and no name is an alias. -/
theorem device_names (h : c.validate = .ok ()) : (c.devices.map (·.name)).Nodup ∧
    ∀ d ∈ c.devices, ∀ d' ∈ c.devices, d.name ∉ d'.aliases := by
  simp only [Config.validate, bind_eq_ok] at h
  obtain ⟨seen, hdevices, -⟩ := h
  have hpairs := (foldlM_pairwise (N := UnseenNames)
    (R := fun x y => x.name ≠ y.name ∧ x.name ∉ y.aliases ∧ y.name ∉ x.aliases) (fun h => (validateDevice_names h).1)
    (fun h hy => ?_) hdevices).1
  · refine ⟨pairwise_map.mpr (hpairs.imp fun hxy => hxy.1), fun d hd d' hd' => ?_⟩
    have : Std.Symm fun x y : DeviceConfig => x.name ≠ y.name ∧ x.name ∉ y.aliases ∧ y.name ∉ x.aliases :=
      ⟨fun _ _ hxy => ⟨hxy.1.symm, hxy.2.symm⟩⟩
    by_cases heq : d = d'
    · obtain ⟨seen1, seen2, h⟩ := foldlM_mem hdevices d hd
      rw [← heq]
      exact (validateDevice_names h).2.1
    · exact (hpairs.forall hd hd' heq).2.1
  · have hadded := (validateDevice_names h).2.2
    exact ⟨⟨fun heq => hy.name (hadded _ (Or.inl heq.symm)), fun hmem => hy.aliases _ hmem (hadded _ (Or.inl rfl)),
        fun hmem => hy.name (hadded _ (Or.inr (Or.inl hmem)))⟩,
      fun hmem => hy.name (hadded _ (Or.inr (Or.inr hmem))),
      fun a ha hmem => hy.aliases a ha (hadded _ (Or.inr (Or.inr hmem)))⟩

/-- What a label stands for: the name of the device that has it for an alias, or else itself. -/
def resolved (c : Config) (label : String) : String :=
  ((c.devices.find? fun d => d.hasAlias label).map (·.name)).getD label

/-- One device: its aliases replace the label or leave it. -/
theorem foldl_aliases {d : DeviceConfig} (hname : d.name ∉ d.aliases) (zone : String)
    (found : String × String) :
    d.aliases.foldl
        (fun (found : String × String) other =>
          if found.1 = other then (d.name, inZone d.name zone) else found) found
      = if d.hasAlias found.1 then (d.name, inZone d.name zone) else found := by
  unfold DeviceConfig.hasAlias
  generalize d.aliases = aliases at hname
  induction aliases generalizing found with
  | nil => simp
  | cons a aliases ih =>
    have hrest : d.name ∉ aliases := fun hmem => hname (mem_cons_of_mem _ hmem)
    rw [foldl_cons, ih _ hrest]
    by_cases ha : found.1 = a
    · simp [ha, hrest]
    · simp [ha]

/-- The loop over the devices is the search for the one that has the alias. -/
theorem resolveAliases_inZone (h : c.validate = .ok ()) (zone label : String) :
    resolveAliases c zone label (inZone label zone) = (resolved c label, inZone (resolved c label) zone) := by
  have hnames := (device_names h).2
  unfold resolveAliases resolved
  generalize c.devices = devices at hnames
  induction devices with
  | nil => rfl
  | cons d devices ih =>
    have hrest := ih fun x hx y hy =>
      hnames x (mem_cons_of_mem _ hx) y (mem_cons_of_mem _ hy)
    rw [foldl_cons, foldl_aliases (hnames d mem_cons_self d mem_cons_self),
      List.find?_cons]
    cases hd : d.hasAlias label with
    | false => simpa using hrest
    | true =>
      -- The name of the device is nobody's alias, so that nothing replaces it again.
      have hfixed : ∀ ds : List DeviceConfig, (∀ x ∈ ds, d.name ∉ x.aliases ∧ x.name ∉ x.aliases) →
          ds.foldl (fun found x => x.aliases.foldl
            (fun (found : String × String) other =>
              if found.1 = other then (x.name, inZone x.name zone) else found) found)
            (d.name, inZone d.name zone) = (d.name, inZone d.name zone) := by
        intro ds
        induction ds with
        | nil => intro _; rfl
        | cons x ds ihx =>
          intro hx
          obtain ⟨hno, hself⟩ := hx x mem_cons_self
          rw [foldl_cons, foldl_aliases hself]
          simp only [DeviceConfig.hasAlias, hno, decide_false, Bool.false_eq_true, if_false]
          exact ihx fun y hy => hx y (mem_cons_of_mem _ hy)
      simp only [if_true, Option.map_some, Option.getD_some]
      exact hfixed devices fun x hx =>
        ⟨hnames d mem_cons_self x (mem_cons_of_mem _ hx),
          hnames x (mem_cons_of_mem _ hx) x (mem_cons_of_mem _ hx)⟩

/-! ### The reverse tree -/

theorem reverseIP4_labels {n : Nat} (hn : n < 2 ^ 32) : reverseIP4 (inAddrLabels n) = some (.ofValue .v4 n) := by
  have htext : (Addr.ofValue .v4 n).text = String.ofList (printIPv4 n) := by
    simp only [Addr.text, Addr.chars, Addr.ofValue, if_true]
    show String.ofList (printIPv4 (n % 2 ^ 32)) = _
    rw [Nat.mod_eq_of_lt hn]
  rw [← parseAddr_text (Addr.ofValue .v4 n), htext]
  simp only [inAddrLabels, digitsBack, map_cons, map_nil, reverseIP4]
  congr 1
  rw [← String.toList_inj]
  simp [printIPv4, intercalate_cons_cons, Nat.div_div_eq_div_mul]

theorem reverseIP6_labels {n : Nat} (hn : n < 2 ^ 128) : reverseIP6 (ip6Labels n) = some (.ofValue .v6 n) := by
  have hlen : (ip6Labels n).length = 32 := by
    rw [ip6Labels, length_map, length_digitsBack]
  have hsingle : ((ip6Labels n).any fun p => byteLength p ≠ 1) = false := by
    rw [any_eq_false]
    intro l hl
    obtain ⟨x, hx, rfl⟩ := ip6Labels_digit hl
    simp [byteLength, hx.utf8Size]
  have hjoin : joinText (ip6Labels n).reverse "" = encodeHex (digitsBack 256 16 n).reverse := by
    have hsingles : (ip6Labels n).reverse =
        ((digitsBack 16 32 n).reverse.map Nat.digitChar).map fun c => String.ofList [c] := by
      simp [ip6Labels, Function.comp_def]
    rw [encodeHex, ← digitsBack_hex 16 n, hsingles, joinText_single]
  have hbytes : ∀ b ∈ (digitsBack 256 16 n).reverse, b < 256 := fun b hb =>
    lt_of_mem_digitsBack (by decide) (mem_reverse.mp hb)
  rw [reverseIP6, hlen, hsingle, hjoin, if_neg (by simp), decodeHex_encodeHex hbytes, Option.bind_some,
    addrFromSlice, length_reverse, length_digitsBack, if_neg (by decide), if_pos rfl,
    reverse_reverse, ofDigits_digitsBack, Nat.mod_eq_of_lt (show n < 256 ^ 16 by omega)]

/-- The handler reads the name of an address back. -/
theorem reverseIP_arpa {a : Addr} (hzone : a.zone = "") : reverseIP a.arpa = some a := by
  have hlt := a.value_lt
  have hself : ∀ f, a.family = f → Addr.ofValue f a.value = a := by
    intro f hf
    refine Addr.ext' hf.symm ?_ hzone.symm
    rw [← hf]
    exact Nat.mod_eq_of_lt hlt
  unfold reverseIP Addr.arpa
  cases hf : a.family with
  | v4 =>
    rw [hf] at hlt
    have hno : endsWith (joinText (inAddrLabels a.value) "." ++ ".in-addr.arpa.") ".ip6.arpa." = false := by
      rw [endsWith_append_of_length (by decide)]
      decide
    simp only [hno, Bool.false_eq_true, if_false, endsWith_append, if_true]
    rw [splitText_trimEnd (inAddrLabels_ne_nil _) fun l hl => dot_not_mem_inAddrLabels hl,
      reverseIP4_labels hlt, hself _ hf]
  | v6 =>
    rw [hf] at hlt
    simp only [endsWith_append, if_true]
    rw [splitText_trimEnd (ip6Labels_ne_nil _) fun l hl => dot_not_mem_ip6Labels hl,
      reverseIP6_labels hlt, hself _ hf]

end Ghostd.Proofs.Addressbook
