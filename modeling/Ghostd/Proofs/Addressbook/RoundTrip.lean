import Ghostd.Proofs.Addressbook.Portable
import Ghostd.Proofs.Addressbook.Import
import Ghostd.Proofs.Addressbook.Zones
import Ghostd.Proofs.Addressbook.Indexes

/-!
# `Ghostd.Proofs.Addressbook.RoundTrip`: the lease file read back

`ExportDNSmasq` writes one line for a binding, `ParseDNSmasq` reads a lease from it and
`ImportDocument` makes a binding of that. `leaseOf` is the lease in the middle: it is what the line of
a portable binding is read as (`reads_exportLine`), and importing it gives the binding back
(`importLease_leaseOf`). The file is then done line by line, and the ledger lease by lease.

A quarantine comes back under the identity that stands for one. So a client that has this identity itself
has to be left out: its lease would come back as a quarantine.
-/

set_option autoImplicit false

namespace Ghostd.Proofs.Addressbook

open Ghostd.Lib Ghostd.Addressbook List

variable {client value : String} {l : ImportedLease} {now : Int} {bs : List Binding} {L : Ledger} {c : Config}
    {a : Addr} {x : Char}

/-! ### The fields of a line -/

theorem mem_charPairs {cs p : List Char} (hp : p ∈ charPairs cs) (hx : x ∈ p) : x ∈ cs := by
  fun_induction charPairs cs with
  | case1 a b rest ih =>
    rcases mem_cons.mp hp with rfl | hp
    · simp only [mem_cons, not_mem_nil, or_false] at hx ⊢
      exact hx.imp id Or.inl
    · exact mem_cons_of_mem _ (mem_cons_of_mem _ (ih hp))
  | case2 => cases hp

theorem isGraphic_colonHex (h : (decodeHex value).isSome = true) (hx : x ∈ (colonHex value).toList) :
    IsGraphic x := by
  rw [colonHex, String.toList_ofList] at hx
  rcases mem_intercalate hx with hx | ⟨p, hp, hx⟩
  · rw [mem_singleton.mp hx]
    exact ⟨by decide, by decide⟩
  · exact isGraphic_of_digit (digit_of_hex h (mem_charPairs hp hx))

theorem isWord_colonHex (h : (decodeHex value).isSome = true) (hne : value ≠ "") : IsWord (colonHex value) := by
  refine isWord_of_graphic (fun hempty => hne ?_) fun x hx => isGraphic_colonHex h hx
  -- The value is read back from the text.
  have hback := (spells_colonHex value).2 h
  rw [hempty] at hback
  rw [← hback]
  rfl

theorem isGraphic_text (hzone : a.zone = "") (hx : x ∈ a.text.toList) : IsGraphic x := by
  rw [Addr.text, String.toList_ofList, Addr.chars_eq, if_pos hzone, append_nil] at hx
  rcases a.mem_body hx with h | rfl | rfl
  · exact isGraphic_of_digit h
  · exact ⟨by decide, by decide⟩
  · exact ⟨by decide, by decide⟩

theorem isWord_text (hzone : a.zone = "") : IsWord a.text := by
  refine isWord_of_graphic (fun hempty => ?_) fun x hx => isGraphic_text hzone hx
  have hparse := parseAddr_text a
  rw [hempty] at hparse
  exact absurd hparse (by simp [show parseAddr "" = none from rfl])

/-- Four numbers of three digits and three dots. -/
theorem length_text_v4 (hzone : a.zone = "") (h4 : a.is6 = false) : a.text.toList.length ≤ 15 := by
  have hdigits : ∀ n, (Nat.toDigits 10 (n % 256)).length ≤ 3 := by
    intro n
    have hall : ∀ n : Fin 256, (Nat.toDigits 10 n).length ≤ 3 := by decide +kernel
    exact hall ⟨n % 256, Nat.mod_lt _ (by decide)⟩
  have hfamily : a.family = .v4 := by
    cases hf : a.family with
    | v4 => rfl
    | v6 => simp [Addr.is6, hf] at h4
  rw [Addr.text, String.toList_ofList, Addr.chars_eq, if_pos hzone, append_nil]
  simp only [Addr.body, hfamily, printIPv4, intercalate_cons_cons, intercalate_singleton, length_append,
    length_singleton]
  have h1 := hdigits (a.value / 2 ^ 24)
  have h2 := hdigits (a.value / 2 ^ 16)
  have h3 := hdigits (a.value / 2 ^ 8)
  have h₄ := hdigits a.value
  omega

theorem isWord_label {name : String} (h : labelPattern name = true) : IsWord name ∧ name ≠ "*" := by
  have hfields : (name.toList.all fun c => lowerAlphanum c || decide (c = '-')) = true ∧ 1 ≤ name.toList.length := by
    simp only [labelPattern, Bool.and_eq_true, decide_eq_true_eq] at h
    exact ⟨h.1.1.1.1, h.1.1.1.2⟩
  obtain ⟨hall, hlength⟩ := hfields
  rw [all_eq_true] at hall
  refine ⟨isWord_of_graphic ?_ fun x hx => ?_, ?_⟩
  · rintro rfl
    simp at hlength
  · have hx := hall x hx
    simp only [lowerAlphanum, Bool.or_eq_true, Bool.and_eq_true, decide_eq_true_eq] at hx
    rcases hx with (⟨hlow, hhigh⟩ | ⟨hlow, hhigh⟩) | rfl
    · exact ⟨Nat.lt_of_lt_of_le (by decide) (show 'a'.toNat ≤ x.toNat from hlow),
        Nat.lt_of_le_of_lt (show x.toNat ≤ 'z'.toNat from hhigh) (by decide)⟩
    · exact ⟨Nat.lt_of_lt_of_le (by decide) (show '0'.toNat ≤ x.toNat from hlow),
        Nat.lt_of_le_of_lt (show x.toNat ≤ '9'.toNat from hhigh) (by decide)⟩
    · exact ⟨by decide, by decide⟩
  · rintro rfl
    have hstar := hall '*' (by decide)
    exact absurd hstar (by decide)

/-! ### Synthetic identities -/

theorem length_sha256 (bytes : List Nat) : (sha256 bytes).length = 32 := by
  simp [sha256, Sha256.bigEndian]

theorem sha256_lt {bytes : List Nat} {x : Nat} (hx : x ∈ sha256 bytes) : x < 256 := by
  simp only [sha256, mem_flatMap, Sha256.bigEndian, mem_map] at hx
  obtain ⟨_, -, i, -, rfl⟩ := hx
  exact Nat.mod_lt _ (by decide)

/-- The DUID of a quarantine is kind 4 with sixteen bytes. -/
theorem quarantineDUID_eq (scope address : String) :
    quarantineDUID scope address =
      encodeHex (0 :: 4 :: (sha256 (utf8Bytes (scope ++ "/" ++ address))).take 16) := by
  unfold quarantineDUID encodeHex
  rw [flatMap_cons, flatMap_cons, ← append_assoc, String.ofList_append]
  rfl

theorem removeAll_hex (h : (decodeHex value).isSome = true) : removeAll value ':' = value := by
  have hfilter : value.toList.filter (· ≠ ':') = value.toList := by
    rw [filter_eq_self]
    intro x hx
    simpa using fun heq : x = ':' => colon_not_mem_hex h (heq ▸ hx)
  rw [Lib.removeAll, hfilter, String.ofList_toList]

/-- The text is a DUID: lower-case hexadecimal digits, as many as a client may have. -/
structure IsDuid (duid : String) : Prop where
  hex : (decodeHex duid).isSome = true
  lower : toLower duid = duid
  atLeast : 4 ≤ byteLength duid
  atMost : byteLength duid ≤ 256

theorem isDuid_quarantineDUID (scope address : String) : IsDuid (quarantineDUID scope address) := by
  rw [quarantineDUID_eq]
  have hlength : byteLength (encodeHex (0 :: 4 :: (sha256 (utf8Bytes (scope ++ "/" ++ address))).take 16)) = 36 := by
    rw [byteLength_encodeHex, length_cons, length_cons, length_take, length_sha256]
    rfl
  refine ⟨?_, toLower_encodeHex _, by omega, by omega⟩
  rw [decodeHex_encodeHex]
  · rfl
  · intro x hx
    simp only [mem_cons] at hx
    rcases hx with rfl | rfl | hx
    · omega
    · omega
    · exact sha256_lt (mem_of_mem_take hx)

/-- Lower-case digits make a client identifier. -/
theorem validClient_id {bytes : List Nat} (hne : bytes ≠ []) (hlength : bytes.length ≤ 255) :
    validClient ("id:" ++ encodeHex bytes) = true := by
  have hpos := length_pos_iff.mpr hne
  unfold validClient
  rw [if_neg (by simp [startsWith, String.toList_append, List.isPrefixOf]),
    if_neg (by simp [startsWith, String.toList_append, List.isPrefixOf]),
    if_pos (by simp [startsWith, String.toList_append]), trimStart_append]
  simp only [byteLength_encodeHex, Bool.and_eq_true, decide_eq_true_eq, all_eq_true]
  refine ⟨⟨⟨by omega, by omega⟩, by omega⟩, fun x hx => ?_⟩
  have hdigit := isDigit_of_mem_encodeHex hx
  refine ⟨?_, hdigit.lower⟩
  by_contra hnone
  rw [hexDigit, Bool.not_eq_true, Option.isSome_eq_false_iff, Option.isNone_iff_eq_none] at hnone
  exact hdigit.ne hnone rfl

/-! ### The lease of a binding -/

/-- The client of the binding has the identity that stands for a quarantine. -/
def impersonates (b : Binding) : Bool :=
  if startsWith b.client "duid:" then b.duid = quarantineDUID b.scope b.address else b.mac = quarantineMAC

/-- The first field of the line of a binding. -/
def lineExpiry (b : Binding) : Int := if b.endsAt = infiniteEnd then 0 else b.endsAt

/-- The fourth field of the line of a binding. -/
def lineName (b : Binding) : String := if labelPattern b.name then b.name else "*"

/-- The lease that the line of a binding is read as. -/
def leaseOf (b : Binding) : ImportedLease :=
  let lease : ImportedLease :=
    { scope := b.scope, address := b.address, expiry := lineExpiry b,
      hostname := if labelPattern b.name then b.name else "" }
  if startsWith b.client "duid:" then
    { lease with iaid := toLower b.iaid,
                 duid := if b.state = .declined then quarantineDUID b.scope b.address else b.duid }
  else if b.state = .declined then
    { lease with mac := quarantineMAC, clientID := "ff:" ++ colonHex (encodeHex (utf8Bytes b.address)) }
  else { lease with mac := b.mac, clientID := clientField b }

/-- A live binding of a scope, as the handlers and the import write it. -/
structure Sent (c : Config) (now : Int) (s : Scope) (b : Binding) : Prop where
  scope : s ∈ c.scopes
  id : s.id = b.scope
  portable : Portable s b
  canonical : Canonical b.address
  epoch : 0 ≤ now
  ends : now < b.endsAt
  int64 : b.endsAt < 2 ^ 63
  genuine : b.state ≠ .declined → impersonates b = false

section Reading

variable {c : Config} (hc : c.validate = .ok ()) {now : Int} {s : Scope} {b : Binding}

/-- The address of a binding: it is in the subnet, and its family is that of the client. -/
theorem Sent.addr (h : Sent c now s b) :
    ∃ p ip, parsePrefix s.subnet = some p ∧ parseAddr b.address = some ip ∧ Importable p ip ∧ ip.zone = "" ∧
      ip.text = b.address ∧ ip.is6 = startsWith b.client "duid:" := by
  obtain ⟨p, ip, hp, hip, hplace⟩ := h.portable.place
  obtain ⟨hzone, hfamily, -⟩ := Prefix.contains_iff.mp hplace.1
  refine ⟨p, ip, hp, hip, hplace, hzone, (h.canonical ip hip).symm, ?_⟩
  rw [← h.portable.family, Scope.is6, hp, Option.elim_some, Addr.is6, Addr.is6, hfamily]

/-- The line is read as the lease. -/
structure Reads (c : Config) (line : LeaseLine) (l : ImportedLease) : Prop where
  words : ∀ w ∈ [toString line.expiry, line.holder, line.address, line.name, line.client], IsWord w
  lease : parseLease c (toString line.expiry) line.holder line.address line.name line.client = .ok l

/-- Scopes that do not hold the address are passed over. -/
theorem scope_loop_none {ip : Addr} {scopes : List Scope}
    (h : ∀ t ∈ scopes, ∃ p, parsePrefix t.subnet = some p ∧ p.contains ip = false) (found : String) :
    (scopes.foldlM (fun found s => do
      let p ← mustParsePrefix s.subnet
      if p.contains ip then do
        refuseIf (found ≠ "") (.error "ambiguous lease scope")
        pure s.id
      else pure found) found : Except Failure String) = .ok found := by
  induction scopes with
  | nil => rfl
  | cons t scopes ih =>
    obtain ⟨p, hp, hno⟩ := h t mem_cons_self
    rw [foldlM_cons, bind_eq_ok]
    refine ⟨found, ?_, ih fun t ht => h t (mem_cons_of_mem _ ht)⟩
    rw [bind_eq_ok]
    exact ⟨p, mustParsePrefix_eq_ok.mpr hp, by rw [hno]; rfl⟩

include hc

/-- The scope of an address is the one whose subnet it is in. -/
theorem scopeOfAddress_eq (hs : s ∈ c.scopes) {p : Prefix} {ip : Addr} (hp : parsePrefix s.subnet = some p)
    (hin : p.contains ip = true) : scopeOfAddress c ip = .ok s.id := by
  obtain ⟨before, after, hsplit⟩ := append_of_mem hs
  have hnodup : c.scopes.Nodup := (pairwise_apart hc).imp fun happart heq => happart.ids (congrArg Scope.id heq)
  have hothers : ∀ t ∈ c.scopes, t ≠ s → ∃ p, parsePrefix t.subnet = some p ∧ p.contains ip = false := by
    intro t ht hne
    obtain ⟨q, hfacts⟩ := scopeFacts_of_validate hc ht
    refine ⟨q, hfacts.subnet, ?_⟩
    rw [Bool.eq_false_iff]
    intro hq
    refine hne (scope_unique hc ht hs (a := ip) ?_ ?_)
    · rw [Scope.holds, hfacts.subnet]
      exact hq
    · rw [Scope.holds, hp]
      exact hin
  rw [hsplit, nodup_append, nodup_cons] at hnodup
  obtain ⟨-, ⟨hafter, -⟩, hbefore⟩ := hnodup
  have hid : s.id ≠ "" := by
    obtain ⟨q, hfacts⟩ := scopeFacts_of_validate hc hs
    exact (isWord_label hfacts.label).1.1
  unfold scopeOfAddress
  rw [bind_eq_ok]
  refine ⟨s.id, ?_, by simp [hid, refuseIf]⟩
  rw [hsplit, foldlM_append, bind_eq_ok]
  refine ⟨"", scope_loop_none (fun t ht => hothers t ?_ ?_) "", ?_⟩
  · rw [hsplit]
    exact mem_append_left _ ht
  · exact hbefore t ht s mem_cons_self
  · rw [foldlM_cons, bind_eq_ok]
    refine ⟨s.id, ?_, scope_loop_none (fun t ht => hothers t ?_ ?_) s.id⟩
    · rw [bind_eq_ok]
      exact ⟨p, mustParsePrefix_eq_ok.mpr hp, by rw [hin]; rfl⟩
    · rw [hsplit]
      exact mem_append_right _ (mem_cons_of_mem _ ht)
    · rintro rfl
      exact hafter ht

omit hc in
/-- The IAID of a binding is printed as a number and read back as its digits. -/
theorem Sent.iaid (h : Sent c now s b) (h6 : startsWith b.client "duid:" = true) :
    ∃ iaid, parseUint b.iaid 16 32 = some iaid ∧ iaid < 2 ^ 32 ∧ iaidText iaid = toLower b.iaid := by
  have hparts := h.portable.identified (by rw [h.portable.family, h6])
  have hdigits : ∀ x ∈ b.iaid.toList, (digitValue x).isSome := by
    intro x hx
    rw [← digitValue_lowerChar]
    refine digit_of_hex hparts.iaidHex ?_
    rw [toLower, String.toList_ofList]
    exact mem_map_of_mem hx
  refine parseUint_hex ?_ hdigits
  have hlength := hparts.iaidLength
  rw [byteLength_of_graphic fun x hx => isGraphic_of_digit (digit_of_hex hparts.iaidHex hx), length_toLower] at hlength
  exact hlength

omit hc in
/-- What an identifier in a client is made of. -/
theorem hex_of_validClient_id {id : String} (h : validClient ("id:" ++ id) = true) :
    (decodeHex id).isSome = true ∧ toLower id = id ∧ id ≠ "" := by
  unfold validClient at h
  rw [if_neg (by simp [startsWith, String.toList_append, List.isPrefixOf]),
    if_neg (by simp [startsWith, String.toList_append, List.isPrefixOf]),
    if_pos (by simp [startsWith, String.toList_append]), trimStart_append] at h
  simp only [Bool.and_eq_true, decide_eq_true_eq, all_eq_true] at h
  obtain ⟨⟨⟨hmin, -⟩, heven⟩, hall⟩ := h
  have hdigits : ∀ x ∈ id.toList, (digitValue x).isSome := fun x hx => (hall x hx).1
  rw [byteLength_of_graphic fun x hx => isGraphic_of_digit (hdigits x hx)] at hmin heven
  refine ⟨isSome_readHexBytes hdigits heven, ?_, ?_⟩
  · unfold toLower
    rw [map_congr_left (fun x hx => (hall x hx).2), map_id', String.ofList_toList]
  · rintro rfl
    simp at hmin

omit hc in
/-- An IPv4 client is known by its identifier or by its hardware address. -/
theorem Sent.client4 (h : Sent c now s b) (h4 : startsWith b.client "duid:" = false) :
    (∃ id, b.client = "id:" ++ id ∧ clientField b = colonHex id ∧ (decodeHex id).isSome = true ∧
      toLower id = id ∧ id ≠ "") ∨ (b.client = "mac:" ++ b.mac ∧ clientField b = "*") := by
  by_cases hid : startsWith b.client "id:" = true
  · have heq := eq_of_startsWith hid
    have hvalid := h.portable.client
    rw [heq] at hvalid
    exact Or.inl ⟨_, heq, clientField_identified heq, hex_of_validClient_id hvalid⟩
  · have hmac : startsWith b.client "mac:" = true := by
      have hvalid := h.portable.client
      unfold validClient at hvalid
      rw [if_neg (by rw [h4]; decide)] at hvalid
      rw [if_neg hid] at hvalid
      by_contra hmac
      rw [if_neg hmac] at hvalid
      cases hvalid
    exact Or.inr ⟨h.portable.anonymous hmac, clientField_anonymous (by simpa using hid)⟩

omit hc in
theorem isWord_star : IsWord "*" :=
  isWord_of_graphic (by decide) fun x hx => by
    rw [show x = '*' by simpa using hx]
    exact ⟨by decide, by decide⟩

omit hc in
theorem isWord_quarantine (address : String) : IsWord ("ff:" ++ colonHex (encodeHex (utf8Bytes address))) := by
  refine isWord_of_graphic (fun hempty => ?_) fun x hx => ?_
  · have hlist := congrArg String.toList hempty
    simp [String.toList_append] at hlist
  · rw [String.toList_append, mem_append] at hx
    rcases hx with hx | hx
    · have hall : ("ff:".toList.all fun x => 32 < x.toNat && x.toNat < 127) = true := by decide
      have hx := all_eq_true.mp hall x hx
      simpa [IsGraphic] using hx
    · exact isGraphic_colonHex (isSome_decodeHex utf8Bytes_lt) hx

/-- The expiry, the address and the host name of a line are read, whoever holds it. -/
theorem Sent.reads (h : Sent c now s b) {holder : String} (hholder : IsWord holder) (hclient : IsWord client)
    (hread : ∀ lease : ImportedLease, lease =
        { scope := b.scope, address := b.address, expiry := lineExpiry b,
          hostname := if labelPattern b.name then b.name else "" } →
      (if startsWith b.client "duid:" then
        match parseUint holder 10 32 with
        | some iaid => pure { lease with iaid := iaidText iaid, duid := removeAll client ':' }
        | none => throw (.error "unsupported DHCPv6 IAID (temporary addresses are not IA_NA)")
      else pure { lease with mac := holder, clientID := client }) = (.ok l : Except Failure ImportedLease)) :
    Reads c ⟨lineExpiry b, holder, b.address, lineName b, client⟩ l := by
  obtain ⟨p, ip, hp, hip, hplace, hzone, htext, hfamily⟩ := h.addr
  have hscope : scopeOfAddress c ip = .ok b.scope := by
    rw [← h.id]
    exact scopeOfAddress_eq hc h.scope hp hplace.1
  have hexpiry : 0 ≤ lineExpiry b ∧ lineExpiry b < 2 ^ 63 := by
    have hepoch := h.epoch
    have hends := h.ends
    have hint64 := h.int64
    unfold lineExpiry
    split <;> omega
  have hname : IsWord (lineName b) ∧
      (if lineName b = "*" then "" else lineName b) = if labelPattern b.name then b.name else "" := by
    unfold lineName
    by_cases hlabel : labelPattern b.name = true
    · obtain ⟨hword, hstar⟩ := isWord_label hlabel
      rw [if_pos hlabel, if_pos hlabel, if_neg hstar]
      exact ⟨hword, rfl⟩
    · rw [if_neg hlabel, if_neg hlabel]
      exact ⟨isWord_star, rfl⟩
  constructor
  · simp only [mem_cons, not_mem_nil, or_false]
    rintro w (rfl | rfl | rfl | rfl | rfl)
    · obtain ⟨n, hn⟩ := Int.eq_ofNat_of_zero_le hexpiry.1
      rw [hn]
      exact isWord_repr n
    · exact hholder
    · rw [← htext]
      exact isWord_text hzone
    · exact hname.1
    · exact hclient
  · have hparsed : (parseInt64 (toString (lineExpiry b))).filter (0 ≤ ·) = some (lineExpiry b) := by
      rw [parseInt64_toString hexpiry.1 hexpiry.2, Option.filter_some_pos]
      simpa using hexpiry.1
    have hlease := hread _ rfl
    rw [← hname.2, ← hfamily, ← htext] at hlease
    unfold parseLease
    simp only [hip, hparsed, hscope]
    exact hlease

theorem reads_exportLine (h : Sent c now s b) : ∃ line, exportLine b = .ok line ∧ Reads c line (leaseOf b) := by
  obtain ⟨-, ip, -, hip, -, -, -, hfamily⟩ := h.addr
  by_cases h6 : startsWith b.client "duid:" = true
  · obtain ⟨iaid, hparse, hlt, hback⟩ := h.iaid h6
    have hparts := h.portable.identified (by rw [h.portable.family, h6])
    -- A quarantine has another DUID, of the same kind.
    obtain ⟨duid, hduid, hhex, hne⟩ :
        ∃ duid, (if b.state = .declined then quarantineDUID b.scope b.address else b.duid) = duid ∧
          (decodeHex duid).isSome = true ∧ 4 ≤ byteLength duid := by
      refine ⟨_, rfl, ?_⟩
      split
      · have hquarantine := isDuid_quarantineDUID b.scope b.address
        exact ⟨hquarantine.hex, hquarantine.atLeast⟩
      · exact ⟨hparts.duidHex, hparts.duidLength⟩
    refine ⟨⟨lineExpiry b, Nat.repr iaid, b.address, lineName b, colonHex duid⟩, ?_, ?_⟩
    · unfold exportLine
      simp only [hip, hfamily, h6, hparse, if_true, hduid]
      rfl
    · refine h.reads hc (isWord_repr iaid) (isWord_colonHex hhex ?_) ?_
      · rintro rfl
        exact absurd hne (by decide)
      · rintro lease rfl
        rw [if_pos h6, parseUint_repr hlt]
        simp only [leaseOf, h6, if_true, hduid, hback, (spells_colonHex duid).2 hhex]
        rfl
  · have h4 : startsWith b.client "duid:" = false := by simpa using h6
    by_cases hdeclined : b.state = .declined
    · refine ⟨⟨lineExpiry b, quarantineMAC, b.address, lineName b, _⟩, ?_, h.reads hc ?_ (isWord_quarantine b.address) ?_⟩
      · unfold exportLine
        simp only [hip, hfamily, h4, hdeclined]
        rfl
      · have hword := isWord_macText (show [2, 255, 255, 255, 255, 254] ≠ [] by decide)
        exact hword
      · rintro lease rfl
        rw [if_neg h6]
        simp only [leaseOf, h4, hdeclined, if_true]
        rfl
    · refine ⟨⟨lineExpiry b, b.mac, b.address, lineName b, clientField b⟩, ?_, h.reads hc ?_ ?_ ?_⟩
      · unfold exportLine
        simp only [hip, hfamily, h4, hdeclined]
        rfl
      · obtain ⟨hw, -, hsix, hmac⟩ := h.portable.hardware (by rw [h.portable.family, h4])
        rw [← hmac]
        exact isWord_macText (by rintro rfl; cases hsix)
      · rcases h.client4 h4 with ⟨id, -, hfield, hhex, -, hne⟩ | ⟨-, hfield⟩
        · rw [hfield]
          exact isWord_colonHex hhex hne
        · rw [hfield]
          exact isWord_star
      · rintro lease rfl
        rw [if_neg h6]
        simp only [leaseOf, h4, hdeclined]
        rfl

end Reading

/-! ### The file -/

section File

variable {c : Config}

theorem parseLeaseLine_reads {line : LeaseLine} (h : Reads c line l) (doc : ImportDocument) (k : Nat) :
    parseLeaseLine c doc (line.text, k) = .ok { doc with leases := doc.leases ++ [l] } := by
  have hfields : fields line.text = [toString line.expiry, line.holder, line.address, line.name, line.client] :=
    fields_words h.words
  unfold parseLeaseLine
  simp only [hfields, h.lease]
  rfl

theorem parseLeaseLine_empty (doc : ImportDocument) (k : Nat) : parseLeaseLine c doc ("", k) = .ok doc := rfl

/-- The lines of the bindings are read as their leases. The last line is the empty one. -/
theorem read_lines (hc : c.validate = .ok ()) (h : ∀ b ∈ bs, ∃ s, Sent c now s b) :
    ∃ lines, bs.mapM exportLine = .ok lines ∧ (∀ line ∈ lines, '\n' ∉ line.text.toList) ∧
      ∀ (doc : ImportDocument) (k : Nat),
        ((lines.map LeaseLine.text ++ [""]).zipIdx k).foldlM (parseLeaseLine c) doc =
          .ok { doc with leases := doc.leases ++ bs.map leaseOf } := by
  induction bs with
  | nil =>
    refine ⟨[], rfl, by simp, fun doc k => ?_⟩
    simp [parseLeaseLine_empty]
  | cons b bs ih =>
    obtain ⟨s, hs⟩ := h b mem_cons_self
    obtain ⟨line, hline, hreads⟩ := reads_exportLine hc hs
    obtain ⟨lines, hlines, hends, hread⟩ := ih fun b hb => h b (mem_cons_of_mem _ hb)
    refine ⟨line :: lines, ?_, ?_, fun doc k => ?_⟩
    · rw [mapM_cons, hline, hlines]
      rfl
    · intro l hl
      rcases mem_cons.mp hl with rfl | hl
      · exact not_newline_words hreads.words
      · exact hends l hl
    · rw [map_cons, cons_append, zipIdx_cons, foldlM_cons, parseLeaseLine_reads hreads]
      show List.foldlM _ _ _ = _
      rw [hread]
      simp

/-- The first line is read as the identity of the server. -/
theorem parseLeaseLine_header {duid : String} (hhex : (decodeHex duid).isSome = true) (hne : duid ≠ "")
    (doc : ImportDocument) (k : Nat) :
    '\n' ∉ ("duid " ++ colonHex duid).toList ∧
      parseLeaseLine c doc ("duid " ++ colonHex duid, k) = .ok { doc with serverDUID := duid } := by
  have hwords : ∀ w ∈ ["duid", colonHex duid], IsWord w := by
    simp only [mem_cons, not_mem_nil, or_false]
    rintro w (rfl | rfl)
    · exact (isWord_label (by decide)).1
    · exact isWord_colonHex hhex hne
  have hline : "duid " ++ colonHex duid = joinText ["duid", colonHex duid] " " := by
    rw [← String.toList_inj]
    simp [joinText, intercalate_cons_cons, String.toList_append]
  rw [hline]
  refine ⟨not_newline_words hwords, ?_⟩
  unfold parseLeaseLine
  simp only [fields_words hwords, (spells_colonHex duid).2 hhex]
  rfl

/-- The file of a ledger is read as its leases and its identity. -/
theorem parseDNSmasq_file (hc : c.validate = .ok ()) (h : ∀ b ∈ bs, ∃ s, Sent c now s b) {duid : List Nat}
    (hduid : ∀ x ∈ duid, x < 256) : ∃ lines, bs.mapM exportLine = .ok lines ∧
      parseDNSmasq c (leaseFileText (encodeHex duid) lines) =
        .ok { leases := bs.map leaseOf, serverDUID := encodeHex duid } := by
  obtain ⟨lines, hlines, hends, hread⟩ := read_lines hc h
  refine ⟨lines, hlines, ?_⟩
  have hendsText : ∀ l ∈ lines.map LeaseLine.text, '\n' ∉ l.toList := by
    intro l hl
    obtain ⟨line, hline, rfl⟩ := mem_map.mp hl
    exact hends line hline
  unfold parseDNSmasq leaseFileText
  by_cases hempty : encodeHex duid = ""
  · -- Without an identity there is no header, and without leases there are two empty lines.
    simp only [hempty, ne_eq, not_true_eq_false, if_false, nil_append]
    by_cases hnil : lines.map LeaseLine.text = []
    · have hbs := hread {} 1
      rw [hnil] at hbs ⊢
      exact hbs
    · rw [splitText_lines hnil hendsText]
      exact hread {} 0
  · obtain ⟨hend, hheader⟩ := parseLeaseLine_header (c := c) (isSome_decodeHex hduid) hempty {} 0
    have hall : ∀ l ∈ ["duid " ++ colonHex (encodeHex duid)] ++ lines.map LeaseLine.text, '\n' ∉ l.toList := by
      intro l hl
      rcases mem_cons.mp hl with rfl | hl
      · exact hend
      · exact hendsText l hl
    simp only [ne_eq, hempty, not_false_eq_true, if_true]
    rw [splitText_lines (by simp) hall, singleton_append, cons_append, zipIdx_cons, foldlM_cons,
      hheader]
    exact hread _ 1

end File

/-! ### The import -/

/-- The second binding is the first one again: the place, the end, and the holder or the quarantine. -/
structure Restored (b b' : Binding) : Prop where
  scope : b'.scope = b.scope
  address : b'.address = b.address
  endsAt : b'.endsAt = b.endsAt
  owner : b.state ≠ .declined → b'.state = .active ∧ b'.client = b.client
  quarantine : b.state = .declined → b'.state = .declined

theorem endsAt_lineExpiry {s : Scope} {b : Binding} (h : Sent c now s b) :
    (if lineExpiry b = 0 then infiniteEnd else lineExpiry b) = b.endsAt := by
  have hepoch := h.epoch
  have hends := h.ends
  unfold lineExpiry
  by_cases hinfinite : b.endsAt = infiniteEnd
  · rw [if_pos hinfinite, if_pos rfl, hinfinite]
  · rw [if_neg hinfinite, if_neg (by omega)]

theorem equalFold_eq {x y : String} (hx : toLower x = x) (hy : toLower y = y) :
    equalFold x y = decide (x = y) := by
  have hlower : (x.toList.map lowerChar = y.toList.map lowerChar) ↔ x = y := by
    constructor
    · intro heq
      rw [← hx, ← hy]
      exact congrArg String.ofList heq
    · rintro rfl
      rfl
  exact decide_eq_decide.mpr hlower

theorem leaseOf_place (b : Binding) : (leaseOf b).scope = b.scope ∧ (leaseOf b).address = b.address ∧
    (leaseOf b).expiry = lineExpiry b := by
  unfold leaseOf
  dsimp only
  split
  · exact ⟨rfl, rfl, rfl⟩
  · split
    · exact ⟨rfl, rfl, rfl⟩
    · exact ⟨rfl, rfl, rfl⟩

/-- The lease of the binding is imported as the binding again. -/
def SentBack (now : Int) (c : Config) (doc : ImportDocument) (L : Ledger) (b : Binding) : Prop :=
  ∃ b', importLease now (disabled c) doc L (leaseOf b) = .ok (L.save now b' .import) ∧ Restored b b'

section Import

variable {c : Config} (hc : c.validate = .ok ()) {now : Int} {s : Scope} {b : Binding} (h : Sent c now s b)
  {L : Ledger} {doc : ImportDocument}

include hc h

/-- The checks of the import pass for a lease at the place of the binding. -/
theorem checkImported_sent {mac : String} (hserver : (leaseOf b).duid ≠ "" → L.duid ≠ [])
    (hhardware : s.is6 = false → ∃ hw, parseMAC (leaseOf b).mac = some hw ∧ hw.length = 6)
    (hmac : (parseMAC (leaseOf b).mac).elim "" macText = mac) (hclient : importedClient s (leaseOf b) mac = client)
    (hvalid : validClient client = true) :
    checkImported L (disabled c) doc (leaseOf b) = .ok (switchedOff s, mac, client) := by
  obtain ⟨hscope, haddress, hexpiry⟩ := leaseOf_place b
  generalize leaseOf b = l at *
  obtain ⟨p, ip, hp, hip, hplace, -, -, -⟩ := h.addr
  have hfind : (disabled c).scope l.scope = some (switchedOff s) := by
    rw [hscope, ← h.id, scope_disabled, scope_of_mem hc h.scope]
    rfl
  have hnonneg : ¬ l.expiry < 0 := by
    have hends := endsAt_lineExpiry h
    have hepoch := h.epoch
    have hlive := h.ends
    rw [hexpiry]
    split at hends <;> omega
  have hidentified : (decide (l.duid ≠ "") && decide (doc.serverDUID = "") && decide (L.duid = [])) = false := by
    by_cases hl : l.duid = ""
    · simp [hl]
    · simp [hserver hl]
  have hwhere : ((parseAddr l.address).elim false fun ip =>
      p.contains ip && decide (ip ≠ p.addr) && (p.addr.is6 || decide (ip ≠ lastAddr p)) &&
        decide (l.address ≠ s.server) && decide (l.address ≠ s.router)) = true := by
    rw [haddress, hip, Option.elim_some]
    have hlast := hplace.2.2
    simp only [Bool.and_eq_true, Bool.or_eq_true, decide_eq_true_eq]
    exact ⟨⟨⟨⟨hplace.1, hplace.2.1⟩, hlast⟩, h.portable.server⟩, h.portable.router⟩
  have hhw : (!s.is6 && !(parseMAC l.mac).elim false fun m => decide (m.length = 6)) = false := by
    cases h6 : s.is6 with
    | true => rfl
    | false =>
      obtain ⟨hw, hparse, hsix⟩ := hhardware h6
      simp [hparse, hsix]
  have hprefix : mustParsePrefix (switchedOff s).subnet = .ok p := mustParsePrefix_eq_ok.mpr hp
  have hkind : importedClient (switchedOff s) l mac = client := hclient
  unfold checkImported
  simp only [hfind, hmac, hkind, hvalid, bind_eq_ok, refuseIf_eq_ok, exists_const, decide_eq_false_iff_not]
  refine ⟨hnonneg, hidentified, rfl, p, hprefix, ?_, hhw, rfl, rfl⟩
  rw [Bool.not_eq_false']
  exact hwhere

omit hc in
/-- A lease that passes the checks is written, where nothing is in the way. -/
theorem importLease_free {mac : String} (hfree : L.bindings.get b.key = none)
    (hcheck : checkImported L (disabled c) doc (leaseOf b) = .ok (switchedOff s, mac, client))
    (hmarker : isQuarantineMarker (switchedOff s) (leaseOf b) mac = decide (b.state = .declined))
    (hclient : b.state ≠ .declined → client = b.client) : SentBack now c doc L b := by
  obtain ⟨hscope, haddress, hexpiry⟩ := leaseOf_place b
  unfold SentBack
  generalize leaseOf b = l at *
  have hends : importedEnd l = b.endsAt := by
    rw [importedEnd, hexpiry]
    exact endsAt_lineExpiry h
  have hold : L.readBinding l.scope l.address = {} := by
    rw [hscope, haddress]
    show (L.bindings.get b.key).getD {} = {}
    rw [hfree]
    rfl
  have hnow : ¬ b.endsAt ≤ now := by
    have hends := h.ends
    omega
  have hepoch := h.epoch
  have hidle : ¬ ({} : Binding).endsAt > now := by
    show ¬ (0 : Int) > now
    omega
  unfold importLease
  rw [hcheck]
  by_cases hdeclined : b.state = .declined
  · refine ⟨restoredQuarantine now (switchedOff s) l mac client b.endsAt, ?_, ?_⟩
    · show (if importedEnd l ≤ now then _ else _) = _
      rw [hends, if_neg hnow, if_pos (by rw [hmarker, hdeclined]; rfl), hold,
        if_neg fun hlive => hidle hlive.1, if_neg (by simp [Binding.held, hepoch])]
      rfl
    · exact ⟨hscope, haddress, rfl, fun hne => absurd hdeclined hne, fun _ => rfl⟩
  · refine ⟨importedBinding now (disabled c) (switchedOff s) l mac client b.endsAt {}, ?_, ?_⟩
    · show (if importedEnd l ≤ now then _ else _) = _
      have hlive : ¬ ({} : Binding).live now = true := by
        simp [Binding.live, hepoch]
      rw [hends, if_neg hnow, if_neg (by rw [hmarker]; simp [hdeclined]), hold, if_neg fun hkeep => hlive hkeep.1,
        if_neg fun hconflict => hlive hconflict.1]
      rfl
    · obtain ⟨hscope', haddress', hclient', -, hstate, -, hends'⟩ :=
        importedBinding_fields now (disabled c) (switchedOff s) l mac client b.endsAt {}
      exact ⟨hscope'.trans hscope, haddress'.trans haddress, hends', fun hne => ⟨hstate, hclient'.trans (hclient hne)⟩,
        fun hd => absurd hd hdeclined⟩

theorem importLease_duid (h6 : startsWith b.client "duid:" = true) (hfree : L.bindings.get b.key = none)
    (hserver : L.duid ≠ []) :
    SentBack now c doc L b := by
  have his6 : s.is6 = true := by rw [h.portable.family, h6]
  have hparts := h.portable.identified his6
  -- The DUID of the lease has one spelling, without colons.
  obtain ⟨duid, hduid, hhex, hlower, hvalid⟩ :
      ∃ duid, (if b.state = .declined then quarantineDUID b.scope b.address else b.duid) = duid ∧
        (decodeHex duid).isSome = true ∧ toLower duid = duid ∧
        validClient ("duid:" ++ duid ++ "/iaid:" ++ toLower b.iaid) = true := by
    refine ⟨_, rfl, ?_⟩
    split
    · have hquarantine := isDuid_quarantineDUID b.scope b.address
      refine ⟨hquarantine.hex, hquarantine.lower, ?_⟩
      rw [validClient_duid hquarantine.hex hquarantine.lower hparts.iaidHex hparts.iaidLower hparts.iaidLength]
      simp [hquarantine.atLeast, hquarantine.atMost]
    · refine ⟨hparts.duidHex, hparts.duidLower, ?_⟩
      rw [← hparts.eq]
      exact h.portable.client
  have hlease : (leaseOf b).duid = duid ∧ (leaseOf b).iaid = toLower b.iaid ∧ (leaseOf b).mac = "" := by
    unfold leaseOf
    rw [if_pos h6, ← hduid]
    exact ⟨rfl, rfl, rfl⟩
  obtain ⟨hleaseDuid, hleaseIaid, hleaseMac⟩ := hlease
  have hplain : removeAll duid ':' = duid := removeAll_hex hhex
  have hclient : importedClient s (leaseOf b) "" = "duid:" ++ duid ++ "/iaid:" ++ toLower b.iaid := by
    rw [importedClient, if_pos his6, hleaseDuid, hleaseIaid, hplain, hlower, hparts.iaidLower]
  refine importLease_free h hfree (checkImported_sent hc h (fun _ => hserver) (fun h4 => ?_) ?_ hclient hvalid) ?_ ?_
  · rw [his6] at h4
    cases h4
  · rw [hleaseMac]
    rfl
  · have his6' : (switchedOff s).is6 = true := his6
    rw [isQuarantineMarker, if_pos his6', hleaseDuid, hplain]
    show equalFold duid (quarantineDUID s.id (leaseOf b).address) = _
    rw [h.id, (leaseOf_place b).2.1, equalFold_eq hlower (isDuid_quarantineDUID _ _).lower, ← hduid]
    by_cases hdeclined : b.state = .declined
    · simp [hdeclined]
    · have hgenuine := h.genuine hdeclined
      rw [impersonates, if_pos h6] at hgenuine
      simpa [hdeclined] using hgenuine
  · intro hdeclined
    rw [if_neg hdeclined] at hduid
    rw [← hduid]
    exact hparts.eq.symm

theorem importLease_quarantine (h4 : startsWith b.client "duid:" = false) (hdeclined : b.state = .declined)
    (hfree : L.bindings.get b.key = none) :
    SentBack now c doc L b := by
  have his4 : ¬ s.is6 = true := by rw [h.portable.family, h4]; decide
  obtain ⟨-, ip, -, -, -, hzone, htext, hfamily⟩ := h.addr
  obtain ⟨hleaseMac, hleaseClient, hleaseDuid⟩ : (leaseOf b).mac = quarantineMAC ∧
      (leaseOf b).clientID = "ff:" ++ colonHex (encodeHex (utf8Bytes b.address)) ∧ (leaseOf b).duid = "" := by
    unfold leaseOf
    rw [if_neg (by rw [h4]; decide), if_pos hdeclined]
    exact ⟨rfl, rfl, rfl⟩
  have hmac : parseMAC quarantineMAC = some [2, 255, 255, 255, 255, 254] := by decide
  -- The identifier is the byte 255 and the text of the address.
  have hid : removeAll ("ff:" ++ colonHex (encodeHex (utf8Bytes b.address))) ':' =
      encodeHex (255 :: utf8Bytes b.address) := by
    have hrest := (spells_colonHex (encodeHex (utf8Bytes b.address))).2 (isSome_decodeHex utf8Bytes_lt)
    rw [Lib.removeAll, String.toList_append, filter_append, String.ofList_append]
    show String.ofList ['f', 'f'] ++ removeAll (colonHex (encodeHex (utf8Bytes b.address))) ':' = _
    rw [hrest, encodeHex, encodeHex, flatMap_cons, String.ofList_append]
    rfl
  have hclient : importedClient s (leaseOf b) quarantineMAC = "id:" ++ encodeHex (255 :: utf8Bytes b.address) := by
    have hsome : (leaseOf b).clientID ≠ "" ∧ (leaseOf b).clientID ≠ "*" := by
      rw [hleaseClient]
      constructor
      · intro hempty
        have hlist := congrArg String.toList hempty
        simp [String.toList_append] at hlist
      · intro hstar
        have hlist := congrArg String.toList hstar
        simp [String.toList_append] at hlist
    rw [importedClient, if_neg his4, if_pos hsome, hleaseClient, hid, toLower_encodeHex]
  have hlength : (utf8Bytes b.address).length ≤ 15 := by
    rw [← htext, length_utf8Bytes fun x hx => isGraphic_text hzone hx]
    exact length_text_v4 hzone (hfamily.trans h4)
  refine importLease_free h hfree
    (checkImported_sent hc h (fun hne => absurd hleaseDuid hne) (fun _ => ?_) ?_ hclient ?_) ?_ ?_
  · rw [hleaseMac, hmac]
    exact ⟨_, rfl, rfl⟩
  · rw [hleaseMac, hmac]
    rfl
  · exact validClient_id (by simp) (by simp only [length_cons]; omega)
  · have his4' : ¬ (switchedOff s).is6 = true := his4
    rw [isQuarantineMarker, if_neg his4', hdeclined]
    rfl
  · exact fun hne => absurd hdeclined hne

theorem importLease_hardware (h4 : startsWith b.client "duid:" = false) (hdeclined : b.state ≠ .declined)
    (hfree : L.bindings.get b.key = none) :
    SentBack now c doc L b := by
  have his4 : s.is6 = false := by rw [h.portable.family, h4]
  obtain ⟨hleaseMac, hleaseClient, hleaseDuid⟩ : (leaseOf b).mac = b.mac ∧ (leaseOf b).clientID = clientField b ∧
      (leaseOf b).duid = "" := by
    unfold leaseOf
    rw [if_neg (by rw [h4]; decide), if_neg hdeclined]
    exact ⟨rfl, rfl, rfl⟩
  obtain ⟨hw, hparse, hsix, hmac⟩ := h.portable.hardware his4
  have hclient : importedClient s (leaseOf b) b.mac = b.client := by
    rw [importedClient, if_neg (by rw [his4]; decide), hleaseClient]
    rcases h.client4 h4 with ⟨id, heq, hfield, hhex, hlower, hne⟩ | ⟨heq, hfield⟩
    · have hspell := (spells_colonHex id).2 hhex
      have hsome : colonHex id ≠ "" ∧ colonHex id ≠ "*" := by
        refine ⟨(isWord_colonHex hhex hne).1, fun hstar => ?_⟩
        -- A star is no hexadecimal text.
        rw [hstar] at hspell
        rw [← hspell] at hhex
        exact absurd hhex (by decide)
      rw [hfield, if_pos hsome, hspell, hlower, heq]
    · rw [hfield, if_neg (by simp), heq]
  refine importLease_free h hfree
    (checkImported_sent hc h (fun hne => absurd hleaseDuid hne) (fun _ => ?_) ?_ hclient h.portable.client) ?_ ?_
  · rw [hleaseMac]
    exact ⟨hw, hparse, hsix⟩
  · rw [hleaseMac, hparse]
    exact hmac
  · have his4' : ¬ (switchedOff s).is6 = true := by
      show ¬ s.is6 = true
      rw [his4]
      decide
    have hgenuine := h.genuine hdeclined
    rw [impersonates, if_neg (by rw [h4]; decide)] at hgenuine
    rw [isQuarantineMarker, if_neg his4', hgenuine]
    simp [hdeclined]
  · exact fun _ => rfl

/-- The lease of a binding brings it back, where nothing is in the way. -/
theorem importLease_leaseOf (hfree : L.bindings.get b.key = none)
    (hserver : startsWith b.client "duid:" = true → L.duid ≠ []) :
    SentBack now c doc L b := by
  by_cases h6 : startsWith b.client "duid:" = true
  · exact importLease_duid hc h h6 hfree (hserver h6)
  · have h4 : startsWith b.client "duid:" = false := by simpa using h6
    by_cases hdeclined : b.state = .declined
    · exact importLease_quarantine hc h h4 hdeclined hfree
    · exact importLease_hardware hc h h4 hdeclined hfree

end Import

/-- The leases of bindings with different keys bring all of them back, and nothing else. -/
theorem import_leases (hc : c.validate = .ok ()) {doc : ImportDocument} (hsent : ∀ b ∈ bs, ∃ s, Sent c now s b)
    (hnodup : (bs.map Binding.key).Nodup) (hfree : ∀ b ∈ bs, L.bindings.get b.key = none)
    (hserver : ∀ b ∈ bs, startsWith b.client "duid:" = true → L.duid ≠ []) :
    ∃ L', (bs.map leaseOf).foldlM (importLease now (disabled c) doc) L = .ok L' ∧ L'.duid = L.duid ∧
      (∀ b ∈ bs, ∃ b', L'.bindings.get b.key = some b' ∧ Restored b b') ∧
      ∀ k, (∀ b ∈ bs, b.key ≠ k) → L'.bindings.get k = L.bindings.get k := by
  induction bs generalizing L with
  | nil => exact ⟨L, rfl, rfl, by simp, fun _ _ => rfl⟩
  | cons b bs ih =>
    obtain ⟨s, hs⟩ := hsent b mem_cons_self
    obtain ⟨b', himport, hrestored⟩ : SentBack now c doc L b :=
      importLease_leaseOf hc hs (hfree b mem_cons_self) (hserver b mem_cons_self)
    have hkey : b'.key = b.key := by rw [Binding.key, hrestored.scope, hrestored.address, Binding.key]
    rw [map_cons, nodup_cons] at hnodup
    have hother : ∀ b1 ∈ bs, b1.key ≠ b.key := by
      intro b1 hb1 heq
      exact hnodup.1 (heq ▸ mem_map_of_mem hb1)
    obtain ⟨L', hloop, hduid, hback, hkept⟩ := ih (fun b1 hb1 => hsent b1 (mem_cons_of_mem _ hb1)) hnodup.2
      (L := L.save now b' .import)
      (fun b1 hb1 => by
        rw [bindings_save, hkey, Bucket.get_put_of_ne _ (hother b1 hb1)]
        exact hfree b1 (mem_cons_of_mem _ hb1))
      (fun b1 hb1 h6 => by
        rw [duid_save]
        exact hserver b1 (mem_cons_of_mem _ hb1) h6)
    refine ⟨L', ?_, hduid.trans (duid_save ..), ?_, ?_⟩
    · rw [map_cons, foldlM_cons, himport]
      exact hloop
    · intro b1 hb1
      rcases mem_cons.mp hb1 with rfl | hb1
      · refine ⟨b', ?_, hrestored⟩
        rw [hkept _ hother, bindings_save, hkey, Bucket.get_put_self]
      · exact hback b1 hb1
    · intro k hk
      rw [hkept k fun b1 hb1 => hk b1 (mem_cons_of_mem _ hb1), bindings_save, hkey,
        Bucket.get_put_of_ne _ (Ne.symm (hk b mem_cons_self))]

/-! ### The ledger -/

/-- The ledger `L'` is what a lease file of `L` is to bring back: one binding for each that has a line, at its
place and with its end, and the identity of the server. -/
structure BroughtBack (L : Ledger) (now : Int) (L' : Ledger) : Prop where
  each : ∀ b, Exported L now b → ∃ b', L'.bindings.get b.key = some b' ∧ Restored b b'
  only : ∀ k b', L'.bindings.get k = some b' → ∃ b, Exported L now b ∧ b.key = k
  duid : L'.duid = L.duid

/-- The bindings with a line: each has a key of its own, and they are no more than the live ones. -/
theorem exportable_snapshot (hL : Keyed L) {snap : Snapshot} (hsnap : L.snapshot now "" "" 0 = .ok snap) :
    0 ≤ now ∧ snap.serverDUID = encodeHex L.duid ∧ ((snap.bindings.filter exportable).map Binding.key).Nodup ∧
      (snap.bindings.filter exportable).length ≤ ((L.bindings.entries.map Prod.snd).filter (·.live now)).length := by
  simp only [Ledger.snapshot, if_true, bind_eq_ok, refuseIf_eq_ok, exists_const, pure_eq_ok, Ledger.selected, decide_true,
    Bool.true_or, Bool.and_self, filter_true, decide_eq_false_iff_not, not_lt] at hsnap
  obtain ⟨hepoch, -, rfl⟩ := hsnap
  have hsorted := perm_insertionSort (fun a b : Binding => a.before b = true)
    ((L.bindings.entries.map Prod.snd).map (·.at now))
  have hkeys : ((L.bindings.entries.map Prod.snd).map (·.at now)).map Binding.key = L.bindings.entries.map Prod.fst := by
    rw [map_map, map_map]
    refine map_congr_left fun e he => ?_
    show (e.2.at now).key = e.1
    rw [← hL e.1 e.2 (Bucket.mem_entries.mp he)]
    unfold Binding.at
    split <;> rfl
  refine ⟨hepoch, rfl, ?_, ?_⟩
  · refine List.Nodup.sublist (filter_sublist.map _) ?_
    rw [(hsorted.map Binding.key).nodup_iff, hkeys]
    exact (pairwise_map.mpr L.bindings.sorted).imp fun hlt => ne_of_lt hlt
  · rw [(hsorted.filter exportable).length_eq, ← countP_eq_length_filter, ← countP_eq_length_filter, countP_map]
    refine countP_mono_left fun b _ hb => ?_
    simp only [Function.comp_apply, exportable, Bool.and_eq_true] at hb
    exact live_of_liveState_at hb.1.1

/-- The identity in the file becomes that of an empty ledger. -/
theorem adoptServer_encodeHex (c' : Config) (hL : Carried c L) (leases : List ImportedLease) :
    ({} : Ledger).adoptServer (disabled c') { leases, serverDUID := encodeHex L.duid } = .ok { duid := L.duid } := by
  unfold Ledger.adoptServer
  by_cases hnone : L.duid = []
  · simp [hnone, encodeHex]
  · obtain ⟨hwell, hbytes⟩ := hL.wellFormed hnone
    have hback := decodeHex_encodeHex hbytes
    have hne : encodeHex L.duid ≠ "" := by
      intro hempty
      rw [hempty] at hback
      exact hnone (Option.some.inj hback).symm
    have hoff : ((disabled c').scopes.any fun s => s.is6 && s.enabled) = false := by
      simp [disabled]
    rw [if_pos hne, Ledger.adoptDUID, removeAll_hex (by rw [hback]; rfl), hback]
    simp only [hwell, hoff]
    rfl

/-- **The lease file round-trips.** Whatever the handlers, releases, expiry and imports have made of a ledger,
its lease file is read, and importing it brings its leases back. -/
theorem lease_file_round_trip {c : Config} (hc : c.validate = .ok ()) {L : Ledger} (hL : Served c L) {now : Int}
    (hmany : ((L.bindings.entries.map Prod.snd).filter (·.live now)).length ≤ 10000)
    (hcanonical : ∀ b, Exported L now b → Canonical b.address)
    (hgenuine : ∀ b, Exported L now b → b.state ≠ .declined → impersonates b = false)
    (hint64 : ∀ b, Exported L now b → Int64 b.endsAt) {snap : Snapshot}
    (hsnap : L.snapshot now "" "" 0 = .ok snap) :
    ∃ text doc L', exportDNSmasq snap = .ok text ∧ parseDNSmasq c text = .ok doc ∧
      ({} : Ledger).importDocument now (disabled c) doc = .ok L' ∧ BroughtBack L now L' := by
  obtain ⟨hreached, hcarried⟩ := ready_of_served hL
  have hkeyed : Keyed L := fun _ _ hb => (filed_of_reached hreached).sound.keyed hb
  obtain ⟨hepoch, hheader, hnodup, hlength⟩ := exportable_snapshot hkeyed hsnap
  have hduid : ∀ x ∈ L.duid, x < 256 := by
    by_cases hnone : L.duid = []
    · simp [hnone]
    · exact (hcarried.wellFormed hnone).2
  have hsent : ∀ b ∈ snap.bindings.filter exportable, ∃ s, Sent c now s b := by
    intro b hb
    have hexported := (mem_exportable hsnap).mp hb
    have hparts := hexported
    obtain ⟨⟨k, hk⟩, hlive, -, hpd⟩ := hparts
    obtain ⟨s, hs, hid, hportable⟩ := hcarried.portable hk hpd
    have hends : now < b.endsAt := by
      simp only [Binding.live, Bool.and_eq_true, decide_eq_true_eq] at hlive
      exact hlive.1
    exact ⟨s, hs, hid, hportable, hcanonical b hexported, hepoch, hends, (hint64 b hexported).2, hgenuine b hexported⟩
  obtain ⟨lines, hlines, hparse⟩ := parseDNSmasq_file hc hsent hduid
  have hexport : exportDNSmasq snap = .ok (leaseFileText (encodeHex L.duid) lines) := by
    rw [exportDNSmasq, hlines, ← hheader]
    rfl
  have hserver : ∀ b ∈ snap.bindings.filter exportable, startsWith b.client "duid:" = true → L.duid ≠ [] := by
    intro b hb h6
    obtain ⟨⟨k, hk⟩, -, -, hpd⟩ := (mem_exportable hsnap).mp hb
    exact hcarried.identified hk hpd h6
  obtain ⟨L', hloop, hback, heach, hkept⟩ := import_leases (L := { duid := L.duid }) hc hsent hnodup (fun _ _ => rfl) hserver
  refine ⟨_, _, L', hexport, hparse, ?_, ?_⟩
  · rw [Ledger.importDocument, bind_eq_ok]
    refine ⟨(), ?_, ?_⟩
    · rw [refuseIf_eq_ok, decide_eq_false_iff_not, length_map]
      omega
    · rw [bind_eq_ok]
      exact ⟨_, adoptServer_encodeHex c hcarried _, hloop⟩
  · refine ⟨fun b hb => heach b ((mem_exportable hsnap).mpr hb), fun k b' hb' => ?_, hback⟩
    by_contra hnone
    have hk := hkept k fun b hb heq => hnone ⟨b, (mem_exportable hsnap).mp hb, heq⟩
    rw [hb'] at hk
    cases hk

theorem exists_snapshot (L : Ledger) (hepoch : 0 ≤ now) : ∃ snap, L.snapshot now "" "" 0 = .ok snap := by
  simp only [Ledger.snapshot, if_true, bind_eq_ok, refuseIf_eq_ok, exists_const, pure_eq_ok, decide_eq_false_iff_not,
    not_lt]
  exact ⟨_, hepoch, le_refl now, rfl⟩

/-- A message of a client with the given last byte of its hardware address. -/
def message4 (kind : MessageType4) (last : Nat) (ip : BitVec 32) : Message4 where
  hwAddr := [2, 0, 0, 0, 0, last]
  messageType := kind
  requestedIP := some ip

/-- What the messages make of a ledger, one after the other, each sent to every scope. -/
def handleAll (c : Config) (messages : List Message4) (L : Ledger) : Ledger :=
  messages.foldl (fun L r => c.scopes.foldl (fun L s => ((handle4 c s 0 r).on L).2) L) L

theorem served_handleAll (hc : c.validate = .ok ()) (messages : List Message4) (hL : Served c L) :
    Served c (handleAll c messages L) := by
  refine foldl_invariant (I := Served c) (fun r _ L1 hL1 => ?_) hL
  refine foldl_invariant (I := Served c) (fun s hs L2 hL2 => ?_) hL1
  exact .handle4 hL2 ⟨hc, rfl⟩ hs 0 r

/-- One client has 10.0.0.5, another one has found 10.0.0.6 in use. -/
def declinedSix : Ledger :=
  handleAll (smallLan 600)
    [message4 .request 1 0x0a000005, message4 .request 2 0x0a000006, message4 .decline 2 0x0a000006] {}

theorem lease_file_round_trip_declinedSix :
    (declinedSix.bindings.entries.map fun e => (e.1, e.2.state)) =
        [("lan/10.0.0.5", .active), ("lan/10.0.0.6", .declined)] ∧
      ∃ snap text doc L', declinedSix.snapshot 100 "" "" 0 = .ok snap ∧ exportDNSmasq snap = .ok text ∧
        parseDNSmasq (smallLan 600) text = .ok doc ∧
        ({} : Ledger).importDocument 100 (disabled (smallLan 600)) doc = .ok L' ∧ BroughtBack declinedSix 100 L' := by
  have hfacts : (smallLan 600).validate = .ok () ∧
      (declinedSix.bindings.entries.map fun e => (e.1, e.2.state)) =
        [("lan/10.0.0.5", .active), ("lan/10.0.0.6", .declined)] ∧
      ((declinedSix.bindings.entries.map Prod.snd).all fun b =>
        (parseAddr b.address).all (fun a => b.address = a.text) && (b.state = .declined || !impersonates b) &&
          (-2 ^ 63 ≤ b.endsAt && b.endsAt < 2 ^ 63)) = true := by decide +kernel
  obtain ⟨hvalid, hentries, hall⟩ := hfacts
  have hmember : ∀ b, Exported declinedSix 100 b → Canonical b.address ∧ (b.state ≠ .declined → impersonates b = false) ∧
      Int64 b.endsAt := by
    rintro b ⟨⟨k, hk⟩, -⟩
    have hb := all_eq_true.mp hall b (mem_map.mpr ⟨(k, b), Bucket.mem_entries.mpr hk, rfl⟩)
    simp only [Bool.and_eq_true, Bool.or_eq_true, decide_eq_true_eq, Bool.not_eq_true'] at hb
    exact ⟨canonical_iff.mpr hb.1.1, fun hne => hb.1.2.resolve_left hne, hb.2⟩
  have hmany : ((declinedSix.bindings.entries.map Prod.snd).filter (·.live 100)).length ≤ 10000 := by
    have hlength := congrArg List.length hentries
    rw [length_map] at hlength
    refine (length_filter_le _ _).trans ?_
    rw [length_map, hlength]
    decide
  obtain ⟨snap, hsnap⟩ := exists_snapshot declinedSix (show (0 : Int) ≤ 100 by decide)
  have hserved : Served (smallLan 600) declinedSix := by
    unfold declinedSix
    exact served_handleAll hvalid _ .empty
  obtain ⟨text, doc, L', hexport, hparse, himport, hreturned⟩ :=
    lease_file_round_trip hvalid hserved hmany (fun b hb => (hmember b hb).1)
      (fun b hb => (hmember b hb).2.1) (fun b hb => (hmember b hb).2.2) hsnap
  exact ⟨hentries, snap, text, doc, L', hsnap, hexport, hparse, himport, hreturned⟩

end Ghostd.Proofs.Addressbook
