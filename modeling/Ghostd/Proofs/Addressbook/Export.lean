import Ghostd.Addressbook.Dnsmasq
import Ghostd.Lib.Hex

/-!
# `Ghostd.Proofs.Addressbook.Export`: what the exported lease file says

The lines of a lease file are those of the bindings that are live at the instant of the export
(`lines_of_isExport`). `Carries` says what the line of a binding holds: its address, its end,
and either who holds it or the identity that stands for a quarantine.
-/

set_option autoImplicit false

namespace Ghostd.Proofs.Addressbook

open Ghostd.Lib Ghostd.Addressbook List

/-! ### The bindings of a snapshot -/

section Snapshot

variable {L : Ledger} {b : Binding} {s : Snapshot} {t : Int}

theorem at_of_live (hb : b.live t = true) : b.at t = b := by
  have hends : t < b.endsAt := by
    simp only [Binding.live, Bool.and_eq_true, decide_eq_true_eq] at hb
    exact hb.1
  exact if_neg fun h => absurd h.1 (by omega)

/-- What a snapshot shows as live is live, and shown as it is. -/
theorem live_of_liveState_at (h : liveState (b.at t).state = true) : b.live t = true := by
  unfold Binding.at at h
  split at h
  · cases h
  · rename_i hends
    rw [not_and'] at hends
    have : ¬ b.endsAt ≤ t := hends h
    simp only [Binding.live, h, Bool.and_true, decide_eq_true_eq]
    omega

/-- The bindings of the ledger that have a line in a lease file written at `t`. -/
def Exported (L : Ledger) (t : Int) (b : Binding) : Prop :=
  (∃ k, L.bindings.get k = some b) ∧ b.live t = true ∧
    b.origin ≠ .neighborReport ∧ b.origin ≠ .dhcpv6PD

theorem mem_bindings_snapshot (hs : L.snapshot t "" "" 0 = .ok s) :
    b ∈ s.bindings ↔ ∃ k b0, L.bindings.get k = some b0 ∧ b0.at t = b := by
  simp only [Ledger.snapshot, if_true, bind_eq_ok, refuseIf_eq_ok, pure_eq_ok] at hs
  obtain ⟨-, -, -, -, rfl⟩ := hs
  simp only [mem_insertionSort, mem_map, mem_filter, Prod.exists,
    Ledger.selected, decide_true, Bool.true_or, Bool.and_self, and_true, exists_eq_right,
    Bucket.mem_entries]
  constructor
  · rintro ⟨b0, ⟨k, hk⟩, hat⟩
    exact ⟨k, b0, hk, hat⟩
  · rintro ⟨k, b0, hk, hat⟩
    exact ⟨b0, ⟨k, hk⟩, hat⟩

theorem mem_exportable (hs : L.snapshot t "" "" 0 = .ok s) :
    b ∈ s.bindings.filter exportable ↔ Exported L t b := by
  rw [mem_filter, mem_bindings_snapshot hs]
  simp only [exportable, Bool.and_eq_true, decide_eq_true_eq]
  constructor
  · rintro ⟨⟨k, b0, hk, rfl⟩, ⟨hlive, hreport⟩, hpd⟩
    have hb0 := live_of_liveState_at hlive
    rw [at_of_live hb0] at hreport hpd ⊢
    exact ⟨⟨k, hk⟩, hb0, hreport, hpd⟩
  · rintro ⟨⟨k, hk⟩, hlive, hreport, hpd⟩
    refine ⟨⟨k, b, hk, at_of_live hlive⟩, ⟨?_, hreport⟩, hpd⟩
    simp only [Binding.live, Bool.and_eq_true] at hlive
    exact hlive.2

end Snapshot

/-! ### Hexadecimal text with colons -/

/-- A byte string in hexadecimal has an even number of digits, so its pairs are all of it. -/
theorem flatten_charPairs {cs : List Char} (h : (readHexBytes cs).isSome = true) :
    (charPairs cs).flatten = cs := by
  fun_induction charPairs cs with
  | case1 a b rest ih =>
    have hrest : (readHexBytes rest).isSome = true := by
      simp only [readHexBytes, bind, Option.bind] at h
      grind
    rw [flatten_cons, ih hrest]
    rfl
  | case2 cs hcs =>
    cases cs with
    | nil => rfl
    | cons a rest =>
      cases rest with
      | nil => cases h
      | cons b rest => exact absurd rfl (hcs a b rest)

/-- The text is the value with a colon after every two digits. The value can be read back from
it by taking out the colons, as `ParseDNSmasq` does. -/
def Spells (text value : String) : Prop :=
  text = colonHex value ∧ ((decodeHex value).isSome = true → removeAll text ':' = value)

theorem spells_colonHex (value : String) : Spells (colonHex value) value := by
  refine ⟨rfl, fun hvalue => ?_⟩
  have hpairs : ∀ p ∈ charPairs value.toList, p.filter (· ≠ ':') = p := by
    intro p hp
    rw [filter_eq_self]
    intro c hc
    have hmem : c ∈ value.toList := by
      rw [← flatten_charPairs hvalue]
      exact mem_flatten_of_mem hp hc
    have hcolon := colon_not_mem_hex hvalue
    simpa using fun h : c = ':' => hcolon (h ▸ hmem)
  show String.ofList (List.filter _ (String.ofList _).toList) = value
  rw [String.toList_ofList, filter_intercalate (by decide), map_congr_left hpairs, map_id',
    flatten_charPairs hvalue, String.ofList_toList]

/-! ### The line of a binding -/

/-- The line names the holder of the binding. -/
structure OfOwner (b : Binding) (ip : Addr) (line : LeaseLine) : Prop where
  mac : ip.is6 = false → line.holder = b.mac
  anonymous : ip.is6 = false → startsWith b.client "id:" = false → line.client = "*"
  identified : ip.is6 = false → ∀ id, b.client = "id:" ++ id → Spells line.client id
  iaid : ip.is6 = true → ∃ iaid, parseUint b.iaid 16 32 = some iaid ∧ line.holder = Nat.repr iaid
  duid : ip.is6 = true → Spells line.client b.duid

/-- The line names the identity that holds the addresses nobody may have. -/
structure OfQuarantine (b : Binding) (ip : Addr) (line : LeaseLine) : Prop where
  mac : ip.is6 = false → line.holder = quarantineMAC
  client : ip.is6 = false → line.client = "ff:" ++ colonHex (encodeHex (utf8Bytes b.address))
  iaid : ip.is6 = true → ∃ iaid, parseUint b.iaid 16 32 = some iaid ∧ line.holder = Nat.repr iaid
  duid : ip.is6 = true → Spells line.client (quarantineDUID b.scope b.address)

/-- The line is the binding's: its address, its end, and who holds it. -/
structure Carries (b : Binding) (line : LeaseLine) : Prop where
  address : line.address = b.address
  expiry : line.expiry = if b.endsAt = infiniteEnd then 0 else b.endsAt
  holder : ∃ ip, parseAddr b.address = some ip ∧ (b.state ≠ .declined → OfOwner b ip line) ∧
    (b.state = .declined → OfQuarantine b ip line)

theorem clientField_anonymous {b : Binding} (h : startsWith b.client "id:" = false) :
    clientField b = "*" := by
  simp [clientField, h]

theorem clientField_identified {b : Binding} {id : String} (h : b.client = "id:" ++ id) :
    clientField b = colonHex id := by
  have hstart : startsWith b.client "id:" = true := by
    simp [startsWith, h, String.toList_append]
  have htrim : trimStart b.client "id:" = id := by
    rw [trimStart, if_pos hstart, h, String.toList_append, drop_left, String.ofList_toList]
  rw [clientField, if_pos hstart, htrim]

theorem carries_exportLine {b : Binding} {line : LeaseLine} (h : exportLine b = .ok line) :
    Carries b line := by
  unfold exportLine at h
  cases hip : parseAddr b.address with
  | none => simp [hip] at h
  | some ip =>
    simp only [hip] at h
    cases h6 : ip.is6 with
    | true =>
      cases hiaid : parseUint b.iaid 16 32 with
      | none => simp [h6, hiaid] at h
      | some iaid =>
        simp only [h6, hiaid, if_true, pure_eq_ok] at h
        subst h
        refine ⟨rfl, rfl, ip, hip, fun hstate => ?_, fun hstate => ?_⟩
        · refine ⟨?_, ?_, ?_, fun _ => ⟨iaid, hiaid, rfl⟩, fun _ => ?_⟩
          · simp [h6]
          · simp [h6]
          · simp [h6]
          · simp only [hstate, if_false]
            exact spells_colonHex _
        · refine ⟨?_, ?_, fun _ => ⟨iaid, hiaid, rfl⟩, fun _ => ?_⟩
          · simp [h6]
          · simp [h6]
          · simp only [hstate, if_true]
            exact spells_colonHex _
    | false =>
      simp only [h6] at h
      by_cases hstate : b.state = .declined
      · simp only [hstate, if_true, pure_eq_ok, Bool.false_eq_true, if_false] at h
        subst h
        refine ⟨rfl, rfl, ip, hip, fun h => absurd hstate h, fun _ => ?_⟩
        refine ⟨fun _ => rfl, fun _ => rfl, ?_, ?_⟩
        · simp [h6]
        · simp [h6]
      · simp only [hstate, if_false, pure_eq_ok, Bool.false_eq_true] at h
        subst h
        refine ⟨rfl, rfl, ip, hip, fun _ => ?_, fun h => absurd h hstate⟩
        refine ⟨fun _ => rfl, fun _ => clientField_anonymous, fun _ id hid => ?_, ?_, ?_⟩
        · show Spells (clientField b) id
          rw [clientField_identified hid]
          exact spells_colonHex id
        · simp [h6]
        · simp [h6]

/-! ### The file -/

/-- The line stands in the text, on a line of its own. -/
def Lists (text : String) (line : LeaseLine) : Prop :=
  ∃ lines, text = joinText lines "\n" ++ "\n" ∧ line.text ∈ lines

/-- The text is the export of the ledger at the instant. -/
def IsExport (L : Ledger) (t : Int) (text : String) : Prop :=
  ∃ s, L.snapshot t "" "" 0 = .ok s ∧ exportDNSmasq s = .ok text

/-- An export is the header and the lines of the bindings that have one. -/
theorem lines_of_isExport {L : Ledger} {t : Int} {text : String} (h : IsExport L t text) :
    ∃ duid lines, text = leaseFileText duid lines ∧
      (∀ b, Exported L t b → ∃ line ∈ lines, exportLine b = .ok line) ∧
      ∀ line ∈ lines, ∃ b, Exported L t b ∧ exportLine b = .ok line := by
  obtain ⟨s, hs, htext⟩ := h
  simp only [exportDNSmasq, bind_eq_ok, pure_eq_ok] at htext
  obtain ⟨lines, hlines, rfl⟩ := htext
  obtain ⟨hforth, hback⟩ := mapM_members hlines
  refine ⟨s.serverDUID, lines, rfl, fun b hb => hforth b ((mem_exportable hs).mpr hb), ?_⟩
  intro line hline
  obtain ⟨b, hb, hb'⟩ := hback line hline
  exact ⟨b, (mem_exportable hs).mp hb, hb'⟩

/-- Every binding that is live at the export has its line in the file. -/
theorem exists_line {L : Ledger} {t : Int} {text : String} (h : IsExport L t text) {b : Binding}
    (hb : Exported L t b) : ∃ line, Lists text line ∧ Carries b line := by
  obtain ⟨duid, lines, rfl, hforth, -⟩ := lines_of_isExport h
  obtain ⟨line, hline, hexport⟩ := hforth b hb
  refine ⟨line, ⟨_, rfl, ?_⟩, carries_exportLine hexport⟩
  exact mem_append_right _ (mem_map_of_mem hline)

end Ghostd.Proofs.Addressbook
