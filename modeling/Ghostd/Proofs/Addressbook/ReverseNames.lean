import Ghostd.Lib.Lines
import Ghostd.Proofs.Addressbook.Zones

/-!
# `Ghostd.Proofs.Addressbook.ReverseNames`: which names `reverseIP` reads

Under `ip6.arpa.` every label is looked at, and what is read is the name of the address and nothing else
(`reverseIP6_exact`). Under `in-addr.arpa.` the four labels go to the parser of addresses as one text. That
parser takes decimal octets without leading zeros, so that an IPv4 address is read from its name only
(`reverseIP4_exact`). But it takes IPv6 texts too, and a label may have colons. `reverseIP_exact_iff` says
that this is all that is wrong, and `reverseIP_spliced` is a name that is read so.
-/

set_option autoImplicit false

namespace Ghostd.Proofs.Addressbook

open Ghostd.Lib Ghostd.Addressbook List

variable {a : Addr} {parts : List String} {name : String}

/-- A text of one byte is one character. -/
theorem single_of_byteLength {p : String} (h : byteLength p = 1) : ∃ c, p = String.ofList [c] := by
  have hpos : ∀ c : Char, 0 < c.utf8Size := Char.utf8Size_pos
  unfold byteLength at h
  match hp : p.toList with
  | [] =>
    rw [hp] at h
    cases h
  | [c] => exact ⟨c, by rw [← hp, String.ofList_toList]⟩
  | c :: d :: rest =>
    rw [hp] at h
    simp only [map_cons, sum_cons] at h
    have hc := hpos c
    have hd := hpos d
    omega

theorem reverseIP6_exact (hlower : ∀ p ∈ parts, ∀ c ∈ p.toList, lowerChar c = c) (h : reverseIP6 parts = some a) :
    a.family = .v6 ∧ a.zone = "" ∧ parts = ip6Labels a.value := by
  unfold reverseIP6 at h
  split at h
  · cases h
  · rename_i hshape
    simp only [not_or, not_not, any_eq_true, decide_eq_true_eq, not_exists, not_and] at hshape
    obtain ⟨hlen, hone⟩ := hshape
    -- The labels are characters, and their text the other way round is read.
    obtain ⟨cs, rfl⟩ : ∃ cs : List Char, parts = cs.map fun c => String.ofList [c] := by
      refine ⟨parts.map fun p => p.toList.headD '0', ?_⟩
      rw [map_map]
      refine (map_id parts).symm.trans (map_congr_left fun p hp => ?_)
      obtain ⟨c, rfl⟩ := single_of_byteLength (hone p hp)
      simp
    rw [length_map] at hlen
    rw [← map_reverse, joinText_single, decodeHex, String.toList_ofList] at h
    obtain ⟨raw, hraw, hslice⟩ := Option.bind_eq_some_iff.mp h
    have hchars : raw.flatMap hexByte = cs.reverse := by
      rw [flatMap_hexByte_of_read hraw]
      refine (map_congr_left fun c hc => ?_).trans (map_id _)
      exact hlower _ (mem_map_of_mem (mem_reverse.mp hc)) c (by simp)
    have hlength : raw.length = 16 := by
      have hsum := congrArg List.length hchars
      simp [length_flatMap, hexByte, hlen] at hsum
      omega
    have hsmall : ∀ b ∈ raw.reverse, b < 256 := fun b hb => readHexBytes_lt hraw b (mem_reverse.mp hb)
    have hlt : Nat.ofDigits 256 raw.reverse < 2 ^ 128 := by
      have hbound := Nat.ofDigits_lt_base_pow_length (b := 256) (by decide) hsmall
      rwa [length_reverse, hlength] at hbound
    rw [addrFromSlice, if_neg (by omega), if_pos hlength, Option.some.injEq] at hslice
    rw [← hslice]
    refine ⟨rfl, rfl, ?_⟩
    have hdigits : (digitsBack 16 32 (Nat.ofDigits 256 raw.reverse)).map Nat.digitChar = cs := by
      have hback := digitsBack_ofDigits hsmall
      rw [length_reverse, hlength] at hback
      have hboth := digitsBack_hex 16 (Nat.ofDigits 256 raw.reverse)
      rw [hback, reverse_reverse, hchars, map_reverse] at hboth
      exact reverse_inj.mp hboth
    show _ = ip6Labels (_ % 2 ^ 128)
    rw [Nat.mod_eq_of_lt hlt, ip6Labels, ← hdigits, map_map]
    rfl

/-- An IPv4 address comes from four decimal octets. -/
theorem parseAddr_v4 {s : String} (h : parseAddr s = some a) (hf : a.family = .v4) :
    ∃ n, readIPv4 s.toList = some n ∧ a = .ofValue .v4 n := by
  unfold parseAddr at h
  split at h
  · obtain ⟨n, hn, rfl⟩ := Option.map_eq_some_iff.mp h
    exact ⟨n, hn, rfl⟩
  · -- The other parser gives addresses of the other family.
    simp only [readIPv6, Option.bind_eq_bind, Option.bind_eq_some_iff] at h
    obtain ⟨gs, -, h⟩ := h
    split at h
    · cases h
      cases hf
    · cases h
    · cases h
      cases hf
  · cases h

theorem reverseIP4_exact (hdots : ∀ p ∈ parts, '.' ∉ p.toList) (h : reverseIP4 parts = some a)
    (hf : a.family = .v4) : parts = inAddrLabels a.value := by
  unfold reverseIP4 at h
  split at h
  · rename_i w z y x
    obtain ⟨n, hn, rfl⟩ := parseAddr_v4 h hf
    have hsplit : (x ++ "." ++ y ++ "." ++ z ++ "." ++ w).toList.splitOn '.' = [x, y, z, w].map String.toList := by
      rw [show (x ++ "." ++ y ++ "." ++ z ++ "." ++ w).toList = ['.'].intercalate ([x, y, z, w].map String.toList) by
        simp [String.toList_append, intercalate_cons_cons]]
      refine splitOn_intercalate '.' ?_ (by simp)
      intro l hl
      obtain ⟨p, hp, rfl⟩ := mem_map.mp hl
      exact hdots p (by simpa [or_comm, or_left_comm, or_assoc] using hp)
    unfold readIPv4 at hn
    rw [hsplit] at hn
    simp only [map_cons, map_nil, Option.bind_eq_bind, Option.bind_eq_some_iff, Option.pure_def,
      Option.some.injEq] at hn
    obtain ⟨o1, h1, o2, h2, o3, h3, o4, h4, rfl⟩ := hn
    have hoctet : ∀ {p : String} {o : Nat}, readOctet p.toList = some o →
        o < 256 ∧ p = String.ofList (Nat.toDigits 10 o) := by
      intro p o ho
      obtain ⟨hread, hlt⟩ := Option.filter_eq_some_iff.mp ho
      rw [toDigits_of_readDecimal hread, String.ofList_toList]
      exact ⟨by simpa using hlt, rfl⟩
    obtain ⟨hlt1, hx⟩ := hoctet h1
    obtain ⟨hlt2, hy⟩ := hoctet h2
    obtain ⟨hlt3, hz⟩ := hoctet h3
    obtain ⟨hlt4, hw⟩ := hoctet h4
    have hvalue : (Addr.ofValue .v4 (ofOctets o1 o2 o3 o4)).value = Nat.ofDigits 256 [o4, o3, o2, o1] := by
      show ofOctets o1 o2 o3 o4 % 2 ^ 32 = _
      simp only [ofOctets, Nat.ofDigits_cons, Nat.ofDigits_nil]
      omega
    have hsmall : ∀ d ∈ [o4, o3, o2, o1], d < 256 := by simp [hlt1, hlt2, hlt3, hlt4]
    have hback : digitsBack 256 4 (Nat.ofDigits 256 [o4, o3, o2, o1]) = [o4, o3, o2, o1] := digitsBack_ofDigits hsmall
    rw [hvalue, inAddrLabels, hback, hx, hy, hz, hw]
    rfl
  · cases h

/-- The four labels in front of `in-addr.arpa.`, the last one first, are the text of an IPv6 address. -/
def Spliced (name : String) : Prop :=
  ∃ w z y x b, name = joinText [w, z, y, x] "." ++ ".in-addr.arpa." ∧ (∀ l ∈ [w, z, y, x], '.' ∉ l.toList) ∧
    parseAddr (x ++ "." ++ y ++ "." ++ z ++ "." ++ w) = some b ∧ b.family = .v6

/-- The name is the canonical name of the address in the reverse tree. -/
def ReverseName (a : Addr) (name : String) : Prop := a.zone = "" ∧ a.arpa = name

/-- **`reverseIP` inverts reverse naming**, for every name in lower case whose labels do not splice to the text of
an IPv6 address, and for no other: it reads an address from a name exactly if the name is that of the address. -/
theorem reverseIP_exact_iff (name : String) (hlower : toLower name = name) :
    (∀ a, reverseIP name = some a ↔ ReverseName a name) ↔ ¬ Spliced name := by
  constructor
  · intro h hspliced
    obtain ⟨w, z, y, x, b, rfl, hdots, hread, hfamily⟩ := hspliced
    have hno : endsWith (joinText [w, z, y, x] "." ++ ".in-addr.arpa.") ".ip6.arpa." = false := by
      rw [endsWith_append_of_length (by decide)]
      decide
    have hb : reverseIP (joinText [w, z, y, x] "." ++ ".in-addr.arpa.") = some b := by
      rw [reverseIP, hno, if_neg Bool.false_ne_true, if_pos (endsWith_append _ _),
        splitText_trimEnd (cons_ne_nil _ _) hdots, reverseIP4, hread]
    -- The name of the address ends otherwise.
    obtain ⟨-, harpa⟩ := (h b).mp hb
    rw [← harpa, Addr.arpa, hfamily, endsWith_append] at hno
    cases hno
  · intro hspliced a
    refine ⟨fun h => ?_, fun h => by rw [← h.2, reverseIP_arpa h.1]⟩
    have hpiece : ∀ {tail p c}, p ∈ splitText (trimEnd name tail) "." → c ∈ p.toList →
        c ∈ (trimEnd name tail).toList ∧ c ≠ '.' := by
      intro tail p c hp hc
      rw [show "." = String.ofList ['.'] from rfl, splitText_char] at hp
      obtain ⟨q, hq, rfl⟩ := mem_map.mp hp
      rw [String.toList_ofList] at hc
      exact mem_of_mem_splitOn hq hc
    have hjoin : ∀ tail, joinText (splitText (trimEnd name tail) ".") "." = trimEnd name tail := fun tail =>
      joinText_splitText _ (by decide)
    unfold reverseIP at h
    split at h
    · rename_i hends
      have hlowered : ∀ p ∈ splitText (trimEnd name ".ip6.arpa.") ".", ∀ c ∈ p.toList, lowerChar c = c := by
        intro p hp c hc
        -- A character of a label is one of the name.
        have hmem : c ∈ name.toList := by
          rw [← append_of_endsWith hends, String.toList_append]
          exact mem_append_left _ (hpiece hp hc).1
        have hchars := congrArg String.toList hlower
        rw [toLower, String.toList_ofList] at hchars
        exact map_inj_left.mp (hchars.trans (map_id _).symm) c hmem
      obtain ⟨hfamily, hzone, hparts⟩ := reverseIP6_exact hlowered h
      refine ⟨hzone, ?_⟩
      rw [Addr.arpa, hfamily]
      show joinText (ip6Labels a.value) "." ++ _ = name
      rw [← hparts, hjoin, append_of_endsWith hends]
    · split at h
      · rename_i hends
        have hname := append_of_endsWith hends
        rw [← hjoin] at hname
        have hdots : ∀ p ∈ splitText (trimEnd name ".in-addr.arpa.") ".", '.' ∉ p.toList :=
          fun p hp hdot => (hpiece hp hdot).2 rfl
        cases hfamily : a.family with
        | v6 =>
          generalize splitText (trimEnd name ".in-addr.arpa.") "." = parts at h hname hdots
          unfold reverseIP4 at h
          split at h
          · exact absurd ⟨_, _, _, _, a, hname.symm, hdots, h, hfamily⟩ hspliced
          · cases h
        | v4 =>
          refine ⟨a.zone_v4 hfamily, ?_⟩
          rw [Addr.arpa, hfamily]
          show joinText (inAddrLabels a.value) "." ++ _ = name
          rw [← reverseIP4_exact hdots h hfamily, hname]
      · cases h

/-- A label of colons makes the four the text of an IPv6 address. -/
theorem reverseIP_spliced : toLower "4.3.2.::1.in-addr.arpa." = "4.3.2.::1.in-addr.arpa." ∧
    ¬ ∀ a, reverseIP "4.3.2.::1.in-addr.arpa." = some a ↔ ReverseName a "4.3.2.::1.in-addr.arpa." := by
  refine ⟨by decide, fun h => ?_⟩
  have hread : reverseIP "4.3.2.::1.in-addr.arpa." = some (.ofValue .v6 0x1020304) := by decide +kernel
  obtain ⟨-, harpa⟩ := (h _).mp hread
  exact absurd harpa (by decide +kernel)

theorem reverseIP_exact_iff_router : ¬ Spliced "1.0.168.192.in-addr.arpa." ∧
    ∀ a, reverseIP "1.0.168.192.in-addr.arpa." = some a ↔ ReverseName a "1.0.168.192.in-addr.arpa." := by
  refine and_iff_left_of_imp (reverseIP_exact_iff _ (by decide)).mpr |>.mpr fun h => ?_
  obtain ⟨w, z, y, x, b, hname, hdots, hread, hfamily⟩ := h
  have hlabels := congrArg (fun name => splitText (trimEnd name ".in-addr.arpa.") ".") hname
  rw [splitText_trimEnd (cons_ne_nil _ _) hdots] at hlabels
  have hrouter : splitText (trimEnd "1.0.168.192.in-addr.arpa." ".in-addr.arpa.") "." = ["1", "0", "168", "192"] := by
    decide +kernel
  rw [hrouter] at hlabels
  injections
  subst_vars
  have hv4 : (parseAddr "192.168.0.1").map (·.family) = some .v4 := by decide +kernel
  rw [show "192.168.0.1" = "192" ++ "." ++ "168" ++ "." ++ "0" ++ "." ++ "1" by decide, hread, Option.map_some,
    hfamily] at hv4
  cases hv4

end Ghostd.Proofs.Addressbook
