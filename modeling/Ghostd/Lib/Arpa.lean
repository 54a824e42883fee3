import Ghostd.Lib.Hex
import Ghostd.Lib.NetIP
import Ghostd.Lib.Utf8
import Mathlib.Data.Nat.Digits.Defs

/-!
# `Ghostd.Lib.Arpa`: the names of addresses in the reverse tree

An IPv4 address has its four octets for labels and an IPv6 address its thirty-two digits, both with the
last one first. `reverseAddr` is the function of the DNS library, which
goes through `net.IP` and so names an IPv4-mapped address like the address it maps (`reverseAddr_mapped`).
For every other address it is the name above (`reverseAddr_text`).

`splitText_trimEnd` and the lemmas on digits are what it takes to read such a name back.
-/

set_option autoImplicit false

namespace Ghostd.Lib

open List

/-! ### Names -/

/-- The lowest digits of a number, the last one first. -/
def digitsBack (base : Nat) : Nat → Nat → List Nat
  | 0, _ => []
  | count + 1, n => n % base :: digitsBack base count (n / base)

/-- The labels of an IPv4 address. -/
def inAddrLabels (n : Nat) : List String :=
  (digitsBack 256 4 n).map fun d => String.ofList (Nat.toDigits 10 d)

/-- The labels of an IPv6 address. -/
def ip6Labels (n : Nat) : List String :=
  (digitsBack 16 32 n).map fun d => String.ofList [d.digitChar]

/-- The name of an address. -/
def Addr.arpa (a : Addr) : String :=
  match a.family with
  | .v4 => joinText (inAddrLabels a.value) "." ++ ".in-addr.arpa."
  | .v6 => joinText (ip6Labels a.value) "." ++ ".ip6.arpa."

/-- `dns.ReverseAddr`; the name is empty for text that is no address. -/
def reverseAddr (s : String) : String := (parseIP s).elim "" fun ip => (IP.addr ip).arpa

/-- `netip.AddrFromSlice`. -/
def addrFromSlice (raw : List Nat) : Option Addr :=
  if raw.length = 4 then some (.ofValue .v4 (Nat.ofDigits 256 raw.reverse))
  else if raw.length = 16 then some (.ofValue .v6 (Nat.ofDigits 256 raw.reverse))
  else none

example : reverseAddr "192.0.2.20" = "20.2.0.192.in-addr.arpa." := by decide +kernel

/-! ### Digits -/

theorem length_digitsBack (base count n : Nat) : (digitsBack base count n).length = count := by
  induction count generalizing n with
  | zero => rfl
  | succ count ih => rw [digitsBack, length_cons, ih]

theorem lt_of_mem_digitsBack {base count n d : Nat} (hbase : 0 < base) (h : d ∈ digitsBack base count n) :
    d < base := by
  induction count generalizing n with
  | zero => cases h
  | succ count ih =>
    rw [digitsBack] at h
    rcases mem_cons.mp h with rfl | h
    · exact Nat.mod_lt _ hbase
    · exact ih h

/-- The digits give the number back, as far as they go. -/
theorem ofDigits_digitsBack (base count n : Nat) :
    Nat.ofDigits base (digitsBack base count n) = n % base ^ count := by
  induction count generalizing n with
  | zero => simp [digitsBack, Nat.ofDigits_nil, Nat.mod_one]
  | succ count ih =>
    rw [digitsBack, Nat.ofDigits_cons, ih, Nat.pow_succ', Nat.mod_mul]

/-- A number has the digits it is made of. -/
theorem digitsBack_ofDigits {base : Nat} {ds : List Nat} (h : ∀ d ∈ ds, d < base) :
    digitsBack base ds.length (Nat.ofDigits base ds) = ds := by
  induction ds with
  | nil => rfl
  | cons d ds ih =>
    have hd := h d mem_cons_self
    rw [length_cons, digitsBack, Nat.ofDigits_cons, Nat.add_mul_mod_self_left, Nat.mod_eq_of_lt hd,
      Nat.add_mul_div_left _ _ (by omega), Nat.div_eq_of_lt hd, Nat.zero_add,
      ih fun x hx => h x (mem_cons_of_mem _ hx)]

/-- Two digits in base 16 are a byte. -/
theorem digitsBack_hex (count n : Nat) :
    (digitsBack 16 (2 * count) n).reverse.map Nat.digitChar
      = (digitsBack 256 count n).reverse.flatMap hexByte := by
  induction count generalizing n with
  | zero => rfl
  | succ count ih =>
    have hrest : n / 16 / 16 = n / 256 := Nat.div_div_eq_div_mul n 16 16
    have hhigh : n % 256 / 16 % 16 = n / 16 % 16 := by omega
    have hlow : n % 256 % 16 = n % 16 := by omega
    rw [show 2 * (count + 1) = 2 * count + 1 + 1 by omega, digitsBack, digitsBack, digitsBack, hrest]
    simp only [reverse_cons, map_append, flatMap_append, ih, append_assoc,
      flatMap_singleton, hexByte, hhigh, hlow]
    rfl

/-! ### Texts -/

theorem endsWith_append (x t : String) : endsWith (x ++ t) t = true := by
  rw [endsWith, isSuffixOf_iff_suffix, String.toList_append]
  exact suffix_append _ _

/-- A text ends with what the end of the text ends with. -/
theorem endsWith_append_of_length {x y t : String} (hlen : t.toList.length ≤ y.toList.length) :
    endsWith (x ++ y) t = endsWith y t := by
  rw [endsWith, endsWith, Bool.eq_iff_iff, isSuffixOf_iff_suffix, isSuffixOf_iff_suffix,
    String.toList_append]
  constructor
  · intro h
    exact suffix_of_suffix_length_le h (suffix_append _ _) hlen
  · intro h
    exact h.trans (suffix_append _ _)

theorem trimEnd_append (x t : String) : trimEnd (x ++ t) t = x := by
  rw [trimEnd, if_pos (endsWith_append x t), String.toList_append, length_append,
    Nat.add_sub_cancel, take_left, String.ofList_toList]

theorem append_of_endsWith {s t : String} (h : endsWith s t = true) : trimEnd s t ++ t = s := by
  obtain ⟨x, hx⟩ := isSuffixOf_iff_suffix.mp h
  have hs : s = String.ofList x ++ t := by rw [← String.toList_inj, String.toList_append, String.toList_ofList, hx]
  rw [hs, trimEnd_append]

/-- Labels of one character, joined without a separator. -/
theorem joinText_single (cs : List Char) : joinText (cs.map fun c => String.ofList [c]) "" = String.ofList cs := by
  have hflat : ([] : List Char).intercalate (cs.map fun c => [c]) = cs := by
    induction cs with
    | nil => rfl
    | cons c cs ih =>
      cases cs with
      | nil => rfl
      | cons =>
        rw [map_cons] at ih
        rw [map_cons, map_cons, intercalate_cons_cons, ih]
        rfl
  rw [joinText, map_map]
  simpa [Function.comp_def] using congrArg String.ofList hflat

/-- Labels that were joined in front of a tail are found again. -/
theorem splitText_trimEnd {labels : List String} (hne : labels ≠ [])
    (hdot : ∀ l ∈ labels, '.' ∉ l.toList) (tail : String) :
    splitText (trimEnd (joinText labels "." ++ tail) tail) "." = labels := by
  have hsep : ".".toList = ['.'] := by decide
  have hsplit : (joinText labels ".").toList.splitOn '.' = labels.map String.toList := by
    rw [joinText, hsep, String.toList_ofList]
    refine splitOn_intercalate '.' ?_ (by simpa using hne)
    intro l hl
    obtain ⟨s, hs, rfl⟩ := mem_map.mp hl
    exact hdot s hs
  rw [trimEnd_append, splitText, hsep, splitFrom_char, hsplit]
  cases labels with
  | nil => exact absurd rfl hne
  | cons => simp [Function.comp_def]

theorem inAddrLabels_ne_nil (n : Nat) : inAddrLabels n ≠ [] := by simp [inAddrLabels, digitsBack]

theorem ip6Labels_ne_nil (n : Nat) : ip6Labels n ≠ [] := by simp [ip6Labels, digitsBack]

theorem dot_not_mem_inAddrLabels {n : Nat} {l : String} (h : l ∈ inAddrLabels n) : '.' ∉ l.toList := by
  obtain ⟨d, -, rfl⟩ := mem_map.mp h
  rw [String.toList_ofList]
  exact not_mem_toDigits (by decide) (by decide) (by decide) d

theorem ip6Labels_digit {n : Nat} {l : String} (h : l ∈ ip6Labels n) : ∃ x, IsDigit x ∧ l = String.ofList [x] := by
  obtain ⟨d, hd, rfl⟩ := mem_map.mp h
  exact ⟨d.digitChar, ⟨d, lt_of_mem_digitsBack (by decide) hd, rfl⟩, rfl⟩

theorem dot_not_mem_ip6Labels {n : Nat} {l : String} (h : l ∈ ip6Labels n) : '.' ∉ l.toList := by
  obtain ⟨x, hx, rfl⟩ := ip6Labels_digit h
  rw [String.toList_ofList, mem_singleton]
  exact (hx.ne (by decide)).symm

/-! ### The function of the library -/

theorem parseIP_text_addr {a : Addr} (hzone : a.zone = "") : parseIP a.text = some a.as16 := by
  rw [parseIP, parseAddr_text, Option.bind_some, if_pos hzone]

/-- An address that is not mapped survives `net.IP`. -/
theorem IP.addr_as16 {a : Addr} (hzone : a.zone = "") (hmapped : a.is4In6 = false) : IP.addr a.as16 = a := by
  have hlt := a.value_lt
  unfold IP.addr IP.is4 Addr.as16
  cases hf : a.family with
  | v4 =>
    rw [hf] at hlt
    have hlt : a.value < 2 ^ 32 := hlt
    simp only [BitVec.toNat_ofNat]
    rw [Nat.mod_eq_of_lt (show 0xffff * 2 ^ 32 + a.value < 2 ^ 128 by omega), if_pos (by simp; omega)]
    refine Addr.ext' hf.symm ?_ hzone.symm
    show (0xffff * 2 ^ 32 + a.value) % 2 ^ 32 % 2 ^ 32 = a.value
    omega
  | v6 =>
    rw [hf] at hlt
    have hlt : a.value < 2 ^ 128 := hlt
    have hnot : ¬ a.value / 2 ^ 32 = 0xffff := by simpa [Addr.is4In6, Addr.is6, hf] using hmapped
    simp only [BitVec.toNat_ofNat]
    rw [Nat.mod_eq_of_lt hlt, if_neg (by simpa using hnot)]
    refine Addr.ext' hf.symm ?_ hzone.symm
    show a.value % 2 ^ 128 = a.value
    exact Nat.mod_eq_of_lt hlt

theorem reverseAddr_text {a : Addr} (hzone : a.zone = "") (hmapped : a.is4In6 = false) :
    reverseAddr a.text = a.arpa := by
  rw [reverseAddr, parseIP_text_addr hzone, Option.elim_some, IP.addr_as16 hzone hmapped]

/-- A mapped address has not the name of its own family. -/
theorem reverseAddr_mapped {a : Addr} (hzone : a.zone = "") (hmapped : a.is4In6 = true) :
    reverseAddr a.text ≠ a.arpa := by
  have hboth : a.family = .v6 ∧ a.value / 2 ^ 32 = 0xffff := by
    simpa [Addr.is4In6, Addr.is6] using hmapped
  have hlt := a.value_lt
  rw [hboth.1] at hlt
  have hlt : a.value < 2 ^ 128 := hlt
  have his4 : IP.is4 a.as16 = true := by
    unfold IP.is4 Addr.as16
    simp only [hboth.1, BitVec.toNat_ofNat, Nat.mod_eq_of_lt hlt, hboth.2, decide_true]
  rw [reverseAddr, parseIP_text_addr hzone, Option.elim_some, IP.addr, if_pos his4]
  -- The one name ends in `in-addr.arpa.`, the other in `ip6.arpa.`.
  intro heq
  have hends := congrArg (endsWith · ".ip6.arpa.") heq
  simp only [Addr.arpa, hboth.1, Addr.ofValue, endsWith_append] at hends
  rw [endsWith_append_of_length (by decide)] at hends
  exact absurd hends (by decide)

end Ghostd.Lib
