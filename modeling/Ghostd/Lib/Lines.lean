import Ghostd.Lib.Hex
import Ghostd.Lib.Alphabet
import Mathlib.Data.List.Induction

/-!
# `Ghostd.Lib.Lines`: texts of lines and words

A text that is written as lines of words reads back. `splitText_lines` gives the lines, `fields_words` the
words of a line. `parseUint_repr`, `parseInt64_toString` and `padLeft_toDigits` are for words that are
numbers: the first two read what was printed, and the last prints what was read, in lower case and with
the zeros in front.
-/

set_option autoImplicit false

namespace Ghostd.Lib

open List

variable {cs : List Char} {s : String} {bytes : List Nat} {c : Char}

/-! ### Lines -/

theorem splitText_char (s : String) (d : Char) :
    splitText s (String.ofList [d]) = (s.toList.splitOn d).map String.ofList := by
  unfold splitText
  rw [String.toList_ofList, splitFrom_char]
  cases hsplit : s.toList.splitOn d with
  | nil => rfl
  | cons => simp

/-- The last piece of a joined text. -/
theorem joinText_concat {parts : List String} (hne : parts ≠ []) (last sep : String) :
    joinText (parts ++ [last]) sep = joinText parts sep ++ sep ++ last := by
  rw [← String.toList_inj, String.toList_append, String.toList_append, joinText, joinText, String.toList_ofList,
    String.toList_ofList]
  induction parts with
  | nil => exact absurd rfl hne
  | cons l parts ih =>
    cases parts with
    | nil => simp [intercalate_cons_cons]
    | cons l' parts =>
      have hrest := ih (cons_ne_nil l' parts)
      simp only [map_cons, cons_append] at hrest ⊢
      rw [intercalate_cons_cons, intercalate_cons_cons, hrest]
      simp only [append_assoc]

/-- Lines, each with its end, are read back; the last line is the empty one after the last end. -/
theorem splitText_lines {ls : List String} (hne : ls ≠ []) (h : ∀ l ∈ ls, '\n' ∉ l.toList) :
    splitText (joinText ls "\n" ++ "\n") "\n" = ls ++ [""] := by
  have htext : (joinText ls "\n" ++ "\n").toList = ['\n'].intercalate ((ls ++ [""]).map String.toList) := by
    rw [← String.append_empty (s := joinText ls "\n" ++ "\n"), ← joinText_concat hne, joinText, String.toList_ofList]
    rfl
  have hsep : ("\n" : String) = String.ofList ['\n'] := rfl
  rw [hsep, splitText_char, ← hsep, htext, splitOn_intercalate '\n' ?_ (by simp)]
  · simp
  · intro l hl
    obtain ⟨x, hx, rfl⟩ := mem_map.mp hl
    rcases mem_append.mp hx with hx | hx
    · exact h x hx
    · rw [mem_singleton.mp hx]
      simp

/-- Passing over a separator. -/
theorem splitFrom_drop (sep piece : List Char) (k : Nat) (cs : List Char) :
    splitFrom sep k piece cs = splitFrom sep 0 piece (cs.drop k) := by
  induction k generalizing cs with
  | zero => rfl
  | succ k ih =>
    cases cs with
    | nil => rfl
    | cons c cs => exact ih cs

theorem intercalate_splitFrom {sep : List Char} (hsep : sep ≠ []) (piece cs : List Char) :
    sep.intercalate (splitFrom sep 0 piece cs) = piece.reverse ++ cs := by
  induction hlen : cs.length using Nat.strongRecOn generalizing piece cs with
  | ind n ih =>
    cases cs with
    | nil => simp [splitFrom]
    | cons c cs =>
      rw [splitFrom]
      split
      · rename_i hstart
        obtain ⟨rest, hrest⟩ := isPrefixOf_iff_prefix.mp hstart
        have hpos := length_pos_of_ne_nil hsep
        have hdrop : cs.drop (sep.length - 1) = rest := by
          have hcons : (c :: cs).drop sep.length = rest := by rw [← hrest, drop_left]
          rwa [show sep.length = (sep.length - 1) + 1 by omega, drop_succ_cons] at hcons
        have hshort : rest.length < n := by
          rw [← hlen, ← hrest, length_append]
          omega
        have hrec := ih rest.length hshort [] rest rfl
        rw [splitFrom_drop, hdrop]
        cases hpieces : splitFrom sep 0 [] rest with
        | nil =>
          rw [hpieces] at hrec
          have hnil : rest = [] := by simpa using hrec.symm
          rw [hnil] at hpieces
          cases hpieces
        | cons =>
          rw [intercalate_cons_cons, ← hpieces, hrec, ← hrest]
          simp
      · rw [ih cs.length (by rw [← hlen]; exact Nat.lt_succ_self _) (c :: piece) cs rfl]
        simp

/-- What was split can be joined again. -/
theorem joinText_splitText (s : String) {sep : String} (hsep : sep ≠ "") : joinText (splitText s sep) sep = s := by
  unfold joinText splitText
  rw [map_map, show String.toList ∘ String.ofList = id from funext fun cs => String.toList_ofList, map_id,
    intercalate_splitFrom (by simpa using hsep)]
  simp

/-! ### Words -/

/-- A word: it is not empty and has no space. -/
def IsWord (w : String) : Prop := w ≠ "" ∧ ∀ c ∈ w.toList, isSpace c = false

theorem fieldsFrom_append {w : List Char} (hw : ∀ c ∈ w, isSpace c = false) (word rest : List Char) :
    fieldsFrom word (w ++ rest) = fieldsFrom (w.reverse ++ word) rest := by
  induction w generalizing word with
  | nil => rfl
  | cons c w ih =>
    rw [cons_append, fieldsFrom, hw c mem_cons_self, if_neg (by decide),
      ih fun x hx => hw x (mem_cons_of_mem _ hx)]
    simp

/-- The words of a line are read back. -/
theorem fields_words {ws : List String} (h : ∀ w ∈ ws, IsWord w) : fields (joinText ws " ") = ws := by
  have hspace : (" " : String).toList = [' '] := rfl
  unfold fields joinText
  rw [String.toList_ofList, hspace]
  induction ws with
  | nil => rfl
  | cons w ws ih =>
    obtain ⟨hne, hw⟩ := h w mem_cons_self
    have hchars : w.toList.reverse ≠ [] := by simpa using hne
    have hback : String.ofList w.toList.reverse.reverse = w := by simp
    have hrest := ih fun x hx => h x (mem_cons_of_mem _ hx)
    cases ws with
    | nil =>
      have hlast := fieldsFrom_append hw [] []
      rw [append_nil, append_nil] at hlast
      rw [map_cons, map_nil, intercalate_singleton, hlast, fieldsFrom, if_neg hchars, hback]
    | cons =>
      rw [map_cons, map_cons, intercalate_cons_cons, append_assoc, fieldsFrom_append hw,
        append_nil, singleton_append, fieldsFrom, if_pos (by decide), if_neg hchars, hback]
      exact congrArg _ hrest

theorem mem_intercalate {α : Type} {sep : List α} {pieces : List (List α)} {x : α}
    (h : x ∈ sep.intercalate pieces) : x ∈ sep ∨ ∃ p ∈ pieces, x ∈ p := by
  induction pieces with
  | nil => simp at h
  | cons p ps ih =>
    cases ps with
    | nil => exact Or.inr ⟨p, mem_cons_self, by simpa using h⟩
    | cons =>
      rw [intercalate_cons_cons, mem_append, mem_append] at h
      rcases h with (h | h) | h
      · exact Or.inr ⟨p, mem_cons_self, h⟩
      · exact Or.inl h
      · exact (ih h).imp id fun ⟨r, hr, hx⟩ => ⟨r, mem_cons_of_mem _ hr, hx⟩

/-- A line of words is one line. -/
theorem not_newline_words {ws : List String} (h : ∀ w ∈ ws, IsWord w) : '\n' ∉ (joinText ws " ").toList := by
  intro hmem
  unfold joinText at hmem
  rw [String.toList_ofList] at hmem
  rcases mem_intercalate hmem with hspace | ⟨cs, hcs, hmem⟩
  · revert hspace
    decide
  · obtain ⟨w, hw, rfl⟩ := mem_map.mp hcs
    have hclean := (h w hw).2 _ hmem
    cases hclean

/-- The printed part of ASCII. -/
def IsGraphic (c : Char) : Prop := 32 < c.toNat ∧ c.toNat < 127

theorem IsGraphic.not_space (h : IsGraphic c) : isSpace c = false := by
  obtain ⟨hlow, hhigh⟩ := h
  simp only [isSpace, Bool.or_eq_false_iff, decide_eq_false_iff_not, Bool.and_eq_false_iff, mem_cons,
    not_mem_nil, or_false, not_or]
  omega

theorem isWord_of_graphic {w : String} (hne : w ≠ "") (h : ∀ c ∈ w.toList, IsGraphic c) : IsWord w :=
  ⟨hne, fun c hc => (h c hc).not_space⟩

theorem isGraphic_of_digit (h : (digitValue c).isSome) : IsGraphic c := by
  unfold digitValue at h
  split at h
  · rename_i hc
    exact ⟨Nat.lt_of_lt_of_le (by decide) (show '0'.toNat ≤ c.toNat from hc.1),
      Nat.lt_of_le_of_lt (show c.toNat ≤ '9'.toNat from hc.2) (by decide)⟩
  · split at h
    · rename_i hc
      exact ⟨Nat.lt_of_lt_of_le (by decide) (show 'a'.toNat ≤ c.toNat from hc.1),
        Nat.lt_of_le_of_lt (show c.toNat ≤ 'f'.toNat from hc.2) (by decide)⟩
    · split at h
      · rename_i hc
        exact ⟨Nat.lt_of_lt_of_le (by decide) (show 'A'.toNat ≤ c.toNat from hc.1),
          Nat.lt_of_le_of_lt (show c.toNat ≤ 'F'.toNat from hc.2) (by decide)⟩
      · cases h

/-! ### Numbers -/

theorem toList_repr (n : Nat) : (Nat.repr n).toList = Nat.toDigits 10 n := by
  simp [Nat.repr]

theorem isWord_repr (n : Nat) : IsWord (Nat.repr n) := by
  refine isWord_of_graphic ?_ fun x hx => isGraphic_of_digit ?_
  · intro hempty
    have hdigits := toList_repr n
    rw [hempty] at hdigits
    exact Nat.toDigits_ne_nil hdigits.symm
  · rw [toList_repr] at hx
    obtain ⟨d, hd⟩ := digitValue_of_mem_toDigits (by decide) (by decide) hx
    rw [hd]
    rfl

theorem parseUint_repr {n bits : Nat} (hn : n < 2 ^ bits) : parseUint (Nat.repr n) 10 bits = some n := by
  unfold parseUint
  rw [toList_repr, if_neg Nat.toDigits_ne_nil, readDigits_toDigits (by decide) (by decide)]
  simp [hn]

theorem parseInt64_toString {n : Int} (h0 : 0 ≤ n) (hn : n < 2 ^ 63) : parseInt64 (toString n) = some n := by
  obtain ⟨m, rfl⟩ := Int.eq_ofNat_of_zero_le h0
  have htext : toString (m : Int) = Nat.repr m := rfl
  -- The first character is a digit and no sign.
  have hhead : ∀ (x : Char) (cs : List Char), (Nat.repr m).toList = x :: cs → ∃ d, digitValue x = some d := by
    intro x cs hx
    rw [toList_repr] at hx
    refine digitValue_of_mem_toDigits (b := 10) (by decide) (by decide) (n := m) ?_
    rw [hx]
    exact mem_cons_self
  unfold parseInt64
  rw [htext]
  split
  · rename_i cs hx
    obtain ⟨d, hd⟩ := hhead _ _ hx
    cases hd
  · rename_i cs hx
    obtain ⟨d, hd⟩ := hhead _ _ hx
    cases hd
  · rw [parseUint_repr (by exact_mod_cast hn)]
    rfl

/-- A digit is the lower-case print of its value. -/
theorem lowerChar_of_digitValue {d : Nat} (h : digitValue c = some d) : lowerChar c = d.digitChar ∧ d < 16 := by
  have hall : ∀ n : Fin 128, ((digitValue (Char.ofNat n)).elim true fun d =>
      decide (lowerChar (Char.ofNat n) = d.digitChar ∧ d < 16)) = true := by decide
  have hgraphic : IsGraphic c := isGraphic_of_digit (by rw [h]; rfl)
  have hc : c = Char.ofNat (⟨c.toNat, by have := hgraphic.2; omega⟩ : Fin 128) := by simp
  have hn := hall ⟨c.toNat, by have := hgraphic.2; omega⟩
  rw [← hc, h] at hn
  simpa using hn

theorem eq_digitChar {d : Nat} (h : digitValue c = some d) (hd : d < 10) : c = d.digitChar := by
  obtain ⟨hlower, -⟩ := lowerChar_of_digitValue h
  unfold lowerChar at hlower
  split at hlower
  · -- An upper-case letter is no decimal digit.
    rename_i hupper
    have hfirst : 'A'.toNat ≤ c.toNat := hupper.1
    have hlast : c.toNat ≤ 'Z'.toNat := hupper.2
    have hfar : ¬ c ≤ '9' := fun hle => Nat.not_le_of_lt (by decide) (hfirst.trans hle)
    have hnear : ¬ 'a' ≤ c := fun hle => Nat.not_le_of_lt (by decide) (Nat.le_trans hle hlast)
    simp only [digitValue, hfar, hnear, and_false, false_and, if_false, Option.ite_none_right_eq_some,
      Option.some.injEq] at h
    omega
  · exact hlower

/-- Digits with the zeros in front are the print of what they say, in lower case. -/
theorem padLeft_toDigits {n : Nat} (hne : cs ≠ []) (h : readDigits 16 0 cs = some n) :
    padLeft cs.length (Nat.toDigits 16 n) = cs.map lowerChar := by
  -- The digits are taken off from the right, as `toDigits` does.
  induction cs using List.reverseRecOn generalizing n with
  | nil => exact absurd rfl hne
  | append_singleton cs c ih =>
    rw [readDigits_append, Option.bind_eq_some_iff] at h
    obtain ⟨m, hm, h⟩ := h
    cases hd : digitValue c with
    | none => simp [readDigits, hd] at h
    | some d =>
      obtain ⟨hlower, hsmall⟩ := lowerChar_of_digitValue hd
      simp only [readDigits, hd, if_pos hsmall, Option.some.injEq] at h
      rw [map_append, map_singleton, hlower, length_append, length_singleton, ← h]
      rw [Nat.toDigits_eq_if (by decide)]
      by_cases hm0 : m = 0
      · -- Only zeros so far.
        have hzeros : cs.map lowerChar = List.replicate cs.length '0' := by
          rcases cs.eq_nil_or_concat with rfl | ⟨init, last, rfl⟩
          · rfl
          · have hinit := ih (by simp) hm
            rw [← hinit, hm0, concat_eq_append, length_append, length_singleton]
            show List.replicate init.length '0' ++ ['0'] = List.replicate (init.length + 1) '0'
            rw [replicate_succ']
        rw [hm0, if_pos (by omega), hzeros]
        simp [padLeft]
      · rw [if_neg (by omega), show (m * 16 + d) / 16 = m by omega, show (m * 16 + d) % 16 = d by omega]
        have hcs : cs ≠ [] := by
          rintro rfl
          exact hm0 (Option.some.inj hm).symm
        rw [← ih hcs hm]
        simp [padLeft]

/-- What the strict reader reads is the print of the number. -/
theorem toDigits_of_readDecimal {n : Nat} (h : readDecimal cs = some n) : Nat.toDigits 10 n = cs := by
  unfold readDecimal at h
  split at h
  · cases h
  · rename_i hstrict
    obtain ⟨hne, hzero⟩ := not_or.mp hstrict
    clear hstrict
    -- The digits are taken off from the right, as `toDigits` does.
    induction cs using List.reverseRecOn generalizing n with
    | nil => exact absurd rfl hne
    | append_singleton cs c ih =>
      rw [readDigits_append, Option.bind_eq_some_iff] at h
      obtain ⟨m, hm, h⟩ := h
      cases hd : digitValue c with
      | none => simp [readDigits, hd] at h
      | some d =>
        simp only [readDigits, hd, Option.ite_none_right_eq_some, Option.some.injEq] at h
        obtain ⟨hlt, rfl⟩ := h
        have hc : d.digitChar = c := (eq_digitChar hd hlt).symm
        rw [Nat.toDigits_eq_if (by decide)]
        by_cases hnil : cs = []
        · subst hnil
          obtain rfl : 0 = m := Option.some.inj hm
          rw [if_pos (by omega), Nat.zero_mul, Nat.zero_add, hc]
          rfl
        · -- Without a zero in front, what is left is not zero.
          have hhead : cs.head? ≠ some '0' := fun hhead => hzero
            ⟨by rw [List.head?_append_of_ne_nil _ hnil, hhead], by simpa using hnil⟩
          have hrest := ih hm hnil fun h => hhead h.1
          have hm0 : m ≠ 0 := fun hm0 => hhead (by rw [← hrest, hm0]; rfl)
          rw [if_neg (by omega), show (m * 10 + d) / 10 = m by omega, show (m * 10 + d) % 10 = d by omega, hrest, hc]

/-- The case of a digit does not count. -/
theorem digitValue_lowerChar (c : Char) : digitValue (lowerChar c) = digitValue c := by
  unfold lowerChar
  split
  · rename_i hupper
    have hall : ∀ n : Fin 128, 'A' ≤ Char.ofNat n ∧ Char.ofNat n ≤ 'Z' →
        digitValue (Char.ofNat ((Char.ofNat n).toNat + 32)) = digitValue (Char.ofNat n) := by decide
    have hle : c.toNat ≤ 'Z'.toNat := hupper.2
    have hlt : c.toNat < 128 := Nat.lt_of_le_of_lt hle (by decide)
    have hc : c = Char.ofNat (⟨c.toNat, hlt⟩ : Fin 128) := by simp
    have hn := hall ⟨c.toNat, hlt⟩
    rw [← hc] at hn
    exact hn hupper
  · rfl

theorem exists_readDigits (h : ∀ c ∈ cs, (digitValue c).isSome) (acc : Nat) :
    ∃ n, readDigits 16 acc cs = some n ∧ n < (acc + 1) * 16 ^ cs.length := by
  induction cs generalizing acc with
  | nil => exact ⟨acc, rfl, by simp⟩
  | cons c cs ih =>
    obtain ⟨d, hd⟩ := Option.isSome_iff_exists.mp (h c mem_cons_self)
    have hsmall := (lowerChar_of_digitValue hd).2
    obtain ⟨n, hn, hlt⟩ := ih (fun x hx => h x (mem_cons_of_mem _ hx)) (acc * 16 + d)
    refine ⟨n, by simp [readDigits, hd, hsmall, hn], Nat.lt_of_lt_of_le hlt ?_⟩
    calc (acc * 16 + d + 1) * 16 ^ cs.length ≤ ((acc + 1) * 16) * 16 ^ cs.length :=
          Nat.mul_le_mul_right _ (by omega)
      _ = (acc + 1) * 16 ^ (c :: cs).length := by rw [Nat.mul_assoc, length_cons, Nat.pow_succ']

/-- Eight hexadecimal digits are a number of 32 bits, and its print is the digits in lower case. -/
theorem parseUint_hex (hlength : s.toList.length = 8) (h : ∀ c ∈ s.toList, (digitValue c).isSome) :
    ∃ n, parseUint s 16 32 = some n ∧ n < 2 ^ 32 ∧ String.ofList (padLeft 8 (Nat.toDigits 16 n)) = toLower s := by
  obtain ⟨n, hn, hlt⟩ := exists_readDigits h 0
  have hne : s.toList ≠ [] := by
    intro hnil
    rw [hnil] at hlength
    cases hlength
  have hbound : n < 2 ^ 32 := by
    rw [hlength] at hlt
    exact hlt
  refine ⟨n, ?_, hbound, ?_⟩
  · unfold parseUint
    rw [if_neg hne, hn, Option.filter_some_pos]
    simpa using hbound
  · rw [← hlength, padLeft_toDigits hne hn]
    rfl

theorem byteLength_of_graphic (h : ∀ c ∈ s.toList, IsGraphic c) : byteLength s = s.toList.length := by
  unfold byteLength
  rw [map_congr_left (g := fun _ => 1), map_const', sum_replicate_nat, Nat.mul_one]
  intro c hc
  have hlt : c.val.toNat < 128 := Nat.lt_of_lt_of_le (h c hc).2 (by decide)
  have hle : c.val ≤ 0x7f := UInt32.le_iff_toNat_le.mpr (by
    show c.val.toNat ≤ 127
    omega)
  simp [Char.utf8Size, hle]

/-! ### Bytes -/

/-- An even number of digits are bytes. -/
theorem isSome_readHexBytes (h : ∀ c ∈ cs, (digitValue c).isSome) (heven : cs.length % 2 = 0) :
    (readHexBytes cs).isSome = true := by
  fun_induction readHexBytes cs with
  | case1 => rfl
  | case2 => simp at heven
  | case3 a b rest ih =>
    obtain ⟨x, hx⟩ := Option.isSome_iff_exists.mp (h a (by simp))
    obtain ⟨y, hy⟩ := Option.isSome_iff_exists.mp (h b (by simp))
    have hrest := ih (fun c hc => h c (by simp [hc])) (by simp only [length_cons] at heven; omega)
    obtain ⟨bytes, hbytes⟩ := Option.isSome_iff_exists.mp hrest
    simp [hx, hy, hbytes]

theorem utf8Bytes_lt : ∀ b ∈ utf8Bytes s, b < 256 := by
  intro b hb
  simp only [utf8Bytes, mem_flatMap, mem_map] at hb
  obtain ⟨_, -, byte, -, rfl⟩ := hb
  exact byte.toNat_lt

theorem length_utf8Bytes (h : ∀ c ∈ s.toList, IsGraphic c) : (utf8Bytes s).length = s.toList.length := by
  rw [← byteLength_of_graphic h]
  simp [utf8Bytes, byteLength, length_flatMap]

theorem readHexBytes_lt (h : readHexBytes cs = some bytes) : ∀ b ∈ bytes, b < 256 := by
  fun_induction readHexBytes cs generalizing bytes with
  | case1 =>
    rw [← Option.some.inj h]
    simp
  | case2 => cases h
  | case3 a b rest ih =>
    simp only [Option.bind_eq_bind, Option.bind_eq_some_iff, Option.pure_def, Option.some.injEq] at h
    obtain ⟨x, hx, y, hy, bytes', hrest, rfl⟩ := h
    have hxlt := (lowerChar_of_digitValue hx).2
    have hylt := (lowerChar_of_digitValue hy).2
    intro z hz
    rcases mem_cons.mp hz with rfl | hz
    · omega
    · exact ih hrest z hz

/-- Bytes that were read are printed as they were, in lower case. -/
theorem flatMap_hexByte_of_read (h : readHexBytes cs = some bytes) : bytes.flatMap hexByte = cs.map lowerChar := by
  fun_induction readHexBytes cs generalizing bytes with
  | case1 =>
    rw [← Option.some.inj h]
    rfl
  | case2 => cases h
  | case3 a b rest ih =>
    simp only [Option.bind_eq_bind, Option.bind_eq_some_iff, Option.pure_def, Option.some.injEq] at h
    obtain ⟨x, hx, y, hy, bytes', hrest, rfl⟩ := h
    obtain ⟨hxlower, hxlt⟩ := lowerChar_of_digitValue hx
    obtain ⟨hylower, hylt⟩ := lowerChar_of_digitValue hy
    rw [flatMap_cons, ih hrest, hexByte, map_cons, map_cons, hxlower, hylower,
      show (x * 16 + y) / 16 % 16 = x by omega, show (x * 16 + y) % 16 = y by omega]
    rfl

theorem parseMAC_lt (h : parseMAC s = some bytes) : ∀ b ∈ bytes, b < 256 := by
  unfold parseMAC at h
  simp only [Option.filter_eq_some_iff] at h
  have hread : ∀ {width : Nat} {fs : List (List Char)}, readHexFields width fs = some bytes → ∀ b ∈ bytes, b < 256 := by
    intro width fs hfs
    unfold readHexFields at hfs
    split at hfs
    · exact readHexBytes_lt hfs
    · cases hfs
  obtain ⟨h, -⟩ := h
  split at h
  · exact hread h
  · split at h
    · exact hread h
    · cases h

theorem IsDigit.isGraphic {x : Char} (h : IsDigit x) : IsGraphic x := by
  obtain ⟨d, hd, rfl⟩ := h
  have hall : ∀ d : Fin 16, 32 < d.val.digitChar.toNat ∧ d.val.digitChar.toNat < 127 := by decide
  exact hall ⟨d, hd⟩

theorem isWord_macText (hne : bytes ≠ []) : IsWord (macText bytes) := by
  refine isWord_of_graphic ?_ fun x hx => ?_
  · obtain ⟨b, rest, rfl⟩ := exists_cons_of_ne_nil hne
    intro hempty
    have hlist := congrArg String.toList hempty
    cases rest with
    | nil => simp [macText, hexByte] at hlist
    | cons => simp [macText, hexByte, intercalate_cons_cons] at hlist
  · rw [macText, String.toList_ofList] at hx
    rcases mem_intercalate hx with hx | ⟨p, hp, hx⟩
    · rw [mem_singleton.mp hx]
      exact ⟨by decide, by decide⟩
    · obtain ⟨b, -, rfl⟩ := mem_map.mp hp
      exact (isDigit_of_mem_hexByte hx).isGraphic

end Ghostd.Lib
