import Ghostd.Lib.Numeral
import Mathlib.Algebra.Order.BigOperators.Group.List

/-!
# `Ghostd.Lib.Text`: the string functions of Go's standard library

The parts of `strings`, `strconv`, `encoding/hex` and `net` that deal with text, over the
characters of a string. A Go string is its UTF-8 bytes, so a length is counted in bytes; the
functions that look for ASCII text give the same on characters as on bytes.

Case folding is the ASCII part of it. The only other characters that fold to an ASCII letter
fold to `k`, `s` or `i`, so nothing changes for hexadecimal text.
-/

set_option autoImplicit false

namespace Ghostd.Lib

open List

/-! ### Classes of characters -/

/-- A character of `[a-zA-Z0-9]`. -/
def asciiAlphanum (c : Char) : Bool :=
  ('a' ≤ c && c ≤ 'z') || ('A' ≤ c && c ≤ 'Z') || ('0' ≤ c && c ≤ '9')

/-- A character of `[a-z0-9]`. -/
def lowerAlphanum (c : Char) : Bool := ('a' ≤ c && c ≤ 'z') || ('0' ≤ c && c ≤ '9')

/-- A hexadecimal digit of either case. -/
def hexDigit (c : Char) : Bool := (digitValue c).isSome

/-- `unicode.IsSpace`. -/
def isSpace (c : Char) : Bool :=
  c.toNat ∈ [0x09, 0x0a, 0x0b, 0x0c, 0x0d, 0x20, 0x85, 0xa0, 0x1680, 0x2028, 0x2029, 0x202f,
    0x205f, 0x3000] || (0x2000 ≤ c.toNat && c.toNat ≤ 0x200a)

/-- The ASCII part of lower-casing. -/
def lowerChar (c : Char) : Char := if 'A' ≤ c ∧ c ≤ 'Z' then Char.ofNat (c.toNat + 32) else c

/-! ### Package `strings` -/

/-- The `len` of a string: its bytes. -/
def byteLength (s : String) : Nat := (s.toList.map Char.utf8Size).sum

/-- `strings.ToLower`. -/
def toLower (s : String) : String := String.ofList (s.toList.map lowerChar)

/-- `strings.EqualFold`. -/
def equalFold (s t : String) : Bool := s.toList.map lowerChar = t.toList.map lowerChar

/-- `strings.HasPrefix`. -/
def startsWith (s start : String) : Bool := start.toList.isPrefixOf s.toList

/-- `strings.HasSuffix`. -/
def endsWith (s tail : String) : Bool := tail.toList.isSuffixOf s.toList

/-- `strings.TrimPrefix`. -/
def trimStart (s start : String) : String :=
  if startsWith s start then String.ofList (s.toList.drop start.toList.length) else s

/-- `strings.ReplaceAll` of one character by nothing. -/
def removeAll (s : String) (c : Char) : String := String.ofList (s.toList.filter (· ≠ c))

/-- `strings.ContainsAny`. -/
def containsAny (s : String) (cs : List Char) : Bool := s.toList.any (· ∈ cs)

/-- The pieces between the occurrences of a separator, from left to right. The first argument
counts the characters of the separator still to be passed over. -/
def splitFrom (sep : List Char) : Nat → List Char → List Char → List (List Char)
  | _, piece, [] => [piece.reverse]
  | skip + 1, piece, _ :: cs => splitFrom sep skip piece cs
  | 0, piece, c :: cs =>
    if sep.isPrefixOf (c :: cs) then piece.reverse :: splitFrom sep (sep.length - 1) [] cs
    else splitFrom sep 0 (c :: piece) cs

/-- `strings.Split` at a separator that is not empty. -/
def splitText (s sep : String) : List String :=
  (splitFrom sep.toList 0 [] s.toList).map String.ofList

/-- `strings.Join`. -/
def joinText (parts : List String) (sep : String) : String :=
  String.ofList (sep.toList.intercalate (parts.map String.toList))

/-- The words of `strings.Fields`; `word` holds the current one backwards. -/
def fieldsFrom (word : List Char) : List Char → List String
  | [] => if word = [] then [] else [String.ofList word.reverse]
  | c :: cs =>
    if isSpace c then
      if word = [] then fieldsFrom [] cs else String.ofList word.reverse :: fieldsFrom [] cs
    else fieldsFrom (c :: word) cs

/-- `strings.Fields`. -/
def fields (s : String) : List String := fieldsFrom [] s.toList

/-! ### Package `fmt` -/

/-- The `%q` verb, for text without control characters. -/
def quoted (s : String) : String :=
  let escape (c : Char) : List Char := if c = '"' ∨ c = '\\' then ['\\', c] else [c]
  "\"" ++ String.ofList (s.toList.flatMap escape) ++ "\""

/-- Zeros in front of digits, up to a width. -/
def padLeft (width : Nat) (cs : List Char) : List Char :=
  List.replicate (width - cs.length) '0' ++ cs

/-! ### Packages `strconv` and `encoding/hex` -/

/-- `strconv.ParseUint` in base 10 or 16. -/
def parseUint (s : String) (base bits : Nat) : Option Nat :=
  if s.toList = [] then none else (readDigits base 0 s.toList).filter (· < 2 ^ bits)

/-- `strconv.ParseInt` in base 10 with 64 bits. -/
def parseInt64 (s : String) : Option Int :=
  match s.toList with
  | '-' :: cs => (parseUint (String.ofList cs) 10 64).bind fun n =>
    if n ≤ 2 ^ 63 then some (-(n : Int)) else none
  | '+' :: cs => (parseUint (String.ofList cs) 10 63).map (↑·)
  | _ => (parseUint s 10 63).map (↑·)

/-- Two hexadecimal digits as a byte, for each byte of the text. -/
def readHexBytes : List Char → Option (List Nat)
  | [] => some []
  | [_] => none
  | h :: l :: cs => do
    let h ← digitValue h
    let l ← digitValue l
    let rest ← readHexBytes cs
    pure ((h * 16 + l) :: rest)

/-- `hex.DecodeString`. -/
def decodeHex (s : String) : Option (List Nat) := readHexBytes s.toList

/-- The two digits of a byte. -/
def hexByte (n : Nat) : List Char := [(n / 16 % 16).digitChar, (n % 16).digitChar]

/-- `hex.EncodeToString`. -/
def encodeHex (bytes : List Nat) : String := String.ofList (bytes.flatMap hexByte)

/-- The bytes of a string. -/
def utf8Bytes (s : String) : List Nat :=
  s.toList.flatMap fun c => (String.utf8EncodeChar c).map UInt8.toNat

/-! ### Splitting what was joined -/

section Pieces

variable {α : Type} [DecidableEq α]

theorem length_splitOn (x : α) (xs : List α) : (xs.splitOn x).length = xs.count x + 1 := by
  rw [splitOn_eq_splitOnP]
  induction xs with
  | nil => simp
  | cons y ys ih =>
    rw [splitOnP_cons_eq_if_modifyHead]
    by_cases hy : y = x
    · simp [hy, ih]
    · simp [hy, ih]

/-- A piece has elements of the list, and no separator. -/
theorem mem_of_mem_splitOn {x y : α} {xs p : List α} (hp : p ∈ xs.splitOn x) (hy : y ∈ p) : y ∈ xs ∧ y ≠ x := by
  induction xs generalizing p with
  | nil =>
    rw [splitOn_nil, mem_singleton] at hp
    rw [hp] at hy
    cases hy
  | cons z zs ih =>
    have hrest : ∀ {q}, q ∈ zs.splitOn x → y ∈ q → y ∈ z :: zs ∧ y ≠ x := fun hq hyq =>
      (ih hq hyq).imp_left (mem_cons_of_mem z)
    rw [splitOn_cons_eq_if_modifyHead] at hp
    split at hp
    · rcases mem_cons.mp hp with rfl | hp
      · cases hy
      · exact hrest hp hy
    · rename_i hz
      -- Only the first piece is longer by the element in front.
      cases hsplit : zs.splitOn x with
      | nil =>
        rw [hsplit] at hp
        cases hp
      | cons q qs =>
        rw [hsplit, modifyHead_cons, mem_cons] at hp
        rw [hsplit] at hrest
        rcases hp with rfl | hp
        · rcases mem_cons.mp hy with rfl | hy
          · exact ⟨mem_cons_self, by simpa using hz⟩
          · exact hrest mem_cons_self hy
        · exact hrest (mem_cons_of_mem _ hp) hy

theorem count_intercalate (x : α) {ls : List (List α)} (hne : ls ≠ []) :
    ([x].intercalate ls).count x + 1 = (ls.map (List.count x)).sum + ls.length := by
  induction ls with
  | nil => exact absurd rfl hne
  | cons l ls ih =>
    cases ls with
    | nil => simp
    | cons =>
      have hrest := ih (by simp)
      rw [intercalate_cons_cons, count_append, count_append]
      simp only [count_singleton_self, map_cons, sum_cons, length_cons] at hrest ⊢
      omega

/-- Text that was joined from pieces and splits into as many splits into those. -/
theorem splitOn_intercalate_of_length (x : α) {ls : List (List α)} (hne : ls ≠ [])
    (hlen : (([x].intercalate ls).splitOn x).length = ls.length) :
    ([x].intercalate ls).splitOn x = ls := by
  have hcount := count_intercalate x hne
  rw [length_splitOn] at hlen
  have hzero : (ls.map (List.count x)).sum = 0 := by omega
  refine splitOn_intercalate x ?_ hne
  intro l hl
  have : l.count x ∈ ls.map (List.count x) := mem_map_of_mem hl
  exact count_eq_zero.mp (sum_eq_zero_iff.mp hzero _ this)

end Pieces

/-- A separator that neither first part has gives both parts back. -/
theorem append_cons_inj {α : Type} {c : α} {x x' y y' : List α} (hx : c ∉ x) (hx' : c ∉ x')
    (h : x ++ c :: y = x' ++ c :: y') : x = x' ∧ y = y' := by
  induction x generalizing x' with
  | nil =>
    cases x' with
    | nil => exact ⟨rfl, (List.cons.inj h).2⟩
    | cons =>
      obtain ⟨hcd, -⟩ := List.cons.inj h
      exact absurd (by rw [hcd]; exact mem_cons_self) hx'
  | cons d ds ih =>
    cases x' with
    | nil =>
      obtain ⟨hdc, -⟩ := List.cons.inj h
      exact absurd (by rw [← hdc]; exact mem_cons_self) hx
    | cons =>
      obtain ⟨hde, hrest⟩ := List.cons.inj h
      obtain ⟨hxs, hys⟩ := ih (fun hmem => hx (mem_cons_of_mem _ hmem))
        (fun hmem => hx' (mem_cons_of_mem _ hmem)) hrest
      exact ⟨by rw [hde, hxs], hys⟩

/-- The same from the right. -/
theorem append_cons_inj_right {α : Type} {c : α} {x x' y y' : List α} (hy : c ∉ y) (hy' : c ∉ y')
    (h : x ++ c :: y = x' ++ c :: y') : x = x' ∧ y = y' := by
  have hreverse := congrArg List.reverse h
  simp only [reverse_append, reverse_cons, append_assoc, singleton_append] at hreverse
  obtain ⟨hright, hleft⟩ :=
    append_cons_inj (by simpa using hy) (by simpa using hy') hreverse
  exact ⟨reverse_inj.mp hleft, reverse_inj.mp hright⟩

/-- Taking out the separators leaves what was joined. -/
theorem filter_intercalate {α : Type} {p : α → Bool} {sep : List α} (hsep : sep.filter p = [])
    (ls : List (List α)) : (sep.intercalate ls).filter p = (ls.map (List.filter p)).flatten := by
  induction ls with
  | nil => simp
  | cons l ls ih =>
    cases ls with
    | nil => simp
    | cons =>
      rw [intercalate_cons_cons, filter_append, filter_append, hsep, ih]
      simp

/-! ### Starts and letters -/

/-- The text after a start that it has. -/
theorem toList_of_startsWith {s start : String} (h : startsWith s start = true) :
    s.toList = start.toList ++ (trimStart s start).toList := by
  obtain ⟨rest, hrest⟩ := isPrefixOf_iff_prefix.mp h
  rw [trimStart, if_pos h, String.toList_ofList, ← hrest, drop_left]

theorem eq_of_startsWith {s start : String} (h : startsWith s start = true) : s = start ++ trimStart s start := by
  rw [← String.toList_inj, String.toList_append, ← toList_of_startsWith h]

theorem trimStart_append (start rest : String) : trimStart (start ++ rest) start = rest := by
  have hstart : startsWith (start ++ rest) start = true := by simp [startsWith, String.toList_append]
  have hparts := toList_of_startsWith hstart
  rw [String.toList_append] at hparts
  exact String.toList_inj.mp (append_cancel_left hparts).symm

theorem toLower_append (x y : String) : toLower (x ++ y) = toLower x ++ toLower y := by
  simp [toLower, String.toList_append, String.ofList_append]

theorem length_toLower (x : String) : (toLower x).toList.length = x.toList.length := by
  simp [toLower]

/-! ### Hardware addresses -/

/-- The bytes of hexadecimal fields of a fixed width. -/
def readHexFields (width : Nat) (fields : List (List Char)) : Option (List Nat) :=
  if fields.all (·.length = width) then readHexBytes fields.flatten else none

/-- `net.ParseMAC`: six, eight or twenty bytes, as pairs behind colons or dashes or as quads
behind dots. The third or the fifth character says which. -/
def parseMAC (s : String) : Option (List Nat) :=
  let cs := s.toList
  let bytes :=
    if cs.drop 2 |>.head? |>.elim false (fun c => c = ':' || c = '-') then
      readHexFields 2 (cs.splitOn ((cs.drop 2).headD ':'))
    else if (cs.drop 4).head? = some '.' then readHexFields 4 (cs.splitOn '.')
    else none
  bytes.filter fun b => b.length ∈ [6, 8, 20]

/-- `HardwareAddr.String`. -/
def macText (bytes : List Nat) : String :=
  String.ofList ([':'].intercalate (bytes.map hexByte))

example : (parseMAC "02-AB-00-00-00-0f").map macText = some "02:ab:00:00:00:0f" := by decide

example : (parseMAC "02ab.0000.000f").map macText = some "02:ab:00:00:00:0f" := by decide

example : splitText "0001/iaid:02/iaid:" "/iaid:" = ["0001", "02", ""] := by decide

end Ghostd.Lib
