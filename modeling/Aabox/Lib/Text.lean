import Aabox.Lib.Bytes
import Mathlib.Data.List.TakeWhile

/-! Text as bytes, and as lines. -/
namespace Aabox.Lib

variable {cs text : List Char} {bs : Bytes} {a : Char}

def utf8 (cs : List Char) : Bytes := cs.flatMap String.utf8EncodeChar

/-- The text a byte string stands for, if it is valid UTF-8. -/
def fromUtf8 (bs : Bytes) : Option (List Char) := bs.toByteArray.utf8Decode?.map Array.toList

theorem fromUtf8_nil : fromUtf8 [] = some [] := by
  have h : ([] : Bytes).toByteArray.utf8Decode? = some #[] := List.utf8Decode?_utf8Encode (l := [])
  rw [fromUtf8, h]
  rfl

@[simp] theorem utf8_append (cs cs' : List Char) : utf8 (cs ++ cs') = utf8 cs ++ utf8 cs' :=
  List.flatMap_append

theorem fromUtf8_append (cs : List Char) (bs : Bytes) :
    fromUtf8 (utf8 cs ++ bs) = (fromUtf8 bs).map (cs ++ ·) := by
  induction cs with
  | nil => simp [utf8]
  | cons c cs ih =>
    have hsplit : (utf8 (c :: cs) ++ bs).toByteArray =
        [c].utf8Encode ++ (utf8 cs ++ bs).toByteArray := by
      rw [utf8, List.flatMap_cons, List.append_assoc, List.toByteArray_append,
        List.utf8Encode_singleton]
      rfl
    rw [fromUtf8, hsplit, ByteArray.utf8Decode?_utf8Encode_singleton_append, Option.map_map]
    have hcons : (Array.toList ∘ fun x : Array Char => #[c] ++ x) = (c :: ·) ∘ Array.toList := by
      funext x
      simp
    rw [hcons, ← Option.map_map]
    have htail : (utf8 cs ++ bs).toByteArray.utf8Decode?.map Array.toList =
        (fromUtf8 bs).map (cs ++ ·) := ih
    rw [htail, Option.map_map]
    rfl

theorem fromUtf8_utf8 (cs : List Char) : fromUtf8 (utf8 cs) = some cs := by
  have h := fromUtf8_append cs []
  rw [List.append_nil, fromUtf8_nil] at h
  simpa using h

/-! ### Lines -/

def stripCr (line : List Char) : List Char :=
  if line.getLast? = some '\r' then line.dropLast else line

/-- Lines end in `\n` or `\r\n`; what follows the last one is a line if there is something. -/
def lines (text : List Char) : List (List Char) :=
  let pieces := text.splitOn '\n'
  pieces.dropLast.map stripCr ++ (pieces.getLast?.toList.filter (· ≠ []))

theorem flatten_splitOn (a : Char) (text : List Char) :
    (text.splitOn a).flatten = text.filter (· != a) := by
  induction text with
  | nil => rfl
  | cons c text ih =>
    rw [List.splitOn_cons_eq_if_modifyHead]
    by_cases h : c = a
    · simp [h, ih]
    · cases hp : text.splitOn a with
      | nil => exact (List.splitOn_ne_nil a text hp).elim
      | cons p ps =>
        rw [hp] at ih
        simp [h, ← ih]

/-! ### Trimming and splitting -/

def isWhitespace (c : Char) : Bool :=
  c.val ∈ [0x20, 0x85, 0xa0, 0x1680, 0x2028, 0x2029, 0x202f, 0x205f, 0x3000] ∨
    0x09 ≤ c.val ∧ c.val ≤ 0x0d ∨ 0x2000 ≤ c.val ∧ c.val ≤ 0x200a

def trim (s : List Char) : List Char :=
  ((s.dropWhile isWhitespace).reverse.dropWhile isWhitespace).reverse

/-- At most `n` pieces, the last of which may hold separators. -/
def splitn : Nat → Char → List Char → List (List Char)
  | 0, _, _ => []
  | 1, _, s => [s]
  | n + 2, sep, s =>
    match s.span (· != sep) with
    | (part, []) => [part]
    | (part, _ :: rest) => part :: splitn (n + 1) sep rest

theorem trim_append (l : List Char) {w : List Char} (hw : ∀ c ∈ w, isWhitespace c = true) :
    trim (l ++ w) = trim l := by
  have hrev : w.reverse.dropWhile isWhitespace = [] := by
    rw [List.dropWhile_eq_nil_iff]
    intro c hc
    exact hw c (List.mem_reverse.mp hc)
  have hnil : w.dropWhile isWhitespace = [] := List.dropWhile_eq_nil_iff.mpr hw
  unfold trim
  rw [List.dropWhile_append]
  split
  · rename_i hl
    rw [hnil, List.isEmpty_iff.mp hl]
  · rw [List.reverse_append, List.dropWhile_append, hrev]
    rfl

theorem trim_whitespace_append {w : List Char} (hw : ∀ c ∈ w, isWhitespace c = true)
    (l : List Char) : trim (w ++ l) = trim l := by
  unfold trim
  rw [List.dropWhile_append, List.dropWhile_eq_nil_iff.mpr hw]
  rfl

theorem filter_dropWhile (l : List Char) :
    (l.dropWhile isWhitespace).filter (¬ isWhitespace ·) = l.filter (¬ isWhitespace ·) := by
  induction l with
  | nil => rfl
  | cons c l ih =>
    by_cases hc : isWhitespace c = true
    · rw [List.dropWhile_cons_of_pos hc, ih, List.filter_cons_of_neg (by simpa using hc)]
    · rw [List.dropWhile_cons_of_neg hc]

theorem filter_trim (l : List Char) :
    (trim l).filter (¬ isWhitespace ·) = l.filter (¬ isWhitespace ·) := by
  rw [trim, List.filter_reverse, filter_dropWhile, ← List.filter_reverse, List.reverse_reverse,
    filter_dropWhile]

/-- What starts a line after its indent is not trimmed where something comes after it. -/
theorem prefix_trim {w mark rest : List Char} (hw : ∀ c ∈ w, isWhitespace c = true)
    (hmark : isWhitespace c = false) (hrest : ∃ d ∈ rest, isWhitespace d = false) :
    c :: mark <+: trim (w ++ (c :: mark ++ rest)) := by
  obtain ⟨d, hd, hdark⟩ := hrest
  obtain ⟨u, v, rfl⟩ := List.append_of_mem hd
  have hhead : (c :: mark ++ (u ++ d :: v)).dropWhile isWhitespace = c :: mark ++ (u ++ d :: v) :=
    List.dropWhile_cons_of_neg (by simp [hmark])
  have hsplit : (c :: mark ++ (u ++ d :: v)).reverse =
      v.reverse ++ (d :: (c :: mark ++ u).reverse) := by
    simp
  have htail : ∃ k, (v.reverse ++ (d :: (c :: mark ++ u).reverse)).dropWhile isWhitespace =
      k ++ (c :: mark ++ u).reverse := by
    rw [List.dropWhile_append]
    split
    · exact ⟨[d], by rw [List.dropWhile_cons_of_neg (by simp [hdark])]; rfl⟩
    · exact ⟨v.reverse.dropWhile isWhitespace ++ [d], by simp⟩
  obtain ⟨k, hk⟩ := htail
  rw [trim_whitespace_append hw, trim, hhead, hsplit, hk, List.reverse_append, List.reverse_reverse,
    List.append_assoc]
  exact List.prefix_append _ _

theorem trim_stripCr (line : List Char) : trim (stripCr line) = trim line := by
  unfold stripCr
  split
  · rename_i h
    obtain ⟨l, rfl⟩ := List.getLast?_eq_some_iff.mp h
    rw [List.dropLast_concat, trim_append]
    simp [isWhitespace]
  · rfl

end Aabox.Lib
