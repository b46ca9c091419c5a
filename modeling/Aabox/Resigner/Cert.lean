import Aabox.Lib.Base64
import Aabox.Lib.Fallible
import Aabox.Lib.Text
import Aabox.Resigner.Sign

/-! The certificate of a signer: the DER bytes, from themselves or from a PEM armour. -/
namespace Aabox.Resigner.Sign
open Aabox.Lib

def BEGIN : List Char := ['-', '-', '-', '-', '-', 'B', 'E', 'G', 'I', 'N', ' ']
def END : List Char := ['-', '-', '-', '-', '-', 'E', 'N', 'D', ' ']

def windows (n : Nat) (bytes : Bytes) : List Bytes :=
  (List.range (bytes.length + 1 - n)).map fun i => slice bytes i n

def looksLikePem (bytes : Bytes) : Bool := (windows 11 bytes).any (· = utf8 BEGIN)

def base64Value (c : Char) : Option Nat :=
  if 'A' ≤ c ∧ c ≤ 'Z' then some (c.toNat - 'A'.toNat)
  else if 'a' ≤ c ∧ c ≤ 'z' then some (c.toNat - 'a'.toNat + 26)
  else if '0' ≤ c ∧ c ≤ '9' then some (c.toNat - '0'.toNat + 52)
  else if c = '+' then some 62
  else if c = '/' then some 63
  else none

/-- The characters left, with what is out; the lower `bits` of `buf` still wait for more. -/
def base64Loop : List Char → Bytes → Nat → Nat → Except String Bytes
  | [], out, _, _ => .ok out
  | c :: cs, out, buf, bits =>
    if isWhitespace c then base64Loop cs out buf bits
    else if c = '=' then .ok out
    else
      match base64Value c with
      | none => .error s!"invalid base64 character: {c.quote}"
      | some v =>
        -- the shift drops what leaves the 32 bits
        let buf := (buf <<< 6) % 2 ^ 32 ||| v
        let bits := bits + 6
        if 8 ≤ bits then
          let bits := bits - 8
          base64Loop cs (out ++ [UInt8.ofNat ((buf >>> bits) &&& 0xff)]) buf bits
        else base64Loop cs out buf bits

def base64Decode (input : List Char) : Except String Bytes := base64Loop input [] 0 0

/-- The body of the first block, from the lines that are left. -/
def pemBody : List (List Char) → Bool → List Char → List Char
  | [], _, b64 => b64
  | line :: rest, in_body, b64 =>
    let trimmed := trim line
    if BEGIN <+: trimmed then pemBody rest true b64
    else if END <+: trimmed then b64
    else if in_body then pemBody rest in_body (b64 ++ trimmed)
    else pemBody rest in_body b64

def pemToDer (pem_bytes : Bytes) : Except String Bytes :=
  match fromUtf8 pem_bytes with
  | none => .error "PEM not UTF-8"
  | some text =>
    let b64 := pemBody (lines text) false []
    if b64.isEmpty then .error "PEM has no body"
    else context "base64 decoding PEM body" (base64Decode b64)

def certDer (cert_bytes : Bytes) : Except String Bytes :=
  if looksLikePem cert_bytes then context "converting cert PEM → DER" (pemToDer cert_bytes)
  else .ok cert_bytes

/-- The parsers that a signer is loaded with. -/
structure Loader (C : Crypto) where
  Certificate : Type
  from_pkcs8 : Bytes → Except String C.KeyPair
  from_der : Bytes → Except String Certificate
  spki_to_der : Certificate → Except String Bytes
  spki_eq : ∀ {der cert key}, from_der der = .ok cert → spki_to_der cert = .ok key →
    C.spki der = some key

variable {C : Crypto}

def fromBytes (L : Loader C) (key_bytes cert_bytes : Bytes) : Except String (Signer C) :=
  match L.from_pkcs8 key_bytes with
  | .error e => .error s!"parsing PKCS#8 private key: {e}"
  | .ok key_pair =>
    match certDer cert_bytes with
    | .error e => .error e
    | .ok cert_der =>
      match hcert : L.from_der cert_der with
      | .error e => .error s!"parsing X.509 cert: {e}"
      | .ok cert =>
        match hspki : L.spki_to_der cert with
        | .error e => .error s!"re-encoding SPKI: {e}"
        | .ok spki_der => .ok ⟨key_pair, cert_der, spki_der, L.spki_eq hcert hspki⟩

/-- Wherever the key and the certificate `der` are in order, `bytes` load as that certificate. -/
def Derives (bytes der : Bytes) : Prop :=
  ∀ (C : Crypto) (L : Loader C) key_bytes key_pair cert spki_der,
    L.from_pkcs8 key_bytes = .ok key_pair → L.from_der der = .ok cert →
    L.spki_to_der cert = .ok spki_der →
    ∃ signer, fromBytes L key_bytes bytes = .ok signer ∧ signer.key_pair = key_pair ∧
      signer.cert_der = der ∧ signer.public_key_spki_der = spki_der

variable {D cert : Bytes} {cs b64 : List Char} {c : Char} {v buf bits : Nat} {out : Bytes}

theorem derives_of_certDer (h : certDer cert = .ok D) : Derives cert D := by
  intro C L key_bytes key_pair parsed spki_der hkey hcert hspki
  unfold fromBytes
  rw [hkey]
  simp only [h]
  split
  · rename_i e he
    rw [hcert] at he
    cases he
  · rename_i parsed' hcert'
    rw [hcert] at hcert'
    cases hcert'
    split
    · rename_i e he
      rw [hspki] at he
      cases he
    · rename_i spki' hspki'
      rw [hspki] at hspki'
      cases hspki'
      exact ⟨_, rfl, rfl, rfl, rfl⟩

/-! ### Base64 -/

theorem digit_facts : ∀ v < 64, isWhitespace (Base64.digit v) = false ∧ Base64.digit v ≠ '=' ∧
    Base64.digit v ≠ '-' ∧ base64Value (Base64.digit v) = some v := by decide +kernel

theorem base64Loop_filter (cs : List Char) (out : Bytes) (buf bits : Nat) :
    base64Loop (cs.filter (¬ isWhitespace ·)) out buf bits = base64Loop cs out buf bits := by
  induction cs generalizing out buf bits with
  | nil => rfl
  | cons c cs ih =>
    by_cases hc : isWhitespace c = true
    · rw [List.filter_cons_of_neg (by simpa using hc), base64Loop, if_pos hc]
      exact ih out buf bits
    · rw [List.filter_cons_of_pos (by simpa using hc), base64Loop, base64Loop]
      simp only [ih]

/-- What the accumulator holds after another digit: only the bits still to come matter. -/
def push (buf v : Nat) : Nat := 64 * (buf % 2 ^ 26) + v

theorem push_eq (buf : Nat) (hv : v < 64) : (buf <<< 6) % 2 ^ 32 ||| v = push buf v := by
  have hshift : (buf <<< 6) % 2 ^ 32 = 2 ^ 6 * (buf % 2 ^ 26) := by
    rw [Nat.shiftLeft_eq]
    omega
  rw [hshift, ← Nat.two_pow_add_eq_or_of_lt hv]
  rfl

theorem base64Loop_wait (hv : v < 64) (hbits : bits < 2) :
    base64Loop (Base64.digit v :: cs) out buf bits =
      base64Loop cs out (push buf v) (bits + 6) := by
  obtain ⟨hws, heq, _, hval⟩ := digit_facts v hv
  rw [base64Loop, if_neg (by simp [hws]), if_neg heq, hval]
  dsimp only
  rw [push_eq buf hv, if_neg (by omega)]

theorem base64Loop_byte {b : UInt8} (hv : v < 64) (hbits : 2 ≤ bits)
    (hb : push buf v / 2 ^ (bits - 2) % 256 = b.toNat) :
    base64Loop (Base64.digit v :: cs) out buf bits =
      base64Loop cs (out ++ [b]) (push buf v) (bits - 2) := by
  obtain ⟨hws, heq, _, hval⟩ := digit_facts v hv
  have hbyte : UInt8.ofNat (push buf v >>> (bits + 6 - 8) &&& 0xff) = b := by
    apply UInt8.toNat_inj.mp
    have hmask := Nat.and_two_pow_sub_one_eq_mod (push buf v >>> (bits + 6 - 8)) 8
    rw [UInt8.toNat_ofNat', show 0xff = 2 ^ 8 - 1 from rfl, hmask, Nat.shiftRight_eq_div_pow,
      show bits + 6 - 8 = bits - 2 by omega, hb]
    exact Nat.mod_eq_of_lt b.toNat_lt
  rw [base64Loop, if_neg (by simp [hws]), if_neg heq, hval]
  dsimp only
  rw [push_eq buf hv, if_pos (by omega), hbyte]
  congr 1

/-- Four digits give their three bytes, whatever the accumulator has kept from before. -/
theorem base64Loop_encode (bs out : Bytes) (buf : Nat) :
    base64Loop (Base64.encode bs) out buf 0 = .ok (out ++ bs) := by
  fun_induction Base64.encode bs generalizing out buf with
  | case1 => rw [base64Loop, List.append_nil]
  | case2 a =>
    have ha := a.toNat_lt
    rw [base64Loop_wait (by omega) (by omega),
      @base64Loop_byte _ _ _ _ _ a (by omega) (by omega) (by unfold push; omega)]
    rfl
  | case3 a b =>
    have ha := a.toNat_lt
    have hb := b.toNat_lt
    rw [base64Loop_wait (by omega) (by omega),
      @base64Loop_byte _ _ _ _ _ a (by omega) (by omega) (by unfold push; omega),
      @base64Loop_byte _ _ _ _ _ b (by omega) (by omega) (by unfold push; omega)]
    simp [base64Loop, isWhitespace]
  | case4 a b c bs ih =>
    have ha := a.toNat_lt
    have hb := b.toNat_lt
    have hc := c.toNat_lt
    rw [base64Loop_wait (by omega) (by omega),
      @base64Loop_byte _ _ _ _ _ a (by omega) (by omega) (by unfold push; omega),
      @base64Loop_byte _ _ _ _ _ b (by omega) (by omega) (by unfold push; omega),
      @base64Loop_byte _ _ _ _ _ c (by omega) (by omega) (by unfold push; omega), ih]
    simp

/-- The text is base64 of the bytes, broken up by whitespace anywhere. -/
def Wraps (text : List Char) (bs : Bytes) : Prop :=
  text.filter (¬ isWhitespace ·) = Base64.encode bs

theorem base64Decode_wraps {text : List Char} {bs : Bytes} (h : Wraps text bs) :
    base64Decode text = .ok bs := by
  rw [base64Decode, ← base64Loop_filter, h, base64Loop_encode]
  rfl

theorem encode_clear (bs : Bytes) : ∀ c ∈ Base64.encode bs, isWhitespace c = false ∧ c ≠ '-' := by
  apply Base64.forall_mem_encode
  · intro v hv
    obtain ⟨hws, _, hdash, _⟩ := digit_facts v hv
    exact ⟨hws, hdash⟩
  · decide

/-! ### The lines of an armour -/

def IsBoundary (line : List Char) : Prop := BEGIN <+: trim line ∨ END <+: trim line

theorem pemBody_stripCr (ls rest : List (List Char)) (in_body : Bool) (b64 : List Char) :
    pemBody (ls.map stripCr ++ rest) in_body b64 = pemBody (ls ++ rest) in_body b64 := by
  induction ls generalizing in_body b64 with
  | nil => rfl
  | cons l ls ih => simp only [List.map_cons, List.cons_append, pemBody, trim_stripCr, ih]

theorem pemBody_last (ls : List (List Char)) (in_body : Bool) (b64 : List Char) :
    pemBody (ls ++ [[]]) in_body b64 = pemBody ls in_body b64 := by
  induction ls generalizing in_body b64 with
  | nil => cases in_body <;> simp [pemBody, trim, BEGIN, END]
  | cons l ls ih => simp only [List.cons_append, pemBody, ih]

/-- For the body it makes no difference how the lines are cut at `\r` and at the end. -/
theorem pemBody_lines (text : List Char) (in_body : Bool) (b64 : List Char) :
    pemBody (lines text) in_body b64 = pemBody (text.splitOn '\n') in_body b64 := by
  obtain ⟨ps, p, hp⟩ : ∃ ps p, text.splitOn '\n' = ps ++ [p] := by
    have hne := List.splitOn_ne_nil '\n' text
    exact ⟨_, _, (List.dropLast_append_getLast hne).symm⟩
  unfold lines
  dsimp only
  rw [hp, List.dropLast_concat, List.getLast?_concat, pemBody_stripCr]
  by_cases hlast : p = []
  · rw [hlast, pemBody_last]
    simp
  · simp [hlast]

theorem pemBody_plain {l : List Char} (hl : ¬ IsBoundary l) (ls : List (List Char)) :
    pemBody (l :: ls) false b64 = pemBody ls false b64 := by
  rw [IsBoundary, not_or] at hl
  simp only [pemBody, if_neg hl.1, if_neg hl.2, Bool.false_eq_true, if_false]

theorem pemBody_inside {ps : List (List Char)} (hps : ∀ p ∈ ps, ¬ IsBoundary p)
    (ls : List (List Char)) (b64 : List Char) :
    pemBody (ps ++ ls) true b64 = pemBody ls true (b64 ++ (ps.map trim).flatten) := by
  induction ps generalizing b64 with
  | nil => simp
  | cons p ps ih =>
    have hp := hps p List.mem_cons_self
    rw [IsBoundary, not_or] at hp
    rw [List.cons_append, pemBody]
    simp only [if_neg hp.1, if_neg hp.2, if_true]
    rw [ih (fun q hq => hps q (List.mem_cons_of_mem _ hq))]
    simp

theorem splitOn_append {l : List Char} (hl : '\n' ∉ l) (text : List Char) :
    ∃ p ps, text.splitOn '\n' = p :: ps ∧ (l ++ text).splitOn '\n' = (l ++ p) :: ps := by
  induction l with
  | nil =>
    obtain ⟨p, ps, hp⟩ := List.exists_cons_of_ne_nil (List.splitOn_ne_nil '\n' text)
    exact ⟨p, ps, hp, hp⟩
  | cons c l ih =>
    obtain ⟨p, ps, hp, hl'⟩ := ih (fun h => hl (List.mem_cons_of_mem c h))
    refine ⟨p, ps, hp, ?_⟩
    have hc : (c == '\n') = false := by
      rw [beq_eq_false_iff_ne]
      rintro rfl
      exact hl List.mem_cons_self
    rw [List.cons_append, List.splitOn_cons_eq_if_modifyHead, hc, hl']
    rfl

/-! ### Armours -/

inductive Eol
  | lf | crlf | cr
  deriving DecidableEq, Repr

def Eol.text : Eol → List Char
  | .lf => ['\n']
  | .crlf => ['\r', '\n']
  | .cr => ['\r']

/-- Whitespace within a line. -/
def Blank (w : List Char) : Prop := (∀ c ∈ w, isWhitespace c = true) ∧ '\n' ∉ w

def dashes : List Char := ['-', '-', '-', '-', '-']

/-- A PEM file that holds `D`: text lines, the BEGIN line, the base64, the END line, the rest. -/
structure Armour (D : Bytes) where
  preamble : List (List Char × Eol)
  preamble_plain : ∀ l ∈ preamble, '\n' ∉ l.1 ∧ ¬ IsBoundary l.1
  indent : List Char
  indent_blank : Blank indent
  label : List Char
  label_line : '\n' ∉ label
  pad : List Char
  pad_blank : Blank pad
  begin_eol : Eol
  body : List Char
  body_wraps : Wraps body D
  body_eol : Eol
  end_indent : List Char
  end_blank : Blank end_indent
  tail : Bytes

def Armour.beginLine (a : Armour D) : List Char :=
  a.indent ++ (BEGIN ++ (a.label ++ dashes ++ a.pad))

def Armour.endLine (a : Armour D) : List Char := a.end_indent ++ (END ++ (a.label ++ dashes))

def preambleText (ls : List (List Char × Eol)) : List Char := ls.flatMap fun l => l.1 ++ l.2.text

def Armour.text (a : Armour D) : List Char :=
  preambleText a.preamble ++ (a.beginLine ++ (a.begin_eol.text ++
    (a.body ++ (a.body_eol.text ++ a.endLine))))

def Armour.bytes (a : Armour D) : Bytes := utf8 a.text ++ a.tail

/-- The file is UTF-8, and its lines end in `\n` or `\r\n`. -/
structure Armour.Readable (a : Armour D) : Prop where
  preamble : ∀ l ∈ a.preamble, l.2 ≠ .cr
  begin_eol : a.begin_eol ≠ .cr
  body_eol : a.body_eol ≠ .cr
  tail : (fromUtf8 a.tail).isSome

theorem Eol.text_eq {e : Eol} (he : e ≠ .cr) : ∃ w, e.text = w ++ ['\n'] ∧ Blank w := by
  cases e with
  | lf => exact ⟨[], rfl, by simp [Blank]⟩
  | crlf => exact ⟨['\r'], rfl, by simp [Blank, isWhitespace]⟩
  | cr => exact (he rfl).elim

/-- A line and its ending are the first of the pieces. -/
theorem splitOn_line {l : List Char} (hl : '\n' ∉ l) {e : Eol} (he : e ≠ .cr) (rest : List Char) :
    ∃ p, (l ++ (e.text ++ rest)).splitOn '\n' = p :: rest.splitOn '\n' ∧ trim p = trim l ∧
      ∃ w, Blank w ∧ p = l ++ w := by
  obtain ⟨w, hw, hblank⟩ := e.text_eq he
  have hline : '\n' ∉ l ++ w := by
    rw [List.mem_append]
    exact fun h => h.elim hl hblank.2
  have heq : l ++ (e.text ++ rest) = (l ++ w) ++ '\n' :: rest := by
    rw [hw]
    simp
  refine ⟨l ++ w, ?_, trim_append l hblank.1, w, hblank, rfl⟩
  rw [heq, List.splitOn_append_cons_self_of_not_mem hline]

theorem pemBody_preamble {ls : List (List Char × Eol)}
    (hplain : ∀ l ∈ ls, '\n' ∉ l.1 ∧ ¬ IsBoundary l.1) (heol : ∀ l ∈ ls, l.2 ≠ .cr)
    (rest b64 : List Char) :
    pemBody ((preambleText ls ++ rest).splitOn '\n') false b64 =
      pemBody (rest.splitOn '\n') false b64 := by
  induction ls with
  | nil => rfl
  | cons l ls ih =>
    obtain ⟨hline, hno⟩ := hplain l List.mem_cons_self
    have hcut : preambleText (l :: ls) ++ rest =
        l.1 ++ (l.2.text ++ (preambleText ls ++ rest)) := by
      simp [preambleText]
    obtain ⟨p, hp, htrim, _⟩ := splitOn_line hline (heol l List.mem_cons_self)
      (preambleText ls ++ rest)
    have hpno : ¬ IsBoundary p := by
      rw [IsBoundary, htrim]
      exact hno
    rw [hcut, hp, pemBody_plain hpno]
    exact ih (fun k hk => hplain k (List.mem_cons_of_mem _ hk))
      (fun k hk => heol k (List.mem_cons_of_mem _ hk))

theorem dash_dark : isWhitespace '-' = false := by decide

theorem Armour.begin_prefix (a : Armour D) {w : List Char} (hw : Blank w) :
    BEGIN <+: trim (a.beginLine ++ w) := by
  rw [trim_append _ hw.1]
  apply prefix_trim a.indent_blank.1 dash_dark
  exact ⟨'-', by simp [dashes], dash_dark⟩

theorem Armour.begin_line (a : Armour D) : '\n' ∉ a.beginLine := by
  unfold Armour.beginLine
  simp only [List.mem_append, not_or]
  exact ⟨a.indent_blank.2, by decide, ⟨a.label_line, by decide⟩, a.pad_blank.2⟩

theorem Armour.end_line (a : Armour D) : '\n' ∉ a.endLine := by
  unfold Armour.endLine
  simp only [List.mem_append, not_or]
  exact ⟨a.end_blank.2, by decide, a.label_line, by decide⟩

theorem Armour.end_prefix (a : Armour D) (rest : List Char) :
    END <+: trim (a.endLine ++ rest) := by
  have heq : a.endLine ++ rest = a.end_indent ++ (END ++ (a.label ++ dashes ++ rest)) := by
    simp [Armour.endLine]
  rw [heq]
  apply prefix_trim a.end_blank.1 dash_dark
  exact ⟨'-', by simp [dashes], dash_dark⟩

theorem not_begin_of_end {l : List Char} (h : END <+: l) : ¬ BEGIN <+: l := by
  rintro ⟨u, hu⟩
  obtain ⟨v, hv⟩ := h
  rw [← hv] at hu
  have hget := congrArg (fun l : List Char => l[5]?) hu
  revert hget
  simp [BEGIN, END]

/-- A line of the body is base64, so no boundary. -/
theorem Wraps.not_boundary {text p : List Char} {bs : Bytes} (h : Wraps text bs)
    (hp : ∀ c ∈ p, c ∈ text) : ¬ IsBoundary p := by
  have hdash : '-' ∉ text := by
    intro hmem
    have hfil : '-' ∈ text.filter (¬ isWhitespace ·) :=
      List.mem_filter.mpr ⟨hmem, by simp [dash_dark]⟩
    rw [h] at hfil
    exact (encode_clear bs _ hfil).2 rfl
  have htrim : ∀ c ∈ trim p, c ∈ p := by
    intro c hc
    have hsub := (List.dropWhile_sublist isWhitespace).subset (List.mem_reverse.mp hc)
    exact (List.dropWhile_sublist isWhitespace).subset (List.mem_reverse.mp hsub)
  rintro (hb | hb)
  · exact hdash (hp _ (htrim _ (hb.subset (by simp [BEGIN]))))
  · exact hdash (hp _ (htrim _ (hb.subset (by simp [END]))))

theorem Wraps.append_blank {text w : List Char} {bs : Bytes} (h : Wraps text bs)
    (hw : ∀ c ∈ w, isWhitespace c = true) : Wraps (text ++ w) bs := by
  have hnil : w.filter (¬ isWhitespace ·) = [] := by
    rw [List.filter_eq_nil_iff]
    intro c hc
    simp [hw c hc]
  rw [Wraps, List.filter_append, hnil, List.append_nil]
  exact h

theorem filter_trims (ls : List (List Char)) :
    (ls.map trim).flatten.filter (¬ isWhitespace ·) = ls.flatten.filter (¬ isWhitespace ·) := by
  induction ls with
  | nil => rfl
  | cons l ls ih =>
    rw [List.map_cons, List.flatten_cons, List.flatten_cons, List.filter_append, List.filter_append,
      filter_trim, ih]

/-- Cutting a text into trimmed lines loses only whitespace. -/
theorem Wraps.lines {text : List Char} {bs : Bytes} (h : Wraps text bs) :
    Wraps ((text.splitOn '\n').map trim).flatten bs := by
  rw [Wraps, filter_trims, flatten_splitOn, List.filter_filter, ← h]
  apply List.filter_congr
  intro c _
  by_cases hc : c = '\n'
  · rw [hc]
    decide
  · simp [hc]

theorem mem_of_mem_splitOn {p text : List Char} {c : Char} (hp : p ∈ text.splitOn '\n')
    (hc : c ∈ p) : c ∈ text := by
  have hflat : c ∈ (text.splitOn '\n').flatten := List.mem_flatten.mpr ⟨p, hp, hc⟩
  rw [flatten_splitOn] at hflat
  exact (List.mem_filter.mp hflat).1

theorem Armour.pemBody_eq (a : Armour D) (h : a.Readable) (rest : List Char) :
    Wraps (pemBody (lines (a.text ++ rest)) false []) D := by
  obtain ⟨w, hw, hblank⟩ := a.body_eol.text_eq h.body_eol
  have hcut : a.text ++ rest = preambleText a.preamble ++ (a.beginLine ++ (a.begin_eol.text ++
      ((a.body ++ w) ++ '\n' :: (a.endLine ++ rest)))) := by
    simp [Armour.text, hw]
  obtain ⟨p, hp, _, v, hv, rfl⟩ := splitOn_line a.begin_line h.begin_eol
    ((a.body ++ w) ++ '\n' :: (a.endLine ++ rest))
  obtain ⟨q, qs, _, hq⟩ := splitOn_append a.end_line rest
  have hwraps := a.body_wraps.append_blank hblank.1
  have hinside : ∀ l ∈ (a.body ++ w).splitOn '\n', ¬ IsBoundary l := by
    intro l hl
    exact hwraps.not_boundary fun c hc => mem_of_mem_splitOn hl hc
  have hend := a.end_prefix q
  rw [pemBody_lines, hcut, pemBody_preamble a.preamble_plain h.preamble, hp, pemBody,
    if_pos (a.begin_prefix hv), List.splitOn_append_cons_self, pemBody_inside hinside, hq, pemBody]
  simp only [if_neg (not_begin_of_end hend), if_pos hend, List.nil_append]
  exact hwraps.lines

theorem Wraps.ne_nil {text : List Char} {bs : Bytes} (h : Wraps text bs) (hbs : bs ≠ []) :
    text ≠ [] := by
  rintro rfl
  exact Base64.encode_ne_nil hbs h.symm

theorem looksLikePem_iff (bytes : Bytes) : looksLikePem bytes = true ↔ utf8 BEGIN <:+: bytes := by
  have hmark : (utf8 BEGIN).length = 11 := by decide
  simp only [looksLikePem, windows, List.any_map, List.any_eq_true, List.mem_range,
    Function.comp_apply, decide_eq_true_eq]
  constructor
  · rintro ⟨i, _, hi⟩
    rw [← hi]
    exact (List.take_prefix 11 _).isInfix.trans (List.drop_suffix i bytes).isInfix
  · rintro ⟨u, v, rfl⟩
    refine ⟨u.length, ?_, ?_⟩
    · simp only [List.length_append, hmark]
      omega
    · rw [List.append_assoc]
      exact slice_middle v rfl hmark

theorem certDer_self (h : ¬ utf8 BEGIN <:+: D) : certDer D = .ok D := by
  rw [certDer, if_neg fun hp => h ((looksLikePem_iff D).mp hp)]

theorem Armour.looksLikePem (a : Armour D) : looksLikePem a.bytes = true := by
  rw [looksLikePem_iff]
  have hcut : a.bytes = utf8 (preambleText a.preamble ++ a.indent) ++ (utf8 BEGIN ++
      (utf8 (a.label ++ dashes ++ a.pad ++ (a.begin_eol.text ++
        (a.body ++ (a.body_eol.text ++ a.endLine)))) ++ a.tail)) := by
    simp [Armour.bytes, Armour.text, Armour.beginLine]
  rw [hcut, ← List.append_assoc]
  exact ⟨_, _, rfl⟩

theorem Armour.certDer_eq (a : Armour D) (h : a.Readable) (hD : D ≠ []) :
    certDer a.bytes = .ok D := by
  obtain ⟨rest, hrest⟩ := Option.isSome_iff_exists.mp h.tail
  have htext : fromUtf8 a.bytes = some (a.text ++ rest) := by
    rw [Armour.bytes, fromUtf8_append, hrest]
    rfl
  have hwraps := a.pemBody_eq h rest
  have hne : ¬ (pemBody (lines (a.text ++ rest)) false []).isEmpty = true := by
    rw [List.isEmpty_iff]
    exact hwraps.ne_nil hD
  rw [certDer, if_pos a.looksLikePem, context_ok, pemToDer, htext]
  dsimp only
  rw [if_neg hne, context_ok, base64Decode_wraps hwraps]

/-! ### What a signer is loaded with -/

/-- A file of text lines that end in `\n` or `\r\n` gives the certificate in its armour, and so do
the certificate's own bytes where they have no BEGIN in them; base64 comes back however it is
broken up. -/
theorem fromBytes_derives (hD : D ≠ []) (a : Armour D) (h : a.Readable) :
    (¬ utf8 BEGIN <:+: D → Derives D D) ∧ Derives a.bytes D ∧
      ∀ text bs, Wraps text bs → base64Decode text = .ok bs :=
  ⟨fun hmark => derives_of_certDer (certDer_self hmark), derives_of_certDer (a.certDer_eq h hD),
    fun _ _ hwraps => base64Decode_wraps hwraps⟩

/-- An empty DER sequence. -/
def emptySequence : Bytes := [0x30, 0x00]

def certificate : List Char := ['C', 'E', 'R', 'T', 'I', 'F', 'I', 'C', 'A', 'T', 'E']

def sampleArmour (e : Eol) (tail : Bytes) : Armour emptySequence where
  preamble := [(['s', 'u', 'b', 'j', 'e', 'c', 't'], e)]
  preamble_plain := by
    simp only [List.mem_singleton, forall_eq, IsBoundary]
    decide
  indent := []
  indent_blank := by simp [Blank]
  label := certificate
  label_line := by decide
  pad := []
  pad_blank := by simp [Blank]
  begin_eol := e
  body := ['M', 'A', '\n', 'A', '=']
  body_wraps := by
    unfold Wraps
    decide
  body_eol := e
  end_indent := []
  end_blank := by simp [Blank]
  tail := tail

theorem fromBytes_derives_sample :
    (¬ utf8 BEGIN <:+: emptySequence → Derives emptySequence emptySequence) ∧
      Derives (sampleArmour .crlf []).bytes emptySequence ∧
      ∀ text bs, Wraps text bs → base64Decode text = .ok bs :=
  fromBytes_derives (by decide) (sampleArmour .crlf [])
    ⟨by simp [sampleArmour], by decide, by decide, by rw [sampleArmour, fromUtf8_nil]; rfl⟩

/-! ### What is refused -/

/-- Parsers that take every input. -/
def plainCrypto : Crypto where
  KeyPair := Unit
  sha256 _ := ⟨List.replicate 32 0, by decide⟩
  sign _ _ := .ok []
  verify _ _ _ := true
  spki := some

def plainLoader : Loader plainCrypto where
  Certificate := Bytes
  from_pkcs8 _ := .ok ()
  from_der := .ok
  spki_to_der := .ok
  spki_eq := by
    intro der cert key hcert hkey
    cases hcert
    cases hkey
    rfl

theorem certDer_of_derives (h : Derives cert D) : certDer cert = .ok D := by
  obtain ⟨signer, hload, _, hder, _⟩ := h plainCrypto plainLoader [] () D D rfl rfl rfl
  unfold fromBytes at hload
  cases hc : certDer cert with
  | error e =>
    rw [hc] at hload
    cases hload
  | ok der =>
    rw [hc] at hload
    cases hload
    rw [← hder]

theorem not_derives_of_error {e : String} (hpem : looksLikePem cert = true)
    (herr : pemToDer cert = .error e) : ¬ Derives cert D := by
  intro h
  have hder := certDer_of_derives h
  rw [certDer, if_pos hpem, context_ok, herr] at hder
  cases hder

theorem pemToDer_no_body {text : List Char} (h : pemBody (lines text) false [] = []) :
    pemToDer (utf8 text) = .error "PEM has no body" := by
  rw [pemToDer, fromUtf8_utf8]
  dsimp only
  rw [h]
  rfl

theorem fromUtf8_ff : fromUtf8 [0xff] = none := by
  rw [fromUtf8, ByteArray.utf8Decode?, ByteArray.utf8Decode?.go]
  decide

/-- A DER string of the text that starts a BEGIN line. -/
def markedString : Bytes := [0x0c, 0x0b] ++ utf8 BEGIN

/-- Lines that end in `\r` are one line, bytes after the END line have to be UTF-8, and DER with a
BEGIN in it is not taken for DER. -/
theorem fromBytes_refuses :
    ¬ Derives (sampleArmour .cr []).bytes emptySequence ∧
      ¬ Derives (sampleArmour .lf (utf8 ['\n'] ++ [0xff])).bytes emptySequence ∧
      ¬ Derives markedString markedString := by
  refine ⟨?_, ?_, ?_⟩
  · apply not_derives_of_error (sampleArmour .cr []).looksLikePem
    rw [Armour.bytes, sampleArmour, List.append_nil]
    apply pemToDer_no_body
    decide
  · apply not_derives_of_error (Armour.looksLikePem _)
    have htext : fromUtf8 (sampleArmour .lf (utf8 ['\n'] ++ [0xff])).bytes = none := by
      rw [Armour.bytes, fromUtf8_append, sampleArmour, fromUtf8_append, fromUtf8_ff]
      rfl
    rw [pemToDer, htext]
  · have htext : markedString = utf8 ('\x0c' :: '\x0b' :: BEGIN) := by decide
    apply not_derives_of_error
    · rw [looksLikePem_iff]
      exact List.suffix_append _ _ |>.isInfix
    · rw [htext]
      apply pemToDer_no_body
      decide

end Aabox.Resigner.Sign
