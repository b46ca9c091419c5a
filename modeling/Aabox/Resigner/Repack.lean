import Aabox.Lib.Fallible
import Aabox.Resigner.Complete
import Aabox.Resigner.SignedApk
import Mathlib.Data.List.Induction

/-! Repacking an APK: which entries are dropped, and what becomes of the others. -/
namespace Aabox.Resigner.Apk
open Aabox.Lib Dex Sign

abbrev Name := List Char

/-- The zip crate has more methods than these two. -/
inductive CompressionMethod
  | Stored | Deflated | Other (code : Nat)
  deriving DecidableEq, Repr

structure SimpleFileOptions where
  compression_method : CompressionMethod
  large_file : Bool
  alignment : Nat
  deriving DecidableEq, Repr

/-- An entry as the zip crate lists it; `data` is what `read_to_end` gives. -/
structure ZipFile where
  name : Name
  compression : CompressionMethod
  size : Nat
  data : Except String Bytes

/-- The reader and the writer of the zip crate. -/
structure ZipCrate where
  Archive : Type
  Writer : Type
  openArchive : Bytes → Except String Archive
  len : Archive → Nat
  by_index : Archive → Nat → Except String ZipFile
  newWriter : Writer
  start_file : Writer → Name → SimpleFileOptions → Except String Writer
  write_all : Writer → Bytes → Except String Writer
  finish : Writer → Except String Bytes

structure PatchStats where
  sdk_int_patches : Nat
  dex_files_patched : Nat
  deriving DecidableEq, Repr

def PatchStats.default : PatchStats := ⟨0, 0⟩

/-! ### Names -/

def META_INF : Name := ['M', 'E', 'T', 'A', '-', 'I', 'N', 'F', '/']
def MANIFEST_MF : Name := ['M', 'A', 'N', 'I', 'F', 'E', 'S', 'T', '.', 'M', 'F']
def CERT : Name := ['C', 'E', 'R', 'T']
def SF : Name := ['.', 'S', 'F']
def RSA : Name := ['.', 'R', 'S', 'A']
def DSA : Name := ['.', 'D', 'S', 'A']
def EC : Name := ['.', 'E', 'C']
def CLASSES : Name := ['c', 'l', 'a', 's', 's', 'e', 's']
def DEX : Name := ['.', 'd', 'e', 'x']
def LIB : Name := ['l', 'i', 'b', '/']
def SO : Name := ['.', 's', 'o']

/-- `to_ascii_uppercase` -/
def upperCase (name : Name) : Name := name.map Char.toUpper

def isSigningArtefact (name : Name) : Bool :=
  let upper := upperCase name
  if ¬ META_INF <+: upper then false
  else
    ('/' :: MANIFEST_MF <:+ upper)
      || ('/' :: (CERT ++ SF) <:+ upper)
      || ('/' :: (CERT ++ RSA) <:+ upper)
      || ('/' :: (CERT ++ DSA) <:+ upper)
      || ('/' :: (CERT ++ EC) <:+ upper)
      || ((upper.splitOn '/').length = 2
        && ((SF <:+ upper) || (RSA <:+ upper) || (DSA <:+ upper) || (EC <:+ upper)
          || upper = META_INF ++ MANIFEST_MF))

def isClassesDex (name : Name) : Bool :=
  if ¬ CLASSES <+: name ∨ ¬ DEX <:+ name then false
  else
    let middle := (name.take (name.length - DEX.length)).drop CLASSES.length
    middle.isEmpty || middle.all Char.isDigit

/-! ### Entries -/

section
variable (zip : ZipCrate) (sha1 : Sha1)

def fileOptions (name : Name) (data : Bytes) (original_method : CompressionMethod) :
    SimpleFileOptions :=
  let use_method := match original_method with
    | .Deflated => .Deflated
    | _ => .Stored
  let alignment :=
    if use_method = .Stored then if LIB <+: name ∧ SO <:+ name then 4096 else 4 else 1
  { compression_method := use_method
    large_file := 2 ^ 32 - 1 < data.length
    alignment := alignment }

def writeEntry (writer : zip.Writer) (name : Name) (data : Bytes)
    (original_method : CompressionMethod) : Except String zip.Writer := do
  let writer ← context s!"start_file {String.ofList name}"
    (zip.start_file writer name (fileOptions name data original_method))
  context s!"writing data for {String.ofList name}" (zip.write_all writer data)

/-- What `patch_dex` leaves of the data of a `classes*.dex`, and the counts with it. -/
def patchEntry (name : Name) (data : Bytes) (stats : PatchStats) :
    Except String (Bytes × PatchStats) :=
  if isClassesDex name then
    match patchDex sha1 data with
    | (.error e, _) => .error s!"patching {String.ofList name}: {e}"
    | (.ok r, data) =>
      if 0 < r.patches then
        .ok (data, ⟨stats.sdk_int_patches + r.patches, stats.dex_files_patched + 1⟩)
      else .ok (data, stats)
  else .ok (data, stats)

/-- One turn of the loop over the entries. -/
def repackEntry (archive : zip.Archive) (s : zip.Writer × PatchStats) (i : Nat) :
    Except String (zip.Writer × PatchStats) := do
  let entry ← context "reading zip entry" (zip.by_index archive i)
  if isSigningArtefact entry.name then return s
  let data ← context
    s!"reading entry data {String.ofList entry.name} ({entry.size} bytes uncompressed)" entry.data
  let (data, stats) ← patchEntry sha1 entry.name data s.2
  let writer ← writeEntry zip s.1 entry.name data entry.compression
  return (writer, stats)

def repackAndPatch (apk_bytes : Bytes) : Except String (Bytes × PatchStats) := do
  let archive ← context "opening input apk as zip" (zip.openArchive apk_bytes)
  let (writer, stats) ← (List.range (zip.len archive)).foldlM (repackEntry zip sha1 archive)
    (zip.newWriter, .default)
  let out ← context "finalising zip" (zip.finish writer)
  return (out, stats)

end

/-! ### What the names say -/

def usualFiles : List Name := [MANIFEST_MF, CERT ++ SF, CERT ++ RSA, CERT ++ DSA, CERT ++ EC]

def extensions : List Name := [SF, RSA, DSA, EC]

/-- A signature file of the first scheme: directly inside `META-INF/`, in any case. -/
def V1Signature (name : Name) : Prop :=
  ∃ file, upperCase name = META_INF ++ file ∧ '/' ∉ file ∧
    (file = MANIFEST_MF ∨ ∃ ext ∈ extensions, ext <:+ file)

/-- A file below a directory of `META-INF/` that has the name of a usual signature file. -/
def Lookalike (name : Name) : Prop :=
  ∃ path, ∃ file ∈ usualFiles, upperCase name = META_INF ++ (path ++ '/' :: file)

/-- `classes<digits>.dex` -/
def ClassesDex (name : Name) : Prop :=
  ∃ digits, name = CLASSES ++ (digits ++ DEX) ∧ ∀ c ∈ digits, c.isDigit = true

variable {name s xs ys : Name} {a : Char} {zip : ZipCrate} {sha1 : Sha1} {w : zip.Writer}

theorem suffix_of_not_mem (h : s <:+ xs ++ a :: ys) (ha : a ∉ s) : s <:+ ys := by
  rcases List.suffix_or_suffix_of_suffix h (List.suffix_append xs (a :: ys)) with hs | hs
  · rcases List.suffix_cons_iff.mp hs with rfl | hs
    · exact (ha List.mem_cons_self).elim
    · exact hs
  · exact (ha (hs.subset List.mem_cons_self)).elim

theorem eq_of_suffix_cons (h : a :: s <:+ xs ++ a :: ys) (hs : a ∉ s) (hys : a ∉ ys) : s = ys := by
  rcases List.suffix_or_suffix_of_suffix h (List.suffix_append xs (a :: ys)) with hle | hle
  · rcases List.suffix_cons_iff.mp hle with heq | hle
    · exact (List.cons.inj heq).2
    · exact (hys (hle.subset List.mem_cons_self)).elim
  · rcases List.suffix_cons_iff.mp hle with heq | hle
    · exact (List.cons.inj heq).2.symm
    · exact (hs (hle.subset List.mem_cons_self)).elim

theorem length_splitOn (a : Char) (xs : Name) : (xs.splitOn a).length = xs.count a + 1 := by
  induction xs with
  | nil => rfl
  | cons x xs ih =>
    rw [List.splitOn_cons_eq_if_modifyHead, List.count_cons]
    split
    · rw [List.length_cons, ih]
    · rw [List.length_modifyHead, ih]

/-- The path test: two parts, the directory and a file. -/
theorem two_parts_iff (file : Name) :
    ((META_INF ++ file).splitOn '/').length = 2 ↔ '/' ∉ file := by
  have hc : (META_INF ++ file).count '/' = 1 + file.count '/' := by
    rw [List.count_append]
    rfl
  rw [length_splitOn, hc, ← List.count_eq_zero]
  omega

theorem suffix_metaInf_iff (hs : '/' ∉ s) (file : Name) : s <:+ META_INF ++ file ↔ s <:+ file := by
  constructor
  · intro h
    have hslash : s <:+ META_INF.dropLast ++ '/' :: file := h
    exact suffix_of_not_mem hslash hs
  · intro h
    exact h.trans (List.suffix_append _ _)

theorem isSigningArtefact_tests (name : Name) : isSigningArtefact name = true ↔
    META_INF <+: upperCase name ∧
    ((∃ f ∈ usualFiles, '/' :: f <:+ upperCase name) ∨
      ((upperCase name).splitOn '/').length = 2 ∧
        ((∃ ext ∈ extensions, ext <:+ upperCase name) ∨
          upperCase name = META_INF ++ MANIFEST_MF)) := by
  simp [isSigningArtefact, usualFiles, extensions, or_assoc]

theorem usualFiles_flat : ∀ f ∈ usualFiles, '/' ∉ f := by decide

theorem usualFiles_signature :
    ∀ f ∈ usualFiles, f = MANIFEST_MF ∨ ∃ ext ∈ extensions, ext <:+ f := by
  decide

theorem extensions_flat : ∀ ext ∈ extensions, '/' ∉ ext := by decide

/-- Below a directory of `META-INF/`, a path that ends in `/f` does so below `META-INF/` already. -/
theorem suffix_below {f file : Name} (hflat : '/' ∉ f) (hdeep : '/' ∈ file)
    (h : '/' :: f <:+ META_INF ++ file) : '/' :: f <:+ file := by
  have hslash : '/' :: f <:+ META_INF.dropLast ++ '/' :: file := h
  rcases List.suffix_or_suffix_of_suffix hslash (List.suffix_append META_INF.dropLast ('/' :: file))
    with hle | hle
  · rcases List.suffix_cons_iff.mp hle with heq | hfile
    · rw [(List.cons.inj heq).2] at hflat
      exact (hflat hdeep).elim
    · exact hfile
  · rcases List.suffix_cons_iff.mp hle with heq | hle
    · rw [← (List.cons.inj heq).2] at hflat
      exact (hflat hdeep).elim
    · exact (hflat (hle.subset List.mem_cons_self)).elim

/-- The predicate drops the signature files, and what looks like one further down. -/
theorem isSigningArtefact_iff (name : Name) :
    isSigningArtefact name = true ↔ V1Signature name ∨ Lookalike name := by
  rw [isSigningArtefact_tests]
  constructor
  · rintro ⟨⟨file, hfile⟩, htests⟩
    rw [← hfile] at htests
    rcases htests with ⟨f, hf, hsuf⟩ | ⟨htwo, hext⟩
    · have hflat := usualFiles_flat f hf
      by_cases hdeep : '/' ∈ file
      · right
        obtain ⟨path, hpath⟩ := suffix_below hflat hdeep hsuf
        exact ⟨path, f, hf, by rw [hpath, hfile]⟩
      · left
        have hslash : '/' :: f <:+ META_INF.dropLast ++ '/' :: file := hsuf
        rw [← eq_of_suffix_cons hslash hflat hdeep] at hfile
        exact ⟨f, hfile.symm, hflat, usualFiles_signature f hf⟩
    · left
      refine ⟨file, hfile.symm, (two_parts_iff file).mp htwo, ?_⟩
      rcases hext with ⟨ext, he, hsuf⟩ | heq
      · exact .inr ⟨ext, he, (suffix_metaInf_iff (extensions_flat ext he) file).mp hsuf⟩
      · exact .inl (List.append_cancel_left heq)
  · rintro (⟨file, hfile, hflat, hsig⟩ | ⟨path, f, hf, hfile⟩)
    · rw [hfile]
      refine ⟨List.prefix_append _ _, .inr ⟨(two_parts_iff file).mpr hflat, ?_⟩⟩
      rcases hsig with rfl | ⟨ext, he, hsuf⟩
      · exact .inr rfl
      · exact .inl ⟨ext, he, hsuf.trans (List.suffix_append _ _)⟩
    · rw [hfile, ← List.append_assoc]
      refine ⟨?_, .inl ⟨f, hf, List.suffix_append _ _⟩⟩
      rw [List.append_assoc]
      exact List.prefix_append _ _

theorem V1Signature.not_lookalike (h : V1Signature name) : ¬ Lookalike name := by
  obtain ⟨file, hfile, hflat, _⟩ := h
  rintro ⟨path, f, _, hdeep⟩
  rw [hfile] at hdeep
  rw [List.append_cancel_left hdeep] at hflat
  exact hflat (by simp)

theorem classes_middle (digits : Name) :
    ((CLASSES ++ (digits ++ DEX)).take ((CLASSES ++ (digits ++ DEX)).length - DEX.length)).drop
      CLASSES.length = digits := by
  have hlen : (CLASSES ++ digits ++ DEX).length = (CLASSES ++ digits).length + DEX.length :=
    List.length_append
  rw [← List.append_assoc, hlen, Nat.add_sub_cancel, List.take_left, List.drop_left]

theorem isClassesDex_iff (name : Name) : isClassesDex name = true ↔ ClassesDex name := by
  unfold isClassesDex
  constructor
  · intro h
    split at h
    · cases h
    · rename_i hno
      obtain ⟨⟨tail, rfl⟩, hsuf⟩ : CLASSES <+: name ∧ DEX <:+ name := by
        rw [not_or, not_not, not_not] at hno
        exact hno
      -- the two ends do not overlap, as no end of `classes` begins `.dex`
      obtain ⟨digits, rfl⟩ : DEX <:+ tail := by
        have hdot : DEX <:+ ['c', 'l', 'a', 's', 's', 'e'] ++ 's' :: tail := hsuf
        exact suffix_of_not_mem hdot (by decide)
      dsimp only at h
      rw [classes_middle] at h
      refine ⟨digits, rfl, fun c hc => ?_⟩
      rcases Bool.or_eq_true_iff.mp h with hnil | hall
      · rw [List.isEmpty_iff.mp hnil] at hc
        cases hc
      · exact List.all_eq_true.mp hall c hc
  · rintro ⟨digits, rfl, hdigits⟩
    have hends : ¬ (¬ CLASSES <+: CLASSES ++ (digits ++ DEX) ∨
        ¬ DEX <:+ CLASSES ++ (digits ++ DEX)) := by
      rw [not_or, not_not, not_not]
      refine ⟨List.prefix_append _ _, ?_⟩
      rw [← List.append_assoc]
      exact List.suffix_append _ _
    rw [if_neg hends]
    dsimp only
    rw [classes_middle, Bool.or_eq_true_iff]
    exact .inr (List.all_eq_true.mpr hdigits)

instance : DecidablePred ClassesDex := fun name => decidable_of_iff _ (isClassesDex_iff name)

theorem v1Signature_iff (name : Name) : V1Signature name ↔
    META_INF <+: upperCase name ∧ '/' ∉ (upperCase name).drop META_INF.length ∧
    ((upperCase name).drop META_INF.length = MANIFEST_MF ∨
      ∃ ext ∈ extensions, ext <:+ (upperCase name).drop META_INF.length) := by
  constructor
  · rintro ⟨file, hfile, h⟩
    rw [hfile, List.drop_left]
    exact ⟨List.prefix_append _ _, h⟩
  · rintro ⟨⟨file, hfile⟩, h⟩
    rw [← hfile, List.drop_left] at h
    exact ⟨file, hfile.symm, h⟩

instance : DecidablePred V1Signature := fun name => decidable_of_iff _ (v1Signature_iff name).symm

/-! ### Archives as lists of entries -/

structure Entry where
  name : Name
  method : CompressionMethod
  data : Bytes
  deriving DecidableEq, Repr

def ZipFile.Reads (f : ZipFile) (e : Entry) : Prop :=
  f.name = e.name ∧ f.compression = e.method ∧ f.data = .ok e.data

/-- The crate opens the bytes as an archive of these entries, in this order. -/
def ZipCrate.Lists (zip : ZipCrate) (bytes : Bytes) (es : List Entry) : Prop :=
  ∃ archive, zip.openArchive bytes = .ok archive ∧ zip.len archive = es.length ∧
    ∀ i e, es[i]? = some e → ∃ f, zip.by_index archive i = .ok f ∧ f.Reads e

/-- A file to write: its name, its options and its data. -/
abbrev Output := Name × SimpleFileOptions × Bytes

def ZipCrate.write (zip : ZipCrate) (w : zip.Writer) (o : Output) : Except String zip.Writer := do
  let w ← zip.start_file w o.1 o.2.1
  zip.write_all w o.2.2

def Output.entry (o : Output) : Entry := ⟨o.1, o.2.1.compression_method, o.2.2⟩

/-- From these files the crate makes these bytes. -/
def ZipCrate.Writes (zip : ZipCrate) (os : List Output) (bytes : Bytes) : Prop :=
  ∃ w, os.foldlM zip.write zip.newWriter = .ok w ∧ zip.finish w = .ok bytes

/-- What the crate has written it lists again: files of different names, in their order. -/
def ZipCrate.Faithful (zip : ZipCrate) : Prop :=
  ∀ (os : List Output) w bytes, (os.map Prod.fst).Nodup →
    os.foldlM zip.write zip.newWriter = .ok w → zip.finish w = .ok bytes → zip.Lists bytes (os.map Output.entry)

/-! ### What a repack should give -/

section
variable (sha1 : Sha1)

def storedMethod : CompressionMethod → CompressionMethod
  | .Deflated => .Deflated
  | _ => .Stored

def Entry.repacked (e : Entry) : Entry :=
  ⟨e.name, storedMethod e.method,
    if ClassesDex e.name then (patchDex sha1 e.data).2 else e.data⟩

def repacked (es : List Entry) : List Entry :=
  (es.filter fun e => ¬ V1Signature e.name).map (Entry.repacked sha1)

def Entry.patches (e : Entry) : Nat :=
  match (patchDex sha1 e.data).1 with
  | .ok r => r.patches
  | .error _ => 0

def repackedStats (es : List Entry) : PatchStats :=
  let counts := (es.filter fun e => ClassesDex e.name).map (Entry.patches sha1)
  ⟨counts.sum, counts.countP (0 < ·)⟩

/-- The file the loop writes for an entry it keeps. -/
def Entry.output (e : Entry) : Output :=
  let data := (e.repacked sha1).data
  (e.name, fileOptions e.name data e.method, data)

end

variable {archive : zip.Archive} {e : Entry} {es es' : List Entry} {f : ZipFile}
  {bytes apk out : Bytes} {stats : PatchStats} {s s' : zip.Writer × PatchStats} {i : Nat}

theorem ZipFile.Reads.unique {e' : Entry} (h : f.Reads e) (h' : f.Reads e') : e = e' := by
  obtain ⟨name, method, data⟩ := e
  obtain ⟨name', method', data'⟩ := e'
  obtain ⟨rfl, rfl, hd⟩ := h
  obtain ⟨rfl, rfl, hd'⟩ := h'
  rw [hd] at hd'
  cases hd'
  rfl

theorem ZipCrate.Lists.unique (h : zip.Lists bytes es) (h' : zip.Lists bytes es') : es = es' := by
  obtain ⟨a, hopen, hlen, hat⟩ := h
  obtain ⟨a', hopen', hlen', hat'⟩ := h'
  rw [hopen] at hopen'
  cases hopen'
  apply List.ext_getElem (hlen.symm.trans hlen')
  intro i hi hi'
  obtain ⟨f, hf, hr⟩ := hat i es[i] (List.getElem?_eq_getElem hi)
  obtain ⟨f', hf', hr'⟩ := hat' i es'[i] (List.getElem?_eq_getElem hi')
  rw [hf] at hf'
  cases hf'
  exact hr.unique hr'

@[simp] theorem Entry.output_entry (e : Entry) : (e.output sha1).entry = e.repacked sha1 := by
  cases e with
  | mk name method data =>
    unfold Entry.output Output.entry Entry.repacked fileOptions storedMethod
    rfl

/-! ### The loop over the entries -/

theorem patchEntry_ok {data data' : Bytes} {stats' : PatchStats} (m : CompressionMethod)
    (h : patchEntry sha1 name data stats = .ok (data', stats')) :
    data' = (Entry.repacked sha1 ⟨name, m, data⟩).data ∧
    stats' = if ClassesDex name ∧ 0 < Entry.patches sha1 ⟨name, m, data⟩ then
      ⟨stats.sdk_int_patches + Entry.patches sha1 ⟨name, m, data⟩, stats.dex_files_patched + 1⟩
      else stats := by
  unfold patchEntry at h
  unfold Entry.repacked Entry.patches
  by_cases hd : isClassesDex name = true
  · have hc := (isClassesDex_iff name).mp hd
    rw [if_pos hd] at h
    dsimp only
    rw [if_pos hc]
    cases hp : patchDex sha1 data with
    | mk res patched =>
      rw [hp] at h
      cases res with
      | error e => cases h
      | ok r =>
        by_cases hpos : 0 < r.patches
        · simp only [if_pos hpos] at h
          cases h
          exact ⟨rfl, by rw [if_pos ⟨hc, hpos⟩]⟩
        · simp only [if_neg hpos] at h
          cases h
          exact ⟨rfl, by rw [if_neg fun hn => hpos hn.2]⟩
  · have hc : ¬ ClassesDex name := fun hc => hd ((isClassesDex_iff name).mpr hc)
    rw [if_neg hd] at h
    cases h
    dsimp only
    rw [if_neg hc, if_neg fun hn => hc hn.1]
    exact ⟨rfl, rfl⟩

theorem writeEntry_ok {w' : zip.Writer} {data : Bytes} {m : CompressionMethod}
    (h : writeEntry zip w name data m = .ok w') :
    zip.write w (name, fileOptions name data m, data) = .ok w' := by
  obtain ⟨w₁, hstart, hall⟩ := bind_eq_ok.mp h
  rw [context_ok] at hstart hall
  exact bind_eq_ok.mpr ⟨w₁, hstart, hall⟩

theorem ClassesDex.kept (h : ClassesDex name) : isSigningArtefact name = false := by
  obtain ⟨digits, rfl, _⟩ := h
  rfl

theorem repackedStats_concat (sha1 : Sha1) (es : List Entry) (e : Entry) :
    repackedStats sha1 (es ++ [e]) =
      if ClassesDex e.name ∧ 0 < e.patches sha1 then
        ⟨(repackedStats sha1 es).sdk_int_patches + e.patches sha1,
          (repackedStats sha1 es).dex_files_patched + 1⟩
      else repackedStats sha1 es := by
  unfold repackedStats
  by_cases hd : ClassesDex e.name
  · by_cases hpos : 0 < e.patches sha1
    · simp [hd, hpos]
    · simp [hd, Nat.eq_zero_of_not_pos hpos]
  · simp [hd]

/-- What the loop writes of these entries. -/
def outputs (sha1 : Sha1) (es : List Entry) : List Output :=
  (es.filter fun e => ¬ isSigningArtefact e.name).map (Entry.output sha1)

theorem outputs_concat (sha1 : Sha1) (es : List Entry) (e : Entry) :
    outputs sha1 (es ++ [e]) =
      if isSigningArtefact e.name then outputs sha1 es else outputs sha1 es ++ [e.output sha1] := by
  unfold outputs
  rw [List.filter_append, List.map_append]
  by_cases h : isSigningArtefact e.name = true
  · rw [if_pos h, List.filter_cons_of_neg (by simpa using h), List.filter_nil, List.map_nil,
      List.append_nil]
  · rw [if_neg h, List.filter_cons_of_pos (by simpa using h)]
    rfl

structure RepackInv (zip : ZipCrate) (sha1 : Sha1) (es : List Entry)
    (s : zip.Writer × PatchStats) : Prop where
  written : (outputs sha1 es).foldlM zip.write zip.newWriter = .ok s.1
  stats : s.2 = repackedStats sha1 es

theorem repackInv_step (hinv : RepackInv zip sha1 es s) (hf : zip.by_index archive i = .ok f)
    (hr : f.Reads e) (h : repackEntry zip sha1 archive s i = .ok s') :
    RepackInv zip sha1 (es ++ [e]) s' := by
  obtain ⟨hname, hmethod, hdata⟩ := hr
  unfold repackEntry at h
  obtain ⟨f', hf', h⟩ := bind_eq_ok.mp h
  rw [context_ok, hf] at hf'
  cases hf'
  rw [hname] at h
  by_cases hart : isSigningArtefact e.name = true
  · have hnodex : ¬ ClassesDex e.name := by
      intro hd
      rw [hd.kept] at hart
      cases hart
    rw [if_pos hart] at h
    cases h
    constructor
    · rw [outputs_concat, if_pos hart]
      exact hinv.written
    · rw [repackedStats_concat, if_neg fun hn => hnodex hn.1]
      exact hinv.stats
  · rw [if_neg hart] at h
    obtain ⟨data, hread, h⟩ := bind_eq_ok.mp h
    obtain ⟨⟨data', stats'⟩, hpatch, h⟩ := bind_eq_ok.mp h
    obtain ⟨w', hwrite, h⟩ := bind_eq_ok.mp h
    cases h
    rw [context_ok, hdata] at hread
    cases hread
    obtain ⟨rfl, hstats⟩ := patchEntry_ok e.method hpatch
    constructor
    · rw [outputs_concat, if_neg hart, List.foldlM_append, hinv.written]
      have hlast : zip.write s.1 (e.output sha1) = .ok w' := by
        rw [hmethod] at hwrite
        exact writeEntry_ok hwrite
      exact bind_eq_ok.mpr ⟨s.1, rfl, bind_eq_ok.mpr ⟨w', hlast, rfl⟩⟩
    · rw [repackedStats_concat, ← hinv.stats]
      exact hstats

theorem repackInv_run (hlen : zip.len archive = es.length)
    (hat : ∀ i e, es[i]? = some e → ∃ f, zip.by_index archive i = .ok f ∧ f.Reads e)
    (h : (List.range (zip.len archive)).foldlM (repackEntry zip sha1 archive)
      (zip.newWriter, .default) = .ok s) : RepackInv zip sha1 es s := by
  have hprefix : ∀ n ≤ es.length, ∀ s, (List.range n).foldlM (repackEntry zip sha1 archive)
      (zip.newWriter, .default) = .ok s → RepackInv zip sha1 (es.take n) s := by
    intro n
    induction n with
    | zero =>
      intro _ s h
      cases h
      exact ⟨rfl, rfl⟩
    | succ n ih =>
      intro hn s h
      rw [List.range_succ, List.foldlM_append] at h
      obtain ⟨s₁, h₁, h₂⟩ := bind_eq_ok.mp h
      obtain ⟨s₂, hstep, hlast⟩ := bind_eq_ok.mp h₂
      cases hlast
      have hget := List.getElem?_eq_getElem (Nat.lt_of_succ_le hn)
      obtain ⟨f, hf, hr⟩ := hat n _ hget
      rw [List.take_succ_eq_append_getElem (Nat.lt_of_succ_le hn)]
      exact repackInv_step (ih (by omega) s₁ h₁) hf hr hstep
  have hall := hprefix es.length (Nat.le_refl _) s (by rw [← hlen]; exact h)
  rw [List.take_length] at hall
  exact hall

/-- What comes out was written of the entries that are kept. -/
theorem repack_writes (hin : zip.Lists apk es)
    (hok : repackAndPatch zip sha1 apk = .ok (out, stats)) :
    zip.Writes (outputs sha1 es) out ∧ stats = repackedStats sha1 es := by
  obtain ⟨archive, hopen, hlen, hat⟩ := hin
  unfold repackAndPatch at hok
  obtain ⟨a, ha, hok⟩ := bind_eq_ok.mp hok
  rw [context_ok, hopen] at ha
  cases ha
  obtain ⟨⟨w, st⟩, hrun, hok⟩ := bind_eq_ok.mp hok
  obtain ⟨bs, hfin, hok⟩ := bind_eq_ok.mp hok
  cases hok
  rw [context_ok] at hfin
  have hinv := repackInv_run hlen hat hrun
  exact ⟨⟨w, hinv.written, hfin⟩, hinv.stats⟩

theorem outputs_names (sha1 : Sha1) (es : List Entry) : (outputs sha1 es).map Prod.fst =
    (es.filter fun e => ¬ isSigningArtefact e.name).map Entry.name := by
  rw [outputs, List.map_map]
  rfl

theorem outputs_nodup (hd : (es.map Entry.name).Nodup) :
    ((outputs sha1 es).map Prod.fst).Nodup := by
  have hsub : ((es.filter fun e => ¬ isSigningArtefact e.name).map Entry.name).Sublist
      (es.map Entry.name) := List.filter_sublist.map _
  rw [outputs_names]
  exact hd.sublist hsub

theorem outputs_entries (sha1 : Sha1) (es : List Entry) : (outputs sha1 es).map Output.entry =
    (es.filter fun e => ¬ isSigningArtefact e.name).map (Entry.repacked sha1) := by
  rw [outputs, List.map_map]
  exact List.map_congr_left fun e _ => e.output_entry

/-- Whatever the archive, what comes out is the entries that are kept, each repacked. -/
theorem repack_ok (hz : zip.Faithful) (hin : zip.Lists apk es) (hd : (es.map Entry.name).Nodup)
    (hok : repackAndPatch zip sha1 apk = .ok (out, stats)) :
    zip.Lists out ((es.filter fun e => ¬ isSigningArtefact e.name).map (Entry.repacked sha1)) ∧
      stats = repackedStats sha1 es := by
  obtain ⟨⟨w, hwrite, hfin⟩, hstats⟩ := repack_writes hin hok
  have hlists := hz _ _ _ (outputs_nodup hd) hwrite hfin
  rw [outputs_entries] at hlists
  exact ⟨hlists, hstats⟩

theorem repackEntry_writer (h : repackEntry zip sha1 archive s i = .ok s') :
    s'.1 = s.1 ∨ ∃ o, zip.write s.1 o = .ok s'.1 := by
  unfold repackEntry at h
  obtain ⟨f, _, h⟩ := bind_eq_ok.mp h
  by_cases hart : isSigningArtefact f.name = true
  · rw [if_pos hart] at h
    cases h
    exact .inl rfl
  · rw [if_neg hart] at h
    obtain ⟨_, _, h⟩ := bind_eq_ok.mp h
    obtain ⟨_, _, h⟩ := bind_eq_ok.mp h
    obtain ⟨w', hwrite, h⟩ := bind_eq_ok.mp h
    cases h
    exact .inr ⟨_, writeEntry_ok hwrite⟩

/-- Also of an archive whose entries are not known, what comes out is what the crate wrote. -/
theorem repackAndPatch_writes (hok : repackAndPatch zip sha1 apk = .ok (out, stats)) :
    ∃ os, zip.Writes os out := by
  have hrun : ∀ (archive : zip.Archive) (xs : List Nat) (s s' : zip.Writer × PatchStats),
      (∃ os : List Output, os.foldlM zip.write zip.newWriter = .ok s.1) →
      xs.foldlM (repackEntry zip sha1 archive) s = .ok s' →
      ∃ os : List Output, os.foldlM zip.write zip.newWriter = .ok s'.1 := by
    intro archive xs
    induction xs with
    | nil =>
      intro s s' hos h
      cases h
      exact hos
    | cons i xs ih =>
      intro s s' hos h
      obtain ⟨s₁, hstep, hrest⟩ := bind_eq_ok.mp h
      refine ih s₁ s' ?_ hrest
      obtain ⟨os, hwrite⟩ := hos
      rcases repackEntry_writer hstep with hsame | ⟨o, ho⟩
      · exact ⟨os, by rw [hwrite, hsame]⟩
      · refine ⟨os ++ [o], ?_⟩
        rw [List.foldlM_append, hwrite]
        exact bind_eq_ok.mpr ⟨s.1, rfl, bind_eq_ok.mpr ⟨s₁.1, ho, rfl⟩⟩
  unfold repackAndPatch at hok
  obtain ⟨archive, _, hok⟩ := bind_eq_ok.mp hok
  obtain ⟨⟨w, st⟩, hall, hok⟩ := bind_eq_ok.mp hok
  obtain ⟨bs, hfin, hok⟩ := bind_eq_ok.mp hok
  cases hok
  rw [context_ok] at hfin
  obtain ⟨os, hwrite⟩ := hrun archive _ _ _ ⟨[], rfl⟩ hall
  exact ⟨os, w, hwrite, hfin⟩

/-- A second filter that drops more drops nothing more only where both agree. -/
theorem filter_eq_iff {p q : Entry → Bool} (hpq : ∀ e, p e = true → q e = true) :
    es.filter p = es.filter q ↔ ∀ e ∈ es, q e = true → p e = true := by
  constructor
  · intro h e he hq
    have hmem : e ∈ es.filter p := by
      rw [h]
      exact List.mem_filter.mpr ⟨he, hq⟩
    exact (List.mem_filter.mp hmem).2
  · intro h
    apply List.filter_congr
    intro e he
    rw [Bool.eq_iff_iff]
    exact ⟨hpq e, h e he⟩

theorem filter_of_map_eq {p q : Entry → Bool} (hpq : ∀ e, p e = true → q e = true)
    (h : (es.filter p).map (Entry.repacked sha1) = (es.filter q).map (Entry.repacked sha1)) :
    es.filter p = es.filter q := by
  apply (List.monotone_filter_right es hpq).eq_of_length
  have hlen := congrArg List.length h
  rw [List.length_map, List.length_map] at hlen
  exact hlen

/-! ### Sample archives -/

/-- A file as an archive holds it, with its CRC-32. -/
structure Packed where
  entry : Entry
  crc : Nat
  bytes : Bytes
  deriving DecidableEq, Repr

/-- What the header of the file and its place in the directory have in common. -/
def Packed.fields (f : Packed) : Bytes :=
  leBytes 2 0 ++ leBytes 2 (if f.entry.method = .Deflated then 8 else 0) ++
    leBytes 4 0x00210000 ++ leBytes 4 f.crc ++ leBytes 4 f.bytes.length ++
    leBytes 4 f.entry.data.length ++ leBytes 2 f.entry.name.length ++ leBytes 2 0

def Packed.file (f : Packed) : Bytes :=
  [0x50, 0x4b, 0x03, 0x04] ++ leBytes 2 20 ++ f.fields ++ ascii f.entry.name ++ f.bytes

def directory : Nat → List Packed → Bytes
  | _, [] => []
  | offset, f :: fs =>
    [0x50, 0x4b, 0x01, 0x02] ++ leBytes 2 20 ++ leBytes 2 20 ++ f.fields ++ leBytes 10 0 ++
      leBytes 4 offset ++ ascii f.entry.name ++ directory (offset + f.file.length) fs

def endRecord (count cd_size cd_offset : Nat) : Bytes :=
  EOCD_MAGIC ++ leBytes 4 0 ++ leBytes 2 count ++ leBytes 2 count ++ leBytes 4 cd_size ++
    leBytes 4 cd_offset ++ leBytes 2 0

/-- An archive of these files; other bytes may stand between them and the directory. -/
def zipOf (fs : List Packed) (gap : Bytes) : Bytes :=
  let files := fs.flatMap Packed.file ++ gap
  files ++ directory 0 fs ++ endRecord fs.length (directory 0 fs).length files.length

theorem zipOf_layout {fs : List Packed} {gap : Bytes}
    (h : (fs.flatMap Packed.file ++ gap ++ directory 0 fs).length < 2 ^ 32) :
    EocdWithoutComment (zipOf fs gap) ∧ locateZipLayout (zipOf fs gap) = .ok {
      cd_offset := (fs.flatMap Packed.file ++ gap).length
      cd_size := (directory 0 fs).length
      eocd_offset := (fs.flatMap Packed.file ++ gap ++ directory 0 fs).length } := by
  unfold zipOf
  dsimp only
  generalize fs.flatMap Packed.file ++ gap = files at h ⊢
  generalize directory 0 fs = dir at h ⊢
  generalize hend : endRecord fs.length dir.length files.length = record
  have hrecord : record.length = 22 := by
    rw [← hend]
    simp [endRecord, EOCD_MAGIC]
  have hlen : (files ++ dir ++ record).length = (files ++ dir).length + 22 := by
    rw [List.length_append, hrecord]
  have hat : ∀ k n, slice (files ++ dir ++ record) ((files ++ dir).length + k) n =
      slice record k n := by
    intro k n
    rw [slice_append_ge (Nat.le_add_right _ _), Nat.add_sub_cancel_left]
  have hfiles : files.length ≤ (files ++ dir).length := by simp
  have hdir : dir.length ≤ (files ++ dir).length := by simp
  have hmagic : slice record 0 4 = EOCD_MAGIC := by
    rw [← hend]
    rfl
  have hsize : slice record 12 4 = leBytes 4 dir.length := by
    rw [← hend, endRecord, List.append_assoc, List.append_assoc _ (leBytes 4 dir.length)]
    exact slice_middle _ (by simp [EOCD_MAGIC]) (by simp)
  have hoffset : slice record 16 4 = leBytes 4 files.length := by
    rw [← hend, endRecord, List.append_assoc _ (leBytes 4 files.length)]
    exact slice_middle _ (by simp [EOCD_MAGIC]) (by simp)
  have hcomment : slice record 20 2 = leBytes 2 0 := by
    rw [← hend, endRecord, ← List.append_nil (leBytes 2 0)]
    exact slice_middle [] (by simp [EOCD_MAGIC]) (by simp)
  have heocd : EocdWithoutComment (files ++ dir ++ record) := by
    refine ⟨by omega, ?_, ?_⟩
    · rw [hlen, Nat.add_sub_cancel, ← Nat.add_zero (files ++ dir).length, hat, hmagic]
    · rw [hlen, show (files ++ dir).length + 22 - 2 = (files ++ dir).length + 20 by omega, hat,
        hcomment]
      rfl
  refine ⟨heocd, ?_⟩
  rw [locateZipLayout_eq heocd, hlen, Nat.add_sub_cancel, hat, hat, hsize, hoffset,
    leValue_leBytes_of_lt (by omega), leValue_leBytes_of_lt (by omega)]

def manifest : Name := META_INF ++ MANIFEST_MF

def nestedManifest : Name := META_INF ++ 'a' :: '/' :: MANIFEST_MF

def stored (name : Name) : Packed := ⟨⟨name, .Stored, [0x61]⟩, 0xe8b7be43, [0x61]⟩

/-- `<ui/>`, deflated. -/
def screen : Packed :=
  ⟨⟨['u', 'i', '.', 'x', 'm', 'l'], .Deflated, ascii ['<', 'u', 'i', '/', '>']⟩, 0x6a69275d,
    [179, 41, 205, 212, 183, 3, 0]⟩

def code (dex : Bytes) (crc : Nat) : Packed := ⟨⟨CLASSES ++ DEX, .Stored, dex⟩, crc, dex⟩

/-- An app: a manifest of signatures, a screen, and code that reads `SDK_INT` once. -/
def sampleFiles : List Packed := [stored manifest, screen, code sampleDex 0x1a52aa32]

def patchedFiles : List Packed :=
  [screen, code (patchDex zeroSha1 sampleDex).2 0x383af92c]

def samples : List (List Packed) := [[], [stored nestedManifest], sampleFiles, patchedFiles]

/-- The directory is that of these files, which stand before it. -/
def Holds (bs : Bytes) (layout : ZipLayout) (fs : List Packed) : Prop :=
  slice bs layout.cd_offset layout.cd_size = directory 0 fs ∧
    fs.flatMap Packed.file <+: bs.take layout.cd_offset

instance (bs : Bytes) (layout : ZipLayout) : DecidablePred (Holds bs layout) :=
  fun fs => inferInstanceAs (Decidable (_ = directory 0 fs ∧ _))

/-- The crate as it is on the samples, of which it can write two. -/
def sampleCrate : ZipCrate where
  Archive := List Entry
  Writer := List Output
  openArchive bs :=
    match locateZipLayout bs with
    | .error _ => .error "invalid Zip archive"
    | .ok layout =>
      if layout.eocd_offset < layout.cd_offset + layout.cd_size then .error "invalid Zip archive"
      else
        match samples.find? fun fs => Holds bs layout fs with
        | some fs => .ok (fs.map Packed.entry)
        | none => .error "not one of the samples"
  len := List.length
  by_index archive i :=
    match archive[i]? with
    | none => .error "specified file not found in archive"
    | some e => .ok ⟨e.name, e.method, e.data.length, .ok e.data⟩
  newWriter := []
  start_file w name options := .ok ((name, options, []) :: w)
  write_all
    | [], _ => .error "No file has been started"
    | (name, options, data) :: w, more => .ok ((name, options, data ++ more) :: w)
  finish w :=
    match [[], patchedFiles].find? fun fs => fs.map Packed.entry = w.reverse.map Output.entry with
    | some fs => .ok (zipOf fs [])
    | none => .error "not one of the samples"

theorem sampleCrate_lists_iff : sampleCrate.Lists bytes es ↔
    sampleCrate.openArchive bytes = .ok es := by
  have hlists : ∀ archive : List Entry, sampleCrate.openArchive bytes = .ok archive →
      sampleCrate.Lists bytes archive := by
    intro archive hopen
    refine ⟨archive, hopen, rfl, fun i e he => ?_⟩
    refine ⟨⟨e.name, e.method, e.data.length, .ok e.data⟩, ?_, rfl, rfl, rfl⟩
    show (match archive[i]? with
      | none => Except.error "specified file not found in archive"
      | some e => Except.ok (⟨e.name, e.method, e.data.length, .ok e.data⟩ : ZipFile)) = _
    rw [he]
  constructor
  · intro hes
    obtain ⟨archive, hopen, _⟩ := id hes
    rw [hopen, (hlists archive hopen).unique hes]
  · exact hlists es

/-- No two of the samples have the same directory. -/
theorem directory_samples : ∀ fs ∈ samples, ∀ gs ∈ samples, directory 0 fs = directory 0 gs →
    fs = gs := by
  decide +kernel

theorem sampleCrate_open {layout : ZipLayout} (hlayout : locateZipLayout bytes = .ok layout) :
    sampleCrate.openArchive bytes = .ok es ↔
      layout.cd_offset + layout.cd_size ≤ layout.eocd_offset ∧
        ∃ fs ∈ samples, Holds bytes layout fs ∧ fs.map Packed.entry = es := by
  unfold sampleCrate
  dsimp only
  rw [hlayout]
  dsimp only
  split
  · rename_i hlt
    constructor
    · intro h
      cases h
    · rintro ⟨hle, _⟩
      omega
  · rename_i hle
    split
    · rename_i fs hfound
      have hhere : Holds bytes layout fs := by
        simpa using List.find?_some hfound
      have hmem := List.mem_of_find?_eq_some hfound
      constructor
      · intro h
        cases h
        exact ⟨Nat.le_of_not_lt hle, fs, hmem, hhere, rfl⟩
      · rintro ⟨_, gs, hgs, hthere, rfl⟩
        rw [directory_samples fs hmem gs hgs (hhere.1.symm.trans hthere.1)]
    · rename_i hnone
      constructor
      · intro h
        cases h
      · rintro ⟨_, fs, hmem, hhere, _⟩
        exact absurd (decide_eq_true hhere) (List.find?_eq_none.mp hnone fs hmem)

/-- A gap before the directory does not matter. -/
theorem sampleCrate_zipOf {fs : List Packed} {gap : Bytes} (hfs : fs ∈ samples)
    (h : (fs.flatMap Packed.file ++ gap ++ directory 0 fs).length < 2 ^ 32) :
    sampleCrate.Lists (zipOf fs gap) (fs.map Packed.entry) := by
  obtain ⟨_, hlayout⟩ := zipOf_layout h
  rw [sampleCrate_lists_iff, sampleCrate_open hlayout]
  unfold zipOf
  dsimp only
  generalize hfiles : fs.flatMap Packed.file ++ gap = files
  refine ⟨?_, fs, hfs, ⟨?_, ?_⟩, rfl⟩
  · rw [List.length_append]
  · rw [List.append_assoc]
    exact slice_middle _ rfl rfl
  · rw [List.append_assoc, List.take_left, ← hfiles]
    exact List.prefix_append _ _

theorem sampleCrate_finish {w : List Output} (h : sampleCrate.finish w = .ok bytes) :
    ∃ fs ∈ [[], patchedFiles], fs.map Packed.entry = w.reverse.map Output.entry ∧
      bytes = zipOf fs [] := by
  unfold sampleCrate at h
  dsimp only at h
  split at h
  · rename_i fs hfound
    have hentries : fs.map Packed.entry = w.reverse.map Output.entry := by
      simpa using List.find?_some hfound
    cases h
    exact ⟨fs, List.mem_of_find?_eq_some hfound, hentries, rfl⟩
  · cases h

theorem sampleCrate_write {os w w' : List Output}
    (h : os.foldlM sampleCrate.write (w : sampleCrate.Writer) = .ok w') : w' = os.reverse ++ w := by
  induction os generalizing w with
  | nil =>
    cases h
    rfl
  | cons o os ih =>
    have hrest : os.foldlM sampleCrate.write (o :: w : List Output) = .ok w' := h
    rw [ih hrest, List.reverse_cons, List.append_assoc]
    rfl

theorem written_samples : ∀ fs ∈ [[], patchedFiles], fs ∈ samples ∧
    (fs.flatMap Packed.file ++ [] ++ directory 0 fs).length < 2 ^ 32 := by
  decide +kernel

theorem sampleCrate_faithful : sampleCrate.Faithful := by
  intro os w bytes _ hwrite hfin
  obtain ⟨fs, hfs, hentries, rfl⟩ := sampleCrate_finish hfin
  obtain ⟨hsample, hsmall⟩ := written_samples fs hfs
  have hw : w = (os.reverse ++ [] : List Output) := sampleCrate_write hwrite
  subst hw
  rw [List.append_nil, List.reverse_reverse] at hentries
  rw [← hentries]
  exact sampleCrate_zipOf hsample hsmall

theorem nested_lists :
    sampleCrate.Lists (zipOf [stored nestedManifest] []) [(stored nestedManifest).entry] :=
  sampleCrate_zipOf (by simp [samples]) (by decide +kernel)

theorem sample_lists (gap : Bytes) (h : gap.length < 2 ^ 31) :
    sampleCrate.Lists (zipOf sampleFiles gap) (sampleFiles.map Packed.entry) := by
  refine sampleCrate_zipOf (by simp [samples]) ?_
  have hfiles : (sampleFiles.flatMap Packed.file).length = 384 := by decide +kernel
  have hdir : (directory 0 sampleFiles).length = 175 := by decide +kernel
  rw [List.length_append, List.length_append, hfiles, hdir]
  omega

theorem nested_repack : repackAndPatch sampleCrate zeroSha1 (zipOf [stored nestedManifest] []) =
    .ok (zipOf [] [], .default) :=
  toOption_eq_some.mp (by decide +kernel)

theorem sample_repack : repackAndPatch sampleCrate zeroSha1 (zipOf sampleFiles []) =
    .ok (zipOf patchedFiles [], ⟨1, 1⟩) :=
  toOption_eq_some.mp (by decide +kernel)

/-- The repack gives what it should exactly where no entry only looks like a signature file. -/
theorem repack_iff (hz : zip.Faithful) (hin : zip.Lists apk es) (hd : (es.map Entry.name).Nodup)
    (hok : repackAndPatch zip sha1 apk = .ok (out, stats)) :
    (zip.Lists out (repacked sha1 es) ∧ stats = repackedStats sha1 es) ↔
      ∀ e ∈ es, ¬ Lookalike e.name := by
  obtain ⟨hlists, hstats⟩ := repack_ok hz hin hd hok
  have hpq : ∀ e : Entry, decide (¬ isSigningArtefact e.name = true) = true →
      decide (¬ V1Signature e.name) = true := by
    intro e h
    rw [decide_eq_true_eq, isSigningArtefact_iff] at h
    exact decide_eq_true fun hv => h (.inl hv)
  have hsame : (es.filter fun e => ¬ isSigningArtefact e.name) =
      (es.filter fun e => ¬ V1Signature e.name) ↔ ∀ e ∈ es, ¬ Lookalike e.name := by
    rw [filter_eq_iff hpq]
    apply forall_congr'
    intro e
    apply imp_congr_right
    intro _
    rw [decide_eq_true_eq, decide_eq_true_eq, isSigningArtefact_iff]
    constructor
    · intro h hl
      exact h (fun hv => hv.not_lookalike hl) (.inr hl)
    · intro h hv hart
      exact hart.elim hv h
  rw [← hsame]
  constructor
  · rintro ⟨hwant, _⟩
    exact filter_of_map_eq hpq (hlists.unique hwant)
  · intro h
    rw [repacked, ← h]
    exact ⟨hlists, hstats⟩

/-- The manifest is dropped, the screen stays, and the code is patched. -/
theorem repack_iff_sample :
    sampleCrate.Lists (zipOf patchedFiles []) (repacked zeroSha1 (sampleFiles.map Packed.entry)) ∧
      ⟨1, 1⟩ = repackedStats zeroSha1 (sampleFiles.map Packed.entry) := by
  have hnone : ∀ e ∈ sampleFiles.map Packed.entry, ¬ Lookalike e.name := by
    have hkept : ∀ name ∈ [screen.entry.name, (code [] 0).entry.name],
        isSigningArtefact name = false := by
      decide
    have hnot : ∀ name, isSigningArtefact name = false → ¬ Lookalike name := by
      intro name h hl
      rw [(isSigningArtefact_iff name).mpr (.inr hl)] at h
      cases h
    intro e he
    simp only [sampleFiles, List.map_cons, List.map_nil, List.mem_cons, List.not_mem_nil,
      or_false] at he
    rcases he with rfl | rfl | rfl
    · exact V1Signature.not_lookalike (by decide : V1Signature manifest)
    · exact hnot _ (hkept _ (by simp))
    · exact hnot _ (hkept _ (by simp [code]))
  exact (repack_iff sampleCrate_faithful (sample_lists [] (by decide)) (by decide)
    sample_repack).mpr hnone

/-- A file of a library that is named `MANIFEST.MF` does not come through. -/
theorem nestedManifest_lost : ¬ ∀ (zip : ZipCrate) (sha1 : Sha1) (apk out : Bytes)
    (es : List Entry) (stats : PatchStats), zip.Faithful → zip.Lists apk es →
    (es.map Entry.name).Nodup → repackAndPatch zip sha1 apk = .ok (out, stats) →
    zip.Lists out (repacked sha1 es) ∧ stats = repackedStats sha1 es := by
  intro h
  obtain ⟨hlists, _⟩ := h sampleCrate zeroSha1 _ _ _ _ sampleCrate_faithful nested_lists (by simp)
    nested_repack
  have hempty : sampleCrate.Lists (zipOf [] []) [] :=
    sampleCrate_zipOf (by simp [samples]) (by decide)
  have hnil := hempty.unique hlists
  revert hnil
  decide +kernel

end Aabox.Resigner.Apk
