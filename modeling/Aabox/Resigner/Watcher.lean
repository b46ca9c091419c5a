import Aabox.Lib.Run
import Aabox.Resigner.Process
import Mathlib.Data.List.DropRight

/-!
`aabox-resigner --watch`: the loop over the events of the download directory, while other processes
write there too.
-/
namespace Aabox.Resigner.Watcher
open Aabox.Lib Dex Sign Apk

/-! ### Names -/

def CARCAR : Name := ['c', 'a', 'r', 'c', 'a', 'r']
def APK : Name := ['.', 'a', 'p', 'k']
def PATCHED_APK : Name :=
  ['.', 'a', 'a', 'b', 'o', 'x', '-', 'p', 'a', 't', 'c', 'h', 'e', 'd', '.', 'a', 'p', 'k']

/-- `to_ascii_lowercase` -/
def lowerCase (name : Name) : Name := name.map Char.toLower

def isCarcarApkFilename (name : Name) : Bool :=
  let lower := lowerCase name
  CARCAR <+: lower ∧ APK <:+ lower ∧ ¬ PATCHED_APK <:+ lower

/-- `file_stem`: all before the last dot, unless nothing stands before it. -/
def fileStem (name : Name) : Name :=
  let before := (name.rdropWhile (· ≠ '.')).dropLast
  if name = ['.', '.'] ∨ before = [] then name else before

/-- The names the daemon writes to. -/
def patchedName (name : Name) : Name := fileStem name ++ PATCHED_APK

def Reserved (name : Name) : Prop := PATCHED_APK <:+ lowerCase name

instance : DecidablePred Reserved := fun name => inferInstanceAs (Decidable (_ <:+ lowerCase name))

/-! ### The daemon -/

structure Config where
  dir : Name
  key_path : Path
  cert_path : Path

/-- Where `handle_one` is with a file. -/
inductive Pc
  | reading
  | stat (name : Name)
  | process (name : Name)
  | install (patched : Name)
  | remove (patched : Name)
  | stopped
  deriving DecidableEq, Repr

structure Daemon where
  disk : Disk
  /-- Events that the loop has not come to; some have no name. -/
  events : List (Option Name)
  pc : Pc
  handled : List Name
  /-- What `pm install` has been given and taken. -/
  installed : List Bytes

inductive Act
  | foreign (p : Path) (content : Option Bytes) (events : List (Option Name))
  | next | stat
  | process (writing : Writing) (elapsed_ms : Nat) (raised : Nat)
  | pm (success : Bool)
  | remove (ok : Bool)
  | read_error

def MIN_APK_BYTES : Nat := 1024 * 1024

variable {C : Crypto}

inductive Step (zip : ZipCrate) (sha1 : Sha1) (L : Loader C) (cfg : Config) :
    Daemon → Act → Daemon → Prop
  /-- Another process leaves a file so, with the events that this raises. -/
  | foreign {s p content events} : Step zip sha1 L cfg s (.foreign p content events)
      { s with disk := Function.update s.disk p content, events := s.events ++ events }
  | skip {s event rest} : s.pc = .reading → s.events = event :: rest →
      (∀ name ∈ event, isCarcarApkFilename name = false) →
      Step zip sha1 L cfg s .next { s with events := rest }
  | take {s name rest} : s.pc = .reading → s.events = some name :: rest →
      isCarcarApkFilename name = true →
      Step zip sha1 L cfg s .next
        { s with events := rest, pc := .stat name, handled := s.handled ++ [name] }
  /-- No such file, or too small a one: a download in progress. -/
  | ignored {s name} : s.pc = .stat name →
      (∀ bs ∈ s.disk ⟨cfg.dir, name⟩, bs.length < MIN_APK_BYTES) →
      Step zip sha1 L cfg s .stat { s with pc := .reading }
  | large {s name bs} : s.pc = .stat name → s.disk ⟨cfg.dir, name⟩ = some bs →
      MIN_APK_BYTES ≤ bs.length → Step zip sha1 L cfg s .stat { s with pc := .process name }
  /-- The write to the patched file raises events as well, also where it fails. -/
  | failed {s name writing elapsed_ms raised e disk} : s.pc = .process name →
      processApk zip sha1 L ⟨cfg.dir, name⟩ ⟨cfg.dir, patchedName name⟩ cfg.key_path cfg.cert_path
        writing elapsed_ms s.disk = (.error e, disk) →
      Step zip sha1 L cfg s (.process writing elapsed_ms raised) { s with
        disk := disk, events := s.events ++ List.replicate raised (some (patchedName name)),
        pc := .reading }
  | processed {s name writing elapsed_ms raised report disk} : s.pc = .process name →
      processApk zip sha1 L ⟨cfg.dir, name⟩ ⟨cfg.dir, patchedName name⟩ cfg.key_path cfg.cert_path
        writing elapsed_ms s.disk = (.ok report, disk) →
      Step zip sha1 L cfg s (.process writing elapsed_ms raised) { s with
        disk := disk, events := s.events ++ List.replicate raised (some (patchedName name)),
        pc := .install (patchedName name) }
  | installed {s patched bs} : s.pc = .install patched → s.disk ⟨cfg.dir, patched⟩ = some bs →
      Step zip sha1 L cfg s (.pm true)
        { s with pc := .remove patched, installed := s.installed ++ [bs] }
  /-- The patched file stays where it is. -/
  | notInstalled {s patched} : s.pc = .install patched →
      Step zip sha1 L cfg s (.pm false) { s with pc := .reading }
  | removed {s patched} : s.pc = .remove patched →
      Step zip sha1 L cfg s (.remove true)
        { s with disk := Function.update s.disk ⟨cfg.dir, patched⟩ none, pc := .reading }
  | notRemoved {s patched} : s.pc = .remove patched →
      Step zip sha1 L cfg s (.remove false) { s with pc := .reading }
  | stopped {s} : s.pc = .reading → Step zip sha1 L cfg s .read_error { s with pc := .stopped }

def start (disk : Disk) : Daemon := ⟨disk, [], .reading, [], []⟩

/-- The events that the loop will act on. -/
def candidates (events : List (Option Name)) : List Name :=
  events.filterMap fun event => event.filter isCarcarApkFilename

/-- The events that others raise. -/
def Act.raised : Act → List (Option Name)
  | .foreign _ _ events => events
  | _ => []

/-- What is in a file after others have written, or have not. -/
def Act.leaves (p : Path) (content : Option Bytes) : Act → Option Bytes
  | .foreign q written _ => if p = q then written else content
  | _ => content

/-- What others have left in a file: what they last put there, else what was there at first. -/
def left (disk : Disk) (xs : List Act) (p : Path) : Option Bytes :=
  xs.foldl (fun content a => a.leaves p content) (disk p)

variable {zip : ZipCrate} {sha1 : Sha1} {L : Loader C} {cfg : Config} {s t : Daemon} {a : Act}
  {xs : List Act} {name patched : Name} {disk : Disk} {signer : Signer C} {modulus_len : Nat}
  {p : Path} {out : Bytes}

/-! ### No feedback -/

theorem lowerCase_patched : lowerCase PATCHED_APK = PATCHED_APK := by decide

theorem patchedName_reserved (name : Name) : Reserved (patchedName name) := by
  unfold Reserved patchedName lowerCase
  rw [List.map_append]
  have hlower : PATCHED_APK.map Char.toLower = PATCHED_APK := lowerCase_patched
  rw [hlower]
  exact List.suffix_append _ _

theorem Reserved.not_candidate (h : Reserved name) : isCarcarApkFilename name = false := by
  apply decide_eq_false
  rintro ⟨_, _, hno⟩
  exact hno h

/-- `carcar-4.apk` becomes `carcar-4.aabox-patched.apk`. -/
example : patchedName ['c', 'a', 'r', 'c', 'a', 'r', '-', '4', '.', 'a', 'p', 'k'] =
    ['c', 'a', 'r', 'c', 'a', 'r', '-', '4'] ++ PATCHED_APK := by decide

@[simp] theorem candidates_append (xs ys : List (Option Name)) :
    candidates (xs ++ ys) = candidates xs ++ candidates ys := List.filterMap_append

theorem candidates_own (raised : Nat) (name : Name) :
    candidates (List.replicate raised (some (patchedName name))) = [] := by
  unfold candidates
  rw [List.filterMap_eq_nil_iff]
  intro event hevent
  rw [List.eq_of_mem_replicate hevent, Option.filter_some,
    (patchedName_reserved name).not_candidate]
  rfl

theorem candidates_skip {event : Option Name} (rest : List (Option Name))
    (hno : ∀ name ∈ event, isCarcarApkFilename name = false) :
    candidates (event :: rest) = candidates rest := by
  apply List.filterMap_cons_none
  rw [Option.filter_eq_none_iff]
  intro name hname
  rw [hno name hname]
  exact Bool.false_ne_true

theorem candidates_take (rest : List (Option Name)) (hyes : isCarcarApkFilename name = true) :
    candidates (some name :: rest) = name :: candidates rest := by
  apply List.filterMap_cons_some
  rw [Option.filter_some, if_pos hyes]

/-- The loop handles what is a candidate at the head of the events; its own files are none. -/
theorem step_handled (h : Step zip sha1 L cfg s a t) :
    t.handled ++ candidates t.events =
      s.handled ++ candidates s.events ++ candidates a.raised := by
  have hnil : candidates ([] : List (Option Name)) = [] := rfl
  cases h with
  | foreign => simp [Act.raised]
  | skip _ hevents hno =>
    rw [hevents, candidates_skip _ hno]
    simp [Act.raised, hnil]
  | take _ hevents hyes =>
    rw [hevents, candidates_take _ hyes]
    simp [Act.raised, hnil]
  | ignored => simp [Act.raised, hnil]
  | large => simp [Act.raised, hnil]
  | failed => simp [Act.raised, hnil, candidates_own]
  | processed => simp [Act.raised, hnil, candidates_own]
  | installed => simp [Act.raised, hnil]
  | notInstalled => simp [Act.raised, hnil]
  | removed => simp [Act.raised, hnil]
  | notRemoved => simp [Act.raised, hnil]
  | stopped => simp [Act.raised, hnil]

theorem run_handled (h : Run (Step zip sha1 L cfg) s xs t) :
    t.handled ++ candidates t.events =
      s.handled ++ candidates s.events ++ candidates (xs.flatMap Act.raised) := by
  induction h with
  | refl => simp [candidates]
  | stepL hstep _ ih =>
    rw [ih, step_handled hstep, List.flatMap_cons, candidates_append]
    simp only [List.append_assoc]

/-! ### What is installed -/

/-- A file that only the daemon writes. -/
def Own (cfg : Config) (p : Path) : Prop := p.dir = cfg.dir ∧ Reserved p.file

/-- Nobody else touches the daemon's files or its keys. -/
def Undisturbed (cfg : Config) (_ : Daemon) : Act → Prop
  | .foreign p _ _ => ¬ Own cfg p ∧ p ≠ cfg.key_path ∧ p ≠ cfg.cert_path
  | _ => True

/-- What was made, with the signer, of a candidate that others had left in the directory when the
daemon came to it. -/
def Built (zip : ZipCrate) (sha1 : Sha1) (L : Loader C) (cfg : Config) (signer : Signer C)
    (disk : Disk) (xs : List Act) (out : Bytes) : Prop :=
  ∃ ys zs u name apk stats, xs = ys ++ zs ∧
    Run (Guard (Step zip sha1 L cfg) (Undisturbed cfg)) (start disk) ys u ∧
    u.pc = .process name ∧ isCarcarApkFilename name = true ∧
    left disk ys ⟨cfg.dir, name⟩ = some apk ∧
    load L cfg.key_path cfg.cert_path u.disk = .ok signer ∧
    rebuild zip sha1 L ⟨cfg.dir, name⟩ cfg.key_path cfg.cert_path u.disk = .ok (apk, out, stats)

/-- The file that the daemon is at; one that is to be installed has been made. -/
def Pc.Fits (made : Bytes → Prop) (cfg : Config) (disk : Disk) : Pc → Prop
  | .stat name | .process name => isCarcarApkFilename name = true
  | .install patched => Reserved patched ∧ ∃ out, disk ⟨cfg.dir, patched⟩ = some out ∧ made out
  | .remove patched => Reserved patched
  | .reading | .stopped => True

structure Inv (zip : ZipCrate) (sha1 : Sha1) (L : Loader C) (cfg : Config) (signer : Signer C)
    (disk : Disk) (s : Daemon) (xs : List Act) : Prop where
  run : Run (Guard (Step zip sha1 L cfg) (Undisturbed cfg)) (start disk) xs s
  left : ∀ p, ¬ Own cfg p → s.disk p = left disk xs p
  loads : load L cfg.key_path cfg.cert_path s.disk = .ok signer
  fits : s.pc.Fits (Built zip sha1 L cfg signer disk xs) cfg s.disk
  installed : ∀ out ∈ s.installed, Built zip sha1 L cfg signer disk xs out

theorem left_concat (disk : Disk) (xs : List Act) (a : Act) (p : Path) :
    left disk (xs ++ [a]) p = a.leaves p (left disk xs p) := by
  unfold left
  rw [List.foldl_append]
  rfl

theorem Built.concat (h : Built zip sha1 L cfg signer disk xs out) (a : Act) :
    Built zip sha1 L cfg signer disk (xs ++ [a]) out := by
  rcases h with ⟨ys, zs, u, name, apk, stats, rfl, h⟩
  exact ⟨ys, zs ++ [a], u, name, apk, stats, List.append_assoc _ _ _, h⟩

theorem Pc.Fits.not_candidate {made : Bytes → Prop} {pc : Pc} (h : pc.Fits made cfg disk)
    (hpc : pc = .install patched ∨ pc = .remove patched) : Own cfg ⟨cfg.dir, patched⟩ := by
  rcases hpc with rfl | rfl
  · exact ⟨rfl, h.1⟩
  · exact ⟨rfl, h⟩

/-- The daemon writes to files of its own only. -/
theorem step_left {made : Bytes → Prop} (h : Step zip sha1 L cfg s a t)
    (hfits : s.pc.Fits made cfg s.disk) (hp : ¬ Own cfg p) :
    t.disk p = a.leaves p (s.disk p) := by
  have hframe : ∀ name writing elapsed_ms result disk,
      processApk zip sha1 L ⟨cfg.dir, name⟩ ⟨cfg.dir, patchedName name⟩ cfg.key_path cfg.cert_path
        writing elapsed_ms s.disk = (result, disk) → disk p = s.disk p := by
    intro name writing elapsed_ms result disk hrun
    have hne : p ≠ ⟨cfg.dir, patchedName name⟩ := by
      rintro rfl
      exact hp ⟨rfl, patchedName_reserved name⟩
    have hsame := @processApk_frame _ zip sha1 L s.disk ⟨cfg.dir, name⟩ _
      cfg.key_path cfg.cert_path p writing elapsed_ms hne
    rw [hrun] at hsame
    exact hsame
  cases h with
  | foreign => exact Function.update_apply _ _ _ _
  | skip => rfl
  | take => rfl
  | ignored => rfl
  | large => rfl
  | failed _ hrun => exact hframe _ _ _ _ _ hrun
  | processed _ hrun => exact hframe _ _ _ _ _ hrun
  | installed => rfl
  | notInstalled => rfl
  | removed hpc =>
    have hown := hfits.not_candidate (.inr hpc)
    apply Function.update_of_ne
    rintro rfl
    exact hp hown
  | notRemoved => rfl
  | stopped => rfl

theorem Undisturbed.leaves (h : Undisturbed cfg s a)
    (hp : p = cfg.key_path ∨ p = cfg.cert_path) (content : Option Bytes) :
    a.leaves p content = content := by
  cases a with
  | foreign q written events =>
    apply if_neg
    rintro rfl
    exact hp.elim h.2.1 h.2.2
  | _ => rfl

theorem load_congr {key_path cert_path : Path} {disk' : Disk}
    (hkey : disk' key_path = disk key_path) (hcert : disk' cert_path = disk cert_path) :
    load L key_path cert_path disk' = load L key_path cert_path disk := by
  unfold load Disk.read
  rw [hkey, hcert]

theorem inv_start (hload : load L cfg.key_path cfg.cert_path disk = .ok signer) :
    Inv zip sha1 L cfg signer disk (start disk) [] := by
  refine ⟨.refl, fun _ _ => rfl, hload, trivial, ?_⟩
  intro out hout
  cases hout

/-- A candidate that is processed is as others have left it. -/
theorem Inv.made {apk : Bytes} {stats : PatchStats} (hi : Inv zip sha1 L cfg signer disk s xs)
    (hpc : s.pc = .process name)
    (h : rebuild zip sha1 L ⟨cfg.dir, name⟩ cfg.key_path cfg.cert_path s.disk =
      .ok (apk, out, stats)) : Built zip sha1 L cfg signer disk xs out := by
  have hname : isCarcarApkFilename name = true := by
    have hfits := hi.fits
    rw [hpc] at hfits
    exact hfits
  have hforeign : ¬ Own cfg ⟨cfg.dir, name⟩ := by
    rintro ⟨_, hreserved⟩
    rw [Reserved.not_candidate hreserved] at hname
    cases hname
  rcases rebuild_ok h with ⟨_, _, _, hread, _, _⟩
  rw [hi.left _ hforeign] at hread
  exact ⟨xs, [], s, name, apk, stats, (List.append_nil xs).symm, hi.run, hpc, hname, hread,
    hi.loads, h⟩

/-- The file that the daemon comes to, and the files that have been installed. -/
theorem step_built (hi : Inv zip sha1 L cfg signer disk s xs)
    (h : Guard (Step zip sha1 L cfg) (Undisturbed cfg) s a t) :
    t.pc.Fits (Built zip sha1 L cfg signer disk (xs ++ [a])) cfg t.disk ∧
      ∀ out ∈ t.installed, Built zip sha1 L cfg signer disk (xs ++ [a]) out := by
  rcases h with ⟨hstep, hquiet⟩
  have hfits := hi.fits
  have hinstalled : ∀ out ∈ s.installed, Built zip sha1 L cfg signer disk (xs ++ [a]) out :=
    fun out hout => (hi.installed out hout).concat a
  cases hstep with
  | foreign =>
    rename_i q content events
    refine ⟨?_, hinstalled⟩
    dsimp only
    cases hpc : s.pc with
    | install patched =>
      have hown := hfits.not_candidate (.inl hpc)
      rw [hpc] at hfits
      rcases hfits with ⟨hreserved, out, hout, hbuilt⟩
      have hne : (⟨cfg.dir, patched⟩ : Path) ≠ q := by
        rintro rfl
        exact hquiet.1 hown
      refine ⟨hreserved, out, ?_, hbuilt.concat _⟩
      rw [← hout]
      exact Function.update_of_ne hne _ _
    | reading => trivial
    | stopped => trivial
    | stat name =>
      rw [hpc] at hfits
      exact hfits
    | process name =>
      rw [hpc] at hfits
      exact hfits
    | remove patched =>
      rw [hpc] at hfits
      exact hfits
  | skip hpc =>
    refine ⟨?_, hinstalled⟩
    dsimp only
    rw [hpc]
    trivial
  | take _ _ hyes => exact ⟨hyes, hinstalled⟩
  | ignored => exact ⟨trivial, hinstalled⟩
  | large hpc =>
    rw [hpc] at hfits
    exact ⟨hfits, hinstalled⟩
  | failed => exact ⟨trivial, hinstalled⟩
  | processed hpc hrun =>
    rename_i name writing elapsed_ms raised report disk'
    rcases processApk_ok hrun with ⟨apk, out, stats, hbuilt, rfl, _⟩
    refine ⟨⟨patchedName_reserved name, out, Function.update_self _ _ _, ?_⟩, hinstalled⟩
    exact (hi.made hpc hbuilt).concat _
  | installed hpc hbs =>
    rw [hpc] at hfits
    rcases hfits with ⟨hreserved, out, hout, hbuilt⟩
    rw [hbs] at hout
    cases hout
    refine ⟨hreserved, ?_⟩
    intro out hmem
    rcases List.mem_append.mp hmem with hmem | hmem
    · exact hinstalled out hmem
    · rcases List.mem_singleton.mp hmem with rfl
      exact hbuilt.concat _
  | notInstalled => exact ⟨trivial, hinstalled⟩
  | removed => exact ⟨trivial, hinstalled⟩
  | notRemoved => exact ⟨trivial, hinstalled⟩
  | stopped => exact ⟨trivial, hinstalled⟩

theorem inv_step (hkeys : ¬ Own cfg cfg.key_path ∧ ¬ Own cfg cfg.cert_path)
    (hi : Inv zip sha1 L cfg signer disk s xs)
    (h : Guard (Step zip sha1 L cfg) (Undisturbed cfg) s a t) :
    Inv zip sha1 L cfg signer disk t (xs ++ [a]) := by
  rcases step_built hi h with ⟨hfits, hinstalled⟩
  have hsame : ∀ p, ¬ Own cfg p → p = cfg.key_path ∨ p = cfg.cert_path → t.disk p = s.disk p := by
    intro p hp hkey
    rw [step_left h.1 hi.fits hp, h.2.leaves hkey]
  refine ⟨hi.run.trans (.stepL h .refl), ?_, ?_, hfits, hinstalled⟩
  · intro p hp
    rw [step_left h.1 hi.fits hp, hi.left p hp, left_concat]
  · rw [← hi.loads]
    exact load_congr (hsame _ hkeys.1 (.inl rfl)) (hsame _ hkeys.2 (.inr rfl))

/-! ### A download -/

theorem sample_repack_gap {gap : Bytes} (h : gap.length < 2 ^ 31) :
    repackAndPatch sampleCrate zeroSha1 (zipOf sampleFiles gap) =
      .ok (zipOf patchedFiles [], ⟨1, 1⟩) := by
  have hopen := sampleCrate_lists_iff.mp (sample_lists gap h)
  have hopen₀ := sampleCrate_lists_iff.mp (sample_lists [] (by decide))
  have hrepack := sample_repack
  unfold repackAndPatch at hrepack ⊢
  rw [hopen₀] at hrepack
  rw [hopen]
  exact hrepack

def sampleConfig : Config := ⟨[], samplePath 'k', samplePath 'c'⟩

def sampleName : Name := ['C', 'a', 'r', 'C', 'a', 'r', '.', 'a', 'p', 'k']

section
variable (download out : Bytes)

def sampleActs : List Act :=
  [.foreign ⟨[], sampleName⟩ (some download) [none, some sampleName], .next, .next, .stat,
    .process .full 40 2, .pm true, .remove true]

def sampleArrived : Disk := Function.update sampleDisk ⟨[], sampleName⟩ (some download)

def samplePatched : Disk :=
  Function.update (sampleArrived download) ⟨[], patchedName sampleName⟩ (some out)

/-- After the download has been installed; the patched file is gone. -/
def sampleEnd : Daemon where
  disk := Function.update (samplePatched download out) ⟨[], patchedName sampleName⟩ none
  events := List.replicate 2 (some (patchedName sampleName))
  pc := .reading
  handled := [sampleName]
  installed := [out]

end

variable {download out : Bytes}

theorem sampleArrived_rebuild
    (hrepack : repackAndPatch sampleCrate zeroSha1 download = .ok (zipOf patchedFiles [], ⟨1, 1⟩))
    (hsign : signApkV2 (zipOf patchedFiles []) sampleSigner = .ok out) :
    rebuild sampleCrate zeroSha1 sampleLoader ⟨[], sampleName⟩ (samplePath 'k') (samplePath 'c')
      (sampleArrived download) = .ok (download, out, ⟨1, 1⟩) := by
  unfold rebuild
  refine bind_eq_ok.mpr ⟨sampleSigner, rfl, ?_⟩
  refine bind_eq_ok.mpr ⟨download, ?_, ?_⟩
  · rw [context_ok, read_eq_ok]
    exact Function.update_self _ _ _
  · refine bind_eq_ok.mpr ⟨(zipOf patchedFiles [], ⟨1, 1⟩), context_ok.mpr hrepack, ?_⟩
    exact bind_eq_ok.mpr ⟨out, context_ok.mpr hsign, rfl⟩

theorem sampleArrived_process
    (hrepack : repackAndPatch sampleCrate zeroSha1 download = .ok (zipOf patchedFiles [], ⟨1, 1⟩))
    (hsign : signApkV2 (zipOf patchedFiles []) sampleSigner = .ok out) :
    processApk sampleCrate zeroSha1 sampleLoader ⟨[], sampleName⟩ ⟨[], patchedName sampleName⟩
      (samplePath 'k') (samplePath 'c') .full 40 (sampleArrived download) =
      (.ok ⟨download.length, out.length, 1, 1, 40⟩, samplePatched download out) := by
  unfold processApk
  rw [sampleArrived_rebuild hrepack hsign]
  rfl

theorem sampleEnd_run (hlarge : MIN_APK_BYTES ≤ download.length)
    (hrepack : repackAndPatch sampleCrate zeroSha1 download = .ok (zipOf patchedFiles [], ⟨1, 1⟩))
    (hsign : signApkV2 (zipOf patchedFiles []) sampleSigner = .ok out) :
    Run (Guard (Step sampleCrate zeroSha1 sampleLoader sampleConfig) (Undisturbed sampleConfig))
      (start sampleDisk) (sampleActs download) (sampleEnd download out) := by
  have hname : isCarcarApkFilename sampleName = true := by decide
  have hquiet : Undisturbed sampleConfig (start sampleDisk)
      (.foreign ⟨[], sampleName⟩ (some download) [none, some sampleName]) := by
    refine ⟨?_, by decide, by decide⟩
    rintro ⟨_, hno⟩
    exact absurd hno (by decide)
  have hskip : ∀ name ∈ (none : Option Name), isCarcarApkFilename name = false := by
    intro name h
    cases h
  let s₁ : Daemon := ⟨sampleArrived download, [none, some sampleName], .reading, [], []⟩
  let s₂ : Daemon := ⟨sampleArrived download, [some sampleName], .reading, [], []⟩
  let s₃ : Daemon := ⟨sampleArrived download, [], .stat sampleName, [sampleName], []⟩
  let s₄ : Daemon := ⟨sampleArrived download, [], .process sampleName, [sampleName], []⟩
  let s₅ : Daemon := ⟨samplePatched download out, (sampleEnd download out).events,
    .install (patchedName sampleName), [sampleName], []⟩
  let s₆ : Daemon := ⟨samplePatched download out, (sampleEnd download out).events,
    .remove (patchedName sampleName), [sampleName], [out]⟩
  have hpc : s₄.pc = .process sampleName := rfl
  have hread : sampleArrived download ⟨[], sampleName⟩ = some download :=
    Function.update_self _ _ _
  have hwritten : samplePatched download out ⟨[], patchedName sampleName⟩ = some out :=
    Function.update_self _ _ _
  have h₄ : Step sampleCrate zeroSha1 sampleLoader sampleConfig s₃ .stat s₄ :=
    .large rfl hread hlarge
  have h₅ : Step sampleCrate zeroSha1 sampleLoader sampleConfig s₄ (.process .full 40 2) s₅ :=
    .processed hpc (sampleArrived_process hrepack hsign)
  have h₆ : Step sampleCrate zeroSha1 sampleLoader sampleConfig s₅ (.pm true) s₆ :=
    .installed rfl hwritten
  have h₇ : Step sampleCrate zeroSha1 sampleLoader sampleConfig s₆ (.remove true)
      (sampleEnd download out) := .removed (s := s₆) rfl
  exact .stepL (u := s₁) ⟨.foreign, hquiet⟩ (.stepL (u := s₂) ⟨.skip rfl rfl hskip, trivial⟩
    (.stepL (u := s₃) ⟨.take (s := s₂) rfl rfl hname, trivial⟩ (.stepL ⟨h₄, trivial⟩
      (.stepL ⟨h₅, trivial⟩ (.stepL ⟨h₆, trivial⟩ (.stepL ⟨h₇, trivial⟩ .refl))))))

/-- The app, with a mebibyte of other bytes before the directory, is downloaded and installed. -/
theorem sample_installed : ∃ gap out, gap.length < 2 ^ 31 ∧ out.length = 8323 ∧
    Run (Guard (Step sampleCrate zeroSha1 sampleLoader sampleConfig) (Undisturbed sampleConfig))
      (start sampleDisk) (sampleActs (zipOf sampleFiles gap))
      (sampleEnd (zipOf sampleFiles gap) out) := by
  have hsigned : (signApkV2 (zipOf patchedFiles []) sampleSigner).toOption.map List.length =
      some 8323 := by
    decide +kernel
  rcases Option.map_eq_some_iff.mp hsigned with ⟨out, hout, hlen⟩
  have hbytes : ∃ gap : Bytes, gap.length = MIN_APK_BYTES :=
    ⟨List.replicate MIN_APK_BYTES 0, List.length_replicate⟩
  rcases hbytes with ⟨gap, hgap⟩
  have hsmall : gap.length < 2 ^ 31 := by
    rw [hgap]
    decide
  refine ⟨gap, out, hsmall, hlen, ?_⟩
  apply sampleEnd_run _ (sample_repack_gap hsmall) (toOption_eq_some.mp hout)
  unfold zipOf
  simp only [List.length_append]
  omega

/-! ### Every run -/

/-- The files that are handled and those still to come are the ones that others have written, in the
order of their events: the daemon never goes after a file of its own. -/
theorem handles_foreign (h : Run (Step zip sha1 L cfg) (start disk) xs t) :
    t.handled ++ candidates t.events = candidates (xs.flatMap Act.raised) ∧
      ∀ name ∈ t.handled, ∀ n, name ≠ patchedName n := by
  have hall := run_handled h
  have hnone : (start disk).handled ++ candidates (start disk).events = [] := rfl
  rw [hnone, List.nil_append] at hall
  refine ⟨hall, ?_⟩
  rintro name hname n rfl
  have hmem : patchedName n ∈ candidates (xs.flatMap Act.raised) := by
    rw [← hall]
    exact List.mem_append_left _ hname
  rcases List.mem_filterMap.mp hmem with ⟨event, _, hevent⟩
  have hyes := (Option.filter_eq_some_iff.mp hevent).2
  rw [(patchedName_reserved n).not_candidate] at hyes
  cases hyes

theorem handles_foreign_download : ∃ download out,
    (sampleEnd download out).handled ++ candidates (sampleEnd download out).events =
      candidates ((sampleActs download).flatMap Act.raised) ∧
    ∀ n, sampleName ≠ patchedName n := by
  rcases sample_installed with ⟨gap, out, _, _, hrun⟩
  rcases handles_foreign (hrun.mono fun _ _ _ h => h.1) with ⟨hall, hown⟩
  exact ⟨_, out, hall, hown sampleName (List.mem_singleton_self sampleName)⟩

/-- In every run in which nobody else writes to the daemon's files or its keys, `pm` only takes what
was built from a candidate, as others had left it when the daemon came to process it: it verifies
with the daemon's own certificate, and it has the entries of what was downloaded, patched. -/
theorem installs_verified (hz : zip.Usual)
    (hload : load L cfg.key_path cfg.cert_path disk = .ok signer)
    (hs : Signer.Usual signer modulus_len)
    (hkeys : ¬ Own cfg cfg.key_path ∧ ¬ Own cfg cfg.cert_path)
    (hrun : Run (Guard (Step zip sha1 L cfg) (Undisturbed cfg)) (start disk) xs t) :
    ∀ out ∈ t.installed, out.length < 2 ^ 32 → ∃ ys zs u name apk stats digest sig,
      xs = ys ++ zs ∧ Run (Guard (Step zip sha1 L cfg) (Undisturbed cfg)) (start disk) ys u ∧
      u.pc = .process name ∧ isCarcarApkFilename name = true ∧
      left disk ys ⟨cfg.dir, name⟩ = some apk ∧
      rebuild zip sha1 L ⟨cfg.dir, name⟩ cfg.key_path cfg.cert_path u.disk = .ok (apk, out, stats) ∧
      Verify.verifyV2 C out = some [signerBlock signer digest sig] ∧
      ∀ es, zip.Lists apk es → (es.map Entry.name).Nodup → es.length < 65535 →
        zip.Lists out (rebuilt sha1 es) := by
  intro out hout hsize
  have hinv : Inv zip sha1 L cfg signer disk t xs :=
    hrun.history (I := Inv zip sha1 L cfg signer disk) (fun _ _ _ _ => inv_step hkeys)
      (inv_start hload)
  rcases hinv.installed out hout with
    ⟨ys, zs, u, name, apk, stats, hsplit, hu, hpc, hname, hread, hload', hbuilt⟩
  rcases rebuild_verifies hz hload' hs.1 hbuilt hsize with ⟨digest, sig, _, hverify⟩
  refine ⟨ys, zs, u, name, apk, stats, digest, sig, hsplit, hu, hpc, hname, hread, hbuilt, hverify,
    ?_⟩
  intro es hlists hd hfew
  exact (rebuild_lists hz hlists hd hfew hload' hs.2 hbuilt hsize).1

/-- Acts of the daemon alone leave what others have left in a file. -/
theorem foldl_leaves (hown : ∀ a ∈ xs, ∀ content, a.leaves p content = content)
    (content : Option Bytes) : xs.foldl (fun content a => a.leaves p content) content = content := by
  induction xs with
  | nil => rfl
  | cons a xs ih =>
    rw [List.foldl_cons, hown a List.mem_cons_self]
    exact ih fun a ha => hown a (List.mem_cons_of_mem _ ha)

/-- The sample disk holds the keys, and no candidate. -/
theorem sampleDisk_candidate (hname : isCarcarApkFilename name = true) :
    sampleDisk ⟨[], name⟩ = none := by
  have hne : ∀ c, isCarcarApkFilename [c] = false := by
    intro c
    apply decide_eq_false
    rintro ⟨hcar, _⟩
    have hlen := hcar.length_le
    simp [CARCAR, lowerCase] at hlen
  have hkey : ∀ c, (⟨[], name⟩ : Path) ≠ samplePath c := by
    rintro c h
    have hfile : name = [c] := congrArg (·.file) h
    rw [hfile, hne] at hname
    cases hname
  unfold sampleDisk
  rw [if_neg (hkey _), if_neg (hkey _), if_neg (hkey _)]

/-- At every point of the sample run a candidate that is there is the download. -/
theorem sample_left {apk : Bytes} {ys zs : List Act} (hsplit : sampleActs download = ys ++ zs)
    (hname : isCarcarApkFilename name = true) (hleft : left sampleDisk ys ⟨[], name⟩ = some apk) :
    apk = download := by
  have hnone := sampleDisk_candidate hname
  cases ys with
  | nil =>
    rw [show left sampleDisk [] ⟨[], name⟩ = none from hnone] at hleft
    cases hleft
  | cons y ys =>
    rw [sampleActs, List.cons_append, List.cons.injEq] at hsplit
    rcases hsplit with ⟨rfl, hrest⟩
    -- the other acts are the daemon's
    have hown : ∀ a ∈ ys, ∀ content, a.leaves ⟨[], name⟩ content = content := by
      intro a ha content
      have hmem : a ∈ ys ++ zs := List.mem_append_left _ ha
      rw [← hrest] at hmem
      simp only [List.mem_cons, List.not_mem_nil, or_false] at hmem
      rcases hmem with rfl | rfl | rfl | rfl | rfl | rfl <;> rfl
    unfold left at hleft
    rw [List.foldl_cons, foldl_leaves hown, hnone] at hleft
    unfold Act.leaves at hleft
    dsimp only at hleft
    split at hleft
    · exact (Option.some.inj hleft).symm
    · cases hleft

/-- The app is installed as it was downloaded, with its code patched. -/
theorem installs_verified_download : ∃ gap out digest sig,
    (sampleEnd (zipOf sampleFiles gap) out).installed = [out] ∧
    Verify.verifyV2 sampleCrypto out = some [signerBlock sampleSigner digest sig] ∧
    sampleCrate.Lists out (patchedFiles.map Packed.entry) := by
  rcases sample_installed with ⟨gap, out, hgap, hlen, hrun⟩
  have hkeys : ¬ Own sampleConfig sampleConfig.key_path ∧
      ¬ Own sampleConfig sampleConfig.cert_path := by
    constructor
    · rintro ⟨_, hno⟩
      exact absurd hno (by decide)
    · rintro ⟨_, hno⟩
      exact absurd hno (by decide)
  have hsize : out.length < 2 ^ 32 := by
    rw [hlen]
    decide
  have hload : load sampleLoader sampleConfig.key_path sampleConfig.cert_path sampleDisk =
      .ok sampleSigner := sampleDisk_load
  rcases installs_verified sampleCrate_usual hload sampleSigner_usual hkeys hrun out
    (List.mem_singleton_self out) hsize with
    ⟨ys, zs, _, name, apk, _, digest, sig, hsplit, _, _, hname, hleft, _, hverify, hlists⟩
  rw [sample_left hsplit hname hleft] at hlists
  have hentries := hlists _ (sample_lists gap hgap) (by decide) (by decide)
  rw [sampleFiles_rebuilt] at hentries
  exact ⟨gap, out, digest, sig, rfl, hverify, hentries⟩

end Aabox.Resigner.Watcher
