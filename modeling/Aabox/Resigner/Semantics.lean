import Aabox.Lib.Run
import Aabox.Resigner.Complete

/-!
What a patched file does when it runs: on a device of any SDK level, what the original does on one
of level 35.
-/
namespace Aabox.Resigner.Dex
open Aabox.Lib

/-- What instructions read of their file besides themselves. -/
structure View where
  /-- The byte at a place outside of the code and the checksums. -/
  pool : Nat → UInt8 → Prop
  /-- The switch or array table at a place. -/
  table : Nat → Bytes → Prop

def view (dex : Bytes) (h : DexHeader) : View where
  pool p b := ¬ Writable dex h p ∧ dex[p]? = some b
  table p bs := ∃ n, InsnAt dex h p n ∧ dex.getD p 0 = 0 ∧ bs = slice dex p n

/-- A virtual machine, up to its instructions that put an `int` into a register. -/
structure Runtime (σ α : Type*) where
  /-- Where in the file the next instruction stands. -/
  pc : σ → Nat
  /-- A value into register `vAA`, and on to the instruction four bytes further. -/
  load : σ → UInt8 → Int → σ
  /-- All other instructions: calls, branches, other fields, the heap, what is observed. -/
  other : View → Bytes → σ → α → σ → Prop

/-- The signed literal `BBBB` of `const/16 vAA, #+BBBB`. -/
def literal (insn : Bytes) : Int := (BitVec.ofNat 16 (leValue (slice insn 2 2))).toInt

/-- The file runs on a device whose `SDK_INT` is `sdk`. No rule reads an `int` by an instruction
for references or for another width. -/
inductive Exec {σ α : Type*} (R : Runtime σ α) (sdk : Int) (dex : Bytes) (h : DexHeader) :
    σ → Option α → σ → Prop
  | sget {s n} : InsnAt dex h (R.pc s) n → ReadsSdkInt dex h (R.pc s) →
      dex.getD (R.pc s) 0 = 0x60 →
      Exec R sdk dex h s none (R.load s (dex.getD (R.pc s + 1) 0) sdk)
  | const16 {s n} : InsnAt dex h (R.pc s) n → dex.getD (R.pc s) 0 = 0x13 →
      Exec R sdk dex h s none
        (R.load s (dex.getD (R.pc s + 1) 0) (literal (slice dex (R.pc s) n)))
  | other {s n a t} : InsnAt dex h (R.pc s) n → ¬ ReadsSdkInt dex h (R.pc s) →
      dex.getD (R.pc s) 0 ≠ 0x13 → R.other (view dex h) (slice dex (R.pc s) n) s a t →
      Exec R sdk dex h s (some a) t

/-- `SDK_INT` is read as the `int` it is. -/
def PlainReads (dex : Bytes) (h : DexHeader) : Prop :=
  ∀ p n, InsnAt dex h p n → ReadsSdkInt dex h p → dex.getD p 0 = 0x60

variable {σ α : Type*} {R : Runtime σ α} {sdk : Int} {sha1 : Sha1} {dex dex' : Bytes}
  {h : DexHeader} {res : DexPatchResult} {field p n : Nat} {ws : List Nat} {s t : σ}
  {a : Option α} {xs : List (Option α)}

theorem InsnAt.two_le (hi : InsnAt dex h p n) : 2 ≤ n := by
  rcases hi with ⟨r, _, i, rfl, hi⟩
  exact two_le_insnBytes hi.2.1

theorem getD_of_slice (hn : 2 ≤ n) (heq : slice dex' p n = slice dex p n) :
    dex'.getD p 0 = dex.getD p 0 ∧ dex'.getD (p + 1) 0 = dex.getD (p + 1) 0 := by
  have hat : ∀ k < n, dex'.getD (p + k) 0 = dex.getD (p + k) 0 := by
    intro k hk
    rw [← getD_slice hk, ← getD_slice hk, heq]
  exact ⟨hat 0 (by omega), hat 1 (by omega)⟩

theorem ReadsSdkInt.opcode (hs : ReadsSdkInt dex h p) :
    dex.getD p 0 ≠ 0x13 ∧ dex.getD p 0 ≠ 0 := by
  rcases hs with ⟨hlo, _, _⟩
  constructor
  · intro he
    rw [he] at hlo
    exact absurd hlo (by decide)
  · intro he
    rw [he] at hlo
    exact absurd hlo (by decide)

section
variable (wf : WellFormed dex h) (o : Outcome sha1 dex h res dex' field ws)
include wf o

/-- The bytes of a read, taken apart. -/
theorem Outcome.loads (hi : InsnAt dex h p n) (hs : ReadsSdkInt dex h p) :
    dex'.getD p 0 = 0x13 ∧ dex'.getD (p + 1) 0 = dex.getD (p + 1) 0 ∧
      literal (slice dex' p n) = CLAMPED_SDK_INT := by
  have hturned := o.turned wf hi hs
  have hn := hi.two_le
  have hat : ∀ k < n,
      dex'.getD (p + k) 0 = ([0x13, dex.getD (p + 1) 0, 35, 0] : Bytes).getD k 0 := by
    intro k hk
    rw [← getD_slice hk, hturned]
  refine ⟨hat 0 (by omega), hat 1 (by omega), ?_⟩
  rw [hturned]
  rfl

theorem Outcome.view_eq : view dex' h = view dex h := by
  have hwritable : ∀ p, Writable dex' h p ↔ Writable dex h p := by
    intro p
    rw [Writable, Writable, wf.codeRanges_eq o.same]
  have hpool : (view dex' h).pool = (view dex h).pool := by
    funext p b
    apply propext
    show ¬ Writable dex' h p ∧ _ ↔ ¬ Writable dex h p ∧ _
    rw [hwritable p]
    apply and_congr_right
    intro hp
    rw [o.same.get p hp]
  have htable : (view dex' h).table = (view dex h).table := by
    funext p bs
    apply propext
    apply exists_congr
    intro n
    rw [o.insnAt_iff wf]
    apply and_congr_right
    intro hi
    by_cases hs : ReadsSdkInt dex h p
    · have hturned := (o.loads wf hi hs).1
      have hop := hs.opcode.2
      rw [hturned]
      constructor
      · rintro ⟨h0, _⟩
        exact absurd h0 (by decide)
      · rintro ⟨h0, _⟩
        exact (hop h0).elim
    · have hsame := o.others wf hi hs
      rw [(getD_of_slice hi.two_le hsame).1, hsame]
  unfold view at hpool htable ⊢
  rw [View.mk.injEq]
  exact ⟨hpool, htable⟩

/-- A step of the patched file is one of the original at level 35. -/
theorem Outcome.step_back (hplain : PlainReads dex h) (hstep : Exec R sdk dex' h s a t) :
    Exec R CLAMPED_SDK_INT dex h s a t := by
  cases hstep with
  | sget hi hs => exact (o.complete wf hi hs).elim
  | const16 hi hop =>
    rw [o.insnAt_iff wf] at hi
    by_cases hs : ReadsSdkInt dex h (R.pc s)
    · rcases o.loads wf hi hs with ⟨_, hreg, hlit⟩
      rw [hreg, hlit]
      exact .sget hi hs (hplain _ _ hi hs)
    · have hsame := o.others wf hi hs
      rcases getD_of_slice hi.two_le hsame with ⟨hop', hreg⟩
      rw [hreg, hsame]
      exact .const16 hi (hop'.symm.trans hop)
  | other hi hs hop hother =>
    rw [o.insnAt_iff wf] at hi
    by_cases hs' : ReadsSdkInt dex h (R.pc s)
    · exact (hop (o.loads wf hi hs').1).elim
    · have hsame := o.others wf hi hs'
      rw [o.view_eq wf, hsame] at hother
      rw [(getD_of_slice hi.two_le hsame).1] at hop
      exact .other hi hs' hop hother

/-- And the other way round. -/
theorem Outcome.step_forth (hstep : Exec R CLAMPED_SDK_INT dex h s a t) :
    Exec R sdk dex' h s a t := by
  cases hstep with
  | sget hi hs _ =>
    rcases o.loads wf hi hs with ⟨hop, hreg, hlit⟩
    rw [← hreg, ← hlit]
    exact .const16 ((o.insnAt_iff wf).mpr hi) hop
  | const16 hi hop =>
    have hs : ¬ ReadsSdkInt dex h (R.pc s) := fun hs => hs.opcode.1 hop
    have hsame := o.others wf hi hs
    rcases getD_of_slice hi.two_le hsame with ⟨hop', hreg⟩
    rw [← hreg, ← hsame]
    exact .const16 ((o.insnAt_iff wf).mpr hi) (hop'.trans hop)
  | other hi hs hop hother =>
    have hsame := o.others wf hi hs
    have hi' := (o.insnAt_iff wf).mpr hi
    rw [← o.view_eq wf, ← hsame] at hother
    rw [← (getD_of_slice hi.two_le hsame).1] at hop
    exact .other hi' (o.complete wf hi') hop hother

end

/-- A machine that stays where it is: it can take a step at a `const/16`, and where it reads. -/
def standing (p : Nat) : Runtime Unit Unit where
  pc _ := p
  load _ _ _ := ()
  other _ _ _ _ _ := False

/-- Whatever the machine around it, a patched file runs on a device of any level just as the original
does on one of level 35; so it is exactly if the file reads the level as an `int`. -/
theorem patchDex_means (wf : WellFormed dex h) (hok : patchDex sha1 dex = (.ok res, dex')) :
    (∀ (σ α : Type) (R : Runtime σ α) (sdk : Int) (s : σ) (xs : List (Option α)) (t : σ),
      Run (Exec R sdk dex' h) s xs t ↔ Run (Exec R CLAMPED_SDK_INT dex h) s xs t) ↔
      PlainReads dex h := by
  rcases wf.outcome hok with ⟨field, ws, o⟩
  constructor
  · intro hsame p n hi hs
    -- the machine stands at the read, which is a `const/16` of the patched file
    have hstep : Exec (standing p) 0 dex' h () none () :=
      .const16 (R := standing p) ((o.insnAt_iff wf).mpr hi) (o.loads wf hi hs).1
    have hrun := (hsame Unit Unit (standing p) 0 () [none] ()).mp (.stepL hstep .refl)
    cases hrun with
    | stepL hfirst _ =>
      cases hfirst with
      | sget _ _ hop => exact hop
      | const16 _ hop => exact (hs.opcode.1 hop).elim
  · intro hplain σ α R sdk s xs t
    constructor
    · exact Run.mono fun s a t => o.step_back wf hplain
    · exact Run.mono fun s a t => o.step_forth wf

theorem sampleDex_plain : PlainReads sampleDex sampleHeader := by
  rintro p n ⟨r, hr, i, rfl, hi⟩ ⟨hlo, hhi, _⟩
  have hranges : ∀ r ∈ codeRanges sampleDex sampleHeader, r = (188, 6) := by decide +kernel
  have hfit := hi.2.2
  have h2 := two_le_insnBytes hi.2.1
  rw [hranges r hr, length_slice (by decide +kernel)] at hfit
  rw [hranges r hr] at hlo hhi ⊢
  have hbytes : ∀ k < 6, 0x60 ≤ sampleDex.getD (188 + k) 0 → sampleDex.getD (188 + k) 0 ≤ 0x66 →
      sampleDex.getD (188 + k) 0 = 0x60 := by decide +kernel
  exact hbytes i (by omega) hlo hhi

theorem patchDex_means_sampleDex : PlainReads sampleDex sampleHeader ∧
    (∀ (σ α : Type) (R : Runtime σ α) (sdk : Int) (s : σ) (xs : List (Option α)) (t : σ),
      Run (Exec R sdk (patchDex zeroSha1 sampleDex).2 sampleHeader) s xs t ↔
        Run (Exec R CLAMPED_SDK_INT sampleDex sampleHeader) s xs t) := by
  have hrun : patchDex zeroSha1 sampleDex = (.ok ⟨1, 4⟩, (patchDex zeroSha1 sampleDex).2) := by
    rw [← sampleDex_patched]
  exact ⟨sampleDex_plain, (patchDex_means sampleDex_wellFormed hrun).mpr sampleDex_plain⟩

end Aabox.Resigner.Dex
