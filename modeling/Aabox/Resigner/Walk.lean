import Aabox.Lib.Fallible
import Aabox.Resigner.Rewrite

/-! What holds after a walk over the code items, whatever the bytes are. -/
namespace Aabox.Resigner.Dex
open Aabox.Lib

variable {σ τ : Type*} {f : OnInsns σ} {g : OnInsns τ} {P : Bytes → σ → τ → Prop}
  {b : Bytes × σ} {c : Bytes × τ}

/-- Two walks over the same bytes, with states that `P` relates. -/
def InStep (P : Bytes → σ → τ → Prop) (b : Bytes × σ) (c : Bytes × τ) : Prop :=
  b.1 = c.1 ∧ P b.1 b.2 c.2

/-- Closures that write the same bytes to every code item keep two walks in step. -/
def KeepStep (P : Bytes → σ → τ → Prop) (f : OnInsns σ) (g : OnInsns τ) : Prop :=
  ∀ b c code_off r, insnsRange b.1 code_off = .ok r → InStep P b c →
    InStep P (visit f r b) (visit g r c)

theorem walkMethods_inStep (h : KeepStep P f g) (n p k : Nat) (hb : InStep P b c) :
    InStep P (walkMethods f n p k b).2 (walkMethods g n p k c).2 := by
  induction n generalizing p k b c with
  | zero => exact hb
  | succ n ih =>
    rw [walkMethods, walkMethods, ← hb.1]
    rcases methodCode b.1 p with e | ⟨p', code_off⟩
    · exact hb
    · dsimp only
      split
      · exact ih p' k hb
      · cases hr : insnsRange b.1 code_off with
        | error e => exact hb
        | ok r => exact ih p' (k + 1) (h b c code_off r hr hb)

theorem walkOneClassData_inStep (h : KeepStep P f g) (off : Nat) (hb : InStep P b c) :
    InStep P (walkOneClassData f off b).2 (walkOneClassData g off c).2 := by
  unfold walkOneClassData
  rw [← hb.1]
  rcases classDataMethods b.1 off with e | ⟨p, total⟩
  · exact hb
  · exact walkMethods_inStep h total p 0 hb

theorem walkClass_inStep (h : KeepStep P f g) (hd : DexHeader) (i : Nat) (hb : InStep P b c) :
    InStep P (walkClass hd f b i) (walkClass hd g c i) := by
  unfold walkClass
  rw [← hb.1]
  rcases readU32 b.1 (u32 (hd.class_defs_off + i * 32) + 24) with e | off
  · exact hb
  · dsimp only
    split
    · exact hb
    · exact walkOneClassData_inStep h off hb

theorem walkCodeItems_inStep (h : KeepStep P f g) (hd : DexHeader) (hb : InStep P b c) :
    InStep P (walkCodeItems hd f b) (walkCodeItems hd g c) := by
  unfold walkCodeItems
  induction List.range hd.class_defs_size generalizing b c with
  | nil => exact hb
  | cons i is ih => exact ih (walkClass_inStep h hd i hb)

/-! ### The log of a walk -/

/-- The closure of `patch_dex`, which also notes each slice it is handed. -/
def loggedInsns (field_idx : Nat) : OnInsns (DexPatchResult × List (Nat × Bytes)) :=
  fun start insns s =>
    let out := rewriteInsns field_idx start insns s.1
    (out.1, out.2, s.2 ++ [(start, insns)])

/-- The code items' instructions `patch_dex` comes by, each where it is and as it is then. -/
def visits (h : DexHeader) (field_idx : Nat) (dex : Bytes) : List (Nat × Bytes) :=
  (walkCodeItems h (loggedInsns field_idx) (dex, .default, [])).2.2

/-- A place where one of the slices holds an instruction that reads the field. -/
def RewrittenAt (field_idx : Nat) (vs : List (Nat × Bytes)) (w : Nat) : Prop :=
  ∃ v ∈ vs, ∃ i, IsTarget field_idx v.2 i ∧ w = v.1 + i

/-- So far, `dex` has changed to `cur` in the windows `ws` only, one for each rewrite counted. -/
structure Edited (field_idx : Nat) (dex cur : Bytes) (r : DexPatchResult)
    (vs : List (Nat × Bytes)) (ws : List Nat) : Prop where
  bytes_rewritten : r.bytes_rewritten = 4 * r.patches
  patches : ws.length = r.patches
  rewritten : ∀ w ∈ ws, RewrittenAt field_idx vs w
  inside : ∀ v ∈ vs, v.1 + v.2.length ≤ dex.length
  same : EqOff (Windows ws) dex cur

variable {dex cur insns' : Bytes} {field_idx start len code_off : Nat} {ts ws : List Nat}
  {r : DexPatchResult} {rng : Nat × Nat} {vs : List (Nat × Bytes)}

theorem insnsRange_ok (h : insnsRange dex code_off = .ok rng) :
    ∃ size, readU32 dex (code_off + 12) = .ok size ∧ rng = (code_off + 16, size * 2) ∧
      code_off + 16 + size * 2 ≤ dex.length := by
  obtain ⟨size, hs, h⟩ := bind_eq_ok.mp h
  obtain ⟨hlen, h⟩ := throw_bind_eq_ok.mp h
  cases h
  exact ⟨size, hs, rfl, Nat.le_of_not_lt hlen⟩

/-- Rewriting a slice in place touches the windows of its targets, moved to where it is. -/
theorem Patched.splice (h : Patched (slice dex start len) ts insns') (hb : start + len ≤ dex.length) :
    EqOff (Windows (ts.map (start + ·))) dex (splice dex start insns') := by
  have hlen : insns'.length = len := by rw [h.length, length_slice hb]
  refine ⟨length_splice (by omega), ?_⟩
  intro p hp
  rw [getElem?_splice (by omega)]
  split
  · rename_i hin
    rw [h.get, getElem?_slice, if_pos (by omega)]
    · congr 1
      omega
    · rintro ⟨t, ht, hle, hlt⟩
      exact hp ⟨start + t, List.mem_map_of_mem ht, by omega, by omega⟩
  · rfl

theorem edited_visit (h : Edited field_idx dex cur r vs ws) (hb : rng.1 + rng.2 ≤ cur.length) :
    ∃ ws', Edited field_idx dex (visit (rewriteInsns field_idx) rng (cur, r)).1
      (visit (rewriteInsns field_idx) rng (cur, r)).2
      (vs ++ [(rng.1, slice cur rng.1 rng.2)]) ws' := by
  obtain ⟨ts, ht⟩ := rewriteSget_spec (slice cur rng.1 rng.2) field_idx r
  have hr : (visit (rewriteInsns field_idx) rng (cur, r)).2 = r.add ts.length := ht.out
  have hcur := ht.patched.splice hb
  refine ⟨ws ++ ts.map (rng.1 + ·), ?_, ?_, ?_, ?_, ?_⟩
  · have := h.bytes_rewritten
    simp only [hr, DexPatchResult.add]
    omega
  · simp [hr, DexPatchResult.add, h.patches]
  · intro w hw
    rcases List.mem_append.mp hw with hw | hw
    · obtain ⟨v, hv, i, hi, heq⟩ := h.rewritten w hw
      exact ⟨v, by simp [hv], i, hi, heq⟩
    · obtain ⟨t, htm, rfl⟩ := List.mem_map.mp hw
      exact ⟨(rng.1, slice cur rng.1 rng.2), by simp, t, (ht.mem t).mp htm, rfl⟩
  · intro v hv
    rcases List.mem_append.mp hv with hv | hv
    · exact h.inside v hv
    · obtain rfl : v = _ := by simpa using hv
      rw [length_slice hb, ← h.same.length]
      exact hb
  · apply EqOff.trans (h.same.mono _) (hcur.mono _)
    · rintro p ⟨w, hw, hr⟩
      exact ⟨w, by simp [hw], hr⟩
    · rintro p ⟨w, hw, hr⟩
      exact ⟨w, List.mem_append_right _ hw, hr⟩

/-- The log is of the very walk `patch_dex` makes, and accounts for all it changes. -/
theorem edited_keepStep (field_idx : Nat) (dex : Bytes) :
    KeepStep (fun cur r s => r = s.1 ∧ ∃ ws, Edited field_idx dex cur r s.2 ws)
      (rewriteInsns field_idx) (loggedInsns field_idx) := by
  rintro ⟨cur, r⟩ ⟨cur', r', vs⟩ code_off rng hrng ⟨hcur, hr, ws, hws⟩
  dsimp only at hcur hr hws hrng
  subst hcur hr
  obtain ⟨size, _, rfl, hb⟩ := insnsRange_ok hrng
  exact ⟨rfl, rfl, edited_visit hws hb⟩

theorem walkCodeItems_edited (h : DexHeader) (field_idx : Nat) (dex : Bytes) :
    ∃ ws, Edited field_idx dex (walkCodeItems h (rewriteInsns field_idx) (dex, .default)).1
      (walkCodeItems h (rewriteInsns field_idx) (dex, .default)).2 (visits h field_idx dex) ws := by
  have hinit : InStep (fun cur r s => r = s.1 ∧ ∃ ws, Edited field_idx dex cur r s.2 ws)
      (dex, DexPatchResult.default) (dex, DexPatchResult.default, []) :=
    ⟨rfl, rfl, [], rfl, rfl, by simp, by simp, .refl _ _⟩
  exact (walkCodeItems_inStep (edited_keepStep field_idx dex) h hinit).2.2

end Aabox.Resigner.Dex
