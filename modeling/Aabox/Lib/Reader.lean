import Aabox.Lib.Edits
import Aabox.Lib.Fallible

/-! Readers: from a place in a byte string to a value and the place after it. -/
namespace Aabox.Lib

variable {ε : Type} {α β : Type}

abbrev Reader (ε α : Type) := Bytes → Nat → Except ε (Nat × α)

def Reader.pure (a : α) : Reader ε α := fun _ p => .ok (p, a)

def Reader.bind (x : Reader ε α) (f : α → Reader ε β) : Reader ε β :=
  fun d p => x d p >>= fun r => f r.2 d r.1

/-- What a reader returns, it reads off the bytes it moves over, and off nothing else. -/
def Reader.Local (x : Reader ε α) : Prop :=
  ∀ d p q a, x d p = .ok (q, a) →
    p ≤ q ∧ ∀ d', (∀ i, p ≤ i → i < q → d'[i]? = d[i]?) → x d' p = .ok (q, a)

variable {x : Reader ε α} {f : α → Reader ε β} {d d' : Bytes} {p q r : Nat} {a : α} {b : β}

theorem Reader.bind_eq_ok : x.bind f d p = .ok (r, b) ↔
    ∃ q a, x d p = .ok (q, a) ∧ f a d q = .ok (r, b) := by
  constructor
  · intro h
    obtain ⟨⟨q, a⟩, hx, hf⟩ := Lib.bind_eq_ok.mp h
    exact ⟨q, a, hx, hf⟩
  · rintro ⟨q, a, hx, hf⟩
    exact Lib.bind_eq_ok.mpr ⟨(q, a), hx, hf⟩

theorem Reader.Local.pure (a : α) : (Reader.pure a : Reader ε α).Local := by
  intro d p q a' h
  cases h
  exact ⟨Nat.le_refl _, fun _ _ => rfl⟩

theorem Reader.Local.bind (hx : x.Local) (hf : ∀ a, (f a).Local) : (x.bind f).Local := by
  intro d p r b h
  obtain ⟨q, a, hxd, hfd⟩ := Reader.bind_eq_ok.mp h
  obtain ⟨hpq, hx'⟩ := hx d p q a hxd
  obtain ⟨hqr, hf'⟩ := hf a d q r b hfd
  refine ⟨Nat.le_trans hpq hqr, fun d' hd => Reader.bind_eq_ok.mpr ⟨q, a, ?_, ?_⟩⟩
  · exact hx' d' (fun i hi hiq => hd i hi (by omega))
  · exact hf' d' (fun i hi hir => hd i (by omega) hir)

/-- The reader `x`, `n` times. -/
def Reader.many (x : Reader ε α) : Nat → Reader ε (List α)
  | 0 => Reader.pure []
  | n + 1 => x.bind fun a => (x.many n).bind fun as => Reader.pure (a :: as)

theorem Reader.Local.many (hx : x.Local) (n : Nat) : (x.many n).Local := by
  induction n with
  | zero => exact .pure _
  | succ n ih => exact hx.bind fun a => ih.bind fun as => .pure _

theorem Reader.many_succ_ok {n : Nat} {as : List α} : x.many (n + 1) d p = .ok (r, as) ↔
    ∃ q a as', x d p = .ok (q, a) ∧ x.many n d q = .ok (r, as') ∧ as = a :: as' := by
  constructor
  · intro h
    obtain ⟨q, a, hx, h⟩ := Reader.bind_eq_ok.mp h
    obtain ⟨_, as', hm, h⟩ := Reader.bind_eq_ok.mp h
    cases h
    exact ⟨q, a, as', hx, hm, rfl⟩
  · rintro ⟨q, a, as', hx, hm, rfl⟩
    exact Reader.bind_eq_ok.mpr ⟨q, a, hx, Reader.bind_eq_ok.mpr ⟨r, as', hm, rfl⟩⟩

theorem Reader.many_add {m n : Nat} {as bs : List α} (ha : x.many m d p = .ok (q, as))
    (hb : x.many n d q = .ok (r, bs)) : x.many (m + n) d p = .ok (r, as ++ bs) := by
  induction m generalizing p as with
  | zero =>
    cases ha
    rw [Nat.zero_add]
    exact hb
  | succ m ih =>
    obtain ⟨p', a, as', hx, hm, rfl⟩ := Reader.many_succ_ok.mp ha
    rw [Nat.succ_add]
    exact Reader.many_succ_ok.mpr ⟨p', a, as' ++ bs, hx, ih hm, rfl⟩

end Aabox.Lib
