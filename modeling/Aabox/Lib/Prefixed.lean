import Aabox.Lib.Bytes

/-! Little-endian length prefixes: what was written with them is read back, item by item. -/
namespace Aabox.Lib

variable {w n fuel : Nat} {bs x rest : Bytes} {xs : List Bytes}

def prefixed (w : Nat) (bs : Bytes) : Bytes := leBytes w bs.length ++ bs

/-- A number of `w` bytes, and what comes after it. -/
def takeInt (w : Nat) (bs : Bytes) : Option (Nat × Bytes) :=
  if bs.length < w then none else some (leValue (bs.take w), bs.drop w)

def takePrefixed (w : Nat) (bs : Bytes) : Option (Bytes × Bytes) :=
  (takeInt w bs).bind fun r =>
    if r.2.length < r.1 then none else some (r.2.take r.1, r.2.drop r.1)

/-- Items up to the end of the bytes; `fuel` bounds their number. -/
def takeItems (w : Nat) : Nat → Bytes → Option (List Bytes)
  | _, [] => some []
  | 0, _ :: _ => none
  | fuel + 1, b :: bs =>
    (takePrefixed w (b :: bs)).bind fun r => (takeItems w fuel r.2).map (r.1 :: ·)

def items (w : Nat) (bs : Bytes) : Option (List Bytes) := takeItems w bs.length bs

@[simp] theorem length_prefixed (w : Nat) (bs : Bytes) : (prefixed w bs).length = w + bs.length := by
  simp [prefixed]

theorem takeInt_leBytes (h : n < 256 ^ w) (rest : Bytes) :
    takeInt w (leBytes w n ++ rest) = some (n, rest) := by
  rw [takeInt, if_neg (by simp), List.take_left' (length_leBytes w n),
    List.drop_left' (length_leBytes w n), leValue_leBytes_of_lt h]

theorem takePrefixed_prefixed (h : x.length < 256 ^ w) (rest : Bytes) :
    takePrefixed w (prefixed w x ++ rest) = some (x, rest) := by
  rw [takePrefixed, prefixed, List.append_assoc, takeInt_leBytes h]
  simp

theorem takeItems_flatMap (hw : 0 < w) (hx : ∀ x ∈ xs, x.length < 256 ^ w)
    (hfuel : (xs.flatMap (prefixed w)).length ≤ fuel) :
    takeItems w fuel (xs.flatMap (prefixed w)) = some xs := by
  induction xs generalizing fuel with
  | nil => cases fuel <;> rfl
  | cons x xs ih =>
    rw [List.flatMap_cons, List.length_append, length_prefixed] at hfuel
    obtain _ | fuel := fuel
    · omega
    have hne : prefixed w x ++ xs.flatMap (prefixed w) ≠ [] := by
      intro hnil
      have := congrArg List.length hnil
      simp at this
      omega
    obtain ⟨b, bs, hcons⟩ := List.exists_cons_of_ne_nil hne
    rw [List.flatMap_cons, hcons, takeItems, ← hcons,
      takePrefixed_prefixed (hx x (List.mem_cons_self ..))]
    have htail : takeItems w fuel (xs.flatMap (prefixed w)) = some xs :=
      ih (fun y hy => hx y (List.mem_cons_of_mem _ hy)) (by omega)
    rw [Option.bind_some, htail, Option.map_some]

/-- A sequence of prefixed items reads back as the items. -/
theorem items_flatMap (hw : 0 < w) (hx : ∀ x ∈ xs, x.length < 256 ^ w) :
    items w (xs.flatMap (prefixed w)) = some xs :=
  takeItems_flatMap hw hx (Nat.le_refl _)

theorem items_singleton (hw : 0 < w) (hx : x.length < 256 ^ w) :
    items w (prefixed w x) = some [x] := by
  have hall : ∀ y ∈ [x], y.length < 256 ^ w := by simpa using hx
  have h := items_flatMap hw hall
  rwa [List.flatMap_singleton] at h

end Aabox.Lib
