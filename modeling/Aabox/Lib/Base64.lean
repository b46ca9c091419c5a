import Aabox.Lib.Bytes

/-! Base64 with the standard alphabet and canonical padding. -/
namespace Aabox.Lib.Base64

/-- The character of a value of six bits. -/
def digit (v : Nat) : Char :=
  if v < 26 then Char.ofNat ('A'.toNat + v)
  else if v < 52 then Char.ofNat ('a'.toNat + (v - 26))
  else if v < 62 then Char.ofNat ('0'.toNat + (v - 52))
  else if v = 62 then '+' else '/'

/-- Three bytes make four digits; what is left over is padded to four characters. -/
def encode : Bytes → List Char
  | [] => []
  | [a] => [digit (a.toNat / 4), digit (a.toNat % 4 * 16), '=', '=']
  | [a, b] =>
    [digit (a.toNat / 4), digit (a.toNat % 4 * 16 + b.toNat / 16), digit (b.toNat % 16 * 4), '=']
  | a :: b :: c :: bs =>
    digit (a.toNat / 4) :: digit (a.toNat % 4 * 16 + b.toNat / 16) ::
      digit (b.toNat % 16 * 4 + c.toNat / 64) :: digit (c.toNat % 64) :: encode bs

example : encode [0x4d, 0x61, 0x6e] = ['T', 'W', 'F', 'u'] := by decide

theorem encode_ne_nil {bs : Bytes} (h : bs ≠ []) : encode bs ≠ [] := by
  match bs with
  | [] => exact (h rfl).elim
  | [a] => simp [encode]
  | [a, b] => simp [encode]
  | a :: b :: c :: bs => simp [encode]

/-- A property of the digits and of the padding is one of every encoding. -/
theorem forall_mem_encode {P : Char → Prop} (hd : ∀ v < 64, P (digit v)) (hp : P '=')
    (bs : Bytes) : ∀ c ∈ encode bs, P c := by
  fun_induction encode bs with
  | case1 => simp
  | case2 a =>
    have ha := a.toNat_lt
    simp only [List.forall_mem_cons, List.not_mem_nil, false_implies, implies_true, and_true]
    exact ⟨hd _ (by omega), hd _ (by omega), hp, hp⟩
  | case3 a b =>
    have ha := a.toNat_lt
    have hb := b.toNat_lt
    simp only [List.forall_mem_cons, List.not_mem_nil, false_implies, implies_true, and_true]
    exact ⟨hd _ (by omega), hd _ (by omega), hd _ (by omega), hp⟩
  | case4 a b c bs ih =>
    have ha := a.toNat_lt
    have hb := b.toNat_lt
    have hc := c.toNat_lt
    simp only [List.forall_mem_cons]
    exact ⟨hd _ (by omega), hd _ (by omega), hd _ (by omega), hd _ (by omega), ih⟩

end Aabox.Lib.Base64
