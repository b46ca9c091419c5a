import Aabox.Resigner.Complete

/-!
Instruction streams by their grammar: instructions and inline payloads, back to back, and the walk
of the rewrite loop over them.
-/
namespace Aabox.Resigner.Dex
open Aabox.Lib

/-- What stands in an instruction stream. -/
inductive Item
  | nop
  | insn (opcode : UInt8) (operands : Bytes) (hop : opcode ≠ 0)
      (hlen : operands.length + 1 = (formatOf opcode).units * 2)
  | packed_switch (first_key : UInt32) (targets : List UInt32) (hsize : targets.length < 2 ^ 16)
  | sparse_switch (entries : List (UInt32 × UInt32)) (hsize : entries.length < 2 ^ 16)
  | fill_array_data (element_width : UInt16) (size : UInt32) (data padding : Bytes)
      (hdata : data.length = size.toNat * element_width.toNat)
      -- an odd number of data bytes is filled up to a code unit
      (hpad : padding.length = data.length % 2)

def ints (vs : List UInt32) : Bytes := vs.flatMap fun v => leBytes 4 v.toNat

def Item.encode : Item → Bytes
  | .nop => [0x00, 0x00]
  | .insn opcode operands _ _ => opcode :: operands
  | .packed_switch first_key targets _ =>
    [0x00, 0x01] ++ (leBytes 2 targets.length ++ (leBytes 4 first_key.toNat ++ ints targets))
  | .sparse_switch entries _ =>
    [0x00, 0x02] ++ (leBytes 2 entries.length ++
      (ints (entries.map Prod.fst) ++ ints (entries.map Prod.snd)))
  | .fill_array_data element_width size data padding _ _ =>
    [0x00, 0x03] ++ (leBytes 2 element_width.toNat ++ (leBytes 4 size.toNat ++ (data ++ padding)))

def encode (items : List Item) : Bytes := items.flatMap Item.encode

/-- An sget-family instruction `vAA, field@BBBB` whose `BBBB` is the field. -/
def Item.ReadsField (field : Nat) : Item → Prop
  | .insn opcode operands _ _ =>
    0x60 ≤ opcode ∧ opcode ≤ 0x66 ∧ leValue (operands.drop 1) = field
  | _ => False

instance (field : Nat) : DecidablePred (Item.ReadsField field)
  | .nop => inferInstanceAs (Decidable False)
  | .insn .. => inferInstanceAs (Decidable (_ ∧ _ ∧ _))
  | .packed_switch .. => inferInstanceAs (Decidable False)
  | .sparse_switch .. => inferInstanceAs (Decidable False)
  | .fill_array_data .. => inferInstanceAs (Decidable False)

/-- `const/16 vAA, #+35`. -/
def Item.const16 (v_aa : UInt8) : Item :=
  .insn 0x13 (v_aa :: leBytes 2 CLAMPED_SDK_INT) (by decide)
    (by rw [List.length_cons, length_leBytes]; rfl)

/-- The register `vAA` of an instruction. -/
def Item.register : Item → UInt8
  | .insn _ operands _ _ => operands.headD 0
  | _ => 0

def Item.clamp (field : Nat) (item : Item) : Item :=
  if item.ReadsField field then .const16 item.register else item

variable {pre post code : Bytes} {item : Item} {items done rest : List Item} {field i : Nat}
  {out : DexPatchResult} {s : SgetLoop}

@[simp] theorem encode_nil : encode [] = [] := rfl

@[simp] theorem encode_cons (item : Item) (items : List Item) :
    encode (item :: items) = item.encode ++ encode items := rfl

@[simp] theorem encode_append (items items' : List Item) :
    encode (items ++ items') = encode items ++ encode items' := by simp [encode]

@[simp] theorem length_ints (vs : List UInt32) : (ints vs).length = vs.length * 4 := by
  induction vs with
  | nil => rfl
  | cons v vs ih =>
    rw [ints] at ih ⊢
    simp [ih]
    omega

/-! ### The length of an item -/

theorem getD_append_ge (pre code : Bytes) (i : Nat) :
    (pre ++ code).getD (pre.length + i) 0 = code.getD i 0 := by
  rw [List.getD_eq_getElem?_getD, List.getElem?_append_right (by omega),
    Nat.add_sub_cancel_left, List.getD_eq_getElem?_getD]

theorem readU16_append (pre code : Bytes) (i : Nat) :
    (readU16 (pre ++ code) (pre.length + i)).toOption = (readU16 code i).toOption := by
  rw [toOption_readU16, toOption_readU16, slice_append_ge (by omega), List.length_append,
    Nat.add_sub_cancel_left]
  by_cases h : code.length < i + 2
  · rw [if_pos h, if_pos (by omega)]
  · rw [if_neg h, if_neg (by omega)]

theorem readU32_append (pre code : Bytes) (i : Nat) :
    (readU32 (pre ++ code) (pre.length + i)).toOption = (readU32 code i).toOption := by
  rw [toOption_readU32, toOption_readU32, slice_append_ge (by omega), List.length_append,
    Nat.add_sub_cancel_left]
  by_cases h : code.length < i + 4
  · rw [if_pos h, if_pos (by omega)]
  · rw [if_neg h, if_neg (by omega)]

/-- A length is read from what follows, wherever it stands. -/
theorem insnBytes_append (pre code : Bytes) :
    insnBytes (pre ++ code) pre.length = insnBytes code 0 := by
  have h0 := getD_append_ge pre code 0
  have ht : tableUnits (pre ++ code) pre.length = tableUnits code 0 := by
    unfold tableUnits
    simp only [Nat.zero_add, getD_append_ge, readU16_append, readU32_append]
  rw [Nat.add_zero] at h0
  unfold insnBytes
  rw [h0, ht, List.length_append]
  by_cases h : code.length < 0 + 2
  · rw [if_pos h, if_pos (by omega)]
  · rw [if_neg h, if_neg (by omega)]

theorem readU16_ident {size : Nat} (hsize : size < 2 ^ 16) (ident : UInt8) (tail : Bytes) :
    (readU16 (0x00 :: ident :: (leBytes 2 size ++ tail)) 2).toOption = some size := by
  have hslice : slice (0x00 :: ident :: (leBytes 2 size ++ tail)) 2 2 = leBytes 2 size :=
    @slice_middle _ _ _ [0x00, ident] tail rfl (length_leBytes 2 size)
  rw [toOption_readU16, if_neg (by simp), hslice, leValue_leBytes_of_lt hsize]

theorem readU32_ident {size : Nat} (hsize : size < 2 ^ 32) (ident : UInt8) (width : Nat)
    (tail : Bytes) :
    (readU32 (0x00 :: ident :: (leBytes 2 width ++ (leBytes 4 size ++ tail))) 4).toOption =
      some size := by
  have hslice : slice (0x00 :: ident :: (leBytes 2 width ++ (leBytes 4 size ++ tail))) 4 4 =
      leBytes 4 size := by
    rw [← List.append_assoc]
    exact @slice_middle _ _ _ (0x00 :: ident :: leBytes 2 width) tail (by simp)
      (length_leBytes 4 size)
  rw [toOption_readU32, if_neg (by simp; omega), hslice, leValue_leBytes_of_lt hsize]

/-- The table of lengths and the three formulas agree with the grammar. -/
theorem Item.insnBytes_encode (item : Item) (post : Bytes) :
    insnBytes (item.encode ++ post) 0 = some item.encode.length := by
  cases item with
  | nop => rfl
  | insn opcode operands hop hlen =>
    have hpos := units_pos (formatOf opcode)
    have hlong : ¬ (opcode :: operands ++ post).length < 0 + 2 := by
      simp only [List.cons_append, List.length_cons, List.length_append]
      omega
    rw [Item.encode, insnBytes, if_neg hlong]
    simp [hop, hlen]
  | packed_switch first_key targets hsize =>
    simp [Item.encode, insnBytes, tableUnits, readU16_ident hsize]
    omega
  | sparse_switch entries hsize =>
    simp [Item.encode, insnBytes, tableUnits, readU16_ident hsize]
    omega
  | fill_array_data element_width size data padding hdata hpad =>
    have hw : element_width.toNat < 2 ^ 16 := element_width.toNat_lt
    have hs : size.toNat < 2 ^ 32 := size.toNat_lt
    simp [Item.encode, insnBytes, tableUnits, readU16_ident hw, readU32_ident hs, hpad, ← hdata]
    omega

theorem Item.insnBytes (pre post : Bytes) (item : Item) :
    Dex.insnBytes (pre ++ (item.encode ++ post)) pre.length = some item.encode.length := by
  rw [insnBytes_append, item.insnBytes_encode]

/-! ### One item -/

theorem isSget_append (pre code : Bytes) :
    IsSget field (pre ++ code) pre.length ↔ IsSget field code 0 := by
  have h0 := getD_append_ge pre code 0
  rw [Nat.add_zero] at h0
  unfold IsSget
  rw [h0, slice_append_ge (by omega), Nat.add_sub_cancel_left, Nat.zero_add]

theorem Item.isSget_iff (item : Item) (post : Bytes) :
    IsSget field (item.encode ++ post) 0 ↔ item.ReadsField field := by
  have hzero : ∀ tail : Bytes, ¬ IsSget field (0x00 :: tail) 0 := by
    rintro tail ⟨h, _⟩
    exact absurd h (by simp)
  cases item with
  | nop => exact iff_of_false (hzero _) id
  | packed_switch => exact iff_of_false (hzero _) id
  | sparse_switch => exact iff_of_false (hzero _) id
  | fill_array_data => exact iff_of_false (hzero _) id
  | insn opcode operands hop hlen =>
    unfold IsSget Item.ReadsField Item.encode
    simp only [List.cons_append, List.getD_cons_zero]
    apply and_congr_right
    intro hge
    apply and_congr_right
    intro hle
    have hfmt := units_eq _ hop
    rw [(units_sget _ hge hle).2, if_neg (by decide)] at hfmt
    rw [hfmt] at hlen
    have hslice : slice (opcode :: (operands ++ post)) (0 + 2) 2 = operands.drop 1 := by
      have hsplit : opcode :: (operands ++ post) =
          (opcode :: operands.take 1) ++ (operands.drop 1 ++ post) := by
        rw [List.cons_append, ← List.append_assoc, List.take_append_drop]
      rw [hsplit]
      apply slice_middle
      · simp
        omega
      · simp
        omega
    rw [hslice]

theorem Item.register_eq (h : item.ReadsField field) (post : Bytes) :
    (item.encode ++ post).getD 1 0 = item.register := by
  cases item with
  | nop => exact h.elim
  | packed_switch => exact h.elim
  | sparse_switch => exact h.elim
  | fill_array_data => exact h.elim
  | insn opcode operands hop hlen =>
    cases operands with
    | nil =>
      have := units_pos (formatOf opcode)
      simp only [List.length_nil] at hlen
      omega
    | cons v_aa operands => rfl

theorem Item.length_reads (h : item.ReadsField field) : item.encode.length = 4 := by
  have hs := (item.isSget_iff []).mpr h
  have hb := item.insnBytes_encode []
  rw [List.append_nil] at hs hb
  have hfit : 0 + 2 ≤ item.encode.length := by
    have := two_le_insnBytes hb
    omega
  rw [hs.insnBytes hfit] at hb
  exact (Option.some.inj hb).symm

theorem Item.length_clamp (field : Nat) (item : Item) :
    (item.clamp field).encode.length = item.encode.length := by
  rw [Item.clamp]
  split
  · rename_i h
    rw [item.length_reads h]
    rfl
  · rfl

@[simp] theorem length_encode_clamp (field : Nat) (items : List Item) :
    (encode (items.map (Item.clamp field))).length = (encode items).length := by
  induction items with
  | nil => rfl
  | cons item items ih =>
    simp only [List.map_cons, encode_cons, List.length_append, ih, Item.length_clamp]

/-- A turn of the loop at an item: it comes to the next one, with this one clamped. -/
theorem rewriteStep_item (field : Nat) (pre post : Bytes) (item : Item) (out : DexPatchResult) :
    rewriteStep field ⟨pre.length, pre ++ (item.encode ++ post), out⟩ =
      .inl ⟨pre.length + item.encode.length, pre ++ ((item.clamp field).encode ++ post),
        if item.ReadsField field then out.add 1 else out⟩ := by
  have hn := Item.insnBytes pre post item
  have hiff : IsSget field (pre ++ (item.encode ++ post)) pre.length ↔ item.ReadsField field :=
    (isSget_append pre _).trans (item.isSget_iff post)
  have hfit : pre.length + item.encode.length ≤ (pre ++ (item.encode ++ post)).length := by
    simp only [List.length_append]
    omega
  rcases rewriteStep_some (s := ⟨pre.length, pre ++ (item.encode ++ post), out⟩) field hn with
    ⟨hcut, _⟩ | ⟨hno, heq⟩ | ⟨h4, _, hs, heq⟩
  · exact absurd hfit (by dsimp only at hcut; omega)
  · have hreads : ¬ item.ReadsField field := fun h => hno hfit (hiff.mpr h)
    rw [heq, Item.clamp, if_neg hreads, if_neg hreads]
  · have hreads : item.ReadsField field := hiff.mp hs
    have hreg : (pre ++ (item.encode ++ post)).getD (pre.length + 1) 0 = item.register := by
      rw [getD_append_ge, item.register_eq hreads]
    have hout : splice (pre ++ (item.encode ++ post)) pre.length (const16 item.register) =
        pre ++ ((Item.const16 item.register).encode ++ post) := by
      rw [splice_append_ge (Nat.le_refl _), Nat.sub_self, splice, length_const16, ← h4,
        Nat.zero_add, List.drop_left]
      rfl
    rw [heq, Item.clamp, if_pos hreads, if_pos hreads]
    dsimp only
    rw [hreg, hout]

/-! ### The whole stream -/

theorem rewriteStep_end (field : Nat) (code : Bytes) (out : DexPatchResult) :
    rewriteStep field ⟨code.length, code, out⟩ = .inr (code, out) := by
  rw [rewriteStep, if_pos (by dsimp only; omega)]

/-- The loop after the items `done`, with `rest` ahead. -/
def walked (field : Nat) (out : DexPatchResult) (done rest : List Item) : SgetLoop :=
  ⟨(encode done).length, encode (done.map (Item.clamp field)) ++ encode rest,
    out.add (done.countP (Item.ReadsField field))⟩

theorem walked_step (field : Nat) (out : DexPatchResult) (done rest : List Item) (item : Item) :
    rewriteStep field (walked field out done (item :: rest)) =
      .inl (walked field out (done ++ [item]) rest) := by
  have hstep := rewriteStep_item field (encode (done.map (Item.clamp field))) (encode rest) item
    (out.add (done.countP (Item.ReadsField field)))
  rw [length_encode_clamp] at hstep
  rw [walked, encode_cons, hstep, walked]
  simp only [List.map_append, encode_append, List.length_append, List.countP_append]
  split
  · rename_i h
    simp [h, DexPatchResult.add]
    omega
  · rename_i h
    simp [h]

theorem walked_end (field : Nat) (out : DexPatchResult) (items : List Item) :
    rewriteStep field (walked field out items []) =
      .inr (encode (items.map (Item.clamp field)),
        out.add (items.countP (Item.ReadsField field))) := by
  have hend := rewriteStep_end field (encode (items.map (Item.clamp field)))
    (out.add (items.countP (Item.ReadsField field)))
  rw [length_encode_clamp] at hend
  rw [walked, encode_nil, List.append_nil, hend]

theorem walked_turns (field : Nat) (out : DexPatchResult) (done rest : List Item) :
    Turns (rewriteStep field) ⟨0, encode (done ++ rest), out⟩ (walked field out done rest) := by
  induction done using List.reverseRecOn generalizing rest with
  | nil => exact .refl
  | append_singleton done item ih =>
    have hprev := ih (item :: rest)
    rw [List.append_cons] at hprev
    exact hprev.tail (walked_step field out done rest item)

/-- The loop comes by the starts of the items and by no other place. -/
theorem turns_iff (field : Nat) (out : DexPatchResult) (items : List Item) (s : SgetLoop) :
    Turns (rewriteStep field) ⟨0, encode items, out⟩ s ↔
      ∃ done rest, items = done ++ rest ∧ s = walked field out done rest := by
  constructor
  · intro h
    induction h with
    | refl => exact ⟨[], items, rfl, rfl⟩
    | tail _ hstep ih =>
      obtain ⟨done, rest, rfl, rfl⟩ := ih
      cases rest with
      | nil =>
        rw [walked_end] at hstep
        cases hstep
      | cons item rest =>
        rw [walked_step] at hstep
        cases hstep
        exact ⟨done ++ [item], rest, by simp, rfl⟩
  · rintro ⟨done, rest, rfl, rfl⟩
    exact walked_turns field out done rest

theorem rewriteSget_encode (items : List Item) (field : Nat) (out : DexPatchResult) :
    rewriteSgetInInsns (encode items) field out =
      (encode (items.map (Item.clamp field)),
        out.add (items.countP (Item.ReadsField field))) := by
  have hturns := walked_turns field out items []
  rw [List.append_nil] at hturns
  obtain ⟨fuel, hfuel⟩ := loop_of_turns hturns (walked_end field out items)
  exact loop_unique (rewriteSget_loop (encode items) field out) hfuel

/-- A constant, the read of the field, and a return. -/
example : rewriteSgetInInsns [0x12, 0x10, 0x60, 0x02, 0x05, 0x00, 0x0e, 0x00] 5 .default =
    ([0x12, 0x10, 0x13, 0x02, 0x23, 0x00, 0x0e, 0x00], ⟨1, 4⟩) := by decide

theorem rewriteSget_again (code : Bytes) (field : Nat) (out out' : DexPatchResult) :
    rewriteSgetInInsns (rewriteSgetInInsns code field out).1 field out' =
      ((rewriteSgetInInsns code field out).1, out') := by
  obtain ⟨ts, _, heq⟩ := rewrite_eq code field out
  rw [heq]
  exact rewrite_of_no_target (rewritten_no_target field code) out'

/-- Over a stream of items, the loop stops at each item's start and clamps the instructions that
read the field; over any bytes at all it ends, keeps the length, and leaves itself nothing to do. -/
theorem rewriteSget_grammar (items : List Item) (code : Bytes) (field : Nat)
    (out : DexPatchResult) :
    (∀ s, Turns (rewriteStep field) ⟨0, encode items, out⟩ s ↔
      ∃ done rest, items = done ++ rest ∧ s = walked field out done rest) ∧
    rewriteSgetInInsns (encode items) field out =
      (encode (items.map (Item.clamp field)),
        out.add (items.countP (Item.ReadsField field))) ∧
    loop (rewriteStep field) (code.length + 1) ⟨0, code, out⟩ =
      some (rewriteSgetInInsns code field out) ∧
    (rewriteSgetInInsns code field out).1.length = code.length ∧
    ∀ out', rewriteSgetInInsns (rewriteSgetInInsns code field out).1 field out' =
      ((rewriteSgetInInsns code field out).1, out') := by
  obtain ⟨ts, hts⟩ := rewriteSget_spec code field out
  exact ⟨turns_iff field out items, rewriteSget_encode items field out,
    rewriteSget_loop code field out, hts.patched.length, rewriteSget_again code field out⟩

end Aabox.Resigner.Dex
