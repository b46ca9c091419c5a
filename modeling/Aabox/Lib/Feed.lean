import Mathlib.Data.List.Basic

/-! Decoding a stream that arrives in chunks: parse as long as items are complete, then wait. -/
namespace Aabox.Lib

variable {α β : Type*}

/-- A code whose decoder takes one item off the front, or leaves the input alone and waits. -/
structure PrefixCode (α β : Type*) where
  encode : β → List α
  parse : List α → Option β × List α
  Valid : β → Prop
  encode_ne_nil : ∀ b, encode b ≠ []
  parse_nil : parse [] = (none, [])
  parse_encode : ∀ b rest, Valid b → parse (encode b ++ rest) = (some b, rest)
  parse_short : ∀ b xs ys, Valid b → encode b = xs ++ ys → ys ≠ [] → parse xs = (none, xs)

/-- `parse` repeated until it waits. -/
def drain (parse : List α → Option β × List α) : Nat → List α → List β × List α
  | 0, buf => ([], buf)
  | fuel + 1, buf =>
    match parse buf with
    | (none, rest) => ([], rest)
    | (some b, rest) =>
      let more := drain parse fuel rest
      (b :: more.1, more.2)

/-- Each chunk is appended to what is left, and the items then complete are taken out. -/
def feed (parse : List α → Option β × List α) : List (List α) → List α → List β × List α
  | [], buf => ([], buf)
  | chunk :: chunks, buf =>
    let got := drain parse ((buf ++ chunk).length + 1) (buf ++ chunk)
    let more := feed parse chunks got.2
    (got.1 ++ more.1, more.2)

namespace PrefixCode

variable (C : PrefixCode α β) {buf later : List α} {b : β} {bs : List β} {fuel : Nat}

def encodeAll (bs : List β) : List α := (bs.map C.encode).flatten

/-- The buffer holds no complete item of those still to come. -/
def Waiting (buf : List α) : List β → Prop
  | [] => buf = []
  | b :: _ => buf.length < (C.encode b).length

theorem encodeAll_cons : C.encodeAll (b :: bs) = C.encode b ++ C.encodeAll bs := by simp [encodeAll]

theorem length_le_encodeAll (bs : List β) : bs.length ≤ (C.encodeAll bs).length := by
  induction bs with
  | nil => exact Nat.le_refl 0
  | cons b bs ih =>
    have hpos := List.length_pos_iff.mpr (C.encode_ne_nil b)
    rw [encodeAll_cons, List.length_append, List.length_cons]
    omega

theorem waiting_nil (bs : List β) : C.Waiting [] bs := by
  cases bs with
  | nil => rfl
  | cons b bs => exact List.length_pos_iff.mpr (C.encode_ne_nil b)

theorem drain_short (hb : C.Valid b) (h : buf ++ later = C.encodeAll (b :: bs))
    (hlt : buf.length < (C.encode b).length) : drain C.parse (fuel + 1) buf = ([], buf) := by
  have htake : C.encode b = buf ++ (C.encode b).drop buf.length := by
    rw [encodeAll_cons] at h
    have hfront := congrArg (List.take buf.length) h
    rw [List.take_left, List.take_append_of_le_length (Nat.le_of_lt hlt)] at hfront
    rw [hfront, List.length_take, Nat.min_eq_left (Nat.le_of_lt hlt), List.take_append_drop]
  have hrest : (C.encode b).drop buf.length ≠ [] := by
    intro hnil
    have := List.drop_eq_nil_iff.mp hnil
    omega
  simp [drain, C.parse_short b _ _ hb htake hrest]

theorem drain_whole (hb : C.Valid b) (rest : List α) :
    drain C.parse (fuel + 1) (C.encode b ++ rest) =
      (b :: (drain C.parse fuel rest).1, (drain C.parse fuel rest).2) := by
  simp [drain, C.parse_encode b rest hb]

/-- Draining takes out the complete items in order and then waits for the next one. -/
theorem drain_spec (hv : ∀ b ∈ bs, C.Valid b) (h : buf ++ later = C.encodeAll bs)
    (hfuel : buf.length < fuel) :
    ∃ done todo left, bs = done ++ todo ∧ drain C.parse fuel buf = (done, left) ∧
      left ++ later = C.encodeAll todo ∧ C.Waiting left todo := by
  induction bs generalizing buf fuel with
  | nil =>
    obtain ⟨fuel, rfl⟩ := Nat.exists_eq_succ_of_ne_zero (by omega : fuel ≠ 0)
    obtain ⟨rfl, rfl⟩ := List.append_eq_nil_iff.mp (h.trans rfl)
    exact ⟨[], [], [], rfl, by simp [drain, C.parse_nil], rfl, rfl⟩
  | cons b bs ih =>
    obtain ⟨fuel, rfl⟩ := Nat.exists_eq_succ_of_ne_zero (by omega : fuel ≠ 0)
    have hb := hv b (List.mem_cons_self ..)
    rcases Nat.lt_or_ge buf.length (C.encode b).length with hlt | hge
    · exact ⟨[], b :: bs, buf, rfl, C.drain_short hb h hlt, h, hlt⟩
    · obtain ⟨rest, rfl⟩ : C.encode b <+: buf := by
        rw [encodeAll_cons] at h
        exact List.prefix_of_prefix_length_le ⟨_, h.symm⟩ ⟨_, rfl⟩ hge
      have hrest : rest ++ later = C.encodeAll bs := by
        simpa [encodeAll_cons] using h
      have hpos := List.length_pos_iff.mpr (C.encode_ne_nil b)
      rw [List.length_append] at hfuel
      obtain ⟨done, todo, left, hbs, hdrain, hleft, hwait⟩ :=
        ih (fun c hc => hv c (List.mem_cons_of_mem _ hc)) hrest
          (show rest.length < fuel by omega)
      exact ⟨b :: done, todo, left, by simp [hbs], by rw [C.drain_whole hb, hdrain], hleft, hwait⟩

/-- Whatever follows them, complete items come out first. -/
theorem drain_encodeAll (hv : ∀ b ∈ bs, C.Valid b) (hfuel : bs.length ≤ fuel) (rest : List α) :
    drain C.parse fuel (C.encodeAll bs ++ rest) =
      (bs ++ (drain C.parse (fuel - bs.length) rest).1,
        (drain C.parse (fuel - bs.length) rest).2) := by
  induction bs generalizing fuel with
  | nil => rfl
  | cons b bs ih =>
    obtain ⟨fuel, rfl⟩ := Nat.exists_eq_succ_of_ne_zero (by
      simp only [List.length_cons] at hfuel
      omega : fuel ≠ 0)
    have hmore := ih (fun c hc => hv c (List.mem_cons_of_mem _ hc)) (Nat.le_of_succ_le_succ hfuel)
    rw [encodeAll_cons, List.append_assoc, C.drain_whole (hv b (List.mem_cons_self ..)), hmore]
    simp

theorem feed_from {chunks : List (List α)} (hv : ∀ b ∈ bs, C.Valid b) (hwait : C.Waiting buf bs)
    (h : buf ++ chunks.flatten = C.encodeAll bs) : feed C.parse chunks buf = (bs, []) := by
  induction chunks generalizing buf bs with
  | nil =>
    cases bs with
    | nil => simp [feed, show buf = [] from hwait]
    | cons b bs =>
      have hlen := congrArg List.length h
      have hlt : buf.length < (C.encode b).length := hwait
      simp [encodeAll_cons] at hlen
      omega
  | cons chunk chunks ih =>
    obtain ⟨done, todo, left, rfl, hdrain, hleft, hwait'⟩ :=
      C.drain_spec hv (show (buf ++ chunk) ++ chunks.flatten = C.encodeAll bs by simpa using h)
        (Nat.lt_add_one _)
    have hmore := ih (fun c hc => hv c (List.mem_append_right _ hc)) hwait' hleft
    simp only [feed, hdrain, hmore]

/-- However the encodings are cut into chunks, feeding them gives the items back in order. -/
theorem feed_encodeAll {chunks : List (List α)} (hv : ∀ b ∈ bs, C.Valid b)
    (h : chunks.flatten = C.encodeAll bs) : feed C.parse chunks [] = (bs, []) :=
  C.feed_from hv (C.waiting_nil bs) (by simpa using h)

end PrefixCode
end Aabox.Lib
