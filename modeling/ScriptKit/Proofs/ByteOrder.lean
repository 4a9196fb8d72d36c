import Mathlib.Data.List.Basic

/-! Texts stand in the order of their bytes: comparing characters one by one and comparing the bytes
of their UTF-8 form gives one answer. -/
namespace ScriptKit.Text

def bytes (s : String) : List UInt8 := s.toUTF8.data.toList

theorem bytes_eq_flatMap (s : String) : bytes s = s.toList.flatMap String.utf8EncodeChar := by
  rw [bytes, String.toUTF8_eq_toByteArray, ← String.utf8Encode_toList]
  exact List.toList_data_toByteArray

/-- The first list differs from the second first at a smaller byte. -/
inductive DiffersBelow : List UInt8 → List UInt8 → Prop
  | here {x y : UInt8} {xs ys : List UInt8} (h : x < y) : DiffersBelow (x :: xs) (y :: ys)
  | later {x : UInt8} {xs ys : List UInt8} (h : DiffersBelow xs ys) :
      DiffersBelow (x :: xs) (x :: ys)

theorem DiffersBelow.append_lt {xs ys : List UInt8} (h : DiffersBelow xs ys)
    (xs' ys' : List UInt8) : xs ++ xs' < ys ++ ys' := by
  induction h with
  | here h => exact List.Lex.rel h
  | later _ ih => exact List.Lex.cons ih

def trailCount (v : Nat) : Nat :=
  if v ≤ 0x7f then 0 else if v ≤ 0x7ff then 1 else if v ≤ 0xffff then 2 else 3

/-- The bits of a first byte that tell how many bytes follow. -/
def leadMark : Nat → Nat
  | 0 => 0
  | 1 => 0xc0
  | 2 => 0xe0
  | _ => 0xf0

/-- The first byte: its mark, and the bits that do not fit into the bytes that follow. -/
def lead (v : Nat) : Nat := v >>> (6 * trailCount v) + leadMark (trailCount v)

def trail : Nat → Nat → List UInt8
  | 0, _ => []
  | k + 1, v => UInt8.ofNat (v >>> (6 * k) % 64 + 0x80) :: trail k v

theorem val_lt (c : Char) : c.val.toNat < 0x110000 := by
  rcases c.valid with h | ⟨-, h⟩
  · exact Nat.lt_trans h (by decide)
  · exact h

theorem utf8EncodeChar_eq (c : Char) :
    String.utf8EncodeChar c =
      UInt8.ofNat (lead c.val.toNat) :: trail (trailCount c.val.toNat) c.val.toNat := by
  have hc := val_lt c
  simp only [String.utf8EncodeChar, lead, trailCount]
  generalize c.val.toNat = v at hc ⊢
  split_ifs
  · rfl
  · have hlead : v / 64 % 0x20 = v >>> 6 := by omega
    simp only [trail, hlead]
    rfl
  · have hlead : v / 4096 % 0x10 = v >>> 12 := by omega
    have hmid : v / 64 = v >>> 6 := by omega
    simp only [trail, hlead, hmid]
    rfl
  · have hlead : v / 262144 % 0x08 = v >>> 18 := by omega
    have hhigh : v / 4096 = v >>> 12 := by omega
    have hmid : v / 64 = v >>> 6 := by omega
    simp only [trail, hlead, hhigh, hmid]
    rfl

theorem lead_lt {v : Nat} (h : v < 0x110000) : lead v < 256 := by
  unfold lead trailCount
  split_ifs <;> simp only [leadMark] <;> omega

/-- A greater code point has a greater first byte, unless both have the same and as many bytes. -/
theorem lead_lt_or_eq {v w : Nat} (h : v < w) :
    lead v < lead w ∨ (trailCount v = trailCount w ∧ lead v = lead w) := by
  unfold lead trailCount
  split_ifs <;> simp only [leadMark, true_and] <;> omega

theorem ofNat_lt_ofNat {m n : Nat} (h : m < n) (hn : n < 256) :
    UInt8.ofNat m < UInt8.ofNat n := by
  rw [UInt8.lt_iff_toNat_lt, UInt8.toNat_ofNat', UInt8.toNat_ofNat']
  omega

theorem differsBelow_trail {k v w : Nat} (h : v < w) (hq : v >>> (6 * k) = w >>> (6 * k)) :
    DiffersBelow (trail k v) (trail k w) := by
  induction k with
  | zero => exact absurd hq (Nat.ne_of_lt h)
  | succ k ih =>
    by_cases hk : v >>> (6 * k) = w >>> (6 * k)
    · rw [trail, trail, hk]
      exact .later (ih hk)
    · have hle : v >>> (6 * k) ≤ w >>> (6 * k) := by
        rw [Nat.shiftRight_eq_div_pow, Nat.shiftRight_eq_div_pow]
        exact Nat.div_le_div_right (Nat.le_of_lt h)
      rw [Nat.mul_succ, Nat.shiftRight_add, Nat.shiftRight_add] at hq
      exact .here (ofNat_lt_ofNat (by omega) (by omega))

theorem differsBelow_utf8EncodeChar {c d : Char} (h : c < d) :
    DiffersBelow (String.utf8EncodeChar c) (String.utf8EncodeChar d) := by
  have hlt : c.val.toNat < d.val.toNat := h
  rw [utf8EncodeChar_eq, utf8EncodeChar_eq]
  rcases lead_lt_or_eq hlt with hless | ⟨hcount, hsame⟩
  · exact .here (ofNat_lt_ofNat hless (lead_lt (val_lt d)))
  · have hhigh := hsame
    rw [lead, lead, hcount] at hhigh
    rw [hsame, hcount]
    exact .later (differsBelow_trail hlt (Nat.add_right_cancel hhigh))

theorem bytes_lt_bytes {s t : String} (h : s < t) : bytes s < bytes t := by
  have hlist : s.toList < t.toList := h
  rw [bytes_eq_flatMap, bytes_eq_flatMap]
  generalize s.toList = cs at hlist
  generalize t.toList = ds at hlist
  induction hlist with
  | @nil d ds =>
    obtain ⟨b, bs, hb⟩ := List.exists_cons_of_ne_nil (String.utf8EncodeChar_ne_nil (c := d))
    rw [List.flatMap_nil, List.flatMap_cons, hb]
    exact List.Lex.nil
  | rel hcd => exact (differsBelow_utf8EncodeChar hcd).append_lt _ _
  | cons _ ih =>
    rw [List.flatMap_cons, List.flatMap_cons]
    exact List.append_left_lt ih

end ScriptKit.Text
