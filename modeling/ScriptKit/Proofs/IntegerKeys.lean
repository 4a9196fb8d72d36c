import ScriptKit.Proofs.EqualKeys
import ScriptKit.Proofs.NearestNumber

/-! Integers as keys of a map. An integer is kept under the number nearest to it, so two integers
share an entry exactly if one number is nearest to both. The keys of a map of integers are listed in
numeric order, for rounding never turns two integers round. -/
namespace ScriptKit

open Binary64

/-- One number is nearest to both integers. -/
def RoundAlike (m n : Int) : Prop := ∃ x : Binary64, IsNearest m x ∧ IsNearest n x

theorem isWord_toInt (n : Int64) : IsWord n.toInt := by
  have hlow := n.le_toInt
  have hhigh := n.toInt_lt
  rw [IsWord]
  omega

namespace MapKey

def ofInteger (n : Int64) : MapKey := ⟨.integer, ofInt n.toInt⟩

theorem key_int (n : Int64) : (Value.int n).key = .ok (ofInteger n) := rfl

theorem ofInteger_eq_iff {a b : Int64} :
    ofInteger a = ofInteger b ↔ RoundAlike a.toInt b.toInt := by
  rw [RoundAlike, ← ofInt_eq_ofInt_iff (isWord_toInt a) (isWord_toInt b)]
  simp [ofInteger]

theorem compare_of_kind (kind : Kind) (x y : Binary64) :
    compare (MapKey.mk kind x) (MapKey.mk kind y) = compare x.orderKey y.orderKey := by
  have hkind : compare kind.rank kind.rank = .eq := by simp
  change (compare kind.rank kind.rank).then (compare x.orderKey y.orderKey) = _
  rw [hkind, Ordering.eq_then]

theorem compare_ofInteger_ne_gt {a b : Int64} (h : a ≤ b) :
    compare (ofInteger a) (ofInteger b) ≠ .gt := by
  rw [ofInteger, ofInteger, compare_of_kind, compare_le_iff_le]
  exact orderKey_ofInt_le (isWord_toInt a) (isWord_toInt b) (Int64.le_iff_toInt_le.1 h)

theorem compare_ofInteger_lt {a b : Int64} (ha : a.toInt.natAbs ≤ 2 ^ 53)
    (hb : b.toInt.natAbs ≤ 2 ^ 53) (h : a < b) : compare (ofInteger a) (ofInteger b) = .lt := by
  rw [ofInteger, ofInteger, compare_of_kind, compare_lt_iff_lt]
  exact orderKey_ofInt_lt ha hb (Int64.lt_iff_toInt_lt.1 h)

theorem lt_of_compare_ofInteger {a b : Int64} (h : compare (ofInteger a) (ofInteger b) = .lt) :
    a < b := by
  by_contra hle
  have hgt := Std.OrientedCmp.gt_of_lt h
  exact compare_ofInteger_ne_gt (Int64.not_lt.1 hle) hgt

end MapKey

theorem exists_ints {vs : List Value} (h : ∀ v ∈ vs, v.kind = .integer) :
    ∃ ns : List Int64, vs = ns.map Value.int := by
  induction vs with
  | nil => exact ⟨[], rfl⟩
  | cons v vs ih =>
    obtain ⟨hv, hvs⟩ := List.forall_mem_cons.1 h
    obtain ⟨ns, rfl⟩ := ih hvs
    cases v <;> cases hv
    exact ⟨_ :: ns, rfl⟩

namespace Store

variable {s : Store} {m : MapRef}

/-- An integer put into a map leaves what is found under another one, unless one number is nearest
to both; then both stand for one entry. Integers below `2 ^ 53` in size share their entry with no
other, nor do the integers from `-2 ^ 53` to `2 ^ 53` among themselves. -/
theorem insert_int_keeps_others (hm : m.index < s.maps.size) (a b : Int64) (v : Value) :
    ∃ t, s.insertPair m (.int a) v = (.ok (), t) ∧
      (¬ RoundAlike a.toInt b.toInt →
        (t.map m).get (.int b) = (s.map m).get (.int b) ∧
        (t.map m).containsKey (.int b) = (s.map m).containsKey (.int b)) ∧
      (RoundAlike a.toInt b.toInt →
        (t.map m).get (.int b) = .ok (some v.unbind) ∧
        (t.map m).containsKey (.int b) = .ok true) ∧
      (a ≠ b →
        a.toInt.natAbs < 2 ^ 53 ∨ b.toInt.natAbs < 2 ^ 53 ∨
          a.toInt.natAbs ≤ 2 ^ 53 ∧ b.toInt.natAbs ≤ 2 ^ 53 →
        ¬ RoundAlike a.toInt b.toInt) := by
  obtain ⟨t, ht, hsets⟩ := exists_insertPair (k := .int a) hm (MapKey.key_int a) v
  have hb := MapKey.key_int b
  refine ⟨t, ht, fun happart => ?_, fun halike => ?_, fun hne hsize halike => ?_⟩
  · exact hsets.find_of_ne hb fun heq => happart (MapKey.ofInteger_eq_iff.1 heq.symm)
  · exact hsets.find_self (hb.trans (congrArg _ (MapKey.ofInteger_eq_iff.2 halike).symm))
  · have hne : a.toInt ≠ b.toInt := fun heq => hne (Int64.toInt_inj.1 heq)
    have heq := (ofInt_eq_ofInt_iff (isWord_toInt a) (isWord_toInt b)).2 halike
    by_cases hb : b.toInt.natAbs < 2 ^ 53
    · exact ofInt_ne_ofInt (isWord_toInt a) hne.symm (.inl hb) heq.symm
    · exact ofInt_ne_ofInt (isWord_toInt b) hne (by omega) heq

theorem insert_int_keeps_others_beyond :
    (MapRef.mk 0).index < Builtin.oneMap.maps.size ∧
    ¬ RoundAlike (9007199254740991 : Int64).toInt (9007199254740993 : Int64).toInt ∧
    ∃ t, Builtin.oneMap.insertPair ⟨0⟩ (.int 9007199254740991) (.int 1) = (.ok (), t) ∧
      (t.map ⟨0⟩).get (.int 9007199254740993) = .ok none ∧
      (t.map ⟨0⟩).containsKey (.int 9007199254740993) = .ok false := by
  have hm : (MapRef.mk 0).index < Builtin.oneMap.maps.size := by decide
  obtain ⟨t, ht, hkeeps, -, happart⟩ :=
    insert_int_keeps_others hm 9007199254740991 9007199254740993 (.int 1)
  have hnot := happart (by decide) (.inl (by decide))
  exact ⟨hm, hnot, t, ht, hkeeps hnot⟩

/-- The integer `2 ^ 53 + 1` put into a map takes the place of `2 ^ 53`. -/
theorem insert_int_takes_place :
    ∃ s t, Builtin.oneMap.insertPair ⟨0⟩ (.int 9007199254740992) (.int 1) = (.ok (), s) ∧
      s.insertPair ⟨0⟩ (.int 9007199254740993) (.int 2) = (.ok (), t) ∧
      (9007199254740993 : Int64) ≠ 9007199254740992 ∧
      (s.map ⟨0⟩).get (.int 9007199254740992) = .ok (some (.int 1)) ∧
      (t.map ⟨0⟩).get (.int 9007199254740992) = .ok (some (.int 2)) := by
  refine ⟨_, _, rfl, rfl, by decide, ?_, ?_⟩
  · decide +kernel
  · decide +kernel

/-- The keys of a map of integers are listed in numeric order. For an integer is kept under the
number nearest to it, the order of keys never turns two integers round, and it is strict on the
integers from `-2 ^ 53` to `2 ^ 53`. -/
theorem givenKeys_ascend (hm : m.index < s.maps.size) (hempty : s.map m = .empty)
    (calls : List (Value × Value))
    (hkeys : ∀ key ∈ ((s.insertAll m calls).map m).givenKeys, key.kind = .integer) :
    (∃ ns : List Int64,
      ((s.insertAll m calls).map m).givenKeys = ns.map Value.int ∧ ns.Pairwise (· < ·)) ∧
    ∀ a b : Int64, ∃ k l : MapKey, (Value.int a).key = .ok k ∧ (Value.int b).key = .ok l ∧
      (IsNearest a.toInt k.number ∧ IsNearest b.toInt l.number) ∧
      (a ≤ b → compare k l ≠ .gt) ∧
      (a.toInt.natAbs ≤ 2 ^ 53 → b.toInt.natAbs ≤ 2 ^ 53 → a < b → compare k l = .lt) := by
  refine ⟨?_, fun a b => ⟨_, _, MapKey.key_int a, MapKey.key_int b, ⟨?_, ?_⟩,
    MapKey.compare_ofInteger_ne_gt, MapKey.compare_ofInteger_lt⟩⟩
  · obtain ⟨ns, hns⟩ := exists_ints hkeys
    refine ⟨ns, hns, ?_⟩
    have hascend : ((s.insertAll m calls).map m).givenKeys.Pairwise fun v w =>
        ∃ k l, v.key = .ok k ∧ w.key = .ok l ∧ compare k l = .lt :=
      List.pairwise_map.2 (holdsLast_insertAll hm hempty calls).2.pairwise_pairs
    rw [hns, List.pairwise_map] at hascend
    refine hascend.imp ?_
    rintro a b ⟨k, l, hk, hl, hlt⟩
    cases hk
    cases hl
    exact MapKey.lt_of_compare_ofInteger hlt
  · exact isNearest_ofInt (isWord_toInt a)
  · exact isNearest_ofInt (isWord_toInt b)

/-- Integers out of order, one of them under a binding, of which the last two share an entry. -/
def scattered : List (Value × Value) :=
  [(.int 3, .int 0), (.binding (.int (-9223372036854775808)) true false, .int 1),
    (.int (-4), .int 2),
    (.int 9007199254740992, .int 3), (.int 9007199254740993, .int 4)]

theorem givenKeys_ascend_scattered :
    (MapRef.mk 0).index < Builtin.oneMap.maps.size ∧ Builtin.oneMap.map ⟨0⟩ = .empty ∧
    ((Builtin.oneMap.insertAll ⟨0⟩ scattered).map ⟨0⟩).givenKeys =
      [-9223372036854775808, -4, 3, 9007199254740993].map Value.int ∧
    ∃ ns : List Int64, ((Builtin.oneMap.insertAll ⟨0⟩ scattered).map ⟨0⟩).givenKeys =
      ns.map Value.int ∧ ns.Pairwise (· < ·) := by
  have hm : (MapRef.mk 0).index < Builtin.oneMap.maps.size := by decide
  have hempty : Builtin.oneMap.map ⟨0⟩ = .empty := rfl
  have hgiven : ((Builtin.oneMap.insertAll ⟨0⟩ scattered).map ⟨0⟩).givenKeys =
    [-9223372036854775808, -4, 3, 9007199254740993].map Value.int := by decide +kernel
  refine ⟨hm, hempty, hgiven, (givenKeys_ascend hm hempty scattered ?_).1⟩
  rw [hgiven]
  simp [Value.kind]

end Store

end ScriptKit
