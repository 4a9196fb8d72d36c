import ScriptKit.Proofs.Likeness
import ScriptKit.Proofs.MapKinds

/-! Which values stand for one entry of a map. Equal values do, under any bindings. Truth values and
floating-point numbers do so only if they are equal, or if they are one not-a-number value. -/
namespace ScriptKit

theorem Table.insert_insert {κ α : Type} [Ord κ] [Std.LawfulEqOrd κ] (t : Table κ α) (key : κ)
    (a b : α) : (t.insert key a).insert key b = t.insert key b := by
  obtain ⟨entries⟩ := t
  refine congrArg Table.mk
    (?_ : insertInto key b (insertInto key a entries) = insertInto key b entries)
  induction entries with
  | nil => simp [insertInto]
  | cons x rest ih =>
    obtain ⟨k, c⟩ := x
    cases hc : compare key k with
    | lt => simp [insertInto, hc]
    | eq => simp [insertInto, hc]
    | gt => simp [insertInto, hc, ih]

/-- The two zeros fall together, and nothing else does. -/
theorem Binary64.dropZeroSign_eq_iff {x y : Binary64} :
    x.dropZeroSign = y.dropZeroSign ↔ x = y ∨ x.isZero = true ∧ y.isZero = true := by
  have hzero : zero.isZero = true := by decide
  by_cases hx : x.isZero = true <;> by_cases hy : y.isZero = true
  · simp [dropZeroSign, hx, hy]
  · have hne : x ≠ y := fun h => hy (h ▸ hx)
    have hne' : zero ≠ y := fun h => hy (h ▸ hzero)
    simp [dropZeroSign, hx, hy, hne, hne']
  · have hne : x ≠ y := fun h => hx (h ▸ hy)
    have hne' : x ≠ zero := fun h => hx (h ▸ hzero)
    simp [dropZeroSign, hx, hy, hne, hne']
  · simp [dropZeroSign, hx, hy]

namespace Value

variable {k l : Value}

theorem exists_key_of_equals (h : k.equals l = true) :
    ∃ key, k.unbind.key = .ok key ∧ l.unbind.key = .ok key := by
  rcases equals_iff.1 h with ⟨n, hk, hl⟩ | ⟨b, hk, hl⟩ | ⟨x, y, hk, hl, hxy⟩ | ⟨t, hk, hl⟩
  · exact ⟨_, by rw [hk]; rfl, by rw [hl]; rfl⟩
  · exact ⟨_, by rw [hk]; rfl, by rw [hl]; rfl⟩
  · have hdrop : x.dropZeroSign = y.dropZeroSign :=
      Binary64.dropZeroSign_eq_iff.2 (Binary64.same_iff.1 hxy).2
    exact ⟨⟨.float, x.dropZeroSign⟩, by rw [hk]; rfl, by rw [hl, hdrop]; rfl⟩
  · exact ⟨_, by rw [hk]; rfl, by rw [hl]; rfl⟩

/-- Under their bindings both are one not-a-number value, bit for bit. -/
def SameNaN (k l : Value) : Prop :=
  ∃ x : Binary64, x.isNaN = true ∧ k.unbind = float x ∧ l.unbind = float x

/-- The kinds of key in which only equal values, and not-a-number values, share an entry. -/
def exactKinds : List Kind := [.boolean, .float]

theorem exact_cases {v : Value} (h : v.kind ∈ exactKinds) :
    (∃ b, v = bool b) ∨ ∃ x, v = float x := by
  cases v <;> simp [kind, exactKinds] at h ⊢

theorem key_float_eq_iff {x y : Binary64} :
    (float x).key = (float y).key ↔ x.same y = true ∨ x.isNaN = true ∧ x = y := by
  have hzero {z : Binary64} (hz : z.isZero = true) : z.isNaN = false := by
    simp only [Binary64.isZero, decide_eq_true_eq] at hz
    simp [Binary64.isNaN, hz]
  have hkey : (float x).key = (float y).key ↔ x.dropZeroSign = y.dropZeroSign := by simp [key]
  rw [hkey, Binary64.dropZeroSign_eq_iff, Binary64.same_iff]
  constructor
  · rintro (rfl | ⟨hx, hy⟩)
    · cases hnan : x.isNaN with
      | true => exact .inr ⟨rfl, rfl⟩
      | false => exact .inl ⟨⟨rfl, rfl⟩, .inl rfl⟩
    · exact .inl ⟨⟨hzero hx, hzero hy⟩, .inr ⟨hx, hy⟩⟩
  · rintro (⟨-, h⟩ | ⟨-, rfl⟩)
    · exact h
    · exact .inl rfl

theorem key_eq_iff_of_exactKinds (hk : k.unbind.kind ∈ exactKinds)
    (hl : l.unbind.kind ∈ exactKinds) :
    k.unbind.key = l.unbind.key ↔ k.equals l = true ∨ SameNaN k l := by
  rcases exact_cases hk with ⟨a, ha⟩ | ⟨x, hx⟩ <;> rcases exact_cases hl with ⟨b, hb⟩ | ⟨y, hy⟩
  · have hnumber : Binary64.one ≠ Binary64.zero := by decide
    cases a <;> cases b <;> simp [equals, SameNaN, key, ha, hb, hnumber, hnumber.symm]
  · simp [equals, SameNaN, key, ha, hy]
  · simp [equals, SameNaN, key, hx, hb]
  · have hequals : k.equals l = x.same y := by simp [equals, hx, hy]
    have hsame : SameNaN k l ↔ x.isNaN = true ∧ x = y := by
      simp only [SameNaN, hx, hy, float.injEq]
      constructor
      · rintro ⟨z, hz, rfl, rfl⟩
        exact ⟨hz, rfl⟩
      · rintro ⟨hnan, rfl⟩
        exact ⟨x, hnan, rfl, rfl⟩
    rw [hequals, hsame, hx, hy, key_float_eq_iff]

end Value

namespace Store

variable {s t : Store} {m : MapRef} {k l v : Value} {key : MapKey}

theorem exists_insertPair (hm : s.Valid (.map m)) (hk : k.unbind.key = .ok key) (v : Value) :
    ∃ t, s.insertPair m k v = (.ok (), t) ∧ s.SetsEntry t m key (k.unbind, v.unbind) :=
  ⟨_, insertPair_of_key hk, setsEntry_link hm⟩

section Lookup

variable {p : Value × Value} {other : MapKey}

theorem SetsEntry.find_self (h : s.SetsEntry t m key p) (hl : l.unbind.key = .ok key) :
    (t.map m).get l = .ok (some p.2) ∧ (t.map m).containsKey l = .ok true := by
  rw [MapCell.get, MapCell.containsKey, hl]
  simp [Except.map, Table.contains, h.entry]

theorem SetsEntry.find_of_ne (h : s.SetsEntry t m key p) (hl : l.unbind.key = .ok other)
    (hne : other ≠ key) :
    (t.map m).get l = (s.map m).get l ∧ (t.map m).containsKey l = (s.map m).containsKey l := by
  simp only [MapCell.get, MapCell.containsKey, hl]
  simp [Except.map, Table.contains, h.otherEntries other hne]

end Lookup

theorem insertPair_link (hm : s.Valid (.map m)) (hl : l.unbind.key = .ok key) (p q w : Value) :
    (s.link m key p q).insertPair m l w = s.insertPair m l w := by
  rw [insertPair_of_key hl, insertPair_of_key hl, link, link, link, map_setMap_self hm,
    Table.insert_insert]
  simp [setMap]

/-- Equal values stand for one entry of every map: look-ups under them answer alike, an insertion
under either sets the same entry and nothing else, and one under the other takes its place. Truth
values and floating-point numbers stand for one entry only if they are equal or are one
not-a-number value; otherwise an insertion under one leaves what is found under the other. -/
theorem equal_keys_share_entry (hm : m.index < s.maps.size) (k l v w : Value) :
    (k.equals l = true →
      (s.map m).get k = (s.map m).get l ∧ (s.map m).containsKey k = (s.map m).containsKey l ∧
      ∃ key t u, s.insertPair m k v = (.ok (), t) ∧ s.insertPair m l w = (.ok (), u) ∧
        s.SetsEntry t m key (k.unbind, v.unbind) ∧ s.SetsEntry u m key (l.unbind, w.unbind) ∧
        t.insertPair m l w = (.ok (), u)) ∧
    (k.unbind.kind ∈ [.boolean, .float] → l.unbind.kind ∈ [.boolean, .float] →
      ∃ t, s.insertPair m k v = (.ok (), t) ∧
        (k.equals l = true ∨ k.SameNaN l →
          (t.map m).get l = .ok (some v.unbind) ∧ (t.map m).containsKey l = .ok true) ∧
        (¬ (k.equals l = true ∨ k.SameNaN l) →
          (t.map m).get l = (s.map m).get l ∧
          (t.map m).containsKey l = (s.map m).containsKey l)) := by
  constructor
  · intro h
    obtain ⟨key, hk, hl⟩ := Value.exists_key_of_equals h
    obtain ⟨u, hu, hsets⟩ := exists_insertPair hm hl w
    refine ⟨?_, ?_, key, _, u, insertPair_of_key hk, hu, setsEntry_link hm, hsets, ?_⟩
    · rw [MapCell.get, MapCell.get, hk, hl]
    · rw [MapCell.containsKey, MapCell.containsKey, hk, hl]
    · rw [insertPair_link hm hl, hu]
  · intro hkkind hlkind
    have hiff := Value.key_eq_iff_of_exactKinds hkkind hlkind
    have hsubset : Value.exactKinds ⊆ keyKinds := by decide
    obtain ⟨key, hk⟩ := Value.exists_key (hsubset hkkind)
    obtain ⟨other, hl⟩ := Value.exists_key (hsubset hlkind)
    rw [hk, hl, Except.ok.injEq] at hiff
    obtain ⟨t, ht, hsets⟩ := exists_insertPair hm hk v
    refine ⟨t, ht, fun hshare => ?_, fun hshare => ?_⟩
    · exact hsets.find_self (hl.trans (congrArg _ (hiff.2 hshare).symm))
    · exact hsets.find_of_ne hl fun heq => hshare (hiff.1 heq.symm)

/-- The two zeros, one of them under a binding, and two not-a-number values that differ in sign. -/
theorem equal_keys_share_entry_zeros :
    (MapRef.mk 0).index < Builtin.oneMap.maps.size ∧
    (Value.binding (.float .zero) true false).equals (.float (.ofMagnitude true 0)) = true ∧
    (∃ key t u,
      Builtin.oneMap.insertPair ⟨0⟩ (.binding (.float .zero) true false) (.int 1) = (.ok (), t) ∧
      Builtin.oneMap.insertPair ⟨0⟩ (.float (.ofMagnitude true 0)) (.int 2) = (.ok (), u) ∧
      Builtin.oneMap.SetsEntry t ⟨0⟩ key (.float .zero, .int 1) ∧
      Builtin.oneMap.SetsEntry u ⟨0⟩ key (.float (.ofMagnitude true 0), .int 2) ∧
      t.insertPair ⟨0⟩ (.float (.ofMagnitude true 0)) (.int 2) = (.ok (), u)) ∧
    ∃ t, Builtin.oneMap.insertPair ⟨0⟩ (.float (.notANumber false)) (.int 1) = (.ok (), t) ∧
      (t.map ⟨0⟩).get (.float (.notANumber true)) = .ok none := by
  have hm : (MapRef.mk 0).index < Builtin.oneMap.maps.size := by decide
  have hequal : (Value.binding (.float .zero) true false).equals (.float (.ofMagnitude true 0)) =
    true := by decide
  have hzeros := (equal_keys_share_entry hm (.binding (.float .zero) true false)
    (.float (.ofMagnitude true 0)) (.int 1) (.int 2)).1 hequal
  obtain ⟨t, ht, -, hkeeps⟩ := (equal_keys_share_entry hm (.float (.notANumber false))
    (.float (.notANumber true)) (.int 1) (.int 2)).2 (by decide) (by decide)
  refine ⟨hm, hequal, hzeros.2.2, t, ht, (hkeeps ?_).1⟩
  rintro (h | ⟨x, -, hx, hy⟩)
  · exact absurd h (by decide)
  · have hne : Value.float (.notANumber false) ≠ .float (.notANumber true) := by decide
    exact hne (hx.trans hy.symm)

end Store

end ScriptKit
