import ScriptKit.Proofs.Unfolding

/-! When values are alike. Plain values are if they are equal, arrays if their elements are one by
one, maps if they have the same keys and alike values under them; bindings do not count. A
comparison that takes any cell to be like itself finds the values that are alike in this sense, and
this likeness is symmetric and transitive. -/
namespace ScriptKit

namespace Table

variable {κ α β : Type} [Ord κ]

theorem exists_find? {t : Table κ α} {u : Table κ β} {key : κ} {a : α}
    (ha : t.find? key = some a) (h : t.contains key = u.contains key) :
    ∃ b, u.find? key = some b := by
  rw [contains, contains, ha] at h
  exact Option.isSome_iff_exists.1 h.symm

variable [Std.LawfulEqOrd κ]

theorem Sorted.nodup_keys {t : Table κ α} (h : t.Sorted) : t.keys.Nodup :=
  List.Pairwise.map _ (fun x y hlt heq => by simp [heq] at hlt) h

variable [Std.TransOrd κ]

theorem Sorted.contains_iff {t : Table κ α} (h : t.Sorted) {key : κ} :
    t.contains key = true ↔ key ∈ t.keys := by
  rw [contains, Option.isSome_iff_exists, keys, List.mem_map]
  constructor
  · rintro ⟨a, ha⟩
    exact ⟨(key, a), h.find?_eq_some_iff.1 ha, rfl⟩
  · rintro ⟨⟨_, a⟩, ha, rfl⟩
    exact ⟨a, h.find?_eq_some_iff.2 ha⟩

/-- Of two tables with equally many keys, one has no key that the other lacks if the other has none
either. -/
theorem Sorted.contains_eq {t : Table κ α} {u : Table κ β} (ht : t.Sorted) (hu : u.Sorted)
    (hsize : t.size = u.size) (h : ∀ key, t.contains key = true → u.contains key = true) (key : κ) :
    t.contains key = u.contains key := by
  have hsubset : t.keys ⊆ u.keys := fun k hk => hu.contains_iff.1 (h k (ht.contains_iff.2 hk))
  have hlength : u.keys.length ≤ t.keys.length := by
    rw [keys, keys, List.length_map, List.length_map]
    exact Nat.le_of_eq hsize.symm
  have hperm : t.keys.Perm u.keys :=
    (List.subperm_of_subset ht.nodup_keys hsubset).perm_of_length_le hlength
  rw [Bool.eq_iff_iff, ht.contains_iff, hu.contains_iff, hperm.mem_iff]

theorem Sorted.size_eq {t : Table κ α} {u : Table κ β} (ht : t.Sorted) (hu : u.Sorted)
    (h : ∀ key, t.contains key = u.contains key) : t.size = u.size := by
  have hmem : ∀ key, key ∈ t.keys ↔ key ∈ u.keys := by
    intro key
    rw [← ht.contains_iff, ← hu.contains_iff, h]
  have hperm : t.keys.Perm u.keys :=
    (List.perm_ext_iff_of_nodup ht.nodup_keys hu.nodup_keys).2 hmem
  have hlength := hperm.length_eq
  rwa [keys, keys, List.length_map, List.length_map] at hlength

end Table

namespace Binary64

variable {x y z : Binary64}

theorem same_iff :
    x.same y = true ↔
      (x.isNaN = false ∧ y.isNaN = false) ∧ (x = y ∨ x.isZero = true ∧ y.isZero = true) := by
  have hbits : x.bits = y.bits ↔ x = y := by
    cases x
    cases y
    simp
  simp [same, hbits]

theorem same_symm (h : x.same y = true) : y.same x = true := by
  rw [same_iff] at h ⊢
  exact ⟨h.1.symm, h.2.imp Eq.symm And.symm⟩

theorem same_trans (hxy : x.same y = true) (hyz : y.same z = true) : x.same z = true := by
  rw [same_iff] at hxy hyz ⊢
  refine ⟨⟨hxy.1.1, hyz.1.2⟩, ?_⟩
  rcases hxy.2 with rfl | ⟨hx, hy⟩
  · exact hyz.2
  · rcases hyz.2 with rfl | ⟨-, hz⟩
    · exact .inr ⟨hx, hy⟩
    · exact .inr ⟨hx, hz⟩

end Binary64

namespace Value

variable {u v w : Value}

theorem equals_iff :
    v.equals w = true ↔
      (∃ n, v.unbind = int n ∧ w.unbind = int n) ∨ (∃ b, v.unbind = bool b ∧ w.unbind = bool b) ∨
        (∃ x y, v.unbind = float x ∧ w.unbind = float y ∧ x.same y = true) ∨
          ∃ t, v.unbind = string t ∧ w.unbind = string t := by
  unfold equals
  split
  · next m n hv hw => simpa [hv, hw] using eq_comm
  · next a b hv hw => simpa [hv, hw] using eq_comm
  · next x y hv hw => simp [hv, hw]
  · next t u hv hw => simpa [hv, hw] using eq_comm
  · next hint hbool hfloat hstring =>
    refine iff_of_false Bool.false_ne_true ?_
    rintro (⟨n, hv, hw⟩ | ⟨b, hv, hw⟩ | ⟨x, y, hv, hw, -⟩ | ⟨t, hv, hw⟩)
    · exact hint n n hv hw
    · exact hbool b b hv hw
    · exact hfloat x y hv hw
    · exact hstring t t hv hw

theorem equals_symm (h : v.equals w = true) : w.equals v = true := by
  rw [equals_iff] at h ⊢
  rcases h with ⟨n, hv, hw⟩ | ⟨b, hv, hw⟩ | ⟨x, y, hv, hw, hxy⟩ | ⟨t, hv, hw⟩
  · exact .inl ⟨n, hw, hv⟩
  · exact .inr (.inl ⟨b, hw, hv⟩)
  · exact .inr (.inr (.inl ⟨y, x, hw, hv, Binary64.same_symm hxy⟩))
  · exact .inr (.inr (.inr ⟨t, hw, hv⟩))

theorem equals_trans (huv : u.equals v = true) (hvw : v.equals w = true) : u.equals w = true := by
  rw [equals_iff] at huv hvw ⊢
  rcases huv with ⟨n, hu, hv⟩ | ⟨b, hu, hv⟩ | ⟨x, y, hu, hv, hxy⟩ | ⟨t, hu, hv⟩ <;>
    simp only [hv, reduceCtorEq, false_and, exists_false, false_or, or_false] at hvw
  · obtain ⟨_, ⟨⟩, hw⟩ := hvw
    exact .inl ⟨n, hu, hw⟩
  · obtain ⟨_, ⟨⟩, hw⟩ := hvw
    exact .inr (.inl ⟨b, hu, hw⟩)
  · obtain ⟨_, z, ⟨⟩, hw, hyz⟩ := hvw
    exact .inr (.inr (.inl ⟨x, z, hu, hw, Binary64.same_trans hxy hyz⟩))
  · obtain ⟨_, ⟨⟩, hw⟩ := hvw
    exact .inr (.inr (.inr ⟨t, hu, hw⟩))

theorem isPlain_of_equals (h : v.equals w = true) : v.unbind.isPlain = true := by
  rcases equals_iff.1 h with ⟨n, hv, -⟩ | ⟨b, hv, -⟩ | ⟨x, y, hv, -, hxy⟩ | ⟨t, hv, -⟩
  · rw [hv]; rfl
  · rw [hv]; rfl
  · rw [hv, isPlain, (Binary64.same_iff.1 hxy).1.1]; rfl
  · rw [hv]; rfl

end Value

theorem Decides.eq_some_true_iff {answer : Option Bool} {P : Prop} (h : Decides answer P) :
    answer = some true ↔ P := by
  obtain ⟨b, rfl, hiff⟩ := h
  simpa using hiff

namespace Store

/-- Values of the same structure. Plain values are equal; arrays are equally long and alike element
by element; maps have the same keys and alike values under them; values of no other kinds are alike.
Bindings around a value do not count. With the shortcut, two references to one array or map are
alike whatever it holds. -/
inductive Alike (s : Store) (shortcut : Prop) : Value → Value → Prop
  | plain {v w : Value} (h : v.equals w = true) : Alike s shortcut v w
  | array {v w : Value} {a b : ArrayRef} (hv : v.unbind = .array a) (hw : w.unbind = .array b)
      (hlength : (s.array a).length = (s.array b).length)
      (h : ∀ (i : Nat) x y, (s.array a)[i]? = some x → (s.array b)[i]? = some y →
        Alike s shortcut x y) : Alike s shortcut v w
  | map {v w : Value} {m n : MapRef} (hv : v.unbind = .map m) (hw : w.unbind = .map n)
      (hkeys : ∀ k, (s.map m).contains k = (s.map n).contains k)
      (h : ∀ k p q, (s.map m).find? k = some p → (s.map n).find? k = some q →
        Alike s shortcut p.2 q.2) : Alike s shortcut v w
  | shared {v w : Value} (hs : shortcut) (hc : v.unbind.isContainer = true)
      (h : v.unbind = w.unbind) : Alike s shortcut v w

namespace Alike

variable {s : Store} {shortcut : Prop} {u v w : Value}

theorem congr (h : s.Alike shortcut u v) {u' v' : Value} (hu : u'.unbind = u.unbind)
    (hv : v'.unbind = v.unbind) : s.Alike shortcut u' v' := by
  cases h with
  | plain h =>
    refine .plain ?_
    rw [Value.equals_iff] at h ⊢
    rwa [hu, hv]
  | array hu' hv' hlength h => exact .array (hu.trans hu') (hv.trans hv') hlength h
  | map hu' hv' hkeys h => exact .map (hu.trans hu') (hv.trans hv') hkeys h
  | shared hs hc h => exact .shared hs (hu ▸ hc) (hu.trans (h.trans hv.symm))

theorem mono {shortcut' : Prop} (h : s.Alike shortcut v w) (himp : shortcut → shortcut') :
    s.Alike shortcut' v w := by
  induction h with
  | plain h => exact .plain h
  | array hv hw hlength _ ih => exact .array hv hw hlength ih
  | map hv hw hkeys _ ih => exact .map hv hw hkeys ih
  | shared hs hc h => exact .shared (himp hs) hc h

theorem symm (h : s.Alike shortcut v w) : s.Alike shortcut w v := by
  induction h with
  | plain h => exact .plain (Value.equals_symm h)
  | array hv hw hlength _ ih =>
    exact .array hw hv hlength.symm fun i x y hx hy => ih i y x hy hx
  | map hv hw hkeys _ ih =>
    exact .map hw hv (fun k => (hkeys k).symm) fun k p q hp hq => ih k q p hq hp
  | shared hs hc h => exact .shared hs (h ▸ hc) h.symm

/-- The values in the middle are of one kind, so the cases of both sides are the same or one of them
is a shared cell, which may be replaced by itself. -/
theorem trans (huv : s.Alike shortcut u v) (hvw : s.Alike shortcut v w) : s.Alike shortcut u w := by
  induction huv generalizing w with
  | plain h =>
    have hplain := Value.isPlain_of_equals (Value.equals_symm h)
    cases hvw with
    | plain h' => exact .plain (Value.equals_trans h h')
    | array hv => simp [hv, Value.isPlain] at hplain
    | map hv => simp [hv, Value.isPlain] at hplain
    | shared _ hc heq => exact (Alike.plain h).congr rfl heq.symm
  | @array u v a b hu hv hlength h ih =>
    cases hvw with
    | plain h' =>
      have hplain := Value.isPlain_of_equals h'
      simp [hv, Value.isPlain] at hplain
    | @array _ _ b' c hv' hw hlength' h' =>
      obtain rfl : b = b' := by simpa using hv.symm.trans hv'
      refine .array hu hw (hlength.trans hlength') fun i x z hx hz => ?_
      have hi : i < (s.array b).length := hlength' ▸ (List.getElem?_eq_some_iff.1 hz).1
      have hy := List.getElem?_eq_getElem hi
      exact ih i x _ hx hy (h' i _ z hy hz)
    | map hv' => simp [hv] at hv'
    | shared _ _ heq => exact (Alike.array hu hv hlength h).congr rfl heq.symm
  | @map u v m n hu hv hkeys h ih =>
    cases hvw with
    | plain h' =>
      have hplain := Value.isPlain_of_equals h'
      simp [hv, Value.isPlain] at hplain
    | array hv' => simp [hv] at hv'
    | @map _ _ n' o hv' hw hkeys' h' =>
      obtain rfl : n = n' := by simpa using hv.symm.trans hv'
      refine .map hu hw (fun k => (hkeys k).trans (hkeys' k)) fun k p r hp hr => ?_
      obtain ⟨q, hq⟩ := Table.exists_find? hp (hkeys k)
      exact ih k p q hp hq (h' k q r hq hr)
    | shared _ _ heq => exact (Alike.map hu hv hkeys h).congr rfl heq.symm
  | shared _ _ heq => exact hvw.congr heq rfl

theorem array_iff {a b : ArrayRef} (hv : v.unbind = .array a) (hw : w.unbind = .array b)
    (hne : a ≠ b) :
    s.Alike shortcut v w ↔
      (s.array a).length = (s.array b).length ∧
        ∀ (i : Nat) x y, (s.array a)[i]? = some x → (s.array b)[i]? = some y →
          s.Alike shortcut x y := by
  constructor
  · intro h
    cases h with
    | plain h =>
      have hplain := Value.isPlain_of_equals h
      simp [hv, Value.isPlain] at hplain
    | array hv' hw' hlength h =>
      cases hv.symm.trans hv'
      cases hw.symm.trans hw'
      exact ⟨hlength, h⟩
    | map hv' => simp [hv] at hv'
    | shared _ _ heq =>
      rw [hv, hw] at heq
      cases heq
      exact absurd rfl hne
  · rintro ⟨hlength, h⟩
    exact .array hv hw hlength h

theorem map_iff {m n : MapRef} (hv : v.unbind = .map m) (hw : w.unbind = .map n) (hne : m ≠ n) :
    s.Alike shortcut v w ↔
      (∀ k, (s.map m).contains k = (s.map n).contains k) ∧
        ∀ k p q, (s.map m).find? k = some p → (s.map n).find? k = some q →
          s.Alike shortcut p.2 q.2 := by
  constructor
  · intro h
    cases h with
    | plain h =>
      have hplain := Value.isPlain_of_equals h
      simp [hv, Value.isPlain] at hplain
    | array hv' => simp [hv] at hv'
    | map hv' hw' hkeys h =>
      cases hv.symm.trans hv'
      cases hw.symm.trans hw'
      exact ⟨hkeys, h⟩
    | shared _ _ heq =>
      rw [hv, hw] at heq
      cases heq
      exact absurd rfl hne
  · rintro ⟨hkeys, h⟩
    exact .map hv hw hkeys h

theorem equals_iff (harray : ∀ a b, v.unbind = .array a → w.unbind = .array b → False)
    (hmap : ∀ m n, v.unbind = .map m → w.unbind = .map n → False) :
    s.Alike shortcut v w ↔ v.equals w = true := by
  constructor
  · intro h
    cases h with
    | plain h => exact h
    | array hv hw => exact (harray _ _ hv hw).elim
    | map hv hw => exact (hmap _ _ hv hw).elim
    | shared _ hc heq =>
      cases hv : v.unbind with
      | array a => exact (harray a a hv (heq.symm.trans hv)).elim
      | map m => exact (hmap m m hv (heq.symm.trans hv)).elim
      | _ => simp [hv, Value.isContainer] at hc
  · exact .plain

end Alike

section Decision

variable {s : Store} {v w : Value} {element : Value → Value → Option Bool}

theorem forall_mem_zip {α β : Type} {P : α → β → Prop} {xs : List α} {ys : List β} :
    (∀ p ∈ xs.zip ys, P p.1 p.2) ↔
      ∀ (i : Nat) x y, xs[i]? = some x → ys[i]? = some y → P x y := by
  constructor
  · intro h i x y hx hy
    exact h (x, y) (List.mem_of_getElem? (List.getElem?_zip_eq_some.2 ⟨hx, hy⟩))
  · intro h p hp
    obtain ⟨i, hi⟩ := List.mem_iff_getElem?.1 hp
    obtain ⟨hx, hy⟩ := List.getElem?_zip_eq_some.1 hi
    exact h i p.1 p.2 hx hy

theorem alike_map_iff_entries {shortcut : Prop} {m n : MapRef} (hm : (s.map m).Sorted)
    (hn : (s.map n).Sorted) (hv : v.unbind = .map m) (hw : w.unbind = .map n) (hne : m ≠ n)
    (hsize : (s.map m).size = (s.map n).size) :
    s.Alike shortcut v w ↔ ∀ d ∈ (s.map m).entries,
      ∃ q, (s.map n).find? d.1 = some q ∧ s.Alike shortcut d.2.2 q.2 := by
  rw [Alike.map_iff hv hw hne]
  constructor
  · rintro ⟨hkeys, h⟩ ⟨k, p⟩ hd
    have hp := hm.find?_eq_some_iff.2 hd
    obtain ⟨q, hq⟩ := Table.exists_find? hp (hkeys k)
    exact ⟨q, hq, h k p q hp hq⟩
  · intro h
    constructor
    · refine hm.contains_eq hn hsize fun k hk => ?_
      obtain ⟨p, hp⟩ := Option.isSome_iff_exists.1 hk
      obtain ⟨q, hq, -⟩ := h (k, p) (hm.find?_eq_some_iff.1 hp)
      exact Option.isSome_iff_exists.2 ⟨q, hq⟩
    · intro k p q hp hq
      obtain ⟨q', hq', halike⟩ := h (k, p) (hm.find?_eq_some_iff.1 hp)
      cases hq.symm.trans hq'
      exact halike

theorem decides_arrays {a b : ArrayRef} (hv : v.unbind = .array a) (hw : w.unbind = .array b)
    (h : ∀ x ∈ s.array a, ∀ y, Decides (element x y) (s.Alike True x y)) :
    Decides (s.equalWith element (.array a) (.array b)) (s.Alike True v w) := by
  by_cases hab : a = b
  · have hshared : s.Alike True v w :=
      .shared trivial (by rw [hv]; rfl) (by rw [hv, hw, hab])
    exact ⟨true, if_pos hab, by simp [hshared]⟩
  rw [Alike.array_iff hv hw hab]
  by_cases hlength : (s.array a).length = (s.array b).length
  · rw [equalWith_array hab hlength]
    have hpairs : ∀ p ∈ (s.array a).zip (s.array b),
        Decides (element p.1 p.2) (s.Alike True p.1 p.2) :=
      fun p hp => h p.1 (List.of_mem_zip hp).1 p.2
    obtain ⟨answer, hanswer, hiff⟩ := Decides.allM hpairs
    rw [forall_mem_zip (P := s.Alike True)] at hiff
    exact ⟨answer, hanswer, by rw [hiff, and_iff_right hlength]⟩
  · exact ⟨false, (if_neg hab).trans (if_neg hlength), by simp [hlength]⟩

theorem decides_maps (hs : ∀ m, (s.map m).Sorted) {m n : MapRef} (hv : v.unbind = .map m)
    (hw : w.unbind = .map n)
    (h : ∀ x ∈ (s.map m).givenValues, ∀ y, Decides (element x y) (s.Alike True x y)) :
    Decides (s.equalWith element (.map m) (.map n)) (s.Alike True v w) := by
  by_cases hmn : m = n
  · have hshared : s.Alike True v w :=
      .shared trivial (by rw [hv]; rfl) (by rw [hv, hw, hmn])
    exact ⟨true, if_pos hmn, by simp [hshared]⟩
  by_cases hsize : (s.map m).size = (s.map n).size
  · rw [equalWith_map hmn hsize, alike_map_iff_entries (hs m) (hs n) hv hw hmn hsize]
    refine Decides.allM fun d hd => ?_
    have hvalue : d.2.2 ∈ (s.map m).givenValues :=
      List.mem_map.2 ⟨d.2, List.mem_map.2 ⟨d, hd, rfl⟩, rfl⟩
    cases hfind : (s.map n).find? d.1 with
    | none => exact ⟨false, rfl, by simp⟩
    | some q => simpa using h d.2.2 hvalue q.2
  · have hnot : ¬ s.Alike True v w := fun halike =>
      hsize ((hs m).size_eq (hs n) ((Alike.map_iff hv hw hmn).1 halike).1)
    exact ⟨false, (if_neg hmn).trans (if_neg hsize), iff_of_false Bool.false_ne_true hnot⟩

/-- One level of the comparison, given that of what cells hold. -/
theorem decides_equalWith (hs : ∀ m, (s.map m).Sorted)
    (h : ∀ x ∈ s.compared v.unbind, ∀ y, Decides (element x y) (s.Alike True x y)) (w : Value) :
    Decides (s.equalWith element v w) (s.Alike True v w) := by
  unfold equalWith
  split
  · next a b hv hw =>
    rw [hv] at h
    exact decides_arrays hv hw h
  · next m n hv hw =>
    rw [hv] at h
    exact decides_maps hs hv hw h
  · next harray hmap =>
    rw [Alike.equals_iff harray hmap]
    exact ⟨_, rfl, by simp [Value.equals]⟩

/-- As many levels as cells can be come to are enough. -/
theorem LoopFree.decides_equalLevels (hs : ∀ m, (s.map m).Sorted) {n : Nat} (h : s.LoopFree v)
    (hn : (s.unfolded v).ncard ≤ n) (w : Value) :
    Decides (s.equalLevels n v w) (s.Alike True v w) := by
  induction n generalizing v w with
  | zero =>
    refine decides_equalWith hs (fun x hx => ?_) w
    exact absurd (h.ncard_lt hx) (by omega)
  | succ n ih =>
    refine decides_equalWith hs (fun x hx y => ?_) w
    exact ih (h.of_mem hx) (Nat.le_of_lt_succ (Nat.lt_of_lt_of_le (h.ncard_lt hx) hn)) y

theorem LoopFree.decides_deepEquals (hs : ∀ m, (s.map m).Sorted) (h : s.LoopFree v) (w : Value) :
    Decides (s.deepEquals v w) (s.Alike True v w) :=
  h.decides_equalLevels hs (s.ncard_unfolded_le v) w

end Decision

/-- Comparing two values without loops gives an answer, and the same one in either order. A value
like a second that is like a third is like the third. This holds of stores in which the keys of each
map are in order, whatever their cells hold. -/
theorem deepEquals_symm_trans {s : Store} (hs : ∀ m, (s.map m).Sorted) {u v : Value}
    (hu : s.LoopFree u) (hv : s.LoopFree v) :
    (∃ answer, s.deepEquals u v = some answer ∧ s.deepEquals v u = some answer) ∧
      ∀ w, s.deepEquals u v = some true → s.deepEquals v w = some true →
        s.deepEquals u w = some true := by
  constructor
  · obtain ⟨answer, huv, hiff⟩ := hu.decides_deepEquals hs v
    obtain ⟨answer', hvu, hiff'⟩ := hv.decides_deepEquals hs u
    have hsame : answer' = answer := by
      rw [Bool.eq_iff_iff, hiff, hiff']
      exact ⟨Alike.symm, Alike.symm⟩
    exact ⟨answer, huv, hsame ▸ hvu⟩
  · intro w huv hvw
    have halike := (hu.decides_deepEquals hs v).eq_some_true_iff.1 huv
    have halike' := (hv.decides_deepEquals hs w).eq_some_true_iff.1 hvw
    exact (hu.decides_deepEquals hs w).eq_some_true_iff.2 (halike.trans halike')

/-- An array that holds what is no number, two arrays that hold this one, plainly and under a
binding, and three maps with one or the other under the same key. -/
def holders : Store :=
  let cell (v : Value) : MapCell := Table.empty.insert ⟨.boolean, .one⟩ (.bool true, v)
  ((((((empty.newArray [.float (.notANumber false)]).2.newArray [.array ⟨0⟩]).2.newArray
    [.binding (.array ⟨0⟩) true false]).2.newMap (cell (.array ⟨1⟩))).2.newMap
      (cell (.array ⟨2⟩))).2.newMap (cell (.binding (.array ⟨1⟩) false false))).2

theorem builds_holders : empty.Builds holders := by
  have hcell : ∀ v : Value, Table.Sorted
      (Table.empty.insert (⟨.boolean, .one⟩ : MapKey) (Value.bool true, v)) :=
    fun v => Table.sorted_insert Table.sorted_empty _ _
  refine (((((Builds.refl.array ?_).array ?_).array ?_).map (hcell _) ?_).map (hcell _) ?_).map
    (hcell _) ?_
  all_goals simp [Table.insert, Table.insertInto, Table.empty, MapCell.pairs, Table.values, Valid,
    newArray, newMap, empty]

theorem deepEquals_symm_trans_holders :
    holders.WellFormed ∧ holders.Acyclic ∧
      holders.deepEquals (.map ⟨0⟩) (.map ⟨1⟩) = some true ∧
      holders.deepEquals (.map ⟨1⟩) (.map ⟨2⟩) = some true ∧
      holders.deepEquals (.map ⟨0⟩) (.map ⟨2⟩) = some true := by
  have hs := builds_holders.wellFormed wellFormed_empty
  have ha := builds_holders.acyclic wellFormed_empty acyclic_empty
  have h₁ : holders.deepEquals (.map ⟨0⟩) (.map ⟨1⟩) = some true := by decide
  have h₂ : holders.deepEquals (.map ⟨1⟩) (.map ⟨2⟩) = some true := by decide
  exact ⟨hs, ha, h₁, h₂, (deepEquals_symm_trans hs.sorted (ha.from _).loopFree
    (ha.from _).loopFree).2 _ h₁ h₂⟩

end Store
end ScriptKit
