import ScriptKit.Proofs.Reach

/-! Stores that only grow. New cells hold what is there already, so they change nothing that can be
reached without them and close no loop. -/
namespace ScriptKit
namespace Store

/-- Every reference in the value leads to a cell. -/
def Valid (s : Store) : Value → Prop
  | .returned v | .constant v | .binding v _ _ => s.Valid v
  | .array a => a.index < s.arrays.size
  | .map m => m.index < s.maps.size
  | .record r => r.index < s.records.size
  | _ => True

/-- Cells hold references to cells only, and maps keep their pairs in order. -/
structure WellFormed (s : Store) : Prop where
  closed : ∀ c w : Value, c.isCell = true → s.Holds c w → s.Valid w
  sorted : ∀ m : MapRef, (s.map m).Sorted

section Valid

variable {s : Store} {v w : Value}

theorem WellFormed.valid_of_holds (hs : s.WellFormed) (hv : s.Valid v) (h : s.Holds v w) :
    s.Valid w := by
  cases v with
  | returned v | constant v | binding v _ _ =>
    obtain rfl := List.mem_singleton.1 h
    exact hv
  | array a | map m | record r => exact hs.closed _ w rfl h
  | _ => cases h

theorem WellFormed.valid_of_reaches (hs : s.WellFormed) (hv : s.Valid v) (h : s.Reaches v w) :
    s.Valid w := by
  induction h with
  | refl => exact hv
  | tail _ hstep ih => exact hs.valid_of_holds ih hstep

theorem WellFormed.valid_pair (hs : s.WellFormed) {m : MapRef} {p : Value × Value}
    (hp : p ∈ (s.map m).pairs) : s.Valid p.1 ∧ s.Valid p.2 :=
  ⟨hs.closed (.map m) p.1 rfl (mem_held_key hp), hs.closed (.map m) p.2 rfl (mem_held_value hp)⟩

theorem valid_unbind (h : s.Valid v) : s.Valid v.unbind := by
  induction v with
  | binding v _ _ ih => exact ih h
  | _ => exact h

end Valid

theorem contents_empty {c : Value} (hc : c.isCell = true) : empty.contents c = [] := by
  cases c with
  | array _ | map _ | record _ =>
    simp [contents, empty, array, map, record, MapCell.pairs, Table.values, Table.empty]
  | _ => cases hc

theorem wellFormed_empty : empty.WellFormed where
  closed c w hc h := by
    rw [Holds, contents_empty hc] at h
    cases h
  sorted _ := by simpa [map, empty] using Table.sorted_empty

theorem acyclic_empty : empty.Acyclic := by
  intro c hc hloop
  obtain ⟨w, hw, -⟩ := Relation.TransGen.head'_iff.1 hloop
  rw [Holds, contents_empty hc] at hw
  cases hw

def SameCell (s t : Store) : Value → Prop
  | .array a => t.array a = s.array a
  | .map m => t.map m = s.map m
  | .record r => t.record r = s.record r
  | _ => True

theorem SameCell.contents_eq {s t : Store} {v : Value} (h : s.SameCell t v) :
    t.contents v = s.contents v := by
  cases v <;> simp_all [SameCell, contents]

/-- The second store has all cells of the first, unchanged, and may have more arrays and maps. -/
structure Grows (s t : Store) : Prop where
  arrays : s.arrays.size ≤ t.arrays.size
  maps : s.maps.size ≤ t.maps.size
  array : ∀ a : ArrayRef, a.index < s.arrays.size → t.array a = s.array a
  map : ∀ m : MapRef, m.index < s.maps.size → t.map m = s.map m
  records : t.records = s.records
  functions : t.functions = s.functions
  scopes : t.scopes = s.scopes

namespace Grows

variable {s t u : Store} {v w : Value}

theorem refl (s : Store) : s.Grows s :=
  ⟨Nat.le_refl _, Nat.le_refl _, fun _ _ => rfl, fun _ _ => rfl, rfl, rfl, rfl⟩

theorem trans (h : s.Grows t) (h' : t.Grows u) : s.Grows u where
  arrays := Nat.le_trans h.arrays h'.arrays
  maps := Nat.le_trans h.maps h'.maps
  array a ha := (h'.array a (Nat.lt_of_lt_of_le ha h.arrays)).trans (h.array a ha)
  map m hm := (h'.map m (Nat.lt_of_lt_of_le hm h.maps)).trans (h.map m hm)
  records := h'.records.trans h.records
  functions := h'.functions.trans h.functions
  scopes := h'.scopes.trans h.scopes

theorem cellCount_le (h : s.Grows t) : s.cellCount ≤ t.cellCount := by
  have harrays := h.arrays
  have hmaps := h.maps
  rw [cellCount, cellCount, h.records]
  omega

theorem valid (h : s.Grows t) (hv : s.Valid v) : t.Valid v := by
  induction v with
  | returned v ih | constant v ih | binding v _ _ ih => exact ih hv
  | array a => exact Nat.lt_of_lt_of_le hv h.arrays
  | map m => exact Nat.lt_of_lt_of_le hv h.maps
  | record r => rwa [Valid, h.records]
  | _ => trivial

theorem sameCell (h : s.Grows t) (hv : s.Valid v) : s.SameCell t v := by
  cases v with
  | array a => exact h.array a hv
  | map m => exact h.map m hv
  | record r => rw [SameCell, record, record, h.records]
  | _ => trivial

end Grows

theorem array_newArray_of_ne (s : Store) (items : List Value) {a : ArrayRef}
    (h : a.index ≠ s.arrays.size) : (s.newArray items).2.array a = s.array a := by
  simp [newArray, array, Array.getElem?_push, h]

theorem map_newMap_of_ne (s : Store) (cell : MapCell) {m : MapRef}
    (h : m.index ≠ s.maps.size) : (s.newMap cell).2.map m = s.map m := by
  simp [newMap, map, Array.getElem?_push, h]

theorem grows_newArray (s : Store) (items : List Value) : s.Grows (s.newArray items).2 where
  arrays := by simp [newArray]
  maps := Nat.le_refl _
  array a ha := s.array_newArray_of_ne items (Nat.ne_of_lt ha)
  map _ _ := rfl
  records := rfl
  functions := rfl
  scopes := rfl

theorem grows_newMap (s : Store) (cell : MapCell) : s.Grows (s.newMap cell).2 where
  arrays := Nat.le_refl _
  maps := by simp [newMap]
  array _ _ := rfl
  map m hm := s.map_newMap_of_ne cell (Nat.ne_of_lt hm)
  records := rfl
  functions := rfl
  scopes := rfl

section Reach

variable {s t : Store} {v w : Value}

theorem Grows.reaches_iff (h : s.Grows t) (hs : s.WellFormed) (hv : s.Valid v) :
    t.Reaches v w ↔ s.Reaches v w := by
  constructor
  · intro hr
    induction hr with
    | refl => exact .refl
    | tail _ hstep ih =>
      refine ih.tail ?_
      rwa [Holds, ← (h.sameCell (hs.valid_of_reaches hv ih)).contents_eq]
  · intro hr
    induction hr with
    | refl => exact .refl
    | tail hprev hstep ih =>
      refine ih.tail ?_
      rwa [Holds, (h.sameCell (hs.valid_of_reaches hv hprev)).contents_eq]

/-- A new cell that holds only what was there before closes no loop. -/
theorem Acyclic.of_new (ha : s.Acyclic) (h : s.Grows t) (hs : s.WellFormed) {new : Value}
    (hfresh : ¬ s.Valid new) (hrest : ∀ c, c ≠ new → t.contents c = s.contents c)
    (hnew : ∀ w, t.Holds new w → s.Valid w) : t.Acyclic := by
  intro c hc hloop
  obtain ⟨w, hcw, hwc⟩ := Relation.TransGen.head'_iff.1 hloop
  by_cases heq : c = new
  · subst heq
    have hw := hnew w hcw
    exact hfresh (hs.valid_of_reaches hw ((h.reaches_iff hs hw).1 hwc))
  · rw [Holds, hrest c heq] at hcw
    have hw := hs.closed c w hc hcw
    exact ha c hc (Relation.TransGen.head' hcw ((h.reaches_iff hs hw).1 hwc))

end Reach

/-- The second store comes from the first by adding arrays and maps one after the other, each of
which holds what is there already. -/
inductive Builds (s : Store) : Store → Prop
  | refl : Builds s s
  | array {t : Store} {items : List Value} (h : Builds s t) (hi : ∀ v ∈ items, t.Valid v) :
      Builds s (t.newArray items).2
  | map {t : Store} {cell : MapCell} (h : Builds s t) (hc : cell.Sorted)
      (hi : ∀ p ∈ cell.pairs, t.Valid p.1 ∧ t.Valid p.2) : Builds s (t.newMap cell).2

namespace Builds

variable {s t u : Store}

theorem trans (h : s.Builds t) (h' : t.Builds u) : s.Builds u := by
  induction h' with
  | refl => exact h
  | array _ hi ih => exact ih.array hi
  | map _ hc hi ih => exact ih.map hc hi

theorem grows (h : s.Builds t) : s.Grows t := by
  induction h with
  | refl => exact .refl s
  | array _ _ ih => exact ih.trans (grows_newArray _ _)
  | map _ _ _ ih => exact ih.trans (grows_newMap _ _)

end Builds

section New

variable {s : Store}

theorem holds_newArray {items : List Value} {w : Value}
    (h : (s.newArray items).2.Holds (.array ⟨s.arrays.size⟩) w) : w ∈ items := by
  rwa [Holds, contents, show (s.newArray items).2.array ⟨s.arrays.size⟩ = items from
    s.array_newArray items] at h

theorem holds_newMap {cell : MapCell} {w : Value}
    (h : (s.newMap cell).2.Holds (.map ⟨s.maps.size⟩) w) :
    ∃ p ∈ cell.pairs, w = p.1 ∨ w = p.2 := by
  rw [Holds, contents, show (s.newMap cell).2.map ⟨s.maps.size⟩ = cell from s.map_newMap cell] at h
  simpa using h

theorem contents_newArray_of_ne (items : List Value) {c : Value}
    (h : c ≠ .array ⟨s.arrays.size⟩) : (s.newArray items).2.contents c = s.contents c := by
  cases c with
  | array a => exact s.array_newArray_of_ne items fun hi => h (by cases a; simp_all)
  | _ => rfl

theorem contents_newMap_of_ne (cell : MapCell) {c : Value} (h : c ≠ .map ⟨s.maps.size⟩) :
    (s.newMap cell).2.contents c = s.contents c := by
  cases c with
  | map m =>
    have hm : m.index ≠ s.maps.size := fun hi => h (by cases m; simp_all)
    rw [contents, contents, s.map_newMap_of_ne cell hm]
  | _ => rfl

theorem WellFormed.of_new {t : Store} (hs : s.WellFormed) (h : s.Grows t) {new : Value}
    (hrest : ∀ c, c ≠ new → t.contents c = s.contents c) (hnew : ∀ w, t.Holds new w → s.Valid w)
    (hsorted : ∀ m, (t.map m).Sorted) : t.WellFormed := by
  refine ⟨fun c w hc hcw => ?_, hsorted⟩
  by_cases heq : c = new
  · subst heq
    exact h.valid (hnew w hcw)
  · rw [Holds, hrest c heq] at hcw
    exact h.valid (hs.closed c w hc hcw)

theorem WellFormed.newArray (hs : s.WellFormed) {items : List Value}
    (hi : ∀ v ∈ items, s.Valid v) : (s.newArray items).2.WellFormed :=
  hs.of_new (grows_newArray s items) (fun _ => contents_newArray_of_ne items)
    (fun w hw => hi w (holds_newArray hw)) hs.sorted

theorem Acyclic.newArray (ha : s.Acyclic) (hs : s.WellFormed) {items : List Value}
    (hi : ∀ v ∈ items, s.Valid v) : (s.newArray items).2.Acyclic :=
  ha.of_new (grows_newArray s items) hs (Nat.lt_irrefl _)
    (fun _ => contents_newArray_of_ne items) fun w hw => hi w (holds_newArray hw)

theorem valid_of_holds_newMap {cell : MapCell}
    (hi : ∀ p ∈ cell.pairs, s.Valid p.1 ∧ s.Valid p.2) (w : Value)
    (hw : (s.newMap cell).2.Holds (.map ⟨s.maps.size⟩) w) : s.Valid w := by
  obtain ⟨p, hp, rfl | rfl⟩ := holds_newMap hw
  · exact (hi p hp).1
  · exact (hi p hp).2

theorem WellFormed.newMap (hs : s.WellFormed) {cell : MapCell} (hc : cell.Sorted)
    (hi : ∀ p ∈ cell.pairs, s.Valid p.1 ∧ s.Valid p.2) : (s.newMap cell).2.WellFormed := by
  refine hs.of_new (grows_newMap s cell) (fun _ => contents_newMap_of_ne cell)
    (valid_of_holds_newMap hi) fun m => ?_
  by_cases hm : m.index = s.maps.size
  · obtain rfl : m = ⟨s.maps.size⟩ := by cases m; simp_all
    rwa [show (s.newMap cell).2.map ⟨s.maps.size⟩ = cell from s.map_newMap cell]
  · rw [s.map_newMap_of_ne cell hm]
    exact hs.sorted m

theorem Acyclic.newMap (ha : s.Acyclic) (hs : s.WellFormed) {cell : MapCell}
    (hi : ∀ p ∈ cell.pairs, s.Valid p.1 ∧ s.Valid p.2) : (s.newMap cell).2.Acyclic :=
  ha.of_new (grows_newMap s cell) hs (Nat.lt_irrefl _) (fun _ => contents_newMap_of_ne cell)
    (valid_of_holds_newMap hi)

end New

namespace Builds

variable {s t : Store}

theorem wellFormed (h : s.Builds t) (hs : s.WellFormed) : t.WellFormed := by
  induction h with
  | refl => exact hs
  | array _ hi ih => exact ih.newArray hi
  | map _ hc hi ih => exact ih.newMap hc hi

theorem acyclic (h : s.Builds t) (hs : s.WellFormed) (ha : s.Acyclic) : t.Acyclic := by
  induction h with
  | refl => exact ha
  | array hprev hi ih => exact ih.newArray (hprev.wellFormed hs) hi
  | map hprev _ hi ih => exact ih.newMap (hprev.wellFormed hs) hi

end Builds

end Store
end ScriptKit
