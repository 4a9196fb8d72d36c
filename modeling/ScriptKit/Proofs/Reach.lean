import Mathlib.Logic.Relation
import ScriptKit.Store.Basic

/-! What values hold. A value holds the value in its wrapper, or the contents of its cell; if no
cell in its reach holds itself, it is at most as deep as there are cells. -/
namespace ScriptKit

def Value.isCell : Value → Bool
  | .array _ | .map _ | .record _ => true
  | _ => false

namespace Store

/-- The values directly in a value: the one in a wrapper, or the contents of a cell. -/
def contents (s : Store) : Value → List Value
  | .returned v | .constant v | .binding v _ _ => [v]
  | .array a => s.array a
  | .map m => (s.map m).pairs.flatMap fun p => [p.1, p.2]
  | .record r => (s.record r).values
  | _ => []

def Holds (s : Store) (v w : Value) : Prop := w ∈ s.contents v

/-- One value is the other or holds it, directly or through others. -/
def Reaches (s : Store) : Value → Value → Prop := Relation.ReflTransGen s.Holds

/-- A value holds the other, directly or through others. -/
def Encloses (s : Store) : Value → Value → Prop := Relation.TransGen s.Holds

/-- No cell in reach of the value encloses itself. -/
def AcyclicFrom (s : Store) (v : Value) : Prop :=
  ∀ c : Value, c.isCell = true → s.Reaches v c → ¬ s.Encloses c c

/-- No cell encloses itself. -/
def Acyclic (s : Store) : Prop := ∀ c : Value, c.isCell = true → ¬ s.Encloses c c

theorem Acyclic.from {s : Store} (h : s.Acyclic) (v : Value) : s.AcyclicFrom v :=
  fun c hc _ => h c hc

theorem AcyclicFrom.of_reaches {s : Store} {v w : Value} (h : s.AcyclicFrom v)
    (hw : s.Reaches v w) : s.AcyclicFrom w :=
  fun c hc hwc => h c hc (hw.trans hwc)

/-- The contents of the cell under all wrappers. -/
def held (s : Store) : Value → List Value
  | .returned v | .constant v | .binding v _ _ => s.held v
  | v => s.contents v

/-- Cells hold cells at most so many levels deep. -/
def Within (s : Store) : Nat → Value → Prop
  | 0, v => s.held v = []
  | n + 1, v => ∀ w ∈ s.held v, s.Within n w

theorem Within.notMem_held {s : Store} {v : Value} (h : s.Within 0 v) (w : Value) :
    w ∉ s.held v := by
  rw [show s.held v = [] from h]
  exact List.not_mem_nil

theorem Within.succ {s : Store} {n : Nat} {v : Value} (h : s.Within n v) : s.Within (n + 1) v := by
  induction n generalizing v with
  | zero => exact fun w hw => absurd hw (h.notMem_held w)
  | succ n ih => exact fun w hw => ih (h w hw)

theorem Within.mono {s : Store} {m n : Nat} {v : Value} (h : s.Within m v) (hle : m ≤ n) :
    s.Within n v := by
  induction hle with
  | refl => exact h
  | step _ ih => exact ih.succ

theorem Within.of_holds {s : Store} {n : Nat} {v w : Value} (h : s.Within n v) (hw : s.Holds v w) :
    s.Within n w := by
  cases v with
  | returned _ | constant _ | binding _ _ _ =>
    obtain rfl := List.mem_singleton.1 hw
    cases n <;> exact h
  | array _ | map _ | record _ =>
    cases n with
    | zero => exact absurd hw (h.notMem_held w)
    | succ n => exact (h w hw).succ
  | _ => cases hw

theorem Within.of_reaches {s : Store} {n : Nat} {v w : Value} (h : s.Within n v)
    (hw : s.Reaches v w) : s.Within n w := by
  induction hw with
  | refl => exact h
  | tail _ hstep ih => exact ih.of_holds hstep

/-- A loop would lead down through the levels without end. -/
theorem Within.not_encloses {s : Store} {n : Nat} {c : Value} (hc : c.isCell = true)
    (h : s.Within n c) : ¬ s.Encloses c c := by
  intro hloop
  obtain ⟨w, hcw, hwc⟩ := Relation.TransGen.head'_iff.1 hloop
  have hheld : w ∈ s.held c := by
    cases c with
    | array _ | map _ | record _ => exact hcw
    | _ => cases hc
  induction n with
  | zero => exact h.notMem_held w hheld
  | succ n ih => exact ih ((h w hheld).of_reaches hwc)

theorem mem_held_key {s : Store} {m : MapRef} {p : Value × Value} (h : p ∈ (s.map m).pairs) :
    p.1 ∈ s.held (.map m) :=
  List.mem_flatMap.2 ⟨p, h, List.mem_cons_self⟩

theorem mem_held_value {s : Store} {m : MapRef} {p : Value × Value} (h : p ∈ (s.map m).pairs) :
    p.2 ∈ s.held (.map m) :=
  List.mem_flatMap.2 ⟨p, h, List.mem_cons_of_mem _ List.mem_cons_self⟩

theorem mem_held_field {s : Store} {r : RecordRef} {p : String × Value}
    (h : p ∈ (s.record r).entries) : p.2 ∈ s.held (.record r) :=
  List.mem_map.2 ⟨p, h, rfl⟩

def cells (s : Store) : List Value :=
  (List.range s.arrays.size).map (fun i => .array ⟨i⟩) ++
    (List.range s.maps.size).map (fun i => .map ⟨i⟩) ++
      (List.range s.records.size).map fun i => .record ⟨i⟩

@[simp] theorem length_cells (s : Store) : s.cells.length = s.cellCount := by
  simp [cells, cellCount, Nat.add_assoc]

theorem mem_cells_of_holds {s : Store} {c w : Value} (hc : c.isCell = true) (h : s.Holds c w) :
    c ∈ s.cells := by
  cases c with
  | array a =>
    have ha : a.index < s.arrays.size := by
      refine Nat.lt_of_not_le fun hout => ?_
      simp [Holds, contents, array, Array.getElem?_eq_none hout] at h
    simpa [cells] using ⟨a.index, ha, rfl⟩
  | map m =>
    have hm : m.index < s.maps.size := by
      refine Nat.lt_of_not_le fun hout => ?_
      simp [Holds, contents, map, Array.getElem?_eq_none hout, MapCell.pairs, Table.values,
        Table.empty] at h
    simpa [cells] using ⟨m.index, hm, rfl⟩
  | record r =>
    have hr : r.index < s.records.size := by
      refine Nat.lt_of_not_le fun hout => ?_
      simp [Holds, contents, record, Array.getElem?_eq_none hout, Table.values, Table.empty] at h
    simpa [cells] using ⟨r.index, hr, rfl⟩
  | _ => cases hc

theorem exists_cell_of_mem_held {s : Store} {v w : Value} (h : w ∈ s.held v) :
    ∃ c : Value, c.isCell = true ∧ s.Reaches v c ∧ s.Holds c w := by
  induction v with
  | returned v ih | constant v ih | binding v _ _ ih =>
    obtain ⟨c, hc, hvc, hcw⟩ := ih h
    exact ⟨c, hc, .head (List.mem_singleton.2 rfl) hvc, hcw⟩
  | array a | map m | record r => exact ⟨_, rfl, .refl, h⟩
  | _ => cases h

theorem reaches_of_mem_held {s : Store} {v w : Value} (h : w ∈ s.held v) : s.Reaches v w := by
  obtain ⟨c, -, hvc, hcw⟩ := exists_cell_of_mem_held h
  exact hvc.tail hcw

/-- Different cells, all of which enclose a value. -/
structure PathTo (s : Store) (path : List Value) (v : Value) : Prop where
  nodup : path.Nodup
  cells : path ⊆ s.cells
  encloses : ∀ c ∈ path, s.Encloses c v

theorem PathTo.length_le {s : Store} {path : List Value} {v : Value} (h : s.PathTo path v) :
    path.length ≤ s.cellCount := by
  have hle := h.nodup.length_le_of_subset h.cells
  rwa [length_cells] at hle

/-- The cell of a value is not among those that enclose it, and so makes the path longer. -/
theorem PathTo.extend {s : Store} {path : List Value} {v w : Value} (h : s.PathTo path v)
    (ha : s.AcyclicFrom v) (hw : w ∈ s.held v) : ∃ c, s.PathTo (c :: path) w := by
  obtain ⟨c, hc, hvc, hcw⟩ := exists_cell_of_mem_held hw
  have hnew : c ∉ path := fun hmem => ha c hc hvc ((h.encloses c hmem).trans_left hvc)
  refine ⟨c, List.nodup_cons.2 ⟨hnew, h.nodup⟩,
    List.cons_subset.2 ⟨mem_cells_of_holds hc hcw, h.cells⟩, ?_⟩
  intro d hd
  rcases List.mem_cons.1 hd with rfl | hd
  · exact .single hcw
  · exact (h.encloses d hd).trans_left (hvc.tail hcw)

/-- Going down, the path grows by a cell a level, so it runs out of cells before the levels do. -/
theorem PathTo.within {s : Store} {path : List Value} {n : Nat} {v : Value}
    (h : s.PathTo path v) (ha : s.AcyclicFrom v) (hlength : s.cellCount ≤ path.length + n) :
    s.Within n v := by
  induction n generalizing v path with
  | zero =>
    refine List.eq_nil_iff_forall_not_mem.2 fun w hw => ?_
    obtain ⟨c, hpath⟩ := h.extend ha hw
    have hle := hpath.length_le
    rw [List.length_cons] at hle
    omega
  | succ n ih =>
    intro w hw
    obtain ⟨c, hpath⟩ := h.extend ha hw
    refine ih hpath (ha.of_reaches (reaches_of_mem_held hw)) ?_
    rw [List.length_cons]
    omega

theorem AcyclicFrom.within {s : Store} {v : Value} (h : s.AcyclicFrom v) :
    s.Within s.cellCount v :=
  PathTo.within ⟨List.nodup_nil, List.nil_subset _, nofun⟩ h (Nat.le_add_left _ _)

end Store

end ScriptKit
