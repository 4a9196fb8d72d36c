import Mathlib.Data.Set.Card
import ScriptKit.Proofs.CopyRelation

/-! What a comparison unfolds. It looks into arrays, at the second parts of a map's pairs and under
bindings, and at nothing else. Where this leads into no loop, it ends within as many levels as
there are cells. -/
namespace ScriptKit

theorem Value.isCell_of_isContainer {v : Value} (h : v.isContainer = true) : v.isCell = true := by
  cases v <;> first | rfl | cases h

namespace Store

/-- A comparison of the first value comes to the second. -/
def Unfolds (s : Store) : Value → Value → Prop := Relation.ReflTransGen fun v w => w ∈ s.compared v

/-- No array or map that a comparison comes to is met again inside itself. Loops through records,
functions or the first parts of pairs do not count. -/
def LoopFree (s : Store) (v : Value) : Prop :=
  ∀ c : Value, c.isContainer = true → s.Unfolds v c →
    ¬ Relation.TransGen (fun v w => w ∈ s.compared v) c c

variable {s : Store} {v w : Value}

theorem holds_of_mem_compared (h : w ∈ s.compared v) : s.Holds v w := by
  cases v with
  | map m =>
    obtain ⟨p, hp, rfl⟩ := List.mem_map.1 h
    exact mem_held_value hp
  | array a | binding v _ _ => exact h
  | _ => cases h

theorem AcyclicFrom.loopFree (h : s.AcyclicFrom v) : s.LoopFree v := by
  intro c hc hvc hloop
  have hreach : s.Reaches v c := hvc.lift id fun _ _ => holds_of_mem_compared
  have hencloses : s.Encloses c c := hloop.lift id fun _ _ => holds_of_mem_compared
  exact h c (Value.isCell_of_isContainer hc) hreach hencloses

theorem unfolds_unbind (s : Store) (v : Value) : s.Unfolds v v.unbind := by
  induction v with
  | binding v _ _ ih => exact .head (List.mem_singleton.2 rfl) ih
  | _ => exact .refl

theorem unfolds_of_mem (h : w ∈ s.compared v.unbind) : s.Unfolds v w :=
  (s.unfolds_unbind v).tail h

theorem LoopFree.of_mem (h : s.LoopFree v) (hw : w ∈ s.compared v.unbind) : s.LoopFree w :=
  fun c hc hwc => h c hc ((unfolds_of_mem hw).trans hwc)

theorem isContainer_of_mem_compared (h : w ∈ s.compared v.unbind) :
    v.unbind.isContainer = true := by
  have hkind := v.kind_unbind_ne_binding
  cases hv : v.unbind with
  | array a | map m => rfl
  | binding _ _ _ =>
    rw [hv] at hkind
    exact absurd rfl hkind
  | _ =>
    rw [hv] at h
    cases h

def unfolded (s : Store) (v : Value) : Set Value := {c | c ∈ s.cells ∧ s.Unfolds v c}

theorem finite_unfolded (s : Store) (v : Value) : (s.unfolded v).Finite :=
  (List.finite_toSet s.cells).subset fun _ hc => hc.1

theorem ncard_unfolded_le (s : Store) (v : Value) : (s.unfolded v).ncard ≤ s.cellCount := by
  have hsubset : s.unfolded v ⊆ ↑s.cells.toFinset := fun c hc => List.mem_toFinset.2 hc.1
  calc (s.unfolded v).ncard ≤ (s.cells.toFinset : Set Value).ncard :=
        Set.ncard_le_ncard hsubset (Finset.finite_toSet _)
    _ = s.cells.toFinset.card := Set.ncard_coe_finset _
    _ ≤ s.cells.length := List.toFinset_card_le _
    _ = s.cellCount := length_cells s

/-- What stands in a cell does not come back to that cell, so fewer cells are left to come to. -/
theorem LoopFree.ncard_lt (h : s.LoopFree v) (hw : w ∈ s.compared v.unbind) :
    (s.unfolded w).ncard < (s.unfolded v).ncard := by
  have hcontainer := isContainer_of_mem_compared hw
  have hcell : v.unbind ∈ s.cells :=
    mem_cells_of_holds (Value.isCell_of_isContainer hcontainer) (holds_of_mem_compared hw)
  have hsubset : s.unfolded w ⊆ s.unfolded v := fun c hc =>
    ⟨hc.1, (unfolds_of_mem hw).trans hc.2⟩
  have hnot : v.unbind ∉ s.unfolded w := fun hmem =>
    h v.unbind hcontainer (s.unfolds_unbind v) (.head' hw hmem.2)
  refine Set.ncard_lt_ncard ⟨hsubset, fun hle => ?_⟩ (s.finite_unfolded v)
  exact hnot (hle ⟨hcell, s.unfolds_unbind v⟩)

/-- To show something of a value without loops, it is enough to show it from what its cell holds. -/
theorem LoopFree.induct {P : Value → Prop} (h : s.LoopFree v)
    (step : ∀ v, s.LoopFree v → (∀ w ∈ s.compared v.unbind, P w) → P v) : P v := by
  induction hn : (s.unfolded v).ncard using Nat.strong_induction_on generalizing v with
  | h n ih =>
    refine step v h fun w hw => ih _ ?_ (h.of_mem hw) rfl
    rw [← hn]
    exact h.ncard_lt hw

end Store
end ScriptKit
