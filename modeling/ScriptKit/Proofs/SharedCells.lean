import ScriptKit.Proofs.Likeness

/-! What comparing by reference leaves out. Two references to one cell are taken to be alike, though
a cell may hold something that equals nothing. The answer is that of the plain comparison exactly
for values all of whose leaves are plain, and for values that share no cell. -/
namespace ScriptKit.Store

variable {s : Store} {v w : Value}

/-- Values of the same structure, found by looking into every cell. -/
def SameStructure (s : Store) (v w : Value) : Prop := s.Alike False v w

theorem plainLeaves_unbind : s.PlainLeaves v.unbind ↔ s.PlainLeaves v := by
  induction v with
  | binding v isMutable isBuiltin ih =>
    have hbinding : s.PlainLeaves (.binding v isMutable isBuiltin) ↔ s.PlainLeaves v := by
      rw [plainLeaves_iff rfl, compared, List.forall_mem_singleton]
    exact ih.trans hbinding.symm
  | _ => exact Iff.rfl

theorem PlainLeaves.of_mem (h : s.PlainLeaves v) (hw : w ∈ s.compared v.unbind) :
    s.PlainLeaves w :=
  fun x hx => h x ((unfolds_of_mem hw).trans hx)

theorem mem_compared_of_find? {m : MapRef} (hm : (s.map m).Sorted) {k : MapKey}
    {p : Value × Value} (h : (s.map m).find? k = some p) : p.2 ∈ s.compared (.map m) :=
  List.mem_map.2 ⟨p, List.mem_map.2 ⟨(k, p), hm.find?_eq_some_iff.1 h, rfl⟩, rfl⟩

theorem SameStructure.plainLeaves (hs : ∀ m, (s.map m).Sorted) (h : s.SameStructure v w) :
    s.PlainLeaves v := by
  induction h with
  | @plain v w h =>
    have hplain := Value.isPlain_of_equals h
    have hleaf : v.unbind.isLeaf = true := by
      cases hv : v.unbind with
      | array a | map m | binding _ _ _ => simp [hv, Value.isPlain] at hplain
      | _ => rfl
    rw [← plainLeaves_unbind, plainLeaves_of_isLeaf hleaf]
    exact hplain
  | @array v w a b hv hw hlength _ ih =>
    rw [← plainLeaves_unbind, hv, plainLeaves_iff rfl]
    intro x hx
    obtain ⟨i, hi⟩ := List.mem_iff_getElem?.1 hx
    have hlt : i < (s.array b).length := hlength ▸ (List.getElem?_eq_some_iff.1 hi).1
    exact ih i x _ hi (List.getElem?_eq_getElem hlt)
  | @map v w m n hv hw hkeys _ ih =>
    rw [← plainLeaves_unbind, hv, plainLeaves_iff rfl, compared, MapCell.givenValues,
      MapCell.pairs, Table.values, List.map_map, List.forall_mem_map]
    rintro ⟨k, p⟩ hd
    have hp := (hs m).find?_eq_some_iff.2 hd
    obtain ⟨q, hq⟩ := Table.exists_find? hp (hkeys k)
    exact ih k p q hp hq
  | shared hfalse => exact hfalse.elim

/-- A value with plain leaves only has the structure of itself. -/
theorem PlainLeaves.sameStructure_self (hs : ∀ m, (s.map m).Sorted) (hv : s.LoopFree v)
    (h : s.PlainLeaves v) : s.SameStructure v v := by
  refine hv.induct (P := fun v => s.PlainLeaves v → s.SameStructure v v) (fun v _ ih h => ?_) h
  cases hu : v.unbind with
  | array a =>
    rw [hu] at ih
    refine .array hu hu rfl fun i x y hx hy => ?_
    cases hx.symm.trans hy
    have hmem := List.mem_of_getElem? hx
    exact ih x hmem (h.of_mem (hu ▸ hmem))
  | map m =>
    rw [hu] at ih
    refine .map hu hu (fun _ => rfl) fun k p q hp hq => ?_
    cases hp.symm.trans hq
    have hmem := mem_compared_of_find? (hs m) hp
    exact ih p.2 hmem (h.of_mem (hu ▸ hmem))
  | binding x _ _ =>
    have hkind := v.kind_unbind_ne_binding
    simp [hu, Value.kind] at hkind
  | _ =>
    refine .plain ?_
    have hself : v.unbind.equals v.unbind = v.unbind.isPlain := Value.equals_self (by rw [hu]; rfl)
    have hplain : v.unbind.isPlain = true := by
      rw [← plainLeaves_unbind] at h
      exact h v.unbind .refl (by rw [hu]; rfl)
    rw [hplain, Value.equals, Value.unbind_unbind] at hself
    exact hself

theorem Alike.sameStructure (hs : ∀ m, (s.map m).Sorted) (h : s.Alike True v w)
    (hv : s.LoopFree v) (hp : s.PlainLeaves v) : s.SameStructure v w := by
  induction h with
  | plain h => exact .plain h
  | @array v w a b hu hw hlength _ ih =>
    refine .array hu hw hlength fun i x y hx hy => ?_
    have hmem : x ∈ s.compared v.unbind := hu ▸ List.mem_of_getElem? hx
    exact ih i x y hx hy (hv.of_mem hmem) (hp.of_mem hmem)
  | @map v w m n hu hw hkeys _ ih =>
    refine .map hu hw hkeys fun k p q hk hq => ?_
    have hmem : p.2 ∈ s.compared v.unbind := hu ▸ mem_compared_of_find? (hs m) hk
    exact ih k p q hk hq (hv.of_mem hmem) (hp.of_mem hmem)
  | shared _ _ heq =>
    exact Alike.congr (hp.sameStructure_self hs hv) rfl heq.symm

/-- Looking into every cell finds what the shortcut finds, except where a leaf is not plain. -/
theorem sameStructure_iff (hs : ∀ m, (s.map m).Sorted) (hv : s.LoopFree v) :
    s.SameStructure v w ↔ s.Alike True v w ∧ s.PlainLeaves v := by
  constructor
  · intro h
    exact ⟨h.mono False.elim, h.plainLeaves hs⟩
  · rintro ⟨h, hp⟩
    exact h.sameStructure hs hv hp

/-- No array or map is a part of both values. -/
def Apart (s : Store) (v w : Value) : Prop :=
  ∀ c : Value, c.isContainer = true → s.Unfolds v c → ¬ s.Unfolds w c

theorem Apart.of_mem {x y : Value} (h : s.Apart v w) (hx : x ∈ s.compared v.unbind)
    (hy : y ∈ s.compared w.unbind) : s.Apart x y :=
  fun c hc hxc hyc => h c hc ((unfolds_of_mem hx).trans hxc) ((unfolds_of_mem hy).trans hyc)

theorem Apart.sameStructure (hs : ∀ m, (s.map m).Sorted) (hapart : s.Apart v w)
    (h : s.Alike True v w) : s.SameStructure v w := by
  induction h with
  | plain h => exact .plain h
  | array hv hw hlength _ ih =>
    refine .array hv hw hlength fun i x y hx hy => ?_
    exact ih i x y hx hy (hapart.of_mem (hv ▸ List.mem_of_getElem? hx)
      (hw ▸ List.mem_of_getElem? hy))
  | map hv hw hkeys _ ih =>
    refine .map hv hw hkeys fun k p q hp hq => ?_
    exact ih k p q hp hq (hapart.of_mem (hv ▸ mem_compared_of_find? (hs _) hp)
      (hw ▸ mem_compared_of_find? (hs _) hq))
  | @shared v w _ hc heq =>
    exact absurd (heq ▸ s.unfolds_unbind w) (hapart v.unbind hc (s.unfolds_unbind v))

/-- The answer of a comparison of values without loops. Values of the same structure are those that
it finds alike and that have plain leaves only; so it finds alike what has not the same structure
exactly if some leaf is not plain, and never unless a cell is a part of both values. -/
theorem deepEquals_sameStructure (hs : ∀ m, (s.map m).Sorted) (hv : s.LoopFree v) (w : Value) :
    ∃ answer, s.deepEquals v w = some answer ∧
      (s.SameStructure v w ↔ answer = true ∧ s.PlainLeaves v) ∧
      (s.Apart v w → (answer = true ↔ s.SameStructure v w)) := by
  obtain ⟨answer, hanswer, hiff⟩ := hv.decides_deepEquals hs w
  refine ⟨answer, hanswer, ?_, fun hapart => ?_⟩
  · rw [hiff, sameStructure_iff hs hv]
  · rw [hiff]
    exact ⟨hapart.sameStructure hs, fun h => h.mono False.elim⟩

theorem deepEquals_sameStructure_holders :
    holders.WellFormed ∧ holders.Acyclic ∧
      ∃ answer, holders.deepEquals (.map ⟨0⟩) (.map ⟨1⟩) = some answer ∧
        (holders.SameStructure (.map ⟨0⟩) (.map ⟨1⟩) ↔
          answer = true ∧ holders.PlainLeaves (.map ⟨0⟩)) := by
  have hs := builds_holders.wellFormed wellFormed_empty
  have ha := builds_holders.acyclic wellFormed_empty acyclic_empty
  obtain ⟨answer, hanswer, hiff, -⟩ :=
    deepEquals_sameStructure hs.sorted (ha.from (.map ⟨0⟩)).loopFree (.map ⟨1⟩)
  exact ⟨hs, ha, answer, hanswer, hiff⟩

/-- An array that holds what is no number is found to be like itself, and has not the structure of
anything. -/
theorem deepEquals_array_notANumber :
    holders.WellFormed ∧ holders.Acyclic ∧
      holders.deepEquals (.array ⟨0⟩) (.array ⟨0⟩) = some true ∧
      ¬ holders.SameStructure (.array ⟨0⟩) (.array ⟨0⟩) := by
  have hs := builds_holders.wellFormed wellFormed_empty
  refine ⟨hs, builds_holders.acyclic wellFormed_empty acyclic_empty, by decide, fun h => ?_⟩
  have hleaf : holders.Unfolds (.array ⟨0⟩) (.float (.notANumber false)) :=
    .single (List.mem_singleton.2 rfl)
  exact absurd (h.plainLeaves hs.sorted _ hleaf rfl) (by decide)

end ScriptKit.Store
