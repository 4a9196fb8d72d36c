import ScriptKit.Descriptor.Compatible
import ScriptKit.Proofs.IntegerText

/-! Compatibility of a declared and an inferred type as a relation on trees. The check succeeds
exactly on related trees that are no higher than the limit. -/
namespace ScriptKit

/-- A written size: an integer, and blanks around it. -/
def SizeIs (size : String) (n : Int) : Prop :=
  ∃ left cs right, size.toList = left ++ cs ++ right ∧ (∀ c ∈ left, Text.isBlank c = true) ∧
    (∀ c ∈ right, Text.isBlank c = true) ∧ Integer.Denotes cs n

/-- Where both sizes are given, both are integers of sixty-four bits and the declared one is not
the smaller. -/
def SizesFit (declared inferred : Option String) : Prop :=
  ∀ s ∈ declared, ∀ s' ∈ inferred, ∃ capacity needed : Int64,
    SizeIs s capacity.toInt ∧ SizeIs s' needed.toInt ∧ needed.toInt ≤ capacity.toInt

/-- Two optional trees are related under a bound if they are related and the first, if there is one,
keeps to the bound. -/
theorem rel_and_iff {α : Type} {r : α → α → Prop} {p : α → Prop} {a b : Option α} :
    Option.Rel (fun x y => r x y ∧ p x) a b ↔ Option.Rel r a b ∧ ∀ x ∈ a, p x := by
  cases a <;> cases b <;> simp

namespace NodeType

/-- Two chains of nodes of one length that agree in their kinds and fit in their sizes. -/
inductive Compat : NodeType → NodeType → Prop
  | leaf {kind : String} {size size' : Option String} (hs : SizesFit size size') :
      Compat (leaf kind size) (leaf kind size')
  | container {kind : String} {size size' : Option String} {child child' : NodeType}
      (hs : SizesFit size size') (h : Compat child child') :
      Compat (container kind size child) (container kind size' child')

theorem sizeValue?_eq_some {size : String} {value : Int64} :
    sizeValue? size = some value ↔ SizeIs size value.toInt := by
  have hread : sizeValue? size = some value ↔
      Integer.read (Text.trim size.toList) = .ok value := by
    rw [sizeValue?]
    cases Integer.read (Text.trim size.toList) <;> simp [Except.toOption]
  rw [hread, Integer.read_eq_ok]
  constructor
  · intro h
    obtain ⟨left, right, heq, hleft, hright⟩ := Text.exists_append_trim size.toList
    exact ⟨left, _, right, heq, hleft, hright, h⟩
  · rintro ⟨left, cs, right, heq, hleft, hright, h⟩
    rwa [heq, Text.trim_append h.isBlank h.ne_nil hleft hright]

theorem readSize_eq_ok {n : NodeType} {operand : Operand} {size : String} {value : Int64} :
    n.readSize operand size = .ok value ↔ SizeIs size value.toInt := by
  rw [← sizeValue?_eq_some, readSize]
  split <;> rename_i h <;> simp [h]

theorem checkSize_eq_ok {d i : NodeType} :
    checkSize d i = .ok () ↔ SizesFit d.size? i.size? := by
  unfold checkSize
  split
  · rename_i size size' hd hi
    rw [hd, hi]
    simp only [Outcome.bind_eq_ok, readSize_eq_ok]
    constructor
    · rintro ⟨capacity, hcapacity, needed, hneeded, h⟩
      split at h
      · cases h
      · rename_i hle
        rintro s ⟨⟩ s' ⟨⟩
        exact ⟨capacity, needed, hcapacity, hneeded, Int64.le_iff_toInt_le.1 (Int64.not_lt.1 hle)⟩
    · intro h
      obtain ⟨capacity, needed, hcapacity, hneeded, hle⟩ := h size rfl size' rfl
      refine ⟨capacity, hcapacity, needed, hneeded, ?_⟩
      rw [if_neg (Int64.not_lt.2 (Int64.le_iff_toInt_le.2 hle))]
      rfl
  · rename_i hnone
    refine ⟨fun _ s hs s' hs' => ?_, fun _ => rfl⟩
    exact (hnone s s' hs hs').elim

theorem checkHead_eq_ok {d i : NodeType} :
    checkHead d i = .ok () ↔ d.kind = i.kind ∧ SizesFit d.size? i.size? := by
  unfold checkHead
  split
  · rename_i hkind
    rw [checkSize_eq_ok, and_iff_right hkind]
  · rename_i hkind
    simp [hkind]

theorem checkChild_eq_ok {check : NodeType → NodeType → Except TypeError Unit} {d i : NodeType} :
    checkChild check d i = .ok () ↔
      Option.Rel (fun child child' => check child child' = .ok ()) d.child? i.child? := by
  cases d <;> cases i <;> simp [checkChild, child?]

theorem compat_iff {d i : NodeType} :
    Compat d i ↔ (d.kind = i.kind ∧ SizesFit d.size? i.size?) ∧
      Option.Rel Compat d.child? i.child? := by
  constructor
  · intro h
    cases h with
    | leaf hs => exact ⟨⟨rfl, hs⟩, .none⟩
    | container hs h => exact ⟨⟨rfl, hs⟩, .some h⟩
  · rintro ⟨⟨hkind, hs⟩, h⟩
    cases d <;> cases i <;> cases hkind
    · exact .leaf hs
    · cases h
    · cases h
    · cases h with
      | some h => exact .container hs h

theorem depth_lt_succ {n : NodeType} {levels : Nat} :
    n.depth < levels + 1 ↔ ∀ child ∈ n.child?, child.depth < levels := by
  cases n <;> simp [depth, child?]

theorem checkLevels_eq_ok {levels : Nat} {d i : NodeType} :
    checkLevels levels d i = .ok () ↔ Compat d i ∧ d.depth < levels := by
  induction levels generalizing d i with
  | zero => simp [checkLevels]
  | succ levels ih =>
    rw [checkLevels, Outcome.check_bind_eq_ok, checkHead_eq_ok, checkChild_eq_ok]
    simp only [ih, rel_and_iff]
    rw [compat_iff, depth_lt_succ]
    exact and_assoc.symm

end NodeType

namespace Descriptor

/-- Two nodes that are related, or two maps whose keys and values are absent or related alike. -/
inductive Compat : Descriptor → Descriptor → Prop
  | node {d i : NodeType} (h : d.Compat i) : Compat (node d) (node i)
  | map {key key' value value' : Option Descriptor} (hk : Option.Rel Compat key key')
      (hv : Option.Rel Compat value value') : Compat (map key value) (map key' value')

theorem checkSide_eq_ok {check : Descriptor → Descriptor → Except TypeError Unit}
    {d i : Descriptor} {side : MapSide} {a b : Option Descriptor} :
    checkSide check d i side a b = .ok () ↔
      Option.Rel (fun x y => check x y = .ok ()) a b := by
  cases a <;> cases b <;> simp [checkSide]

theorem checkLevels_eq_ok {levels : Nat} {d i : Descriptor} :
    checkLevels levels d i = .ok () ↔ Compat d i ∧ d.height < levels := by
  induction levels generalizing d i with
  | zero => simp [checkLevels]
  | succ levels ih =>
    cases d with
    | node n =>
      cases i with
      | node m =>
        rw [checkLevels, NodeType.checkLevels_eq_ok, height]
        refine and_congr_left fun _ => ⟨.node, fun h => ?_⟩
        cases h with
        | node h => exact h
      | map key value =>
        refine ⟨fun h => ?_, fun h => ?_⟩
        · cases h
        · cases h.1
    | map key value =>
      cases i with
      | node m =>
        refine ⟨fun h => ?_, fun h => ?_⟩
        · cases h
        · cases h.1
      | map key' value' =>
        rw [checkLevels, Outcome.check_bind_eq_ok, checkSide_eq_ok, checkSide_eq_ok,
          height_map_lt_succ]
        simp only [ih, rel_and_iff]
        constructor
        · rintro ⟨⟨hk, hkey⟩, hv, hvalue⟩
          exact ⟨.map hk hv, hkey, hvalue⟩
        · rintro ⟨h, hkey, hvalue⟩
          cases h with
          | map hk hv => exact ⟨⟨hk, hkey⟩, hv, hvalue⟩

/-- A declared type accepts an inferred one exactly if the two are compatible and the declared one
is at most 64 steps high. -/
theorem check_iff_compat (declared inferred : Descriptor) :
    check declared inferred = .ok () ↔ Compat declared inferred ∧ declared.height ≤ 64 := by
  rw [check, checkLevels_eq_ok, maxTypeDepth, Nat.lt_succ_iff]

end Descriptor

end ScriptKit
