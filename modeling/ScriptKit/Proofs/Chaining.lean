import ScriptKit.Proofs.TypeLimits

/-! Types that are compared one after the other. Compatibility is agreement of the types without
their sizes, and at each place a condition on the two sizes alone. So a chain of compatible types
breaks only where the middle one leaves a size open, and compatibility in both directions is
equality up to how sizes are written and which are left open. -/
namespace ScriptKit

theorem Step.forall_iff {P : Step → Prop} : (∀ s, P s) ↔ P .child ∧ P .key ∧ P .value := by
  refine ⟨fun h => ⟨h _, h _, h _⟩, fun h s => ?_⟩
  cases s <;> simp [h]

theorem sizesFit_none_left (size : Option String) : SizesFit none size := by simp [SizesFit]

theorem SizesFit.trans {first last : Option String} {s : String} (hfirst : SizesFit first (some s))
    (hlast : SizesFit (some s) last) : SizesFit first last := by
  intro x hx y hy
  obtain ⟨capacity, middle, hcapacity, hmiddle, hle⟩ := hfirst x hx s rfl
  obtain ⟨middle', needed, hmiddle', hneeded, hle'⟩ := hlast s rfl y hy
  obtain rfl := hmiddle.unique hmiddle'
  exact ⟨capacity, needed, hcapacity, hneeded, Int.le_trans hle' hle⟩

/-- Sizes that fit both ways are one number, however it is written. -/
theorem sizesFit_both_iff {x y : Option String} : SizesFit x y ∧ SizesFit y x ↔
    ∀ s s', x = some s → y = some s' → ∃ v : Int64, SizeIs s v.toInt ∧ SizeIs s' v.toInt := by
  constructor
  · rintro ⟨hxy, hyx⟩ s s' hs hs'
    obtain ⟨v, w, hv, hw, hle⟩ := hxy s hs s' hs'
    obtain ⟨w', v', hw', hv', hle'⟩ := hyx s' hs' s hs
    rw [hw'.unique hw, hv'.unique hv] at hle'
    have heq : v = w := Int64.toInt_inj.1 (Int.le_antisymm hle' hle)
    exact ⟨v, hv, heq ▸ hw⟩
  · intro h
    constructor
    · intro s hs s' hs'
      obtain ⟨v, hv, hv'⟩ := h s s' hs hs'
      exact ⟨v, v, hv, hv', Int.le_refl _⟩
    · intro s' hs' s hs
      obtain ⟨v, hv, hv'⟩ := h s s' hs hs'
      exact ⟨v, v, hv', hv, Int.le_refl _⟩

namespace NodeType

/-- The same chain of nodes with every size left open. -/
def bare : NodeType → NodeType
  | leaf kind _ => leaf kind none
  | container kind _ child => container kind none child.bare

theorem bare_eq_iff {m n : NodeType} :
    m.bare = n.bare ↔ m.kind = n.kind ∧ m.child?.map bare = n.child?.map bare := by
  cases m <;> cases n <;> simp [bare, kind, child?]

end NodeType

namespace Descriptor

def bare : Descriptor → Descriptor
  | node n => node n.bare
  | map none none => map none none
  | map (some key) none => map (some key.bare) none
  | map none (some value) => map none (some value.bare)
  | map (some key) (some value) => map (some key.bare) (some value.bare)

@[simp] theorem bare_node (n : NodeType) : (node n).bare = node n.bare := by rw [bare]

@[simp] theorem bare_map (key value : Option Descriptor) :
    (map key value).bare = map (key.map bare) (value.map bare) := by
  cases key <;> cases value <;> simp [bare]

def sizeAt? (d : Descriptor) (p : Path) : Option String :=
  (d.at? p).bind fun e => e.node?.bind NodeType.size?

theorem sizeAt?_cons (d : Descriptor) (s : Step) (p : Path) :
    d.sizeAt? (s :: p) = (d.part? s).bind fun e => e.sizeAt? p := by
  rw [sizeAt?, at?_cons]
  cases d.part? s <;> rfl

section Bare

variable {d i : Descriptor}

theorem fits_iff : Fits (some d) (some i) ↔
    d.node?.map NodeType.kind = i.node?.map NodeType.kind ∧
      SizesFit (d.sizeAt? []) (i.sizeAt? []) := by
  constructor
  · intro h
    cases h with
    | nodes hkind hsize => exact ⟨congrArg some hkind, hsize⟩
    | maps => exact ⟨rfl, sizesFit_none_left _⟩
  · rintro ⟨hkind, hsize⟩
    cases d <;> cases i
    · exact .nodes (Option.some.inj hkind) hsize
    · cases hkind
    · cases hkind
    · exact .maps

theorem map_bare_node_eq_iff {a b : Option NodeType} :
    (a.map node).map bare = (b.map node).map bare ↔ a.map NodeType.bare = b.map NodeType.bare := by
  cases a <;> cases b <;> simp

theorem bare_eq_iff_part : d.bare = i.bare ↔
    d.node?.map NodeType.kind = i.node?.map NodeType.kind ∧
      ∀ s, (d.part? s).map bare = (i.part? s).map bare := by
  cases d with
  | node m =>
    cases i with
    | node n =>
      simp only [Step.forall_iff, part?, map_bare_node_eq_iff]
      simp [node?, NodeType.bare_eq_iff]
    | map key value => simp [node?]
  | map key value =>
    cases i with
    | node n => simp [node?]
    | map key' value' => simp [Step.forall_iff, part?, node?]

/-- Types are compatible if they agree without their sizes and the sizes fit at every place. -/
theorem compat_iff_bare :
    Compat d i ↔ d.bare = i.bare ∧ ∀ p, SizesFit (d.sizeAt? p) (i.sizeAt? p) := by
  induction d using induct_part generalizing i with
  | step d ih =>
    have hpart : ∀ s, Option.Rel Compat (d.part? s) (i.part? s) ↔
        (d.part? s).map bare = (i.part? s).map bare ∧
          ∀ p, SizesFit (d.sizeAt? (s :: p)) (i.sizeAt? (s :: p)) := by
      intro s
      simp only [sizeAt?_cons]
      cases hd : d.part? s with
      | none => cases i.part? s <;> simp [sizesFit_none_left]
      | some x =>
        cases i.part? s with
        | none => simp
        | some y => simp [ih s x hd]
    have hpaths : (∀ p, SizesFit (d.sizeAt? p) (i.sizeAt? p)) ↔
        SizesFit (d.sizeAt? []) (i.sizeAt? []) ∧
          ∀ s p, SizesFit (d.sizeAt? (s :: p)) (i.sizeAt? (s :: p)) := by
      refine ⟨fun h => ⟨h [], fun s p => h (s :: p)⟩, fun h p => ?_⟩
      cases p with
      | nil => exact h.1
      | cons s p => exact h.2 s p
    rw [compat_iff_part, fits_iff, bare_eq_iff_part, hpaths]
    simp only [hpart, forall_and]
    exact and_and_and_comm

end Bare

section Check

variable {a b c : Descriptor}

theorem check_eq_ok : check a b = .ok () ↔
    a.height ≤ maxTypeDepth ∧ a.bare = b.bare ∧ ∀ p, SizesFit (a.sizeAt? p) (b.sizeAt? p) := by
  rw [check, checkLevels_eq_ok, Nat.lt_succ_iff, compat_iff_bare, and_comm]

/-- The ends of a chain fit exactly if they fit wherever the middle leaves the size open. -/
theorem check_ends_iff (hab : check a b = .ok ()) (hbc : check b c = .ok ()) :
    check a c = .ok () ↔
      ∀ p, b.sizeAt? p = none → SizesFit (a.sizeAt? p) (c.sizeAt? p) := by
  rw [check_eq_ok] at hab hbc
  obtain ⟨hheight, hbare, hfits⟩ := hab
  obtain ⟨-, hbare', hfits'⟩ := hbc
  rw [check_eq_ok, and_iff_right hheight, and_iff_right (hbare.trans hbare')]
  refine ⟨fun h p _ => h p, fun h p => ?_⟩
  cases hp : b.sizeAt? p with
  | none => exact h p hp
  | some s =>
    have hfirst := hfits p
    have hlast := hfits' p
    rw [hp] at hfirst hlast
    exact hfirst.trans hlast

/-- The ends of a chain of compatible types are compatible if the middle type has a size at every
place where both ends have one. Types are compatible in both directions exactly if they are at most
64 steps high, agree without their sizes, and have sizes that write the same integer wherever both
have one. -/
theorem check_trans_and_mutual (a b c : Descriptor) :
    (check a b = .ok () → check b c = .ok () →
      (∀ p, (a.sizeAt? p).isSome → (c.sizeAt? p).isSome → (b.sizeAt? p).isSome) →
      check a c = .ok ()) ∧
    (check a b = .ok () ∧ check b a = .ok () ↔
      (a.height ≤ 64 ∧ b.height ≤ 64) ∧ a.bare = b.bare ∧
      ∀ p s s', a.sizeAt? p = some s → b.sizeAt? p = some s' →
        ∃ v : Int64, SizeIs s v.toInt ∧ SizeIs s' v.toInt) := by
  constructor
  · intro hab hbc hsizes
    rw [check_ends_iff hab hbc]
    intro p hp s hs s' hs'
    have hsome := hsizes p (Option.isSome_of_mem hs) (Option.isSome_of_mem hs')
    simp [hp] at hsome
  · simp only [check_eq_ok, ← sizesFit_both_iff, forall_and]
    constructor
    · rintro ⟨⟨ha, hbare, hab⟩, hb, -, hba⟩
      exact ⟨⟨ha, hb⟩, hbare, hab, hba⟩
    · rintro ⟨⟨ha, hb⟩, hbare, hab, hba⟩
      exact ⟨⟨ha, hbare, hab⟩, hb, hbare.symm, hba⟩

theorem check_trans_and_mutual_shrinking :
    check (node (.array (some "5") (.scalar "int"))) (node (.array (some "3") (.scalar "int"))) =
      .ok () := by
  refine (check_trans_and_mutual _ (node (.array (some "4") (.scalar "int"))) _).1 rfl rfl ?_
  intro p hfive _
  cases p with
  | nil => rfl
  | cons s p => cases s <;> exact hfive

/-- An array of two takes an array of unknown size, and that one an array of three. -/
example : check (node (.array (some "2") (.scalar "int"))) (node (.array none (.scalar "int"))) =
      .ok () ∧
    check (node (.array none (.scalar "int"))) (node (.array (some "3") (.scalar "int"))) =
      .ok () ∧
    check (node (.array (some "2") (.scalar "int"))) (node (.array (some "3") (.scalar "int"))) =
      .error (.mismatch (node (.array (some "3") (.scalar "int"))) .inferred (.capacity 2 3)) :=
  ⟨rfl, rfl, rfl⟩

end Check

end Descriptor

end ScriptKit
