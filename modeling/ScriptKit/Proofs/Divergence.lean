import ScriptKit.Proofs.Compatibility

/-! The first place at which two types part. A check visits a type before the types within it and a
key before a value; the error that it returns is about the first place that does not pass. -/
namespace ScriptKit

/-- A step from a type to a type within it. -/
inductive Step
  | child | key | value
deriving DecidableEq, Repr

abbrev Path := List Step

/-- One place is visited before another: a type before the places within it, a key with all that is
within it before a value. -/
inductive Path.Before : Path → Path → Prop
  | parent {s : Step} {p : Path} : Before [] (s :: p)
  | key {q p : Path} : Before (.key :: q) (.value :: p)
  | deeper {s : Step} {q p : Path} (h : Before q p) : Before (s :: q) (s :: p)

def MapSide.step : MapSide → Step
  | key => .key
  | value => .value

namespace Operand

/-- What belongs to the operand, out of what belongs to the declared and to the inferred one. -/
def pick {α : Type} : Operand → α → α → α
  | declared, d, _ => d
  | inferred, _, i => i

def other : Operand → Operand
  | declared => inferred
  | inferred => declared

@[simp] theorem pick_self {α : Type} (operand : Operand) (a : α) : operand.pick a a = a := by
  cases operand <;> rfl

end Operand

/-- The place at which a mismatch shows, seen from the types that are at fault: a type that is
missing leaves the place below them empty. -/
def Mismatch.site : Mismatch → Path
  | missingChild => [.child]
  | missingSide side => [side.step]
  | _ => []

namespace Descriptor

/-- The type one step further down. -/
def part? : Descriptor → Step → Option Descriptor
  | node n, .child => n.child?.map node
  | map key _, .key => key
  | map _ value, .value => value
  | _, _ => none

def at? (d : Descriptor) : Path → Option Descriptor
  | [] => some d
  | s :: p => (d.part? s).bind fun e => e.at? p

theorem at?_cons (d : Descriptor) (s : Step) (p : Path) :
    d.at? (s :: p) = (d.part? s).bind fun e => e.at? p := rfl

theorem at?_cons_of_part? {d e : Descriptor} {s : Step} (h : d.part? s = some e) (p : Path) :
    d.at? (s :: p) = e.at? p := by rw [at?_cons, h, Option.bind_some]

/-- Two types have the same at one place: nothing, maps, or nodes of one kind whose sizes fit. -/
inductive Fits : Option Descriptor → Option Descriptor → Prop
  | absent : Fits none none
  | nodes {m n : NodeType} (hkind : m.kind = n.kind) (hsize : SizesFit m.size? n.size?) :
      Fits (some (node m)) (some (node n))
  | maps {key value key' value' : Option Descriptor} :
      Fits (some (map key value)) (some (map key' value'))

/-- What the types have at a place passes the check that is made there. -/
def Passes (d i : Descriptor) (p : Path) : Prop := Fits (d.at? p) (i.at? p)

/-- What is wrong between two types at one place, by which operand, and for what reason. -/
inductive LocalFault : Descriptor → Descriptor → Operand → Mismatch → Prop
  | kinds {m n : NodeType} (hkind : m.kind ≠ n.kind) :
      LocalFault (node m) (node n) .inferred (.kinds m.kind n.kind)
  | declaredSize {m n : NodeType} {s s' : String} (hkind : m.kind = n.kind)
      (hs : m.size? = some s) (hs' : n.size? = some s') (h : ∀ v : Int64, ¬ SizeIs s v.toInt) :
      LocalFault (node m) (node n) .declared (.invalidSize s)
  | inferredSize {m n : NodeType} {s s' : String} {v : Int64} (hkind : m.kind = n.kind)
      (hs : m.size? = some s) (hs' : n.size? = some s') (hv : SizeIs s v.toInt)
      (h : ∀ v : Int64, ¬ SizeIs s' v.toInt) :
      LocalFault (node m) (node n) .inferred (.invalidSize s')
  | capacity {m n : NodeType} {s s' : String} {capacity needed : Int64} (hkind : m.kind = n.kind)
      (hs : m.size? = some s) (hs' : n.size? = some s') (hc : SizeIs s capacity.toInt)
      (hn : SizeIs s' needed.toInt) (hlt : capacity.toInt < needed.toInt) :
      LocalFault (node m) (node n) .inferred (.capacity capacity needed)
  | missingChild {m n : NodeType} {operand : Operand} (hkind : m.kind = n.kind)
      (hsize : SizesFit m.size? n.size?) (hnone : (operand.pick m n).child? = none)
      (hsome : (operand.other.pick m n).child?.isSome) :
      LocalFault (node m) (node n) operand .missingChild
  | nodeForMap {n : NodeType} {key value : Option Descriptor} :
      LocalFault (map key value) (node n) .inferred .shapes
  | mapForNode {n : NodeType} {key value : Option Descriptor} :
      LocalFault (node n) (map key value) .inferred .shapes
  | missingSide {key value key' value' : Option Descriptor} {operand : Operand} {side : MapSide}
      (hsome : ((operand.pick (map key value) (map key' value')).part? side.step).isSome)
      (hnone : (operand.other.pick (map key value) (map key' value')).part? side.step = none) :
      LocalFault (map key value) (map key' value') operand (.missingSide side)

end Descriptor

namespace NodeType

theorem readSize_eq_error {n : NodeType} {operand : Operand} {size : String} {e : TypeError} :
    n.readSize operand size = .error e ↔
      e = .mismatch (.node n) operand (.invalidSize size) ∧ ∀ v : Int64, ¬ SizeIs size v.toInt := by
  simp only [← sizeValue?_eq_some, readSize]
  split <;> rename_i h <;> simp [h, eq_comm]

/-- The head of two nodes is at fault in one way at most, and that fault is returned. -/
theorem localFault_of_checkHead {m n : NodeType} {e : TypeError}
    (h : checkHead m n = .error e) :
    ∃ operand reason, e = .mismatch (operand.pick (.node m) (.node n)) operand reason ∧
      reason.site = [] ∧ Descriptor.LocalFault (.node m) (.node n) operand reason := by
  unfold checkHead at h
  split at h
  · rename_i hkind
    unfold checkSize at h
    split at h
    · rename_i s s' hs hs'
      rcases Outcome.bind_eq_error.1 h with h | ⟨capacity, hcapacity, h⟩
      · obtain ⟨rfl, hinvalid⟩ := readSize_eq_error.1 h
        exact ⟨.declared, _, rfl, rfl, .declaredSize hkind hs hs' hinvalid⟩
      · rw [readSize_eq_ok] at hcapacity
        rcases Outcome.bind_eq_error.1 h with h | ⟨needed, hneeded, h⟩
        · obtain ⟨rfl, hinvalid⟩ := readSize_eq_error.1 h
          exact ⟨.inferred, _, rfl, rfl, .inferredSize hkind hs hs' hcapacity hinvalid⟩
        · rw [readSize_eq_ok] at hneeded
          split at h
          · rename_i hlt
            cases h
            exact ⟨.inferred, _, rfl, rfl,
              .capacity hkind hs hs' hcapacity hneeded (Int64.lt_iff_toInt_lt.1 hlt)⟩
          · cases h
    · cases h
  · rename_i hkind
    cases h
    exact ⟨.inferred, _, rfl, rfl, .kinds hkind⟩

theorem checkChild_eq_error {check : NodeType → NodeType → Except TypeError Unit} {m n : NodeType}
    {e : TypeError} (h : checkChild check m n = .error e) :
    (∃ c c', m.child? = some c ∧ n.child? = some c' ∧ check c c' = .error e) ∨
      ∃ operand : Operand, e = .mismatch (operand.pick (.node m) (.node n)) operand .missingChild ∧
        (operand.pick m n).child? = none ∧ (operand.other.pick m n).child?.isSome := by
  cases m with
  | leaf kind size =>
    cases n with
    | leaf kind' size' => cases h
    | container kind' size' child' =>
      cases h
      exact .inr ⟨.declared, rfl, rfl, rfl⟩
  | container kind size child =>
    cases n with
    | leaf kind' size' =>
      cases h
      exact .inr ⟨.inferred, rfl, rfl, rfl⟩
    | container kind' size' child' => exact .inl ⟨child, child', rfl, rfl, h⟩

end NodeType

namespace Descriptor

variable {d i : Descriptor}

theorem checkSide_eq_error {check : Descriptor → Descriptor → Except TypeError Unit}
    {side : MapSide} {a b : Option Descriptor} {e : TypeError}
    (h : checkSide check d i side a b = .error e) :
    (∃ x y, a = some x ∧ b = some y ∧ check x y = .error e) ∨
      ∃ operand : Operand, e = .mismatch (operand.pick d i) operand (.missingSide side) ∧
        (operand.pick a b).isSome ∧ operand.other.pick a b = none := by
  cases a with
  | none =>
    cases b with
    | none => cases h
    | some y =>
      cases h
      exact .inr ⟨.inferred, rfl, rfl, rfl⟩
  | some x =>
    cases b with
    | none =>
      cases h
      exact .inr ⟨.declared, rfl, rfl, rfl⟩
    | some y => exact .inl ⟨x, y, rfl, rfl, h⟩

theorem checkLevels_node (levels : Nat) (m n : NodeType) :
    checkLevels levels (node m) (node n) = m.checkLevels levels n := by
  cases levels <;> rfl

theorem induct_part {motive : Descriptor → Prop}
    (step : ∀ d, (∀ s e, d.part? s = some e → motive e) → motive d) (d : Descriptor) :
    motive d := by
  induction d with
  | node n =>
    induction n with
    | leaf kind size =>
      refine step _ fun s e he => ?_
      cases s <;> cases he
    | container kind size child ih =>
      refine step _ fun s e he => ?_
      cases s with
      | child =>
        cases he
        exact ih
      | key | value => cases he
  | map key value hkey hvalue =>
    refine step _ fun s e he => ?_
    cases s with
    | child => cases he
    | key => exact hkey e he
    | value => exact hvalue e he

theorem compat_node {m n : NodeType} : Compat (node m) (node n) ↔ m.Compat n := by
  refine ⟨fun h => ?_, .node⟩
  cases h with
  | node h => exact h

theorem rel_map_node {a b : Option NodeType} :
    Option.Rel Compat (a.map node) (b.map node) ↔ Option.Rel NodeType.Compat a b := by
  cases a <;> cases b <;> simp [compat_node]

theorem compat_iff_part :
    Compat d i ↔ Fits (some d) (some i) ∧ ∀ s, Option.Rel Compat (d.part? s) (i.part? s) := by
  constructor
  · intro h
    cases h with
    | node h =>
      obtain ⟨⟨hkind, hsize⟩, hchild⟩ := NodeType.compat_iff.1 h
      refine ⟨.nodes hkind hsize, fun s => ?_⟩
      cases s with
      | child => exact rel_map_node.2 hchild
      | key | value => exact .none
    | map hkey hvalue =>
      refine ⟨.maps, fun s => ?_⟩
      cases s with
      | child => exact .none
      | key => exact hkey
      | value => exact hvalue
  · rintro ⟨hfits, hparts⟩
    cases hfits with
    | nodes hkind hsize =>
      have hchild := rel_map_node.1 (hparts .child)
      exact .node (NodeType.compat_iff.2 ⟨⟨hkind, hsize⟩, hchild⟩)
    | maps => exact .map (hparts .key) (hparts .value)

theorem fits_bind_at? {p : Path} (hp : ∀ {x y}, Compat x y → Passes x y p)
    {a b : Option Descriptor} (h : Option.Rel Compat a b) :
    Fits (a.bind fun x => x.at? p) (b.bind fun y => y.at? p) := by
  cases h with
  | some h => exact hp h
  | none => exact .absent

/-- Types are compatible if every place passes. -/
theorem compat_iff_passes : Compat d i ↔ ∀ p, Passes d i p := by
  constructor
  · intro h p
    induction p generalizing d i with
    | nil => exact (compat_iff_part.1 h).1
    | cons s p ih =>
      exact fits_bind_at? ih ((compat_iff_part.1 h).2 s)
  · intro h
    induction d using induct_part generalizing i with
    | step d ih =>
      refine compat_iff_part.2 ⟨h [], fun s => ?_⟩
      have hplace := h [s]
      rw [Passes, at?_cons, at?_cons] at hplace
      cases hd : d.part? s with
      | none =>
        cases hi : i.part? s with
        | none => exact .none
        | some y =>
          rw [hd, hi] at hplace
          cases hplace
      | some x =>
        cases hi : i.part? s with
        | none =>
          rw [hd, hi] at hplace
          cases hplace
        | some y =>
          refine .some (ih s x hd fun p => ?_)
          have hp := h (s :: p)
          rwa [Passes, at?_cons_of_part? hd, at?_cons_of_part? hi] at hp

/-- A check comes to two types at a place after all that is visited before `site` below them has
passed. -/
structure ComesTo (d i : Descriptor) (p site : Path) (d' i' : Descriptor) : Prop where
  declared : d.at? p = some d'
  inferred : i.at? p = some i'
  before : ∀ q : Path, q.Before (p ++ site) → Passes d i q

theorem comesTo_self (d i : Descriptor) : ComesTo d i [] [] d i := ⟨rfl, rfl, nofun⟩

theorem comesTo_part {s : Step} (hroot : Passes d i [])
    (hkey : s = .value → ∀ q, Passes d i (.key :: q)) : ComesTo d i [] [s] d i := by
  refine ⟨rfl, rfl, fun q hq => ?_⟩
  cases hq with
  | parent => exact hroot
  | key => exact hkey rfl _
  | deeper hq => cases hq

/-- One step further up: what is visited first passes, and so does the key if the way leads to the
value. -/
theorem ComesTo.up {d' i' x y : Descriptor} {p site : Path} (h : ComesTo d' i' p site x y)
    {s : Step} (hd : d.part? s = some d') (hi : i.part? s = some i') (hroot : Passes d i [])
    (hkey : s = .value → ∀ q, Passes d i (.key :: q)) : ComesTo d i (s :: p) site x y := by
  refine ⟨?_, ?_, fun q hq => ?_⟩
  · rw [at?_cons_of_part? hd, h.declared]
  · rw [at?_cons_of_part? hi, h.inferred]
  · cases hq with
    | parent => exact hroot
    | key => exact hkey rfl _
    | deeper hq =>
      rw [Passes, at?_cons_of_part? hd, at?_cons_of_part? hi]
      exact h.before _ hq

/-- What an error says about two types that may be compared on so many levels. -/
def Explains (levels : Nat) (d i : Descriptor) : TypeError → Prop
  | .absent _ => False
  | .mismatch offending operand reason =>
    ∃ p d' i', p.length < levels ∧ ComesTo d i p reason.site d' i' ∧
      offending = operand.pick d' i' ∧ LocalFault d' i' operand reason
  | .tooDeep => ∃ p d' i', p.length = levels ∧ ComesTo d i p [] d' i'

theorem Explains.up {levels : Nat} {d' i' : Descriptor} {e : TypeError}
    (h : Explains levels d' i' e) {s : Step} (hd : d.part? s = some d') (hi : i.part? s = some i')
    (hroot : Passes d i []) (hkey : s = .value → ∀ q, Passes d i (.key :: q)) :
    Explains (levels + 1) d i e := by
  cases e with
  | absent operand => exact h
  | mismatch offending operand reason =>
    obtain ⟨p, x, y, hp, hcomes, hoffending, hfault⟩ := h
    exact ⟨s :: p, x, y, Nat.succ_lt_succ hp, hcomes.up hd hi hroot hkey, hoffending, hfault⟩
  | tooDeep =>
    obtain ⟨p, x, y, hp, hcomes⟩ := h
    exact ⟨s :: p, x, y, congrArg (· + 1) hp, hcomes.up hd hi hroot hkey⟩

theorem passes_key_of_checkSide {key value key' value' : Option Descriptor} {levels : Nat}
    {declared inferred : Descriptor}
    (h : checkSide (checkLevels levels) declared inferred .key key key' = .ok ()) (q : Path) :
    Passes (map key value) (map key' value') (.key :: q) := by
  have hrel : Option.Rel Compat key key' := by
    rw [checkSide_eq_ok] at h
    simp only [checkLevels_eq_ok, rel_and_iff] at h
    exact h.1
  exact fits_bind_at? (fun h => compat_iff_passes.1 h q) hrel

section Step

variable {levels : Nat} {e : TypeError}
  (ih : ∀ {x y e}, checkLevels levels x y = .error e → Explains levels x y e)

include ih

theorem explains_node {m n : NodeType} (h : m.checkLevels (levels + 1) n = .error e) :
    Explains (levels + 1) (node m) (node n) e := by
  rw [NodeType.checkLevels] at h
  rcases Outcome.bind_eq_error.1 h with h | ⟨_, hhead, h⟩
  · obtain ⟨operand, reason, rfl, hsite, hfault⟩ := NodeType.localFault_of_checkHead h
    have hcomes : ComesTo (node m) (node n) [] reason.site (node m) (node n) := by
      rw [hsite]
      exact comesTo_self _ _
    exact ⟨[], _, _, Nat.zero_lt_succ _, hcomes, rfl, hfault⟩
  · obtain ⟨hkind, hsize⟩ := NodeType.checkHead_eq_ok.1 hhead
    have hroot : Passes (node m) (node n) [] := .nodes hkind hsize
    have hkey : Step.child = .value → ∀ q, Passes (node m) (node n) (.key :: q) := by rintro ⟨⟩
    rcases NodeType.checkChild_eq_error h with ⟨c, c', hc, hc', h⟩ | ⟨operand, rfl, hnone, hsome⟩
    · rw [← checkLevels_node] at h
      have hd : (node m).part? .child = some (node c) := by rw [part?, hc, Option.map_some]
      have hi : (node n).part? .child = some (node c') := by rw [part?, hc', Option.map_some]
      exact (ih h).up hd hi hroot hkey
    · exact ⟨[], _, _, Nat.zero_lt_succ _, comesTo_part hroot hkey, rfl,
        .missingChild hkind hsize hnone hsome⟩

/-- A side is at fault if it is missing in one map, or else within it. The value comes after the
key. -/
theorem explains_side {key value key' value' : Option Descriptor} (side : MapSide)
    (hkey : side = .value → ∀ q, Passes (map key value) (map key' value') (.key :: q))
    (h : checkSide (checkLevels levels) (map key value) (map key' value') side
      ((map key value).part? side.step) ((map key' value').part? side.step) = .error e) :
    Explains (levels + 1) (map key value) (map key' value') e := by
  have hroot : Passes (map key value) (map key' value') [] := .maps
  have hkey' : side.step = .value → ∀ q, Passes (map key value) (map key' value') (.key :: q) := by
    intro hs
    cases side with
    | key => cases hs
    | value => exact hkey rfl
  rcases checkSide_eq_error h with ⟨x, y, hx, hy, h⟩ | ⟨operand, rfl, hsome, hnone⟩
  · exact (ih h).up hx hy hroot hkey'
  · refine ⟨[], _, _, Nat.zero_lt_succ _, comesTo_part hroot hkey', rfl, ?_⟩
    cases operand <;> exact .missingSide hsome hnone

theorem explains_map {key value key' value' : Option Descriptor}
    (h : checkLevels (levels + 1) (map key value) (map key' value') = .error e) :
    Explains (levels + 1) (map key value) (map key' value') e := by
  rw [checkLevels] at h
  rcases Outcome.bind_eq_error.1 h with h | ⟨_, hkey, h⟩
  · exact explains_side ih .key (by rintro ⟨⟩) h
  · exact explains_side ih .value (fun _ => passes_key_of_checkSide hkey) h

end Step

/-- Every error is about the first place that does not pass. -/
theorem explains_of_checkLevels {levels : Nat} {e : TypeError}
    (h : checkLevels levels d i = .error e) : Explains levels d i e := by
  induction levels generalizing d i e with
  | zero =>
    cases h
    exact ⟨[], d, i, rfl, comesTo_self d i⟩
  | succ levels ih =>
    cases d with
    | node m =>
      cases i with
      | node n => exact explains_node ih h
      | map key value =>
        cases h
        exact ⟨[], _, _, Nat.zero_lt_succ _, comesTo_self _ _, rfl, .mapForNode⟩
    | map key value =>
      cases i with
      | node n =>
        cases h
        exact ⟨[], _, _, Nat.zero_lt_succ _, comesTo_self _ _, rfl, .nodeForMap⟩
      | map key' value' => exact explains_map ih h

/-- A mismatch names what its operand has at a place, at most 64 steps down, that both types have;
its reason is what is wrong there. All that is visited before that place passes, and so does all
that is visited before a type that is missing below it. Types are too deep only if both have a place
65 steps down and all that is visited before it passes. -/
theorem check_first_divergence (declared inferred : Descriptor) :
    (∀ offending operand reason,
      check declared inferred = .error (.mismatch offending operand reason) →
      ∃ p d i, p.length ≤ 64 ∧ declared.at? p = some d ∧ inferred.at? p = some i ∧
        offending = operand.pick d i ∧ LocalFault d i operand reason ∧
        ∀ q : Path, q.Before (p ++ reason.site) → Passes declared inferred q) ∧
    (check declared inferred = .error .tooDeep →
      ∃ p d i, p.length = 65 ∧ declared.at? p = some d ∧ inferred.at? p = some i ∧
        ∀ q : Path, q.Before p → Passes declared inferred q) := by
  constructor
  · intro offending operand reason h
    obtain ⟨p, d, i, hp, hcomes, hoffending, hfault⟩ := explains_of_checkLevels h
    exact ⟨p, d, i, Nat.le_of_lt_succ hp, hcomes.declared, hcomes.inferred, hoffending, hfault,
      hcomes.before⟩
  · intro h
    obtain ⟨p, d, i, hp, hcomes⟩ := explains_of_checkLevels h
    have hbefore := hcomes.before
    rw [List.append_nil] at hbefore
    exact ⟨p, d, i, hp, hcomes.declared, hcomes.inferred, hbefore⟩

/-- Keys that differ are met before a value that is missing. -/
example :
    check (map (some (node (.scalar "int"))) (some (node (.scalar "int"))))
      (map (some (node (.scalar "text"))) none) =
    .error (.mismatch (node (.scalar "text")) .inferred (.kinds "int" "text")) := rfl

end Descriptor
end ScriptKit
