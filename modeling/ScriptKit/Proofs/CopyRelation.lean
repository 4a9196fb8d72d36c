import ScriptKit.Proofs.Levels
import ScriptKit.Proofs.TableOrder

/-! When a value is a copy of another. Arrays and maps are new cells with copies in them, bindings
keep their flags, and all else is shared. -/
namespace ScriptKit

namespace Value

def isLeaf : Value → Bool
  | array _ | map _ | binding _ _ _ => false
  | _ => true

def isContainer : Value → Bool
  | array _ | map _ => true
  | _ => false

def isPlain : Value → Bool
  | int _ | bool _ | string _ => true
  | float x => !x.isNaN
  | _ => false

theorem isContainer_of_isLeaf {v : Value} (h : v.isLeaf = true) : v.isContainer = false := by
  cases v <;> first | rfl | cases h

/-- The plain leaves are those that equal themselves. -/
theorem equals_self {v : Value} (h : v.isLeaf = true) : v.equals v = v.isPlain := by
  cases v with
  | array _ | map _ | binding _ _ _ => cases h
  | float x => simp [equals, unbind, isPlain, Binary64.same]
  | _ => simp [equals, unbind, isPlain]

end Value

namespace Store

/-- One value is a part of another: an element, one of a pair, or the value of a binding. -/
def Part (s : Store) (v w : Value) : Prop := v.isLeaf = false ∧ s.Holds v w

/-- One value is the other or a part of it, directly or through others. -/
def Parts (s : Store) : Value → Value → Prop := Relation.ReflTransGen s.Part

/-- What a comparison of a value looks into; first parts of pairs are not compared. -/
def compared (s : Store) : Value → List Value
  | .array a => s.array a
  | .map m => (s.map m).givenValues
  | .binding v _ _ => [v]
  | _ => []

/-- All leaves that a comparison comes to are plain. -/
def PlainLeaves (s : Store) (v : Value) : Prop :=
  ∀ x : Value, Relation.ReflTransGen (fun v w => w ∈ s.compared v) v x → x.isLeaf = true →
    x.isPlain = true

section

variable {s : Store} {v w : Value}

theorem Parts.reaches (h : s.Parts v w) : s.Reaches v w :=
  h.lift id fun _ _ hp => hp.2

theorem compared_of_isLeaf (s : Store) (h : v.isLeaf = true) : s.compared v = [] := by
  cases v <;> first | rfl | cases h

theorem plainLeaves_of_isLeaf (h : v.isLeaf = true) : s.PlainLeaves v ↔ v.isPlain = true := by
  constructor
  · intro hp
    exact hp v .refl h
  · intro hp x hx _
    rcases Relation.ReflTransGen.cases_head hx with rfl | ⟨w, hw, -⟩
    · exact hp
    · rw [compared_of_isLeaf s h] at hw
      cases hw

theorem plainLeaves_iff (h : v.isLeaf = false) :
    s.PlainLeaves v ↔ ∀ w ∈ s.compared v, s.PlainLeaves w := by
  constructor
  · intro hp w hw x hx
    exact hp x (.head hw hx)
  · intro hp x hx hleaf
    rcases Relation.ReflTransGen.cases_head hx with rfl | ⟨w, hw, hwx⟩
    · rw [h] at hleaf
      cases hleaf
    · exact hp w hw x hwx hleaf

end

/-- In the second store, a value is a copy of another as it is in the first. -/
inductive IsCopy (s t : Store) : Value → Value → Prop
  | leaf {v : Value} (h : v.isLeaf = true) : IsCopy s t v v
  | binding {v w : Value} (isMutable isBuiltin : Bool) (h : IsCopy s t v w) :
      IsCopy s t (.binding v isMutable isBuiltin) (.binding w isMutable isBuiltin)
  | array {a b : ArrayRef} (hnew : s.arrays.size ≤ b.index) (hb : b.index < t.arrays.size)
      (hlength : (s.array a).length = (t.array b).length)
      (hitems : ∀ p ∈ (s.array a).zip (t.array b), IsCopy s t p.1 p.2) :
      IsCopy s t (.array a) (.array b)
  | map {m n : MapRef} (hnew : s.maps.size ≤ n.index) (hn : n.index < t.maps.size)
      (hsize : (s.map m).size = (t.map n).size)
      (hkeys : ∀ p ∈ (s.map m).entries.zip (t.map n).entries, p.2.1 = p.1.1)
      (hfirst : ∀ p ∈ (s.map m).entries.zip (t.map n).entries, IsCopy s t p.1.2.1 p.2.2.1)
      (hsecond : ∀ p ∈ (s.map m).entries.zip (t.map n).entries, IsCopy s t p.1.2.2 p.2.2.2) :
      IsCopy s t (.map m) (.map n)

theorem exists_mem_zip_left {α β : Type} {xs : List α} {ys : List β}
    (h : xs.length = ys.length) {x : α} (hx : x ∈ xs) : ∃ y, (x, y) ∈ xs.zip ys := by
  rw [← List.map_fst_zip (Nat.le_of_eq h)] at hx
  obtain ⟨p, hp, rfl⟩ := List.mem_map.1 hx
  exact ⟨p.2, hp⟩

theorem exists_mem_zip_right {α β : Type} {xs : List α} {ys : List β}
    (h : xs.length = ys.length) {y : β} (hy : y ∈ ys) : ∃ x, (x, y) ∈ xs.zip ys := by
  rw [← List.map_snd_zip (Nat.le_of_eq h.symm)] at hy
  obtain ⟨p, hp, rfl⟩ := List.mem_map.1 hy
  exact ⟨p.1, hp⟩

theorem pair_mem_of_mem_zip {s : Store} {m : MapRef} {entries : List (MapKey × Value × Value)}
    {p : (MapKey × Value × Value) × (MapKey × Value × Value)}
    (h : p ∈ (s.map m).entries.zip entries) : p.1.2 ∈ (s.map m).pairs :=
  List.mem_map.2 ⟨p.1, (List.of_mem_zip h).1, rfl⟩

namespace IsCopy

variable {s t u : Store} {v w : Value}

/-- A copy stays one as long as its new cells stay as they are. -/
theorem congr (h : s.IsCopy t v w)
    (harrays : ∀ b : ArrayRef, s.arrays.size ≤ b.index → b.index < t.arrays.size →
      b.index < u.arrays.size ∧ u.array b = t.array b)
    (hmaps : ∀ n : MapRef, s.maps.size ≤ n.index → n.index < t.maps.size →
      n.index < u.maps.size ∧ u.map n = t.map n) : s.IsCopy u v w := by
  induction h with
  | leaf h => exact .leaf h
  | binding isMutable isBuiltin _ ih => exact .binding isMutable isBuiltin ih
  | array hnew hb hlength _ ih =>
    obtain ⟨hu, heq⟩ := harrays _ hnew hb
    refine .array hnew hu ?_ ?_
    · rw [heq, hlength]
    · rw [heq]
      exact ih
  | map hnew hn hsize hkeys _ _ ihfirst ihsecond =>
    obtain ⟨hu, heq⟩ := hmaps _ hnew hn
    refine .map hnew hu ?_ ?_ ?_ ?_
    · rw [heq, hsize]
    · rw [heq]
      exact hkeys
    · rw [heq]
      exact ihfirst
    · rw [heq]
      exact ihsecond

theorem grow (h : s.IsCopy t v w) (hg : t.Grows u) : s.IsCopy u v w :=
  h.congr (fun b _ hb => ⟨Nat.lt_of_lt_of_le hb hg.arrays, hg.array b hb⟩)
    fun n _ hn => ⟨Nat.lt_of_lt_of_le hn hg.maps, hg.map n hn⟩

theorem valid (h : s.IsCopy t v w) (hg : s.Grows t) (hv : s.Valid v) : t.Valid w := by
  induction h with
  | leaf _ => exact hg.valid hv
  | binding _ _ _ ih => exact ih hv
  | array _ hb _ _ _ => exact hb
  | map _ hn _ _ _ _ _ _ => exact hn

/-- Every part of a copy is a copy of a part. -/
theorem part (h : s.IsCopy t v w) {y : Value} (hy : t.Part w y) :
    ∃ x, s.Part v x ∧ s.IsCopy t x y := by
  obtain ⟨hnode, hholds⟩ := hy
  cases h with
  | leaf h => rw [h] at hnode; cases hnode
  | binding _ _ h =>
    obtain rfl := List.mem_singleton.1 hholds
    exact ⟨_, ⟨rfl, List.mem_singleton.2 rfl⟩, h⟩
  | array _ _ hlength hitems =>
    obtain ⟨x, hx⟩ := exists_mem_zip_right hlength hholds
    exact ⟨x, ⟨rfl, (List.of_mem_zip hx).1⟩, hitems _ hx⟩
  | @map m n _ _ hsize _ hfirst hsecond =>
    obtain ⟨q, hq, hyq⟩ := List.mem_flatMap.1 hholds
    obtain ⟨e, he, rfl⟩ := List.mem_map.1 hq
    obtain ⟨d, hd⟩ := exists_mem_zip_right hsize he
    simp only [List.mem_cons, List.not_mem_nil, or_false] at hyq
    rcases hyq with rfl | rfl
    · exact ⟨_, ⟨rfl, mem_held_key (pair_mem_of_mem_zip hd)⟩, hfirst _ hd⟩
    · exact ⟨_, ⟨rfl, mem_held_value (pair_mem_of_mem_zip hd)⟩, hsecond _ hd⟩

theorem parts (h : s.IsCopy t v w) {y : Value} (hy : t.Parts w y) :
    ∃ x, s.Parts v x ∧ s.IsCopy t x y := by
  induction hy with
  | refl => exact ⟨v, .refl, h⟩
  | tail _ hstep ih =>
    obtain ⟨x, hx, hcopy⟩ := ih
    obtain ⟨x', hx', hcopy'⟩ := hcopy.part hstep
    exact ⟨x', hx.tail hx', hcopy'⟩

theorem new (h : s.IsCopy t v w) {c : Value} (hc : t.Parts w c)
    (hcontainer : c.isContainer = true) :
    t.Valid c ∧ ¬ s.Valid c := by
  obtain ⟨x, -, hcopy⟩ := h.parts hc
  cases hcopy with
  | leaf h => rw [Value.isContainer_of_isLeaf h] at hcontainer; cases hcontainer
  | binding _ _ _ => cases hcontainer
  | array hnew hb => exact ⟨hb, Nat.not_lt_of_le hnew⟩
  | map hnew hn => exact ⟨hn, Nat.not_lt_of_le hnew⟩

end IsCopy

section Inspect

variable {s t : Store} {v w : Value} {element element' : Value → Option String}

theorem inspectWith_array_eq {a b : ArrayRef} (hlength : (s.array a).length = (t.array b).length)
    (h : ∀ p ∈ (s.array a).zip (t.array b), element' p.2 = element p.1) :
    t.inspectWith element' (.array b) = s.inspectWith element (.array a) := by
  have hitems : (s.array a).mapM element = (t.array b).mapM element' :=
    mapM_eq_of_forall₂ (List.forall₂_iff_zip.2 ⟨hlength, fun hp => (h _ hp).symm⟩)
  rw [inspectWith, inspectWith, hitems]

theorem inspectWith_map_eq {m n : MapRef} (hsize : (s.map m).size = (t.map n).size)
    (hfirst : ∀ p ∈ (s.map m).entries.zip (t.map n).entries, element' p.2.2.1 = element p.1.2.1)
    (hsecond : ∀ p ∈ (s.map m).entries.zip (t.map n).entries, element' p.2.2.2 = element p.1.2.2) :
    t.inspectWith element' (.map n) = s.inspectWith element (.map m) := by
  rw [inspectWith, inspectWith, MapCell.pairs, MapCell.pairs, Table.values, Table.values]
  congr 1
  refine (mapM_eq_of_forall₂ ?_).symm
  rw [List.forall₂_map_left_iff, List.forall₂_map_right_iff]
  refine List.forall₂_iff_zip.2 ⟨hsize, fun {d e} hp => ?_⟩
  obtain ⟨k, key, value⟩ := d
  obtain ⟨k', key', value'⟩ := e
  simp only [hfirst _ hp, hsecond _ hp]

theorem inspectLevels_binding (s : Store) (n : Nat) (v : Value) (isMutable isBuiltin : Bool) :
    s.inspectLevels n (.binding v isMutable isBuiltin) = s.inspectLevels n v := by
  cases n <;> rfl

/-- A copy has the text of its original, if the leaves have their texts still. -/
theorem IsCopy.inspectLevels_eq (h : s.IsCopy t v w)
    (hleaf : ∀ x : Value, s.Parts v x → x.isLeaf = true →
      ∀ n, t.inspectLevels n x = s.inspectLevels n x) (n : Nat) :
    t.inspectLevels n w = s.inspectLevels n v := by
  induction h generalizing n with
  | leaf h => exact hleaf _ .refl h n
  | binding isMutable isBuiltin _ ih =>
    rw [inspectLevels_binding, inspectLevels_binding]
    exact ih (fun x hx => hleaf x (.head ⟨rfl, List.mem_singleton.2 rfl⟩ hx)) n
  | array _ _ hlength _ ih =>
    cases n with
    | zero => exact inspectWith_array_eq hlength fun _ _ => rfl
    | succ n =>
      refine inspectWith_array_eq hlength fun p hp => ih p hp (fun x hx => ?_) n
      exact hleaf x (.head ⟨rfl, (List.of_mem_zip hp).1⟩ hx)
  | @map m _ _ _ hsize _ _ _ ihfirst ihsecond =>
    cases n with
    | zero => exact inspectWith_map_eq hsize (fun _ _ => rfl) fun _ _ => rfl
    | succ n =>
      refine inspectWith_map_eq hsize (fun p hp => ihfirst p hp (fun x hx => ?_) n)
        fun p hp => ihsecond p hp (fun x hx => ?_) n
      · exact hleaf x (.head ⟨rfl, mem_held_key (pair_mem_of_mem_zip hp)⟩ hx)
      · exact hleaf x (.head ⟨rfl, mem_held_value (pair_mem_of_mem_zip hp)⟩ hx)

end Inspect

section Equality

variable {s t : Store} {v w : Value} {element : Value → Value → Option Bool}

theorem equalWith_array {a b : ArrayRef} (hne : a ≠ b)
    (hlength : (s.array a).length = (s.array b).length) :
    s.equalWith element (.array a) (.array b) =
      ((s.array a).zip (s.array b)).allM fun p => element p.1 p.2 :=
  (if_neg hne).trans (if_pos hlength)

theorem equalWith_map {m n : MapRef} (hne : m ≠ n) (hsize : (s.map m).size = (s.map n).size) :
    s.equalWith element (.map m) (.map n) = (s.map m).entries.allM fun p =>
      match (s.map n).find? p.1 with
      | some (_, y) => element p.2.2 y
      | none => some false :=
  (if_neg hne).trans (if_pos hsize)

theorem equalWith_leaf (s : Store) (element : Value → Value → Option Bool)
    (h : v.isLeaf = true) : s.equalWith element v v = some v.isPlain := by
  rw [← Value.equals_self h]
  cases v <;> first | rfl | cases h

/-- One level of the comparison, given that of what cells hold. -/
theorem decides_equalWith_array {a b : ArrayRef} (hg : s.Grows t) (ha : a.index < s.arrays.size)
    (hnew : s.arrays.size ≤ b.index) (hlength : (s.array a).length = (t.array b).length)
    (h : ∀ p ∈ (s.array a).zip (t.array b), Decides (element p.1 p.2) (s.PlainLeaves p.1)) :
    Decides (t.equalWith element (.array a) (.array b)) (s.PlainLeaves (.array a)) := by
  have hne : a ≠ b := fun he => absurd (he ▸ ha) (Nat.not_lt_of_le hnew)
  rw [equalWith_array hne (by rwa [hg.array a ha]), hg.array a ha]
  obtain ⟨answer, hanswer, hiff⟩ := Decides.allM h
  refine ⟨answer, hanswer, hiff.trans ?_⟩
  rw [plainLeaves_iff rfl]
  constructor
  · intro hall x hx
    obtain ⟨y, hy⟩ := exists_mem_zip_left hlength hx
    exact hall _ hy
  · intro hall p hp
    exact hall p.1 (List.of_mem_zip hp).1

theorem decides_equalWith_map {m n : MapRef} (hg : s.Grows t) (hm : m.index < s.maps.size)
    (hnew : s.maps.size ≤ n.index) (hsorted : (t.map n).Sorted)
    (hsize : (s.map m).size = (t.map n).size)
    (hkeys : ∀ p ∈ (s.map m).entries.zip (t.map n).entries, p.2.1 = p.1.1)
    (h : ∀ p ∈ (s.map m).entries.zip (t.map n).entries,
      Decides (element p.1.2.2 p.2.2.2) (s.PlainLeaves p.1.2.2)) :
    Decides (t.equalWith element (.map m) (.map n)) (s.PlainLeaves (.map m)) := by
  have hne : m ≠ n := fun he => absurd (he ▸ hm) (Nat.not_lt_of_le hnew)
  rw [equalWith_map hne (by rwa [hg.map m hm]), hg.map m hm]
  have hentries : ∀ d ∈ (s.map m).entries, Decides (match (t.map n).find? d.1 with
      | some (_, y) => element d.2.2 y
      | none => some false) (s.PlainLeaves d.2.2) := by
    intro d hd
    obtain ⟨e, he⟩ := exists_mem_zip_left hsize hd
    have hfind : (t.map n).find? d.1 = some e.2 := by
      rw [hsorted.find?_eq_some_iff, ← hkeys _ he]
      exact (List.of_mem_zip he).2
    rw [hfind]
    exact h _ he
  obtain ⟨answer, hanswer, hiff⟩ := Decides.allM hentries
  refine ⟨answer, hanswer, hiff.trans ?_⟩
  rw [plainLeaves_iff rfl, compared, MapCell.givenValues, MapCell.pairs, Table.values,
    List.map_map, List.forall_mem_map]
  rfl

theorem IsCopy.decides_equalLevels (h : s.IsCopy t v w) (hg : s.Grows t) (hs : s.WellFormed)
    (ht : t.WellFormed) (hv : s.Valid v) {n : Nat} (hn : s.Within n v) :
    Decides (t.equalLevels n v w) (s.PlainLeaves v) := by
  induction h generalizing n with
  | leaf h =>
    rw [plainLeaves_of_isLeaf h]
    cases n <;> exact ⟨_, equalWith_leaf t _ h, Iff.rfl⟩
  | @binding v w isMutable isBuiltin _ ih =>
    rw [plainLeaves_iff rfl, compared, List.forall_mem_singleton]
    cases n with
    | zero => exact ih hv (show s.Within 0 v from hn)
    | succ n => exact ih hv (show s.Within (n + 1) v from hn)
  | @array a b hnew _ hlength _ ih =>
    cases n with
    | zero =>
      refine decides_equalWith_array hg hv hnew hlength fun p hp => ?_
      exact absurd (List.of_mem_zip hp).1 (hn.notMem_held p.1)
    | succ n =>
      refine decides_equalWith_array hg hv hnew hlength fun p hp => ?_
      have hx := (List.of_mem_zip hp).1
      exact ih p hp (hs.closed (.array a) _ rfl hx) (hn _ hx)
  | @map m n' hnew _ hsize hkeys _ _ _ ih =>
    cases n with
    | zero =>
      refine decides_equalWith_map hg hv hnew (ht.sorted n') hsize hkeys fun p hp => ?_
      exact absurd (mem_held_value (pair_mem_of_mem_zip hp)) (hn.notMem_held _)
    | succ n =>
      refine decides_equalWith_map hg hv hnew (ht.sorted n') hsize hkeys fun p hp => ?_
      have hx := mem_held_value (pair_mem_of_mem_zip hp)
      exact ih p hp (hs.closed (.map m) _ rfl hx) (hn _ hx)

end Equality

end Store
end ScriptKit
