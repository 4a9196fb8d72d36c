import Mathlib.Data.List.Forall2
import ScriptKit.Proofs.Growth
import ScriptKit.Store.Structure

/-! Texts of values without a loop. They end, and they change neither with more levels than a value
has nor with cells that the value does not reach. -/
namespace ScriptKit

section Lists

variable {α β γ : Type}

theorem exists_mapM {f : α → Option β} {xs : List α} (h : ∀ x ∈ xs, ∃ y, f x = some y) :
    ∃ ys, xs.mapM f = some ys := by
  induction xs with
  | nil => exact ⟨[], rfl⟩
  | cons x xs ih =>
    obtain ⟨y, hy⟩ := h x List.mem_cons_self
    obtain ⟨ys, hys⟩ := ih fun x hx => h x (List.mem_cons_of_mem _ hx)
    exact ⟨y :: ys, by simp [hy, hys]⟩

theorem exists_of_mapM {f : α → Option β} {xs : List α} {ys : List β} (h : xs.mapM f = some ys) :
    ∀ x ∈ xs, ∃ y, f x = some y := by
  induction xs generalizing ys with
  | nil => exact nofun
  | cons x xs ih =>
    rw [List.mapM_cons] at h
    obtain ⟨y, hy, h⟩ := Option.bind_eq_some_iff.1 h
    obtain ⟨rest, hrest, -⟩ := Option.bind_eq_some_iff.1 h
    exact List.forall_mem_cons.2 ⟨⟨y, hy⟩, ih hrest⟩

theorem mapM_eq_of_forall₂ {f : α → Option γ} {g : β → Option γ} {xs : List α} {ys : List β}
    (h : List.Forall₂ (fun x y => f x = g y) xs ys) : xs.mapM f = ys.mapM g := by
  induction h with
  | nil => rfl
  | cons hxy _ ih => rw [List.mapM_cons, List.mapM_cons, hxy, ih]

theorem mapM_congr {f g : α → Option β} {xs : List α} (h : ∀ x ∈ xs, f x = g x) :
    xs.mapM f = xs.mapM g :=
  mapM_eq_of_forall₂ (List.forall₂_same.2 h)

/-- A test has an answer, which says whether the condition holds. -/
def Decides (answer : Option Bool) (P : Prop) : Prop := ∃ b, answer = some b ∧ (b = true ↔ P)

theorem Decides.allM {p : α → Option Bool} {P : α → Prop} {xs : List α}
    (h : ∀ x ∈ xs, Decides (p x) (P x)) : Decides (xs.allM p) (∀ x ∈ xs, P x) := by
  induction xs with
  | nil => exact ⟨true, rfl, by simp⟩
  | cons x xs ih =>
    obtain ⟨b, hb, hiff⟩ := h x List.mem_cons_self
    obtain ⟨rest, hrest, hall⟩ := ih fun x hx => h x (List.mem_cons_of_mem _ hx)
    cases b with
    | false => exact ⟨false, by simp [List.allM, hb], by simp [← hiff]⟩
    | true => exact ⟨rest, by simp [List.allM, hb, hrest], by simp [← hiff, hall]⟩

end Lists

namespace Store

variable {s t : Store} {v w : Value}

/-- Both stores have the same cells and functions wherever the value leads. -/
structure Agrees (s t : Store) (v : Value) : Prop where
  functions : t.functions = s.functions
  cells : ∀ c : Value, s.Reaches v c → s.SameCell t c

theorem Agrees.refl (s : Store) (v : Value) : s.Agrees s v :=
  ⟨rfl, fun c _ => by cases c <;> trivial⟩

theorem Agrees.of_reaches (h : s.Agrees t v) (hw : s.Reaches v w) : s.Agrees t w :=
  ⟨h.functions, fun c hc => h.cells c (hw.trans hc)⟩

theorem Grows.agrees (h : s.Grows t) (hs : s.WellFormed) (hv : s.Valid v) : s.Agrees t v :=
  ⟨h.functions, fun _ hc => h.sameCell (hs.valid_of_reaches hv hc)⟩

section Inspect

variable {element element' : Value → Option String}

theorem exists_inspectWith (h : ∀ w ∈ s.held v, ∃ text, element w = some text) :
    ∃ text, s.inspectWith element v = some text := by
  induction v with
  | returned v ih | constant v ih | binding v _ _ ih => exact ih h
  | array a =>
    change ∀ w ∈ s.array a, _ at h
    obtain ⟨items, hitems⟩ := exists_mapM h
    exact ⟨_, by rw [inspectWith, hitems]; rfl⟩
  | map m =>
    have hpairs : ∀ p ∈ (s.map m).pairs,
        ∃ text, (do return (← element p.1) ++ ": " ++ (← element p.2)) = some text := by
      intro p hp
      obtain ⟨key, hkey⟩ := h p.1 (mem_held_key hp)
      obtain ⟨value, hvalue⟩ := h p.2 (mem_held_value hp)
      exact ⟨_, by rw [hkey, hvalue]; rfl⟩
    obtain ⟨entries, hentries⟩ := exists_mapM hpairs
    exact ⟨_, by rw [inspectWith, hentries]; rfl⟩
  | record r =>
    have hfields : ∀ p ∈ (s.record r).entries,
        ∃ text, (do return p.1 ++ ": " ++ (← element p.2)) = some text := by
      intro p hp
      obtain ⟨value, hvalue⟩ := h p.2 (mem_held_field hp)
      exact ⟨_, by rw [hvalue]; rfl⟩
    obtain ⟨entries, hentries⟩ := exists_mapM hfields
    exact ⟨_, by rw [inspectWith, hentries]; rfl⟩
  | _ => exact ⟨_, rfl⟩

theorem exists_of_inspectWith {text : String} (h : s.inspectWith element v = some text) :
    ∀ w ∈ s.held v, ∃ text, element w = some text := by
  induction v with
  | returned v ih | constant v ih | binding v _ _ ih => exact ih h
  | array a =>
    obtain ⟨items, hitems, -⟩ := Option.bind_eq_some_iff.1 h
    exact exists_of_mapM hitems
  | map m =>
    obtain ⟨entries, hentries, -⟩ := Option.bind_eq_some_iff.1 h
    intro w hw
    obtain ⟨p, hp, hwp⟩ := List.mem_flatMap.1 hw
    obtain ⟨text, htext⟩ := exists_of_mapM hentries p hp
    obtain ⟨key, hkey, hrest⟩ := Option.bind_eq_some_iff.1 htext
    obtain ⟨value, hvalue, -⟩ := Option.bind_eq_some_iff.1 hrest
    simp only [List.mem_cons, List.not_mem_nil, or_false] at hwp
    rcases hwp with rfl | rfl
    · exact ⟨key, hkey⟩
    · exact ⟨value, hvalue⟩
  | record r =>
    obtain ⟨entries, hentries, -⟩ := Option.bind_eq_some_iff.1 h
    intro w hw
    obtain ⟨p, hp, rfl⟩ := List.mem_map.1 hw
    obtain ⟨text, htext⟩ := exists_of_mapM hentries p hp
    obtain ⟨value, hvalue, -⟩ := Option.bind_eq_some_iff.1 htext
    exact ⟨value, hvalue⟩
  | _ => exact nofun

theorem inspectWith_congr (h : s.Agrees t v) (he : ∀ w ∈ s.held v, element' w = element w) :
    t.inspectWith element' v = s.inspectWith element v := by
  induction v with
  | returned v ih | constant v ih | binding v _ _ ih =>
    exact ih (h.of_reaches (.single (List.mem_singleton.2 rfl))) he
  | function f => rw [inspectWith, inspectWith, function, function, h.functions]
  | array a =>
    change ∀ w ∈ s.array a, _ at he
    rw [inspectWith, inspectWith, show t.array a = s.array a from h.cells _ .refl, mapM_congr he]
  | map m =>
    rw [inspectWith, inspectWith, show t.map m = s.map m from h.cells _ .refl]
    congr 1
    refine mapM_congr fun (key, value) hp => ?_
    simp only [he key (mem_held_key hp), he value (mem_held_value hp)]
  | record r =>
    rw [inspectWith, inspectWith, show t.record r = s.record r from h.cells _ .refl]
    congr 1
    refine mapM_congr fun (name, value) hp => ?_
    simp only [he value (mem_held_field hp)]
  | _ => rfl

theorem exists_inspectLevels {n : Nat} (h : s.Within n v) :
    ∃ text, s.inspectLevels n v = some text := by
  induction n generalizing v with
  | zero => exact exists_inspectWith fun w hw => absurd hw (h.notMem_held w)
  | succ n ih => exact exists_inspectWith fun w hw => ih (h w hw)

theorem within_of_inspectLevels {n : Nat} {text : String} (h : s.inspectLevels n v = some text) :
    s.Within n v := by
  induction n generalizing v text with
  | zero =>
    refine List.eq_nil_iff_forall_not_mem.2 fun w hw => ?_
    obtain ⟨_, hnone⟩ := exists_of_inspectWith h w hw
    cases hnone
  | succ n ih =>
    intro w hw
    obtain ⟨_, htext⟩ := exists_of_inspectWith h w hw
    exact ih htext

theorem inspectLevels_congr (h : s.Agrees t v) (n : Nat) :
    t.inspectLevels n v = s.inspectLevels n v := by
  induction n generalizing v with
  | zero => exact inspectWith_congr h fun _ _ => rfl
  | succ n ih => exact inspectWith_congr h fun w hw => ih (h.of_reaches (reaches_of_mem_held hw))

/-- More levels than a value has change nothing. -/
theorem inspectLevels_eq {m n : Nat} (h : s.Within n v) (hle : n ≤ m) :
    s.inspectLevels m v = s.inspectLevels n v := by
  induction n generalizing m v with
  | zero =>
    cases m with
    | zero => rfl
    | succ m => exact inspectWith_congr (.refl s v) fun w hw => absurd hw (h.notMem_held w)
  | succ n ih =>
    cases m with
    | zero => exact absurd hle (Nat.not_succ_le_zero n)
    | succ m =>
      exact inspectWith_congr (.refl s v) fun w hw => ih (h w hw) (Nat.le_of_succ_le_succ hle)

/-- The text of a value ends exactly if no cell in its reach holds itself. -/
theorem exists_inspect_iff : (∃ text, s.inspect v = some text) ↔ s.AcyclicFrom v := by
  constructor
  · rintro ⟨text, htext⟩ c hc hreach
    exact ((within_of_inspectLevels htext).of_reaches hreach).not_encloses hc
  · intro h
    exact exists_inspectLevels h.within

theorem Agrees.inspect_eq (h : s.Agrees t v) (ha : s.AcyclicFrom v)
    (hcount : s.cellCount ≤ t.cellCount) : t.inspect v = s.inspect v :=
  (inspectLevels_congr h _).trans (inspectLevels_eq ha.within hcount)

end Inspect

end Store
end ScriptKit
