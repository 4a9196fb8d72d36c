import ScriptKit.Proofs.CopyRelation
import ScriptKit.Store.Structure

/-! The copy of a value without a loop. It is made of new cells only, so changes to its arrays and
maps do not reach the original, nor changes to the original those of the copy. -/
namespace ScriptKit.Store

/-- From every store built on the first, the steps build on and give a result as asked for. -/
def Delivers {β : Type} (s : Store) (steps : Building β) (post : Store → β → Prop) : Prop :=
  ∀ t : Store, s.Builds t → ∃ y u, steps.run t = some (y, u) ∧ t.Builds u ∧ post u y

/-- What holds of a result goes on to hold while the store is built on. -/
theorem Delivers.mapM {α β : Type} {s : Store} {f : α → Building β}
    {post : α → Store → β → Prop} {xs : List α} (h : ∀ x ∈ xs, s.Delivers (f x) (post x))
    (hkeep : ∀ x t u y, t.Builds u → post x t y → post x u y) :
    s.Delivers (xs.mapM f) fun u ys => List.Forall₂ (fun x y => post x u y) xs ys := by
  induction xs with
  | nil => exact fun t _ => ⟨[], t, rfl, .refl, .nil⟩
  | cons x xs ih =>
    intro t ht
    obtain ⟨y, u, hrun, hu, hy⟩ := h x List.mem_cons_self t ht
    obtain ⟨ys, u', hruns, hu', hys⟩ :=
      ih (fun x hx => h x (List.mem_cons_of_mem _ hx)) u (ht.trans hu)
    refine ⟨y :: ys, u', ?_, hu.trans hu', .cons (hkeep x u u' y hu' hy) hys⟩
    simp [List.mapM_cons, StateT.run_bind, hrun, hruns]

def copyEntry (element : Value → Building Value) (d : MapKey × Value × Value) :
    Building (MapKey × Value × Value) := do
  return (d.1, ← element d.2.1, ← element d.2.2)

def IsEntryCopy (s t : Store) (d e : MapKey × Value × Value) : Prop :=
  e.1 = d.1 ∧ s.IsCopy t d.2.1 e.2.1 ∧ s.IsCopy t d.2.2 e.2.2

section Run

variable {s : Store} {v : Value} {element : Value → Building Value}

theorem delivers_entry {d : MapKey × Value × Value}
    (hfirst : s.Delivers (element d.2.1) fun u y => s.IsCopy u d.2.1 y)
    (hsecond : s.Delivers (element d.2.2) fun u y => s.IsCopy u d.2.2 y) :
    s.Delivers (copyEntry element d) fun u e => s.IsEntryCopy u d e := by
  intro t ht
  obtain ⟨x, u, hrun, hu, hx⟩ := hfirst t ht
  obtain ⟨y, u', hrun', hu', hy⟩ := hsecond u (ht.trans hu)
  refine ⟨(d.1, x, y), u', ?_, hu.trans hu', rfl, hx.grow hu'.grows, hy⟩
  simp [copyEntry, hrun, hrun']

theorem sorted_of_forall₂ {m : MapRef} {t : Store} {entries : List (MapKey × Value × Value)}
    (hsorted : (s.map m).Sorted)
    (h : List.Forall₂ (s.IsEntryCopy t) (s.map m).entries entries) :
    Table.Sorted (⟨entries⟩ : MapCell) := by
  have hkeys : (s.map m).entries.map (·.1) = entries.map (·.1) := by
    rw [← List.forall₂_eq_eq_eq, List.forall₂_map_left_iff, List.forall₂_map_right_iff]
    exact h.imp fun _ _ hd => hd.1.symm
  have hpairwise : ((s.map m).entries.map (·.1)).Pairwise fun k l => compare k l = .lt :=
    List.pairwise_map.2 hsorted
  rw [hkeys] at hpairwise
  exact List.pairwise_map.1 hpairwise

theorem delivers_array (hs : s.WellFormed) {a : ArrayRef} (ha : s.Valid (.array a))
    (h : ∀ w ∈ s.array a, s.Delivers (element w) fun u y => s.IsCopy u w y) :
    s.Delivers (copyWith element (.array a)) fun u y => s.IsCopy u (.array a) y := by
  intro t ht
  obtain ⟨items, u, hrun, hu, hitems⟩ :=
    Delivers.mapM h (fun _ _ _ _ hb hy => hy.grow hb.grows) t ht
  have hgrows := ht.grows.trans hu.grows
  obtain ⟨hlength, hzip⟩ := List.forall₂_iff_zip.1 hitems
  have hvalid : ∀ y ∈ items, u.Valid y := by
    intro y hy
    obtain ⟨x, hx⟩ := exists_mem_zip_right hlength hy
    exact (hzip hx).valid hgrows (hs.closed (.array a) x rfl (List.of_mem_zip hx).1)
  have hcell : (u.newArray items).2.array ⟨u.arrays.size⟩ = items := u.array_newArray items
  refine ⟨.array ⟨u.arrays.size⟩, (u.newArray items).2, ?_, hu.array hvalid, ?_⟩
  · rw [← ht.grows.array a ha] at hrun
    change ((t.array a).mapM element).run t >>= (fun r => (addArray r.1).run r.2) = _
    rw [hrun]
    rfl
  · refine .array hgrows.arrays (by simp [newArray]) (by rw [hcell, hlength]) ?_
    rw [hcell]
    exact fun p hp => (hzip hp).grow (grows_newArray u items)

theorem delivers_map (hs : s.WellFormed) {m : MapRef} (hm : s.Valid (.map m))
    (h : ∀ w ∈ s.held (.map m), s.Delivers (element w) fun u y => s.IsCopy u w y) :
    s.Delivers (copyWith element (.map m)) fun u y => s.IsCopy u (.map m) y := by
  intro t ht
  have hentry : ∀ d ∈ (s.map m).entries,
      s.Delivers (copyEntry element d) fun u e => s.IsEntryCopy u d e := by
    intro d hd
    have hpair : d.2 ∈ (s.map m).pairs := List.mem_map.2 ⟨d, hd, rfl⟩
    exact delivers_entry (h _ (mem_held_key hpair)) (h _ (mem_held_value hpair))
  obtain ⟨entries, u, hrun, hu, hentries⟩ := Delivers.mapM hentry (fun _ _ _ _ hb he =>
    ⟨he.1, he.2.1.grow hb.grows, he.2.2.grow hb.grows⟩) t ht
  have hgrows := ht.grows.trans hu.grows
  obtain ⟨hlength, hzip⟩ := List.forall₂_iff_zip.1 hentries
  have hvalid : ∀ p ∈ MapCell.pairs ⟨entries⟩, u.Valid p.1 ∧ u.Valid p.2 := by
    intro p hp
    obtain ⟨e, he, rfl⟩ := List.mem_map.1 hp
    obtain ⟨d, hd⟩ := exists_mem_zip_right hlength he
    obtain ⟨-, hfirst, hsecond⟩ := hzip hd
    obtain ⟨hx, hy⟩ := hs.valid_pair (pair_mem_of_mem_zip hd)
    exact ⟨hfirst.valid hgrows hx, hsecond.valid hgrows hy⟩
  have hcell : (u.newMap ⟨entries⟩).2.map ⟨u.maps.size⟩ = ⟨entries⟩ := u.map_newMap ⟨entries⟩
  have hkept := grows_newMap u ⟨entries⟩
  refine ⟨.map ⟨u.maps.size⟩, (u.newMap ⟨entries⟩).2, ?_,
    hu.map (sorted_of_forall₂ (hs.sorted m) hentries) hvalid, ?_⟩
  · rw [← ht.grows.map m hm] at hrun
    change ((t.map m).entries.mapM (copyEntry element)).run t >>=
      (fun r => (addMap ⟨r.1⟩).run r.2) = _
    rw [hrun]
    rfl
  · refine .map hgrows.maps (by simp [newMap]) (by rw [hcell]; exact hlength) ?_ ?_ ?_
    · rw [hcell]
      exact fun p hp => (hzip hp).1
    · rw [hcell]
      exact fun p hp => (hzip hp).2.1.grow hkept
    · rw [hcell]
      exact fun p hp => (hzip hp).2.2.grow hkept

/-- One level of the copy, given the copies of what cells hold. -/
theorem delivers_copyWith (hs : s.WellFormed) (hv : s.Valid v)
    (h : ∀ w ∈ s.held v, s.Delivers (element w) fun u y => s.IsCopy u w y) :
    s.Delivers (copyWith element v) fun u y => s.IsCopy u v y := by
  induction v with
  | array a => exact delivers_array hs hv h
  | map m => exact delivers_map hs hv h
  | binding v isMutable isBuiltin ih =>
    intro t ht
    obtain ⟨y, u, hrun, hu, hy⟩ := ih hv h t ht
    refine ⟨.binding y isMutable isBuiltin, u, ?_, hu, .binding isMutable isBuiltin hy⟩
    simp [copyWith, hrun]
  | _ => exact fun t _ => ⟨_, t, rfl, .refl, .leaf rfl⟩

theorem delivers_copyLevels (hs : s.WellFormed) {n : Nat} (hv : s.Valid v) (h : s.Within n v) :
    s.Delivers (copyLevels n v) fun u y => s.IsCopy u v y := by
  induction n generalizing v with
  | zero => exact delivers_copyWith hs hv fun w hw => absurd hw (h.notMem_held w)
  | succ n ih =>
    refine delivers_copyWith hs hv fun w hw => ih ?_ (h w hw)
    exact hs.valid_of_reaches hv (reaches_of_mem_held hw)

theorem exists_copy (hs : s.WellFormed) (hv : s.Valid v) (ha : s.AcyclicFrom v) :
    ∃ w t, s.copy v = some (w, t) ∧ s.Builds t ∧ s.IsCopy t v w :=
  delivers_copyLevels hs hv ha.within s .refl

end Run

/-- The second store comes from the first by changes to arrays and maps that satisfy the
condition. -/
inductive Changes (p : Value → Prop) (s : Store) : Store → Prop
  | refl : Changes p s s
  | array {t : Store} {a : ArrayRef} (h : Changes p s t) (ha : p (.array a))
      (items : List Value) : Changes p s (t.setArray a items)
  | map {t : Store} {m : MapRef} (h : Changes p s t) (hm : p (.map m)) (cell : MapCell) :
      Changes p s (t.setMap m cell)

namespace Changes

variable {p : Value → Prop} {s t : Store}

theorem size_arrays (h : Changes p s t) : t.arrays.size = s.arrays.size := by
  induction h with
  | refl => rfl
  | array _ _ items ih => simpa [setArray] using ih
  | map _ _ _ ih => exact ih

theorem size_maps (h : Changes p s t) : t.maps.size = s.maps.size := by
  induction h with
  | refl => rfl
  | array _ _ _ ih => exact ih
  | map _ _ cell ih => simpa [setMap] using ih

theorem records (h : Changes p s t) : t.records = s.records := by
  induction h with
  | refl => rfl
  | array _ _ _ ih | map _ _ _ ih => exact ih

theorem functions (h : Changes p s t) : t.functions = s.functions := by
  induction h with
  | refl => rfl
  | array _ _ _ ih | map _ _ _ ih => exact ih

theorem cellCount_eq (h : Changes p s t) : t.cellCount = s.cellCount := by
  rw [cellCount, cellCount, h.size_arrays, h.size_maps, h.records]

theorem array_eq (h : Changes p s t) {b : ArrayRef} (hb : ¬ p (.array b)) :
    t.array b = s.array b := by
  induction h with
  | refl => rfl
  | @array t a _ ha items ih =>
    have hne : b ≠ a := fun he => hb (he ▸ ha)
    rw [t.array_setArray_of_ne hne, ih]
  | map _ _ _ ih => exact ih

theorem map_eq (h : Changes p s t) {n : MapRef} (hn : ¬ p (.map n)) : t.map n = s.map n := by
  induction h with
  | refl => rfl
  | array _ _ _ ih => exact ih
  | @map t m _ hm cell ih =>
    have hne : n ≠ m := fun he => hn (he ▸ hm)
    rw [t.map_setMap_of_ne hne, ih]

theorem sameCell (h : Changes p s t) {c : Value} (hc : c.isContainer = true → ¬ p c) :
    s.SameCell t c := by
  cases c with
  | array b => exact h.array_eq (hc rfl)
  | map n => exact h.map_eq (hc rfl)
  | record r => rw [SameCell, record, record, h.records]
  | _ => trivial

end Changes

section Separation

variable {s t u : Store} {v w : Value} {p : Value → Prop}

theorem SameCell.trans {c : Value} (h : s.SameCell t c) (h' : t.SameCell u c) : s.SameCell u c := by
  cases c with
  | array a | map m | record r => exact Eq.trans h' h
  | _ => trivial

theorem Changes.agrees (h : Changes p t u) (hg : s.Grows t) (hs : s.WellFormed) (hv : s.Valid v)
    (hp : ∀ c, c.isContainer = true → p c → ¬ s.Reaches v c) : s.Agrees u v where
  functions := h.functions.trans hg.functions
  cells c hc := (hg.sameCell (hs.valid_of_reaches hv hc)).trans
    (h.sameCell fun hcontainer hpc => hp c hcontainer hpc hc)

theorem IsCopy.of_changes (hcopy : s.IsCopy t v w) (h : Changes p t u) (hp : ∀ c, p c → s.Valid c) :
    s.IsCopy u v w := by
  refine hcopy.congr (fun b hnew hb => ⟨?_, ?_⟩) fun n hnew hn => ⟨?_, ?_⟩
  · rwa [h.size_arrays]
  · exact h.array_eq fun hpb => absurd (hp _ hpb) (Nat.not_lt_of_le hnew)
  · rwa [h.size_maps]
  · exact h.map_eq fun hpn => absurd (hp _ hpn) (Nat.not_lt_of_le hnew)

/-- A copy keeps its text as long as no leaf that it shares leads to a change. -/
theorem IsCopy.inspect_eq (hcopy : s.IsCopy u v w) (ha : s.AcyclicFrom v)
    (hcount : s.cellCount ≤ u.cellCount)
    (hleaf : ∀ x : Value, s.Parts v x → x.isLeaf = true → s.Agrees u x) :
    u.inspect w = s.inspect v :=
  (hcopy.inspectLevels_eq (fun x hx hl n => inspectLevels_congr (hleaf x hx hl) n) _).trans
    (Store.inspectLevels_eq ha.within hcount)

/-- The copy of a value without a loop: nothing that was there changes, the copy's arrays and maps
are new, changes on one side leave the other, and the two have one text and, if all leaves that are
compared are plain, are equal. Leaves are shared, so the text of the copy stays as it is only while
no leaf leads to a change. -/
theorem copy_separate (hs : s.WellFormed) (hv : s.Valid v) (ha : s.AcyclicFrom v) :
    ∃ w t, s.copy v = some (w, t) ∧ s.Grows t ∧
      (∀ c, t.Parts w c → c.isContainer = true → t.Valid c ∧ ¬ s.Valid c) ∧
      (∀ u, Changes (t.Parts w) t u → s.Agrees u v ∧ u.inspect v = s.inspect v) ∧
      (∀ p u, (∀ c, p c → s.Valid c) → Changes p t u → s.IsCopy u v w ∧
        ((∀ x c, s.Parts v x → x.isLeaf = true → p c → ¬ s.Reaches x c) →
          u.inspect w = s.inspect v)) ∧
      s.IsCopy t v w ∧ (∃ text, s.inspect v = some text ∧ t.inspect w = some text) ∧
      Decides (t.deepEquals v w) (s.PlainLeaves v) := by
  obtain ⟨w, t, hrun, hbuilds, hcopy⟩ := exists_copy hs hv ha
  have hg := hbuilds.grows
  refine ⟨w, t, hrun, hg, fun c => hcopy.new, ?_, ?_, hcopy, ?_, ?_⟩
  · intro u hu
    have hagrees : s.Agrees u v := hu.agrees hg hs hv fun c hcontainer hc hreach =>
      (hcopy.new hc hcontainer).2 (hs.valid_of_reaches hv hreach)
    exact ⟨hagrees, hagrees.inspect_eq ha (hu.cellCount_eq ▸ hg.cellCount_le)⟩
  · intro p u hp hu
    have hkept := hcopy.of_changes hu hp
    refine ⟨hkept, fun hleaf => ?_⟩
    refine hkept.inspect_eq ha (hu.cellCount_eq ▸ hg.cellCount_le) fun x hx hl => ?_
    exact hu.agrees hg hs (hs.valid_of_reaches hv hx.reaches) fun c _ hc => hleaf x c hx hl hc
  · obtain ⟨text, htext⟩ := exists_inspect_iff.2 ha
    refine ⟨text, htext, ?_⟩
    rw [← htext]
    refine hcopy.inspect_eq ha hg.cellCount_le fun x hx _ => ?_
    exact hg.agrees hs (hs.valid_of_reaches hv hx.reaches)
  · have hwithin := ha.within.mono hg.cellCount_le
    exact hcopy.decides_equalLevels hg hs (hbuilds.wellFormed hs) hv hwithin

end Separation

/-- An array, a map that holds it, and an array that holds both, one under a binding. -/
def nested : Store :=
  ((((empty.newArray [.int 1]).2.newMap
    (Table.empty.insert ⟨.boolean, .one⟩ (.bool true, .array ⟨0⟩))).2).newArray
      [.map ⟨0⟩, .binding (.array ⟨0⟩) true false]).2

theorem builds_nested : empty.Builds nested := by
  refine ((Builds.refl.array ?_).map (Table.sorted_insert Table.sorted_empty _ _) ?_).array ?_
  · simp [Valid]
  · simp [Table.insert, Table.insertInto, Table.empty, MapCell.pairs, Table.values, Valid, newArray]
  · simp [Valid, newArray, newMap, empty]

theorem copy_separate_nested :
    nested.WellFormed ∧ nested.Valid (.array ⟨1⟩) ∧ nested.AcyclicFrom (.array ⟨1⟩) ∧
      ∃ w t, nested.copy (.array ⟨1⟩) = some (w, t) ∧ nested.Grows t ∧
        nested.IsCopy t (.array ⟨1⟩) w ∧
        Decides (t.deepEquals (.array ⟨1⟩) w) (nested.PlainLeaves (.array ⟨1⟩)) := by
  have hs := builds_nested.wellFormed wellFormed_empty
  have ha := (builds_nested.acyclic wellFormed_empty acyclic_empty).from (.array ⟨1⟩)
  have hv : nested.Valid (.array ⟨1⟩) := by simp [Valid, nested, newArray, newMap, empty]
  obtain ⟨w, t, hrun, hg, -, -, -, hcopy, -, hequal⟩ := copy_separate hs hv ha
  exact ⟨hs, hv, ha, w, t, hrun, hg, hcopy, hequal⟩

end ScriptKit.Store
