import Mathlib.Data.List.Induction
import ScriptKit.Proofs.Link

/-! A map and the insertions that filled it. Under each key it holds the pair of the last insertion
with that key, in the order of the keys; the order of the insertions leaves no other trace. -/
namespace ScriptKit

def keyKinds : List Kind := [.integer, .boolean, .float, .string]

namespace Value

theorem exists_key {v : Value} (h : v.kind ∈ keyKinds) : ∃ k, v.key = .ok k := by
  cases v <;> first | exact ⟨_, rfl⟩ | simp [kind, keyKinds] at h

theorem key_eq_error {v : Value} (h : v.kind ∉ keyKinds) :
    v.key = .error (.unhashableKey v.kind) := by
  cases v <;> first | rfl | simp [kind, keyKinds] at h

theorem unbind_of_key {v : Value} {k : MapKey} (h : v.key = .ok k) : v.unbind = v := by
  cases v <;> first | rfl | cases h

end Value

/-- The pair, without bindings, of the last insertion under a key. -/
def lastUnder? (k : MapKey) (calls : List (Value × Value)) : Option (Value × Value) :=
  ((calls.filter fun call => call.1.unbind.key.toOption = some k).getLast?).map fun call =>
    (call.1.unbind, call.2.unbind)

theorem lastUnder?_concat (k : MapKey) (calls : List (Value × Value)) (key value : Value) :
    lastUnder? k (calls ++ [(key, value)]) =
      if key.unbind.key.toOption = some k then some (key.unbind, value.unbind)
      else lastUnder? k calls := by
  by_cases h : key.unbind.key.toOption = some k <;> simp [lastUnder?, h]

theorem key_of_lastUnder? {k : MapKey} {calls : List (Value × Value)} {p : Value × Value}
    (h : lastUnder? k calls = some p) : p.1.key = .ok k := by
  obtain ⟨call, hlast, rfl⟩ := Option.map_eq_some_iff.1 h
  have hkey := (List.mem_filter.1 (List.mem_of_getLast? hlast)).2
  cases hcall : call.1.unbind.key with
  | error e => simp [hcall, Except.toOption] at hkey
  | ok l => simpa [hcall, Except.toOption] using hkey

namespace MapCell

/-- The map holds under each key the pair of the last insertion with that key. -/
structure HoldsLast (cell : MapCell) (calls : List (Value × Value)) : Prop where
  sorted : cell.Sorted
  find? : ∀ k, cell.find? k = lastUnder? k calls

theorem holdsLast_empty : HoldsLast .empty [] := ⟨Table.sorted_empty, fun _ => rfl⟩

section Step

variable {cell : MapCell} {calls : List (Value × Value)} {key value : Value}

theorem HoldsLast.insert (h : cell.HoldsLast calls) {k : MapKey} (hk : key.unbind.key = .ok k) :
    HoldsLast (cell.insert k (key.unbind, value.unbind)) (calls ++ [(key, value)]) where
  sorted := Table.sorted_insert h.sorted k _
  find? l := by
    rw [lastUnder?_concat, hk]
    by_cases hl : l = k
    · subst hl
      rw [Table.find?_insert_self, Except.toOption, if_pos rfl]
    · have hne : ¬ Except.toOption (.ok k : Except EvalError MapKey) = some l := by
        simpa [Except.toOption] using fun he => hl he.symm
      rw [Table.find?_insert_of_ne cell hl, if_neg hne, h.find?]

theorem HoldsLast.refuse (h : cell.HoldsLast calls) {e : EvalError}
    (hk : key.unbind.key = .error e) : cell.HoldsLast (calls ++ [(key, value)]) where
  sorted := h.sorted
  find? l := by
    rw [lastUnder?_concat, hk, Except.toOption, if_neg nofun, h.find?]

end Step

section View

variable {cell : MapCell} {calls : List (Value × Value)}

theorem HoldsLast.mem_entries (h : cell.HoldsLast calls) {k : MapKey} {p : Value × Value} :
    (k, p) ∈ cell.entries ↔ lastUnder? k calls = some p := by
  rw [← h.sorted.find?_eq_some_iff, h.find?]

theorem HoldsLast.key_of_mem (h : cell.HoldsLast calls) {entry : MapKey × Value × Value}
    (hmem : entry ∈ cell.entries) : entry.2.1.key = .ok entry.1 :=
  key_of_lastUnder? (h.mem_entries.1 hmem)

theorem HoldsLast.pairwise_pairs (h : cell.HoldsLast calls) :
    cell.pairs.Pairwise fun p q =>
      ∃ k l, p.1.key = .ok k ∧ q.1.key = .ok l ∧ compare k l = .lt := by
  refine List.pairwise_map.2 (List.Pairwise.imp_of_mem ?_ h.sorted)
  intro x y hx hy hlt
  exact ⟨x.1, y.1, h.key_of_mem hx, h.key_of_mem hy, hlt⟩

theorem HoldsLast.first?_eq (h : cell.HoldsLast calls) : cell.first? = cell.pairs.head? := by
  rw [first?, h.sorted.least?_eq, pairs, Table.values, List.head?_map]

theorem HoldsLast.mem_pairs (h : cell.HoldsLast calls) {k : MapKey} {p : Value × Value} :
    p ∈ cell.pairs ∧ p.1.key = .ok k ↔ lastUnder? k calls = some p := by
  constructor
  · rintro ⟨hp, hk⟩
    obtain ⟨entry, hmem, rfl⟩ := List.mem_map.1 hp
    have hkey := h.key_of_mem hmem
    rw [hk] at hkey
    cases hkey
    exact h.mem_entries.1 hmem
  · intro hlast
    exact ⟨List.mem_map.2 ⟨(k, p), h.mem_entries.2 hlast, rfl⟩, key_of_lastUnder? hlast⟩

theorem HoldsLast.get_eq (h : cell.HoldsLast calls) (key : Value) :
    cell.get key = key.unbind.key.map fun k => (lastUnder? k calls).map (·.2) := by
  simp only [get, h.find?]

theorem HoldsLast.containsKey_eq (h : cell.HoldsLast calls) (key : Value) :
    cell.containsKey key = key.unbind.key.map fun k => (lastUnder? k calls).isSome := by
  have hcontains : cell.contains = fun k => (lastUnder? k calls).isSome := by
    funext k
    rw [Table.contains, h.find?]
  rw [containsKey, hcontains]

/-- Every key that is listed is found, with the value that is listed at its place. -/
theorem HoldsLast.get_givenKeys (h : cell.HoldsLast calls) {i : Nat} {key : Value}
    (hi : cell.givenKeys[i]? = some key) :
    ∃ value, cell.givenValues[i]? = some value ∧ cell.get key = .ok (some value) := by
  rw [givenKeys, List.getElem?_map] at hi
  obtain ⟨p, hp, rfl⟩ := Option.map_eq_some_iff.1 hi
  refine ⟨p.2, by rw [givenValues, List.getElem?_map, hp]; rfl, ?_⟩
  obtain ⟨entry, hmem, rfl⟩ := List.mem_map.1 (List.mem_of_getElem? hp)
  have hkey := h.key_of_mem hmem
  rw [h.get_eq, Value.unbind_of_key hkey, hkey, Except.map, h.mem_entries.1 hmem]
  rfl

end View

end MapCell

namespace Store

/-- The store after some insertions into one map, whether they succeed or not. -/
def insertAll (s : Store) (m : MapRef) (calls : List (Value × Value)) : Store :=
  calls.foldl (fun s (key, value) => (s.insertPair m key value).2) s

theorem insertAll_concat (s : Store) (m : MapRef) (calls : List (Value × Value))
    (key value : Value) :
    s.insertAll m (calls ++ [(key, value)]) =
      ((s.insertAll m calls).insertPair m key value).2 := by
  rw [insertAll, List.foldl_append]
  rfl

section Insertion

variable {s : Store} {m : MapRef} {key value : Value}

theorem insertPair_of_key {k : MapKey} (hk : key.unbind.key = .ok k) :
    s.insertPair m key value = (.ok (), s.link m k key.unbind value.unbind) := by
  rw [insertPair, MapCell.insertPair, hk]
  rfl

theorem insertPair_of_error {e : EvalError} (hk : key.unbind.key = .error e) :
    s.insertPair m key value = (.error e, s) := by
  rw [insertPair, MapCell.insertPair, hk]
  rfl

end Insertion

section History

variable {s : Store} {m : MapRef}

/-- A map that starts empty holds the last pairs after any insertions. -/
theorem holdsLast_insertAll (hm : s.Valid (.map m)) (hempty : s.map m = .empty)
    (calls : List (Value × Value)) :
    (s.insertAll m calls).Valid (.map m) ∧
      ((s.insertAll m calls).map m).HoldsLast calls := by
  -- A history grows at its end, so the induction takes off the last insertion.
  induction calls using List.reverseRecOn with
  | nil =>
    refine ⟨hm, ?_⟩
    change (s.map m).HoldsLast []
    rw [hempty]
    exact MapCell.holdsLast_empty
  | append_singleton calls call ih =>
    obtain ⟨key, value⟩ := call
    obtain ⟨hvalid, hholds⟩ := ih
    rw [insertAll_concat]
    cases hk : key.unbind.key with
    | error e =>
      rw [insertPair_of_error hk]
      exact ⟨hvalid, hholds.refuse hk⟩
    | ok k =>
      rw [insertPair_of_key hk]
      refine ⟨valid_link.2 hvalid, ?_⟩
      rw [link, map_setMap_self hvalid]
      exact hholds.insert hk

/-- What a map that starts empty holds after any insertions. Its pairs ascend strictly in their
keys; there is one for each key under which a pair was put in, that of the last such insertion, and
each is kept under the key of its own first part. All other views of the map follow from the pairs,
and look-ups go by the key alone. An insertion succeeds exactly if its key, without bindings, is of
a kind that can be a key; otherwise the store stays as it is. And the pairs depend on nothing but
the last pair for each key. -/
theorem insertAll_holds_last (hm : m.index < s.maps.size) (hempty : s.map m = .empty)
    (calls : List (Value × Value)) :
    let t := s.insertAll m calls
    let cell := t.map m
    cell.pairs.Pairwise (fun p q =>
      ∃ k l, p.1.key = .ok k ∧ q.1.key = .ok l ∧ compare k l = .lt) ∧
    (∀ k p, p ∈ cell.pairs ∧ p.1.key = .ok k ↔ lastUnder? k calls = some p) ∧
    (∀ entry ∈ cell.entries, entry.2.1.key = .ok entry.1) ∧
    (cell.size = cell.pairs.length ∧ cell.first? = cell.pairs.head? ∧
      cell.givenKeys = cell.pairs.map Prod.fst ∧ cell.givenValues = cell.pairs.map Prod.snd) ∧
    (∀ key, cell.get key = key.unbind.key.map fun k => (lastUnder? k calls).map Prod.snd) ∧
    (∀ key, cell.containsKey key = key.unbind.key.map fun k => (lastUnder? k calls).isSome) ∧
    (∀ (i : Nat) key, cell.givenKeys[i]? = some key →
      ∃ value, cell.givenValues[i]? = some value ∧ cell.get key = .ok (some value)) ∧
    (∀ key value,
      (key.unbind.kind ∈ keyKinds → ∃ u, t.insertPair m key value = (.ok (), u)) ∧
      (key.unbind.kind ∉ keyKinds →
        t.insertPair m key value = (.error (.unhashableKey key.unbind.kind), t) ∧
        s.insertAll m (calls ++ [(key, value)]) = t)) ∧
    (∀ (s' : Store) (m' : MapRef), m'.index < s'.maps.size → s'.map m' = .empty →
      ∀ calls', (∀ k, lastUnder? k calls' = lastUnder? k calls) →
        ((s'.insertAll m' calls').map m').pairs = cell.pairs) := by
  intro t cell
  have h : cell.HoldsLast calls := (holdsLast_insertAll hm hempty calls).2
  refine ⟨h.pairwise_pairs, fun k p => h.mem_pairs, fun entry => h.key_of_mem, ?_, h.get_eq,
    h.containsKey_eq, fun i key => h.get_givenKeys, fun key value => ⟨?_, ?_⟩, ?_⟩
  · exact ⟨(List.length_map _).symm, h.first?_eq, rfl, rfl⟩
  · intro hkind
    obtain ⟨k, hk⟩ := Value.exists_key hkind
    exact ⟨_, insertPair_of_key hk⟩
  · intro hkind
    have hk := Value.key_eq_error hkind
    exact ⟨insertPair_of_error hk, by rw [insertAll_concat, insertPair_of_error hk]⟩
  · intro s' m' hm' hempty' calls' hsame
    have h' := (holdsLast_insertAll hm' hempty' calls').2
    have heq : (s'.insertAll m' calls').map m' = cell := by
      refine h'.sorted.ext h.sorted fun k => ?_
      rw [h'.find?, h.find?, hsame]
    rw [heq]

end History

/-- Two insertions under one key, the later through a binding, with one between that is refused. -/
def repeated : List (Value × Value) :=
  [(.bool true, .int 1), (.error "", .int 0), (.binding (.bool true) true false, .int 2),
    (.bool false, .int 3)]

def reordered : List (Value × Value) := [(.bool false, .int 3), (.bool true, .int 2)]

theorem lastUnder?_reordered (k : MapKey) : lastUnder? k reordered = lastUnder? k repeated := by
  by_cases hfalse : (⟨.boolean, .zero⟩ : MapKey) = k
  · subst hfalse
    rfl
  by_cases htrue : (⟨.boolean, .one⟩ : MapKey) = k
  · subst htrue
    rfl
  · simp [lastUnder?, reordered, repeated, Value.unbind, Value.key, Except.toOption, hfalse, htrue]

theorem insertAll_holds_last_reordered :
    ∃ (s : Store) (m : MapRef), m.index < s.maps.size ∧ s.map m = .empty ∧
      (∀ k, lastUnder? k reordered = lastUnder? k repeated) ∧
      (s.insertAll m repeated).insertPair m (.error "") (.int 4) =
        (.error (.unhashableKey .error), s.insertAll m repeated) ∧
      ((s.insertAll m reordered).map m).pairs = ((s.insertAll m repeated).map m).pairs ∧
      ((s.insertAll m repeated).map m).pairs = reordered := by
  have hm : (MapRef.mk 0).index < (Store.empty.newMap .empty).2.maps.size := by decide
  have hempty : (Store.empty.newMap .empty).2.map ⟨0⟩ = .empty := rfl
  have hkind : (Value.error "").unbind.kind ∉ keyKinds := by decide
  obtain ⟨-, -, -, -, -, -, -, hinsert, hsame⟩ := insertAll_holds_last hm hempty repeated
  exact ⟨_, ⟨0⟩, hm, hempty, lastUnder?_reordered, ((hinsert (.error "") (.int 4)).2 hkind).1,
    hsame _ ⟨0⟩ hm hempty reordered lastUnder?_reordered, rfl⟩

end Store

end ScriptKit
