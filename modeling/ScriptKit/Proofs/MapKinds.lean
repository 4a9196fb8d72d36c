import ScriptKit.Proofs.Calls
import ScriptKit.Proofs.MapHistory

/-! The kinds in a map that only `insert` changes. A new pair is compared with one pair of the map,
and under one binding; this is enough to keep all keys of one kind, and all values. -/
namespace ScriptKit

namespace Value

theorem kind_mem_of_key {v : Value} {k : MapKey} (h : v.key = .ok k) : v.kind ∈ keyKinds := by
  by_cases hkind : v.kind ∈ keyKinds
  · exact hkind
  · rw [key_eq_error hkind] at h
    cases h

theorem kind_unbind {v : Value} (h : v.unbindOnce.1.kind ≠ .binding) :
    v.unbind.kind = v.unbindOnce.1.kind := by
  have hplain : ∀ w : Value, w.kind ≠ .binding → w.unbind = w := by
    intro w hw
    cases w with
    | binding _ _ _ => exact absurd rfl hw
    | _ => rfl
  rw [← unbind_unbindOnce, hplain _ h]

end Value

namespace MapCell

/-- Under one binding the pair is of the kinds of all pairs in the map. -/
def Fits (cell : MapCell) (key value : Value) : Prop :=
  ∀ p ∈ cell.pairs, p.1.kind = key.unbindOnce.1.kind ∧ p.2.kind = value.unbindOnce.1.kind

/-- All keys in the map are of one kind, which keys can have, and all values are of one kind, which
is not that of a binding. -/
structure Uniform (cell : MapCell) : Prop where
  keys : ∃ kind ∈ keyKinds, ∀ p ∈ cell.pairs, p.1.kind = kind
  values : ∃ kind, kind ≠ .binding ∧ ∀ p ∈ cell.pairs, p.2.kind = kind

variable {cell : MapCell} {key value : Value}

theorem uniform_empty : Uniform .empty where
  keys := ⟨.integer, by decide, nofun⟩
  values := ⟨.integer, by decide, nofun⟩

theorem mem_pairs_of_first? {p : Value × Value} (h : cell.first? = some p) : p ∈ cell.pairs := by
  obtain ⟨entry, hentry, rfl⟩ := Option.map_eq_some_iff.1 h
  exact List.mem_map_of_mem (Table.mem_of_least? hentry)

theorem exists_first? (h : cell.pairs ≠ []) : ∃ p, cell.first? = some p := by
  obtain ⟨entries⟩ := cell
  cases entries with
  | nil => exact absurd rfl h
  | cons x rest => exact ⟨_, rfl⟩

theorem checkKinds_eq_ok : Builtin.checkKinds cell key value = .ok () ↔
    ∀ p, cell.first? = some p → p.1.kind = key.kind ∧ p.2.kind = value.kind := by
  unfold Builtin.checkKinds
  split
  · next hnone => simp [hnone]
  · next k v hfirst =>
    rw [hfirst]
    by_cases hk : k.kind = key.kind <;> by_cases hv : v.kind = value.kind <;> simp [hk, hv]

/-- In a map of one kind the first pair stands for all. -/
theorem Uniform.checkKinds_eq_ok_iff (h : cell.Uniform) :
    Builtin.checkKinds cell key.unbindOnce.1 value.unbindOnce.1 = .ok () ↔
      cell.Fits key value := by
  rw [checkKinds_eq_ok]
  obtain ⟨kk, -, hkeys⟩ := h.keys
  obtain ⟨kv, -, hvalues⟩ := h.values
  constructor
  · intro hfirst p hp
    obtain ⟨q, hq⟩ := exists_first? (List.ne_nil_of_mem hp)
    obtain ⟨hk, hv⟩ := hfirst q hq
    have hmem := mem_pairs_of_first? hq
    exact ⟨by rw [hkeys p hp, ← hkeys q hmem, hk], by rw [hvalues p hp, ← hvalues q hmem, hv]⟩
  · exact fun hall p hp => hall p (mem_pairs_of_first? hp)

theorem forall_pairs_insert {P : Value × Value → Prop} {q : Value × Value} (k : MapKey) (hq : P q)
    (h : ∀ p ∈ cell.pairs, P p) : ∀ p ∈ MapCell.pairs (cell.insert k q), P p := by
  intro p hp
  obtain ⟨entry, hentry, rfl⟩ := List.mem_map.1 hp
  rcases Table.mem_insertInto hentry with rfl | hold
  · exact hq
  · exact h entry.2 (List.mem_map.2 ⟨entry, hold, rfl⟩)

/-- A pair that fits has at most one binding around each part, unless the map is empty; and then it
settles the kinds. -/
theorem Uniform.insert (h : cell.Uniform) (hfits : cell.Fits key value) {k : MapKey}
    (hk : key.unbind.key = .ok k) : Uniform (cell.insert k (key.unbind, value.unbind)) := by
  have hkeys : ∀ p ∈ cell.pairs, p.1.kind = key.unbind.kind := by
    intro p hp
    obtain ⟨kind, hkind, hall⟩ := h.keys
    have hplain : key.unbindOnce.1.kind ≠ .binding := by
      rw [← (hfits p hp).1, hall p hp]
      rintro rfl
      revert hkind
      decide
    rw [Value.kind_unbind hplain]
    exact (hfits p hp).1
  have hvalues : ∀ p ∈ cell.pairs, p.2.kind = value.unbind.kind := by
    intro p hp
    obtain ⟨kind, hkind, hall⟩ := h.values
    have hplain : value.unbindOnce.1.kind ≠ .binding := by
      rw [← (hfits p hp).2, hall p hp]
      exact hkind
    rw [Value.kind_unbind hplain]
    exact (hfits p hp).2
  constructor
  · exact ⟨key.unbind.kind, Value.kind_mem_of_key hk, forall_pairs_insert k rfl hkeys⟩
  · exact ⟨value.unbind.kind, value.kind_unbind_ne_binding, forall_pairs_insert k rfl hvalues⟩

end MapCell

namespace Builtin

open Store

variable {s t : Store} {m : MapRef} {args : List Value} {key value r : Value} {k : MapKey}

/-- The arguments name a map that may change and a pair that the map takes. -/
structure Accepts (s : Store) (args : List Value) (m : MapRef) (key value : Value) (k : MapKey) :
    Prop where
  args_eq : ∃ isBuiltin, args = [.binding (.map m) true isBuiltin, key, value]
  kinds : checkKinds (s.map m) key.unbindOnce.1 value.unbindOnce.1 = .ok ()
  key_eq : key.unbind.key = .ok k

theorem insertInto_of_key
    (hkinds : checkKinds (s.map m) key.unbindOnce.1 value.unbindOnce.1 = .ok ())
    (hk : key.unbind.key = .ok k) :
    insertInto s m key.unbindOnce.1 value.unbindOnce.1 =
      (.ok (.map m), s.link m k key.unbind value.unbind) := by
  rw [← Value.unbind_unbindOnce] at hk
  rw [insertInto, hkinds, insertPair_of_key hk, Value.unbind_unbindOnce, Value.unbind_unbindOnce]

theorem insertInto_cases (s : Store) (m : MapRef) (key value : Value) :
    (∃ e, insertInto s m key value = (.error e, s)) ∨
      checkKinds (s.map m) key value = .ok () ∧ ∃ k, key.unbind.key = .ok k := by
  cases hkinds : checkKinds (s.map m) key value with
  | error e => exact .inl ⟨e, by rw [insertInto, hkinds]⟩
  | ok _ =>
    cases hk : key.unbind.key with
    | error e => exact .inl ⟨_, by rw [insertInto, hkinds, insertPair_of_error hk]⟩
    | ok k => exact .inr ⟨rfl, k, rfl⟩

theorem Accepts.call_eq (h : Accepts s args m key value k) :
    insert.call s args = some (.map m, s.link m k key.unbind value.unbind) := by
  obtain ⟨isBuiltin, rfl⟩ := h.args_eq
  have hrun : insert.run s [.binding (.map m) true isBuiltin, key, value] =
      some (insertInto s m key.unbindOnce.1 value.unbindOnce.1) := rfl
  rw [call, hrun, insertInto_of_key h.kinds h.key_eq]
  rfl

theorem run_insert (s : Store) (args : List Value) :
    (∃ target key value, args = [target, key, value] ∧
      insert.run s args = runInsert s target key value) ∨
    ∃ e, insert.run s args = some (.error e, s) := by
  rcases args with _ | ⟨target, _ | ⟨key, _ | ⟨value, _ | ⟨x, rest⟩⟩⟩⟩
  · exact .inr ⟨_, rfl⟩
  · exact .inr ⟨_, rfl⟩
  · exact .inr ⟨_, rfl⟩
  · exact .inl ⟨target, key, value, rfl, rfl⟩
  · exact .inr ⟨_, rfl⟩

theorem runInsert_cases {target : Value} {o : Outcome}
    (h : runInsert s target key value = some o) :
    (∃ e, o = (.error e, s)) ∨
      ∃ m isBuiltin, target = .binding (.map m) true isBuiltin ∧
        o = insertInto s m key.unbindOnce.1 value.unbindOnce.1 := by
  unfold runInsert at h
  split at h
  · obtain ⟨text, -, hfault⟩ := Option.bind_eq_some_iff.1 h
    exact .inl ⟨_, (Option.some.inj hfault).symm⟩
  · next m htarget =>
    cases target with
    | binding v isMutable isBuiltin =>
      cases htarget
      exact .inr ⟨m, isBuiltin, rfl, (Option.some.inj h).symm⟩
    | _ => cases htarget
  · exact .inl ⟨_, (Option.some.inj h).symm⟩

theorem run_insert_cases {o : Outcome} (h : insert.run s args = some o) :
    (∃ e, o = (.error e, s)) ∨ ∃ m key value k, Accepts s args m key value k := by
  rcases run_insert s args with ⟨target, key, value, rfl, hrun⟩ | ⟨e, hrun⟩
  · rw [hrun] at h
    rcases runInsert_cases h with hfault | ⟨m, isBuiltin, rfl, rfl⟩
    · exact .inl hfault
    · rcases insertInto_cases s m key.unbindOnce.1 value.unbindOnce.1 with hfault | ⟨hkinds, k, hk⟩
      · exact .inl hfault
      · rw [Value.unbind_unbindOnce] at hk
        exact .inr ⟨m, key, value, k, ⟨isBuiltin, rfl⟩, hkinds, hk⟩
  · rw [hrun] at h
    exact .inl ⟨e, (Option.some.inj h).symm⟩

/-- All that a call of `insert` can do, if it ends: give an error and change nothing, or put the
pair into the map. -/
theorem call_insert_cases (h : insert.call s args = some (r, t)) :
    (∃ text, r = .error text ∧ t = s) ∨
    ∃ m key value k, Accepts s args m key value k ∧ r = .map m ∧
      t = s.link m k key.unbind value.unbind := by
  obtain ⟨o, hrun, hresult⟩ := Option.bind_eq_some_iff.1 h
  rcases run_insert_cases hrun with ⟨e, rfl⟩ | ⟨m, key, value, k, haccepts⟩
  · cases hresult
    exact .inl ⟨_, rfl, rfl⟩
  · rw [haccepts.call_eq] at h
    cases h
    exact .inr ⟨m, key, value, k, haccepts, rfl, rfl⟩

theorem exists_call_insert (ha : s.Acyclic) (args : List Value) :
    ∃ r t, insert.call s args = some (r, t) := by
  have hends : ∃ o, insert.run s args = some o := by
    rcases run_insert s args with ⟨target, key, value, rfl, hrun⟩ | ⟨e, hrun⟩
    · obtain ⟨o, ho, -⟩ := exists_runInsert ha target key value
      exact ⟨o, hrun.trans ho⟩
    · exact ⟨_, hrun⟩
  obtain ⟨⟨result, t⟩, hrun⟩ := hends
  exact ⟨answer result, t, by rw [call, hrun]; rfl⟩

end Builtin

namespace Store

open Builtin

variable {s t : Store} {m : MapRef} {key value : Value} {k : MapKey}

/-- The stores differ in nothing but one entry of one map. -/
structure SetsEntry (s t : Store) (m : MapRef) (k : MapKey) (p : Value × Value) : Prop where
  entry : (t.map m).find? k = some p
  otherEntries : ∀ l, l ≠ k → (t.map m).find? l = (s.map m).find? l
  otherMaps : ∀ n, n ≠ m → t.map n = s.map n
  mapCount : t.maps.size = s.maps.size
  arrays : t.arrays = s.arrays
  records : t.records = s.records
  functions : t.functions = s.functions
  scopes : t.scopes = s.scopes

theorem setsEntry_link (hm : s.Valid (.map m)) :
    s.SetsEntry (s.link m k key value) m k (key, value) where
  entry := by
    rw [link, map_setMap_self hm]
    exact Table.find?_insert_self _ k _
  otherEntries l hl := by
    rw [link, map_setMap_self hm]
    exact Table.find?_insert_of_ne _ hl _
  otherMaps n hn := by rw [link, map_setMap_of_ne s hn]
  mapCount := by simp [link, setMap]
  arrays := rfl
  records := rfl
  functions := rfl
  scopes := rfl

theorem SetsEntry.call_getValue (h : s.SetsEntry t m k (key.unbind, value.unbind))
    (hk : key.unbind.key = .ok k) {target : Value} (htarget : target.unbindOnce.1 = .map m) :
    getValue.call t [target, key] = some (value.unbind, t) := by
  have hget : (t.map m).get key.unbindOnce.1 = .ok (some value.unbind) := by
    rw [MapCell.get, Value.unbind_unbindOnce, hk, Except.map, h.entry]
    rfl
  have hrun : runGetValue t target key = some (.ok value.unbind) := by
    simp [runGetValue, htarget, hget]
  rw [call, run, hrun]
  rfl

/-- From the first store to the second the map changes by calls of `insert` alone. -/
inductive OnlyInserts (m : MapRef) (s : Store) : Store → Prop
  | refl : OnlyInserts m s s
  | call {t u : Store} {args : List Value} {r : Value} (h : OnlyInserts m s t)
      (hcall : insert.call t args = some (r, u)) : OnlyInserts m s u
  | elsewhere {t u : Store} (h : OnlyInserts m s t) (hmap : u.map m = t.map m)
      (hvalid : u.Valid (.map m)) : OnlyInserts m s u

theorem uniform_call (hm : s.Valid (.map m)) (h : (s.map m).Uniform) {args : List Value} {r : Value}
    (hcall : insert.call s args = some (r, t)) : t.Valid (.map m) ∧ (t.map m).Uniform := by
  rcases call_insert_cases hcall with ⟨text, -, rfl⟩ | ⟨n, key, value, k, haccepts, -, rfl⟩
  · exact ⟨hm, h⟩
  · refine ⟨valid_link.2 hm, ?_⟩
    by_cases hn : n = m
    · subst hn
      have hfits := h.checkKinds_eq_ok_iff.1 haccepts.kinds
      rw [link, map_setMap_self hm]
      exact h.insert hfits haccepts.key_eq
    · rwa [link, map_setMap_of_ne s (Ne.symm hn)]

theorem OnlyInserts.uniform (h : OnlyInserts m s t) (hm : s.Valid (.map m))
    (hempty : s.map m = .empty) : t.Valid (.map m) ∧ (t.map m).Uniform := by
  induction h with
  | refl =>
    rw [hempty]
    exact ⟨hm, MapCell.uniform_empty⟩
  | call _ hcall ih => exact uniform_call ih.1 ih.2 hcall
  | elsewhere _ hmap hvalid ih =>
    rw [hmap]
    exact ⟨hvalid, ih.2⟩

theorem exists_call_insert_iff (h : (t.map m).Uniform) (isBuiltin : Bool) (key value : Value) :
    (∃ u, insert.call t [.binding (.map m) true isBuiltin, key, value] = some (.map m, u)) ↔
      key.unbind.kind ∈ keyKinds ∧ (t.map m).Fits key value := by
  constructor
  · rintro ⟨u, hcall⟩
    rcases call_insert_cases hcall with ⟨text, htext, -⟩ | ⟨n, _, _, k, haccepts, -, -⟩
    · cases htext
    · obtain ⟨_, hargs⟩ := haccepts.args_eq
      cases hargs
      exact ⟨Value.kind_mem_of_key haccepts.key_eq, h.checkKinds_eq_ok_iff.1 haccepts.kinds⟩
  · rintro ⟨hkind, hfits⟩
    obtain ⟨k, hk⟩ := Value.exists_key hkind
    have haccepts : Accepts t [.binding (.map m) true isBuiltin, key, value] m key value k :=
      ⟨⟨isBuiltin, rfl⟩, h.checkKinds_eq_ok_iff.2 hfits, hk⟩
    exact ⟨_, haccepts.call_eq⟩

/-- A map that starts empty and that only `insert` changes. At every time its keys are of one kind,
which keys can have, and its values are of one kind, which is not that of a binding. A call,
whatever its arguments, gives an error and leaves the store, or gives the map back with one entry
set, under which the value is found without its bindings; the latter only if the first argument is a
binding that may change around a map. The map itself takes exactly those pairs whose key can be a
key and that are, under one binding, of the kinds it holds. -/
theorem OnlyInserts.insert_keeps_kinds (hrun : OnlyInserts m s t) (hm : s.Valid (.map m))
    (hempty : s.map m = .empty) :
    (t.map m).Uniform ∧
    (t.Acyclic → ∀ args : List Value, (∀ v ∈ args, t.Valid v) →
      ∃ r u, insert.call t args = some (r, u) ∧ (u.map m).Uniform ∧
        ((∃ text, r = .error text ∧ u = t) ∨
          ∃ n isBuiltin key value k, args = [.binding (.map n) true isBuiltin, key, value] ∧
            key.unbind.key = .ok k ∧ r = .map n ∧
            t.SetsEntry u n k (key.unbind, value.unbind) ∧
            ∀ target : Value, target.unbindOnce.1 = .map n →
              getValue.call u [target, key] = some (value.unbind, u)) ∧
        ((∀ n isBuiltin rest, args ≠ .binding (.map n) true isBuiltin :: rest) →
          ∃ text, r = .error text ∧ u = t)) ∧
    ∀ isBuiltin key value,
      (∃ u, insert.call t [.binding (.map m) true isBuiltin, key, value] = some (.map m, u)) ↔
        key.unbind.kind ∈ keyKinds ∧ (t.map m).Fits key value := by
  obtain ⟨hvalid, huniform⟩ := hrun.uniform hm hempty
  refine ⟨huniform, fun ha args hargs => ?_, exists_call_insert_iff huniform⟩
  obtain ⟨r, u, hcall⟩ := exists_call_insert ha args
  refine ⟨r, u, hcall, (uniform_call hvalid huniform hcall).2, ?_⟩
  rcases call_insert_cases hcall with herror | ⟨n, key, value, k, haccepts, rfl, rfl⟩
  · exact ⟨.inl herror, fun _ => herror⟩
  · obtain ⟨isBuiltin, rfl⟩ := haccepts.args_eq
    have hn : t.Valid (.map n) := hargs (.binding (.map n) true isBuiltin) List.mem_cons_self
    have hsets : t.SetsEntry (t.link n k key.unbind value.unbind) n k (key.unbind, value.unbind) :=
      setsEntry_link hn
    refine ⟨.inr ⟨n, isBuiltin, key, value, k, rfl, haccepts.key_eq, rfl, hsets, ?_⟩, ?_⟩
    · exact fun target htarget => hsets.call_getValue haccepts.key_eq htarget
    · exact fun hother => absurd rfl (hother n isBuiltin [key, value])

def twiceBound : Value := .binding (.binding (.bool true) false false) false false

/-- The empty map takes a key within two bindings, and afterwards only plain keys or such within
one. -/
theorem insert_keeps_kinds_twiceBound :
    let t := oneMap.link ⟨0⟩ ⟨.boolean, .one⟩ (.bool true) (.int 1)
    oneMap.Valid (.map ⟨0⟩) ∧ oneMap.map ⟨0⟩ = .empty ∧ OnlyInserts ⟨0⟩ oneMap t ∧ t.Acyclic ∧
      insert.call oneMap [.binding (.map ⟨0⟩) true false, twiceBound, .int 1] =
        some (.map ⟨0⟩, t) ∧
      (∃ text, insert.call t [.binding (.map ⟨0⟩) true false, twiceBound, .int 2] =
        some (.error text, t)) ∧
      ∃ u, insert.call t [.binding (.map ⟨0⟩) true false, .bool false, .int 2] =
        some (.map ⟨0⟩, u) := by
  intro t
  have hm : oneMap.Valid (.map ⟨0⟩) := by simp [Valid, oneMap, newMap]
  have hcall : insert.call oneMap [.binding (.map ⟨0⟩) true false, twiceBound, .int 1] =
      some (.map ⟨0⟩, t) := rfl
  have hrun : OnlyInserts ⟨0⟩ oneMap t := .call .refl hcall
  have hpairs : (t.map ⟨0⟩).pairs = [(.bool true, .int 1)] := rfl
  have hplain : ¬ oneMap.Reaches (.int 1) (.map ⟨0⟩) := by
    intro hreach
    rcases Relation.ReflTransGen.cases_head hreach with heq | ⟨w, hw, -⟩
    · cases heq
    · cases hw
  have hacyclic : t.Acyclic :=
    (acyclic_link_iff (builds_oneMap.wellFormed wellFormed_empty)
      (builds_oneMap.acyclic wellFormed_empty acyclic_empty) hm rfl rfl).2 hplain
  obtain ⟨-, hanswers, htakes⟩ := hrun.insert_keeps_kinds hm rfl
  refine ⟨hm, rfl, hrun, hacyclic, hcall, ?_, ?_⟩
  · obtain ⟨r, u, hagain, -, ⟨text, rfl, rfl⟩ | ⟨n, _, _, _, _, hargs, -, rfl, -⟩, -⟩ :=
      hanswers hacyclic [.binding (.map ⟨0⟩) true false, twiceBound, .int 2]
        (by simpa [Valid, twiceBound] using valid_link.2 hm)
    · exact ⟨text, hagain⟩
    · cases hargs
      have hfits := ((htakes false twiceBound (.int 2)).1 ⟨u, hagain⟩).2
      have hkind := (hfits (.bool true, .int 1) (by simp [hpairs])).1
      cases hkind
  · refine (htakes false (.bool false) (.int 2)).2 ⟨by decide, ?_⟩
    rw [MapCell.Fits, hpairs]
    decide

end Store
end ScriptKit
