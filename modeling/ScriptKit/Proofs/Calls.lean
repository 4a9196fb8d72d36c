import ScriptKit.Proofs.CopySeparation
import ScriptKit.Proofs.Likeness
import ScriptKit.Proofs.Link
import ScriptKit.Store.Builtins

/-! Calls of builtins in a store without a loop. Every call ends. Only an insertion changes a cell,
and it closes a loop exactly if the value put in reaches the map. -/
namespace ScriptKit

namespace Value

theorem unbind_unbindOnce (v : Value) : v.unbindOnce.1.unbind = v.unbind := by
  cases v <;> rfl

theorem isCell_of_key {v : Value} {k : MapKey} (h : v.key = .ok k) : v.isCell = false := by
  cases v <;> first | rfl | cases h

theorem contents_of_key {v : Value} {k : MapKey} (h : v.key = .ok k) (s : Store) :
    s.contents v = [] := by
  cases v <;> first | rfl | cases h

end Value

namespace Builtin

open Store

/-- All that a call can do: fail, add cells, or put a pair into a map. -/
inductive Effect (s : Store) (f : Builtin) (args : List Value) : Outcome → Prop
  | fault (e : BuiltinFault) : Effect s f args (.error e, s)
  | builds {r : Value} {t : Store} (hf : f ≠ insert) (h : s.Builds t) (hr : t.Valid r) :
      Effect s f args (.ok r, t)
  | links {m : MapRef} {isBuiltin : Bool} {key value : Value} {k : MapKey} (hf : f = insert)
      (hargs : args = [.binding (.map m) true isBuiltin, key, value])
      (hk : key.unbind.key = .ok k) :
      Effect s f args (.ok (.map m), s.link m k key.unbind value.unbind)

variable {s : Store} {f : Builtin} {args : List Value} {v : Value}

theorem effect_same (hf : f ≠ insert) {result : Except BuiltinFault Value}
    (h : ∀ r, result = .ok r → s.Valid r) : Effect s f args (result, s) := by
  cases result with
  | error e => exact .fault e
  | ok r => exact .builds hf .refl (h r rfl)

theorem effect_newArray (hf : f ≠ insert) {items : List Value} (h : ∀ v ∈ items, s.Valid v) :
    Effect s f args (.ok (.array (s.newArray items).1), (s.newArray items).2) :=
  .builds hf (Builds.refl.array h) (by simp [Valid, newArray])

theorem effect_runKeys (hs : s.WellFormed) (hf : f ≠ insert) : Effect s f args (runKeys s v) := by
  unfold runKeys
  split
  · refine effect_newArray hf fun w hw => ?_
    obtain ⟨p, hp, rfl⟩ := List.mem_map.1 hw
    exact (hs.valid_pair hp).1
  · exact .fault _

theorem effect_runValues (hs : s.WellFormed) (hf : f ≠ insert) :
    Effect s f args (runValues s v) := by
  unfold runValues
  split
  · refine effect_newArray hf fun w hw => ?_
    obtain ⟨p, hp, rfl⟩ := List.mem_map.1 hw
    exact (hs.valid_pair hp).2
  · exact .fault _

theorem effect_insertInto {m : MapRef} {isBuiltin : Bool} {key value : Value} :
    Effect s insert [.binding (.map m) true isBuiltin, key, value]
      (insertInto s m key.unbindOnce.1 value.unbindOnce.1) := by
  unfold insertInto
  cases checkKinds (s.map m) key.unbindOnce.1 value.unbindOnce.1 with
  | error e => exact .fault e
  | ok _ =>
    rw [Store.insertPair, MapCell.insertPair, Value.unbind_unbindOnce, Value.unbind_unbindOnce]
    cases hk : key.unbind.key with
    | error e => exact .fault (.unhashable e)
    | ok k => exact .links rfl rfl hk

theorem exists_runInsert (ha : s.Acyclic) (target key value : Value) :
    ∃ o, runInsert s target key value = some o ∧ Effect s insert [target, key, value] o := by
  unfold runInsert
  split
  · obtain ⟨text, htext⟩ := exists_inspect_iff.2 (ha.from target)
    exact ⟨(.error (.fixedTarget text), s), by rw [htext]; rfl, .fault _⟩
  · next m htarget =>
    cases target with
    | binding v isMutable isBuiltin =>
      cases htarget
      exact ⟨_, rfl, effect_insertInto⟩
    | _ => cases htarget
  · exact ⟨_, rfl, .fault _⟩

theorem exists_runGetValue (hs : s.WellFormed) (ha : s.Acyclic) (target key : Value) :
    ∃ result, runGetValue s target key = some result ∧ ∀ r, result = .ok r → s.Valid r := by
  unfold runGetValue
  split
  · next m _ =>
    split
    · next r hget =>
      refine ⟨.ok r, rfl, fun _ hr => ?_⟩
      cases hr
      rw [MapCell.get] at hget
      cases hk : key.unbindOnce.1.unbind.key with
      | error e => simp [hk, Except.map] at hget
      | ok k =>
        have hfind : ((s.map m).find? k).map (·.2) = some r := by
          simpa [hk, Except.map] using hget
        obtain ⟨p, hp, rfl⟩ := Option.map_eq_some_iff.1 hfind
        have hmem := (hs.sorted m).find?_eq_some_iff.1 hp
        exact (hs.valid_pair (List.mem_map.2 ⟨_, hmem, rfl⟩)).2
    · obtain ⟨text, htext⟩ := exists_inspect_iff.2 (ha.from key.unbindOnce.1)
      exact ⟨.error (.noValue text), by rw [htext]; rfl, nofun⟩
    · exact ⟨_, rfl, nofun⟩
  · exact ⟨_, rfl, nofun⟩

theorem exists_runEquals (hs : s.WellFormed) (ha : s.Acyclic) (v w : Value) :
    ∃ result, runEquals s v w = some result ∧ ∀ r, result = .ok r → s.Valid r := by
  unfold runEquals
  split
  · next m n _ _ =>
    obtain ⟨b, hb, -⟩ := (ha.from (.map m)).loopFree.decides_deepEquals hs.sorted (.map n)
    refine ⟨.ok (.bool b), by rw [hb]; rfl, fun _ hr => ?_⟩
    cases hr
    trivial
  · exact ⟨_, rfl, nofun⟩

/-- Every function ends and does nothing else. -/
theorem exists_run (hs : s.WellFormed) (ha : s.Acyclic) (hargs : ∀ v ∈ args, s.Valid v) :
    ∃ o, f.run s args = some o ∧ Effect s f args o := by
  fun_cases run s f args with
  | case1 v =>
    refine ⟨_, rfl, effect_same (by decide) ?_⟩
    fun_cases runLen s v <;> rintro _ ⟨⟩ <;> trivial
  | case2 v =>
    obtain ⟨w, t, hrun, hbuilds, hcopy⟩ := exists_copy hs (hargs v List.mem_cons_self) (ha.from v)
    have hvalid := hcopy.valid hbuilds.grows (hargs v List.mem_cons_self)
    exact ⟨(.ok w, t), by rw [hrun]; rfl, .builds nofun hbuilds hvalid⟩
  | case3 v =>
    refine ⟨_, rfl, effect_same (by decide) ?_⟩
    fun_cases toInt v <;> rintro _ ⟨⟩ <;> trivial
  | case4 v =>
    refine ⟨_, rfl, effect_same (by decide) ?_⟩
    fun_cases toFloat v <;> rintro _ ⟨⟩ <;> trivial
  | case5 v =>
    refine ⟨_, rfl, effect_same (by decide) ?_⟩
    fun_cases toText v <;> rintro _ ⟨⟩ <;> trivial
  | case6 v =>
    refine ⟨_, rfl, effect_same (by decide) ?_⟩
    fun_cases toBool v <;> rintro _ ⟨⟩ <;> trivial
  | case7 v => exact ⟨_, rfl, .builds nofun .refl trivial⟩
  | case8 v => exact ⟨_, rfl, effect_runKeys hs nofun⟩
  | case9 v => exact ⟨_, rfl, effect_runValues hs nofun⟩
  | case10 target key value => exact exists_runInsert ha target key value
  | case11 target key =>
    obtain ⟨result, hrun, hvalid⟩ := exists_runGetValue hs ha target key
    exact ⟨_, by rw [hrun]; rfl, effect_same (by decide) hvalid⟩
  | case12 v w =>
    obtain ⟨result, hrun, hvalid⟩ := exists_runEquals hs ha v w
    exact ⟨_, by rw [hrun]; rfl, effect_same (by decide) hvalid⟩
  | case13 v =>
    refine ⟨_, rfl, effect_same (by decide) ?_⟩
    fun_cases runAbs v <;> rintro _ ⟨⟩ <;> trivial
  | case14 base exponent =>
    refine ⟨_, rfl, effect_same (by decide) ?_⟩
    fun_cases runPow base exponent <;> rintro _ ⟨⟩
    trivial
  | case15 => exact ⟨_, rfl, .fault _⟩

/-- The call has put a value into a map that the value reaches. -/
def LinksBack (s : Store) (f : Builtin) (args : List Value) (r : Value) : Prop :=
  ∃ (m : MapRef) (isBuiltin : Bool) (key value : Value), f = insert ∧
    args = [.binding (.map m) true isBuiltin, key, value] ∧ r = .map m ∧ s.Reaches value (.map m)

/-- What holds of a call's result and of the store after it. -/
structure Leaves (s : Store) (f : Builtin) (args : List Value) (r : Value) (t : Store) : Prop where
  wellFormed : t.WellFormed
  keeps : ∀ v : Value, s.Valid v → t.Valid v
  valid : t.Valid r
  acyclic_iff : t.Acyclic ↔ ¬ LinksBack s f args r
  unending : LinksBack s f args r → t.inspect r = none

theorem leaves_of_builds (hs : s.WellFormed) (ha : s.Acyclic) {r : Value} {t : Store}
    (h : s.Builds t) (hr : t.Valid r) (hlink : ¬ LinksBack s f args r) : Leaves s f args r t where
  wellFormed := h.wellFormed hs
  keeps _ := h.grows.valid
  valid := hr
  acyclic_iff := iff_of_true (h.acyclic hs ha) hlink
  unending hback := absurd hback hlink

theorem leaves_link (hs : s.WellFormed) (ha : s.Acyclic) {m : MapRef} {isBuiltin : Bool}
    {key value : Value} {k : MapKey} (hk : key.unbind.key = .ok k) (hm : s.Valid (.map m))
    (hkey : s.Valid key) (hvalue : s.Valid value) :
    Leaves s insert [.binding (.map m) true isBuiltin, key, value] (.map m)
      (s.link m k key.unbind value.unbind) := by
  have hback : LinksBack s insert [.binding (.map m) true isBuiltin, key, value] (.map m) ↔
      s.Reaches value.unbind (.map m) := by
    rw [reaches_unbind_iff rfl]
    constructor
    · rintro ⟨_, _, _, _, -, hargs, -, hreach⟩
      cases hargs
      exact hreach
    · intro hreach
      exact ⟨m, isBuiltin, key, value, rfl, rfl, rfl, hreach⟩
  refine ⟨hs.link hm (valid_unbind hkey) (valid_unbind hvalue), fun _ => valid_link.2,
    valid_link.2 hm, ?_, ?_⟩
  · rw [hback]
    exact acyclic_link_iff hs ha hm (Value.contents_of_key hk s) (Value.isCell_of_key hk)
  · intro h
    refine Option.eq_none_iff_forall_ne_some.2 fun text htext => ?_
    exact exists_inspect_iff.1 ⟨text, htext⟩ (.map m) rfl .refl
      (encloses_link_self hs hm (hback.1 h))

theorem exists_call (hs : s.WellFormed) (ha : s.Acyclic) (hargs : ∀ v ∈ args, s.Valid v) :
    ∃ r t, f.call s args = some (r, t) ∧ Leaves s f args r t := by
  obtain ⟨o, hrun, heffect⟩ := exists_run hs ha hargs
  cases heffect with
  | fault e =>
    refine ⟨.error e.message, s, by rw [call, hrun]; rfl, ?_⟩
    refine leaves_of_builds hs ha .refl trivial ?_
    rintro ⟨_, _, _, _, -, -, hr, -⟩
    cases hr
  | @builds r t hf hbuilds hr =>
    refine ⟨r, t, by rw [call, hrun]; rfl, leaves_of_builds hs ha hbuilds hr ?_⟩
    rintro ⟨_, _, _, _, hinsert, -⟩
    exact hf hinsert
  | @links m isBuiltin key value k hf hlist hk =>
    subst hf hlist
    refine ⟨.map m, s.link m k key.unbind value.unbind, by rw [call, hrun]; rfl, ?_⟩
    exact leaves_link hs ha hk (hargs (.binding (.map m) true isBuiltin) (by simp))
      (hargs key (by simp)) (hargs value (by simp))

/-- The second store comes from the first by calls, none of which links back. -/
inductive Runs (s : Store) : Store → Prop
  | refl : Runs s s
  | call {t u : Store} {f : Builtin} {args : List Value} {r : Value} (h : Runs s t)
      (hargs : ∀ v ∈ args, t.Valid v) (hcall : f.call t args = some (r, u))
      (hlink : ¬ LinksBack t f args r) : Runs s u

theorem Runs.acyclic {t : Store} (h : Runs s t) (hs : s.WellFormed) (ha : s.Acyclic) :
    t.WellFormed ∧ t.Acyclic := by
  induction h with
  | refl => exact ⟨hs, ha⟩
  | call _ hargs hcall hlink ih =>
    obtain ⟨r, u, hcall', hleaves⟩ := exists_call ih.1 ih.2 hargs
    rw [hcall'] at hcall
    cases hcall
    exact ⟨hleaves.wellFormed, hleaves.acyclic_iff.2 hlink⟩

/-- In a store without a loop every call ends, and the store after it has a loop exactly if the
call has put a value into a map that the value reaches. The text of that map has no end. As long as
no call does so, texts, copies and comparisons end on all values. -/
theorem call_acyclic_iff (hs : s.WellFormed) (ha : s.Acyclic) :
    (∀ f args, (∀ v ∈ args, s.Valid v) →
      ∃ r t, call s f args = some (r, t) ∧ Leaves s f args r t) ∧
    ∀ t, Runs s t → t.WellFormed ∧ t.Acyclic ∧ ∀ v w, t.Valid v →
      (∃ text, t.inspect v = some text) ∧ (∃ copy, t.copy v = some copy) ∧
        ∃ b, t.deepEquals v w = some b := by
  refine ⟨fun f args hargs => exists_call hs ha hargs, fun t ht => ?_⟩
  obtain ⟨hwell, hacyclic⟩ := ht.acyclic hs ha
  refine ⟨hwell, hacyclic, fun v w hv => ?_⟩
  obtain ⟨copy, u, hcopy, -⟩ := exists_copy hwell hv (hacyclic.from v)
  obtain ⟨b, hb, -⟩ := (hacyclic.from v).loopFree.decides_deepEquals hwell.sorted w
  exact ⟨exists_inspect_iff.2 (hacyclic.from v), ⟨_, hcopy⟩, b, hb⟩

def oneMap : Store := (Store.empty.newMap Table.empty).2

theorem builds_oneMap : Store.empty.Builds oneMap :=
  Builds.refl.map Table.sorted_empty nofun

def twoMaps : Store := (oneMap.newMap Table.empty).2

theorem builds_twoMaps : Store.empty.Builds twoMaps :=
  builds_oneMap.map Table.sorted_empty nofun

/-- The second map is put into the first, the keys of the first are listed, and it is copied. Then
the first is put into the second, which it holds. -/
theorem call_acyclic_iff_twoMaps :
    let first : Value := .binding (.map ⟨0⟩) true false
    let second : Value := .binding (.map ⟨1⟩) true false
    twoMaps.WellFormed ∧ twoMaps.Acyclic ∧ ∃ t u v w,
      call twoMaps insert [first, .bool true, second] = some (.map ⟨0⟩, t) ∧
      call t keys [first] = some (.array ⟨0⟩, u) ∧
      call u copy [first] = some (.binding (.map ⟨3⟩) true false, v) ∧
      Runs twoMaps v ∧ v.Acyclic ∧ (∃ text, v.inspect first = some text) ∧
      call v insert [second, .int 5, first] = some (.map ⟨1⟩, w) ∧
      ¬ w.Acyclic ∧ w.inspect (.map ⟨1⟩) = none := by
  intro first second
  have hs := builds_twoMaps.wellFormed wellFormed_empty
  have ha := builds_twoMaps.acyclic wellFormed_empty acyclic_empty
  let t := twoMaps.link ⟨0⟩ ⟨.boolean, .one⟩ (.bool true) (.map ⟨1⟩)
  let u := (t.newArray [.bool true]).2
  let v := ((u.newMap ⟨[]⟩).2.newMap ⟨[(⟨.boolean, .one⟩, .bool true, .map ⟨2⟩)]⟩).2
  let w := v.link ⟨1⟩ ⟨.integer, .ofInt 5⟩ (.int 5) (.map ⟨0⟩)
  have hinsert : call twoMaps insert [first, .bool true, second] = some (.map ⟨0⟩, t) := rfl
  have hkeys : call t keys [first] = some (.array ⟨0⟩, u) := rfl
  have hcopy : call u copy [first] = some (.binding (.map ⟨3⟩) true false, v) := rfl
  have hclose : call v insert [second, .int 5, first] = some (.map ⟨1⟩, w) := rfl
  have hplain : ¬ LinksBack twoMaps insert [first, .bool true, second] (.map ⟨0⟩) := by
    rintro ⟨m, isBuiltin, key, value, -, hargs, -, hreach⟩
    simp only [first, second] at hargs
    cases hargs
    have hunbound := (reaches_unbind_iff rfl).2 hreach
    rcases Relation.ReflTransGen.cases_head hunbound with heq | ⟨x, hx, -⟩
    · cases heq
    · cases hx
  have hruns : Runs twoMaps v := by
    refine .call (.call (.call .refl ?_ hinsert hplain) ?_ hkeys ?_) ?_ hcopy ?_
    · simp [first, second, Valid, twoMaps, oneMap, newMap]
    · simp [first, Valid, t, link, setMap, twoMaps, oneMap, newMap]
    · rintro ⟨_, _, _, _, hf, -⟩
      cases hf
    · simp [first, Valid, u, newArray, t, link, setMap, twoMaps, oneMap, newMap]
    · rintro ⟨_, _, _, _, hf, -⟩
      cases hf
  obtain ⟨hwell, hacyclic, hends⟩ := (call_acyclic_iff hs ha).2 v hruns
  have hfirst : v.Valid first := by
    simp [first, Valid, v, u, newArray, t, link, setMap, twoMaps, oneMap, newMap]
  have hsecond : v.Valid second := by
    simp [second, Valid, v, u, newArray, t, link, setMap, twoMaps, oneMap, newMap]
  obtain ⟨r, w', hcall, hleaves⟩ := (call_acyclic_iff hwell hacyclic).1 insert
    [second, .int 5, first] (by simp [hfirst, hsecond, Valid])
  rw [hclose] at hcall
  cases hcall
  have hlinks : LinksBack v insert [second, .int 5, first] (.map ⟨1⟩) := by
    refine ⟨⟨1⟩, false, .int 5, first, rfl, rfl, rfl, ?_⟩
    exact .head (List.mem_singleton.2 rfl) (.head (.tail _ (.head _)) .refl)
  exact ⟨hs, ha, t, u, v, w, hinsert, hkeys, hcopy, hruns, hacyclic, (hends first first hfirst).1,
    hclose, fun h => hleaves.acyclic_iff.1 h hlinks, hleaves.unending hlinks⟩

/-- A map put into itself holds itself, and neither its text nor its copy has an end. -/
theorem insert_self_closes_loop :
    oneMap.WellFormed ∧ oneMap.Acyclic ∧ ∃ t,
      call oneMap insert [.binding (.map ⟨0⟩) true false, .bool true, .map ⟨0⟩] =
        some (.map ⟨0⟩, t) ∧
      ¬ t.Acyclic ∧ t.inspect (.map ⟨0⟩) = none ∧ t.copy (.map ⟨0⟩) = none := by
  have hs := builds_oneMap.wellFormed wellFormed_empty
  have ha := builds_oneMap.acyclic wellFormed_empty acyclic_empty
  have hm : oneMap.Valid (.map ⟨0⟩) := by simp [Valid, oneMap, newMap]
  have hloop : (oneMap.link ⟨0⟩ ⟨.boolean, .one⟩ (.bool true) (.map ⟨0⟩)).Encloses (.map ⟨0⟩)
      (.map ⟨0⟩) := encloses_link_self hs hm .refl
  exact ⟨hs, ha, oneMap.link ⟨0⟩ ⟨.boolean, .one⟩ (.bool true) (.map ⟨0⟩), rfl,
    fun h => h _ rfl hloop, rfl, rfl⟩

end Builtin
end ScriptKit
