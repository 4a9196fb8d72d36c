import ScriptKit.Proofs.Growth
import ScriptKit.Proofs.TableOrder

/-! A pair put into a map. It closes a loop exactly if its value reaches the map already. -/
namespace ScriptKit.Store

def link (s : Store) (m : MapRef) (k : MapKey) (key value : Value) : Store :=
  s.setMap m ((s.map m).insert k (key, value))

variable {s : Store} {m : MapRef} {k : MapKey} {key value : Value}

theorem contents_link_of_ne {c : Value} (h : c ≠ .map m) :
    (s.link m k key value).contents c = s.contents c := by
  cases c with
  | map n =>
    have hne : n ≠ m := fun he => h (congrArg Value.map he)
    rw [contents, contents, link, s.map_setMap_of_ne hne]
  | _ => rfl

/-- A pair that gives way only takes from what the map holds. -/
theorem holds_link (hm : s.Valid (.map m)) {c w : Value} (h : (s.link m k key value).Holds c w) :
    s.Holds c w ∨ c = .map m ∧ (w = key ∨ w = value) := by
  by_cases hc : c = .map m
  · subst hc
    rw [Holds, contents, link, map_setMap_self hm] at h
    obtain ⟨p, hp, hwp⟩ := List.mem_flatMap.1 h
    obtain ⟨e, he, rfl⟩ := List.mem_map.1 hp
    rcases Table.mem_insertInto he with rfl | hold
    · exact .inr ⟨rfl, by simpa using hwp⟩
    · exact .inl (List.mem_flatMap.2 ⟨e.2, List.mem_map.2 ⟨e, hold, rfl⟩, hwp⟩)
  · rw [Holds, contents_link_of_ne hc] at h
    exact .inl h

theorem holds_link_value (hs : s.WellFormed) (hm : s.Valid (.map m)) :
    (s.link m k key value).Holds (.map m) value := by
  have hmem : (k, key, value) ∈ ((s.map m).insert k (key, value)).entries :=
    (Table.sorted_insert (hs.sorted m) k (key, value)).find?_eq_some_iff.1
      (Table.find?_insert_self (s.map m) k (key, value))
  rw [Holds, contents, link, map_setMap_self hm]
  exact List.mem_flatMap.2 ⟨(key, value), List.mem_map.2 ⟨_, hmem, rfl⟩, by simp⟩

theorem valid_link {v : Value} : (s.link m k key value).Valid v ↔ s.Valid v := by
  induction v with
  | returned v ih | constant v ih | binding v _ _ ih => exact ih
  | map n => simp [Valid, link, setMap]
  | _ => exact Iff.rfl

theorem WellFormed.link (hs : s.WellFormed) (hm : s.Valid (.map m)) (hkey : s.Valid key)
    (hvalue : s.Valid value) : (s.link m k key value).WellFormed where
  closed c w hc h := by
    rw [valid_link]
    rcases holds_link hm h with h | ⟨-, rfl | rfl⟩
    · exact hs.closed c w hc h
    · exact hkey
    · exact hvalue
  sorted n := by
    by_cases hn : n = m
    · subst hn
      rw [Store.link, map_setMap_self hm]
      exact Table.sorted_insert (hs.sorted n) k (key, value)
    · rw [Store.link, s.map_setMap_of_ne hn]
      exact hs.sorted n

/-- A way to the map needs nothing of what the map holds. -/
theorem reaches_link {c : Value} (h : s.Reaches c (.map m)) :
    (s.link m k key value).Reaches c (.map m) := by
  induction h using Relation.ReflTransGen.head_induction_on with
  | refl => exact .refl
  | @head c d hcd _ ih =>
    by_cases hc : c = .map m
    · subst hc
      exact .refl
    · refine .head ?_ ih
      rwa [Holds, contents_link_of_ne hc]

/-- A way in the new store is an old one, or it goes through the map to the new pair. -/
theorem encloses_link (hm : s.Valid (.map m)) (hkey : s.contents key = []) {c d : Value}
    (h : (s.link m k key value).Encloses c d) :
    s.Encloses c d ∨ s.Reaches c (.map m) ∧ (d = key ∨ s.Reaches value d) := by
  induction h with
  | single hcd =>
    rcases holds_link hm hcd with hold | ⟨rfl, rfl | rfl⟩
    · exact .inl (.single hold)
    · exact .inr ⟨.refl, .inl rfl⟩
    · exact .inr ⟨.refl, .inr .refl⟩
  | tail _ hstep ih =>
    rcases holds_link hm hstep with hold | ⟨rfl, hnew⟩
    · rcases ih with hc | ⟨hc, rfl | hvalue⟩
      · exact .inl (hc.tail hold)
      · rw [Holds, hkey] at hold
        cases hold
      · exact .inr ⟨hc, .inr (hvalue.tail hold)⟩
    · have hc : s.Reaches _ (.map m) := ih.elim Relation.TransGen.to_reflTransGen And.left
      rcases hnew with rfl | rfl
      · exact .inr ⟨hc, .inl rfl⟩
      · exact .inr ⟨hc, .inr .refl⟩

theorem encloses_link_self (hs : s.WellFormed) (hm : s.Valid (.map m))
    (h : s.Reaches value (.map m)) : (s.link m k key value).Encloses (.map m) (.map m) :=
  Relation.TransGen.head' (holds_link_value hs hm) (reaches_link h)

theorem acyclic_link_iff (hs : s.WellFormed) (ha : s.Acyclic) (hm : s.Valid (.map m))
    (hkey : s.contents key = []) (hplain : key.isCell = false) :
    (s.link m k key value).Acyclic ↔ ¬ s.Reaches value (.map m) := by
  constructor
  · intro hlink h
    exact hlink (.map m) rfl (encloses_link_self hs hm h)
  · intro h c hc hloop
    rcases encloses_link hm hkey hloop with hold | ⟨hcm, rfl | hvalue⟩
    · exact ha c hc hold
    · rw [hplain] at hc
      cases hc
    · exact h (hvalue.trans hcm)

theorem reaches_unbind_iff {v c : Value} (hc : c.isCell = true) :
    s.Reaches v.unbind c ↔ s.Reaches v c := by
  induction v with
  | binding v isMutable isBuiltin ih =>
    rw [Value.unbind_binding, ih]
    constructor
    · intro h
      exact .head (List.mem_singleton.2 rfl) h
    · intro h
      rcases Relation.ReflTransGen.cases_head h with rfl | ⟨w, hw, hwc⟩
      · cases hc
      · obtain rfl := List.mem_singleton.1 hw
        exact hwc
  | _ => exact Iff.rfl

end ScriptKit.Store
