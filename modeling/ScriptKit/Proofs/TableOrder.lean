import ScriptKit.Table

/-! Look-ups in a sorted table find exactly its entries, and so tell sorted tables apart. -/
namespace ScriptKit.Table

variable {κ α : Type} [Ord κ]

theorem lookup?_eq_some_iff [Std.TransOrd κ] [Std.LawfulEqOrd κ] {entries : List (κ × α)}
    (h : entries.Pairwise fun x y => compare x.1 y.1 = .lt) {key : κ} {a : α} :
    lookup? key entries = some a ↔ (key, a) ∈ entries := by
  induction entries with
  | nil => simp [lookup?]
  | cons x rest ih =>
    obtain ⟨k, b⟩ := x
    obtain ⟨hk, hrest⟩ := List.pairwise_cons.1 h
    have hafter : (key, a) ∈ rest → compare k key = .lt := hk (key, a)
    rw [List.mem_cons, Prod.mk.injEq, lookup?]
    cases hc : compare key k with
    | lt =>
      have hne : key ≠ k := fun he => by simp [he] at hc
      have hnot : (key, a) ∉ rest := fun hmem => by
        rw [Std.OrientedCmp.gt_of_lt (hafter hmem)] at hc
        cases hc
      simp [hne, hnot]
    | eq =>
      obtain rfl : key = k := Std.LawfulEqCmp.eq_of_compare hc
      have hnot : (key, a) ∉ rest := fun hmem => by
        rw [hafter hmem] at hc
        cases hc
      simp [hnot, eq_comm]
    | gt =>
      have hne : key ≠ k := fun he => by simp [he] at hc
      simp [hne, ih hrest]

theorem Sorted.find?_eq_some_iff [Std.TransOrd κ] [Std.LawfulEqOrd κ] {t : Table κ α}
    (h : t.Sorted) {key : κ} {a : α} : t.find? key = some a ↔ (key, a) ∈ t.entries :=
  lookup?_eq_some_iff h

theorem Sorted.nodup [Std.LawfulEqOrd κ] {t : Table κ α} (h : t.Sorted) : t.entries.Nodup := by
  refine List.Pairwise.imp (fun {x y} hlt heq => ?_) h
  simp [heq] at hlt

theorem Sorted.ext [Std.TransOrd κ] [Std.LawfulEqOrd κ] {t u : Table κ α} (ht : t.Sorted)
    (hu : u.Sorted) (h : ∀ key, t.find? key = u.find? key) : t = u := by
  have hmem : ∀ x, x ∈ t.entries ↔ x ∈ u.entries := by
    intro x
    rw [← ht.find?_eq_some_iff, ← hu.find?_eq_some_iff, h]
  have hperm : t.entries.Perm u.entries := (List.perm_ext_iff_of_nodup ht.nodup hu.nodup).2 hmem
  have heq : t.entries = u.entries := by
    refine hperm.eq_of_pairwise (fun x y _ _ hxy hyx => ?_) ht hu
    rw [Std.OrientedCmp.gt_of_lt hyx] at hxy
    cases hxy
  cases t
  cases u
  exact congrArg Table.mk heq

/-- Looking for a key and putting it in take the same way through the entries. -/
theorem length_insertInto {key : κ} {entries : List (κ × α)} (h : lookup? key entries = none)
    (a : α) : (insertInto key a entries).length = entries.length + 1 := by
  induction entries with
  | nil => rfl
  | cons x rest ih =>
    obtain ⟨k, b⟩ := x
    rw [lookup?] at h
    rw [insertInto]
    cases hc : compare key k with
    | lt => rfl
    | eq => simp [hc] at h
    | gt =>
      rw [hc] at h
      exact congrArg (· + 1) (ih h)

theorem size_insert {t : Table κ α} {key : κ} (h : t.contains key = false) (a : α) :
    (t.insert key a).size = t.size + 1 := by
  rw [contains, Option.isSome_eq_false_iff, Option.isNone_iff_eq_none] at h
  exact length_insertInto h a

end ScriptKit.Table
