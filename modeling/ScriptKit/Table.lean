/-! Tables: entries in ascending order of their keys, one for each key. -/
namespace ScriptKit

/-- Keys with their values, kept in ascending order by `insert`. -/
structure Table (κ α : Type) where
  entries : List (κ × α)
deriving Repr

namespace Table

variable {κ α : Type} [Ord κ]

def empty : Table κ α := ⟨[]⟩

def lookup? (key : κ) : List (κ × α) → Option α
  | [] => none
  | (k, a) :: rest =>
    match compare key k with
    | .lt => none
    | .eq => some a
    | .gt => lookup? key rest

def find? (t : Table κ α) (key : κ) : Option α := lookup? key t.entries

def contains (t : Table κ α) (key : κ) : Bool := (t.find? key).isSome

/-- Puts an entry at its place; an entry with an equal key gives way. -/
def insertInto (key : κ) (a : α) : List (κ × α) → List (κ × α)
  | [] => [(key, a)]
  | (k, b) :: rest =>
    match compare key k with
    | .lt => (key, a) :: (k, b) :: rest
    | .eq => (key, a) :: rest
    | .gt => (k, b) :: insertInto key a rest

def insert (t : Table κ α) (key : κ) (a : α) : Table κ α := ⟨insertInto key a t.entries⟩

/-- The table of some entries; of those with equal keys the last stays. -/
def ofList (entries : List (κ × α)) : Table κ α :=
  entries.foldl (fun t (key, a) => t.insert key a) empty

def lesser (x y : κ × α) : κ × α :=
  match compare x.1 y.1 with
  | .gt => y
  | _ => x

def least? (t : Table κ α) : Option (κ × α) :=
  match t.entries with
  | [] => none
  | x :: rest => some (rest.foldl lesser x)

def size (t : Table κ α) : Nat := t.entries.length

def isEmpty (t : Table κ α) : Bool := t.entries.isEmpty

def keys (t : Table κ α) : List κ := t.entries.map (·.1)

def values (t : Table κ α) : List α := t.entries.map (·.2)

def Sorted (t : Table κ α) : Prop := t.entries.Pairwise fun x y => compare x.1 y.1 = .lt

theorem sorted_empty : (empty : Table κ α).Sorted := List.Pairwise.nil

theorem mem_insertInto {key : κ} {a : α} {entries : List (κ × α)} {x : κ × α}
    (h : x ∈ insertInto key a entries) : x = (key, a) ∨ x ∈ entries := by
  induction entries with
  | nil => simpa [insertInto] using h
  | cons y rest ih =>
    obtain ⟨k, b⟩ := y
    simp only [insertInto] at h
    split at h
    · simpa using h
    · rcases List.mem_cons.1 h with rfl | h
      · exact .inl rfl
      · exact .inr (List.mem_cons_of_mem _ h)
    · rcases List.mem_cons.1 h with rfl | h
      · exact .inr List.mem_cons_self
      · exact (ih h).imp_right (List.mem_cons_of_mem _)

theorem sorted_insert [Std.TransOrd κ] [Std.LawfulEqOrd κ] {t : Table κ α} (h : t.Sorted)
    (key : κ) (a : α) : (t.insert key a).Sorted := by
  obtain ⟨entries⟩ := t
  change (insertInto key a entries).Pairwise _
  change entries.Pairwise _ at h
  induction entries with
  | nil => simp [insertInto]
  | cons y rest ih =>
    obtain ⟨k, b⟩ := y
    obtain ⟨hk, hrest⟩ := List.pairwise_cons.1 h
    simp only [insertInto]
    split
    · rename_i hlt
      refine List.pairwise_cons.2 ⟨?_, h⟩
      intro x hx
      rcases List.mem_cons.1 hx with rfl | hx
      · exact hlt
      · exact Std.TransCmp.lt_trans hlt (hk x hx)
    · rename_i heq
      have hkey : key = k := Std.LawfulEqCmp.eq_of_compare heq
      subst hkey
      exact List.pairwise_cons.2 ⟨hk, hrest⟩
    · rename_i hgt
      refine List.pairwise_cons.2 ⟨?_, ih hrest⟩
      intro x hx
      rcases mem_insertInto hx with rfl | hx
      · exact Std.OrientedCmp.lt_of_gt hgt
      · exact hk x hx

theorem foldl_lesser_mem (x : κ × α) (rest : List (κ × α)) :
    rest.foldl lesser x = x ∨ rest.foldl lesser x ∈ rest := by
  induction rest generalizing x with
  | nil => exact .inl rfl
  | cons y rest ih =>
    have hstep : lesser x y = x ∨ lesser x y = y := by
      rw [lesser]
      split
      · exact .inr rfl
      · exact .inl rfl
    rw [List.foldl_cons, List.mem_cons]
    rcases ih (lesser x y) with hmem | hmem
    · rw [hmem]
      exact hstep.imp_right .inl
    · exact .inr (.inr hmem)

theorem mem_of_least? {t : Table κ α} {x : κ × α} (h : t.least? = some x) : x ∈ t.entries := by
  obtain ⟨entries⟩ := t
  cases entries with
  | nil => cases h
  | cons y rest =>
    obtain rfl := Option.some.inj h
    exact List.mem_cons.2 (foldl_lesser_mem y rest)

/-- In a table in order, the entry with the least key is the first. -/
theorem Sorted.least?_eq {t : Table κ α} (h : t.Sorted) : t.least? = t.entries.head? := by
  obtain ⟨entries⟩ := t
  cases entries with
  | nil => rfl
  | cons x rest =>
    have hrest : ∀ y ∈ rest, compare x.1 y.1 = .lt := (List.pairwise_cons.1 h).1
    have hfold : ∀ ys : List (κ × α), (∀ y ∈ ys, compare x.1 y.1 = .lt) →
        ys.foldl lesser x = x := by
      intro ys hys
      induction ys with
      | nil => rfl
      | cons y ys ih =>
        obtain ⟨hy, hys⟩ := List.forall_mem_cons.1 hys
        have hstep : lesser x y = x := by rw [lesser, hy]
        rw [List.foldl_cons, hstep, ih hys]
    exact congrArg some (hfold rest hrest)

theorem find?_insert_self [Std.LawfulEqOrd κ] (t : Table κ α) (key : κ) (a : α) :
    (t.insert key a).find? key = some a := by
  obtain ⟨entries⟩ := t
  change lookup? key (insertInto key a entries) = some a
  induction entries with
  | nil => simp [insertInto, lookup?]
  | cons y rest ih =>
    obtain ⟨k, b⟩ := y
    simp only [insertInto]
    split
    · simp [lookup?]
    · simp [lookup?]
    · rename_i hgt
      simp only [lookup?, hgt, ih]

theorem find?_insert_of_ne [Std.TransOrd κ] [Std.LawfulEqOrd κ] (t : Table κ α) {key other : κ}
    (h : other ≠ key) (a : α) : (t.insert key a).find? other = t.find? other := by
  obtain ⟨entries⟩ := t
  change lookup? other (insertInto key a entries) = lookup? other entries
  have hne : compare other key ≠ .eq := fun he => h (Std.LawfulEqCmp.eq_of_compare he)
  induction entries with
  | nil => cases ho : compare other key <;> simp_all [insertInto, lookup?]
  | cons y rest ih =>
    obtain ⟨k, b⟩ := y
    simp only [insertInto]
    split
    · rename_i hlt
      cases ho : compare other key with
      | lt => simp [lookup?, ho, Std.TransCmp.lt_trans ho hlt]
      | eq => exact absurd ho hne
      | gt => simp [lookup?, ho]
    · rename_i heq
      have hkey : key = k := Std.LawfulEqCmp.eq_of_compare heq
      subst hkey
      cases ho : compare other key <;> simp_all [lookup?]
    · simp only [lookup?, ih]

end Table

end ScriptKit
