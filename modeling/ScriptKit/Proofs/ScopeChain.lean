import Mathlib.Logic.Function.Basic
import ScriptKit.Store.Scope

/-! Scopes after any calls. A scope is younger than the scope around it, so the way outwards ends.
A binding that is put into a scope is seen from exactly those scopes whose way outwards comes to it
before it meets the name. -/
namespace ScriptKit

inductive ScopeCall
  | root
  | enclosed (parent : ScopeRef)
  | define (r : ScopeRef) (name : String) (b : Binding)
  | declare (r : ScopeRef) (name : String) (b : Binding)
  | override (r : ScopeRef) (name : String) (b : Binding)

def ScopeCall.target? : ScopeCall → Option ScopeRef
  | root => none
  | enclosed r | define r _ _ | declare r _ _ | override r _ _ => some r

namespace Store

def HasScope (s : Store) (r : ScopeRef) : Prop := r.index < s.scopes.size

instance (s : Store) (r : ScopeRef) : Decidable (s.HasScope r) :=
  inferInstanceAs (Decidable (r.index < s.scopes.size))

def boundIn? (s : Store) (r : ScopeRef) (name : String) : Option Binding :=
  (s.scope r).names.find? name

/-- The store after a call, whether the call succeeds or not. -/
def perform (s : Store) : ScopeCall → Store
  | .root => (s.newScope none).2
  | .enclosed parent => (s.newScope (some parent)).2
  | .define r name b => (s.define r name b).2
  | .declare r name b => (s.declare r name b).2
  | .override r name b => s.override r name b

/-- Some calls, each made on a scope that is there, lead from the first store to the second. -/
inductive ScopeRun : Store → List ScopeCall → Store → Prop
  | nil (s : Store) : ScopeRun s [] s
  | cons {s t : Store} {calls : List ScopeCall} (call : ScopeCall)
      (hcall : ∀ r ∈ call.target?, s.HasScope r) (h : ScopeRun (s.perform call) calls t) :
      ScopeRun s (call :: calls) t

section Define

variable {s : Store} {r : ScopeRef} {name : String} {found : Binding} (b : Binding)

theorem define_of_bound (h : s.boundIn? r name = some found) :
    s.define r name b = (.already found, s) := by
  rw [boundIn?] at h
  simp [define, h]

theorem define_of_free (h : s.boundIn? r name = none) :
    s.define r name b = (.fresh b, s.override r name b) := by
  rw [boundIn?] at h
  simp [define, h]

theorem declare_of_bound (h : s.boundIn? r name = some found) :
    s.declare r name b = (.error (.redeclaration name), s) := by
  rw [declare, define_of_bound b h]

theorem declare_of_free (h : s.boundIn? r name = none) :
    s.declare r name b = (.ok b, s.override r name b) := by
  rw [declare, define_of_free b h]

theorem declare_eq_ok_iff {b b' : Binding} {t : Store} :
    s.declare r name b = (.ok b', t) ↔ s.define r name b = (.fresh b', t) := by
  cases h : s.boundIn? r name with
  | none => simp [declare_of_free b h, define_of_free b h]
  | some found => simp [declare_of_bound b h, define_of_bound b h]

end Define

/-- All that a call can do: add a scope, bind a name that is free or may be bound again, or leave
the store as it is. -/
theorem perform_cases (s : Store) (call : ScopeCall) :
    (∃ parent?, (∀ p ∈ parent?, call.target? = some p) ∧
      s.perform call = (s.newScope parent?).2) ∨
    (∃ r name b, call.target? = some r ∧ (call = .override r name b ∨ s.boundIn? r name = none) ∧
      s.perform call = s.override r name b) ∨
    s.perform call = s := by
  cases call with
  | root => exact .inl ⟨none, nofun, rfl⟩
  | enclosed parent => exact .inl ⟨some parent, by simp [ScopeCall.target?], rfl⟩
  | define r name b =>
    cases h : s.boundIn? r name with
    | none => exact .inr (.inl ⟨r, name, b, rfl, .inr h, by rw [perform, define_of_free b h]⟩)
    | some found => exact .inr (.inr (by rw [perform, define_of_bound b h]))
  | declare r name b =>
    cases h : s.boundIn? r name with
    | none => exact .inr (.inl ⟨r, name, b, rfl, .inr h, by rw [perform, declare_of_free b h]⟩)
    | some found => exact .inr (.inr (by rw [perform, declare_of_bound b h]))
  | override r name b => exact .inr (.inl ⟨r, name, b, rfl, .inl rfl, rfl⟩)

section NewScope

variable (s : Store) (parent? : Option ScopeRef)

theorem scope_newScope_self : (s.newScope parent?).2.scope ⟨s.scopes.size⟩ = ⟨.empty, parent?⟩ := by
  simp [newScope, scope]

theorem scope_newScope_of_ne {r : ScopeRef} (h : r.index ≠ s.scopes.size) :
    (s.newScope parent?).2.scope r = s.scope r := by
  simp [newScope, scope, Array.getElem?_push, h]

@[simp] theorem size_scopes_newScope :
    (s.newScope parent?).2.scopes.size = s.scopes.size + 1 := by
  simp [newScope]

end NewScope

section Override

variable (s : Store) (r : ScopeRef) (name : String) (b : Binding)

@[simp] theorem size_scopes_override : (s.override r name b).scopes.size = s.scopes.size := by
  simp [override, setScope]

@[simp] theorem parent?_override (q : ScopeRef) :
    ((s.override r name b).scope q).parent? = (s.scope q).parent? := by
  by_cases hq : q = r
  · subst hq
    by_cases hr : q.index < s.scopes.size
    · rw [override, scope_setScope_self hr]
    · simp [override, setScope, scope, hr]
  · rw [override, scope_setScope_of_ne s hq]

variable {s r}

theorem boundIn?_override_self (hr : s.HasScope r) :
    (s.override r name b).boundIn? r name = some b := by
  rw [boundIn?, override, scope_setScope_self hr]
  exact Table.find?_insert_self _ name b

theorem boundIn?_override_of_ne {q : ScopeRef} {other : String} (h : ¬ (q = r ∧ other = name)) :
    (s.override r name b).boundIn? q other = s.boundIn? q other := by
  by_cases hq : q = r
  · subst hq
    have hne : other ≠ name := fun he => h ⟨rfl, he⟩
    by_cases hr : q.index < s.scopes.size
    · rw [boundIn?, override, scope_setScope_self hr]
      exact Table.find?_insert_of_ne _ hne b
    · simp [boundIn?, override, setScope, scope, hr]
  · rw [boundIn?, override, scope_setScope_of_ne s hq, boundIn?]

end Override

/-- Every scope is younger than the one around it. -/
def Rooted (s : Store) : Prop :=
  ∀ r parent, (s.scope r).parent? = some parent → parent.index < r.index

section Rooted

variable {s : Store}

theorem rooted_of_scopes_eq (h : s.scopes = #[]) : s.Rooted := by
  intro r parent hparent
  simp [scope, h] at hparent

theorem Rooted.newScope (h : s.Rooted) {parent? : Option ScopeRef}
    (hp : ∀ p ∈ parent?, s.HasScope p) : (s.newScope parent?).2.Rooted := by
  intro r parent hparent
  by_cases hr : r.index = s.scopes.size
  · obtain rfl : r = ⟨s.scopes.size⟩ := by cases r; simp_all
    rw [scope_newScope_self] at hparent
    exact hp parent hparent
  · rw [scope_newScope_of_ne s parent? hr] at hparent
    exact h r parent hparent

theorem Rooted.override (h : s.Rooted) (r : ScopeRef) (name : String) (b : Binding) :
    (s.override r name b).Rooted := by
  intro q parent hparent
  rw [parent?_override] at hparent
  exact h q parent hparent

theorem Rooted.perform (h : s.Rooted) {call : ScopeCall}
    (hcall : ∀ r ∈ call.target?, s.HasScope r) :
    (s.perform call).Rooted := by
  rcases s.perform_cases call with ⟨parent?, htarget, heq⟩ | ⟨r, name, b, -, -, heq⟩ | heq
  · rw [heq]
    exact h.newScope fun p hp => hcall p (htarget p hp)
  · rw [heq]
    exact h.override r name b
  · rw [heq]
    exact h

theorem ScopeRun.rooted {t : Store} {calls : List ScopeCall} (h : s.ScopeRun calls t)
    (hs : s.Rooted) : t.Rooted := by
  induction h with
  | nil s => exact hs
  | cons call hcall _ ih => exact ih (hs.perform hcall)

end Rooted

/-- The way from a scope outwards: after each scope the one around it, up to one that has none. -/
inductive Outwards (s : Store) : ScopeRef → List ScopeRef → Prop
  | root {r : ScopeRef} (h : (s.scope r).parent? = none) : Outwards s r [r]
  | child {r parent : ScopeRef} {rest : List ScopeRef} (h : (s.scope r).parent? = some parent)
      (hrest : Outwards s parent rest) : Outwards s r (r :: rest)

section Outwards

variable {s : Store} {r : ScopeRef}

theorem Outwards.unique {path path' : List ScopeRef} (h : s.Outwards r path)
    (h' : s.Outwards r path') : path' = path := by
  induction h generalizing path' with
  | root hnone =>
    cases h' with
    | root _ => rfl
    | child hsome _ => simp [hnone] at hsome
  | child hsome _ ih =>
    cases h' with
    | root hnone => simp [hnone] at hsome
    | child hsome' hrest =>
      rw [hsome] at hsome'
      cases hsome'
      rw [ih hrest]

/-- A scope has fewer scopes around it than there are older ones. -/
theorem Rooted.outwards_chainLevels (h : s.Rooted) {levels : Nat} (hr : r.index < levels) :
    s.Outwards r (s.chainLevels levels r) := by
  induction levels generalizing r with
  | zero => exact absurd hr (Nat.not_lt_zero _)
  | succ levels ih =>
    rw [chainLevels]
    cases hparent : (s.scope r).parent? with
    | none => exact .root hparent
    | some parent =>
      have holder := h r parent hparent
      exact .child hparent (ih (by omega))

theorem Rooted.outwards_chain (h : s.Rooted) (hr : s.HasScope r) : s.Outwards r (s.chain r) :=
  h.outwards_chainLevels hr

end Outwards

section Search

variable {α β : Type} {f : α → Option β} {x r : α} {xs : List α}

/-- An entry stands in the list, and none before it has an answer. -/
def ComesTo (f : α → Option β) (r : α) (xs : List α) : Prop :=
  ∃ nearer farther, xs = nearer ++ r :: farther ∧ ∀ q ∈ nearer, f q = none

theorem not_comesTo_nil : ¬ ComesTo f r [] := by
  rintro ⟨nearer, farther, hnil, -⟩
  simp at hnil

theorem comesTo_cons : ComesTo f r (x :: xs) ↔ x = r ∨ f x = none ∧ ComesTo f r xs := by
  constructor
  · rintro ⟨nearer, farther, heq, hfree⟩
    cases nearer with
    | nil => exact .inl (List.cons.inj heq).1
    | cons y nearer =>
      obtain ⟨rfl, rfl⟩ := List.cons.inj heq
      obtain ⟨hx, hrest⟩ := List.forall_mem_cons.1 hfree
      exact .inr ⟨hx, nearer, farther, rfl, hrest⟩
  · rintro (rfl | ⟨hx, nearer, farther, rfl, hfree⟩)
    · exact ⟨[], xs, rfl, nofun⟩
    · exact ⟨x :: nearer, farther, rfl, List.forall_mem_cons.2 ⟨hx, hfree⟩⟩

variable [DecidableEq α]

/-- A new answer at an entry is the one that is found if the search comes to it. -/
theorem findSome?_update_of_comesTo (h : ComesTo f r xs) (b : β) :
    xs.findSome? (Function.update f r (some b)) = some b := by
  induction xs with
  | nil => exact absurd h not_comesTo_nil
  | cons x xs ih =>
    by_cases hx : x = r
    · simp [hx]
    · obtain ⟨hnone, hrest⟩ := (comesTo_cons.1 h).resolve_left hx
      simp [hx, hnone, ih hrest]

theorem findSome?_update_of_not_comesTo (h : ¬ ComesTo f r xs) (b : β) :
    xs.findSome? (Function.update f r (some b)) = xs.findSome? f := by
  induction xs with
  | nil => rfl
  | cons x xs ih =>
    rw [comesTo_cons, not_or] at h
    obtain ⟨hx, hrest⟩ := h
    cases hfx : f x with
    | some c => simp [hx, hfx]
    | none => simp [hx, hfx, ih fun hcomes => hrest ⟨hfx, hcomes⟩]

end Search

/-- The way outwards from one scope comes to another, and no scope before it binds the name. -/
def Sees (s : Store) (e r : ScopeRef) (name : String) : Prop :=
  ∃ nearer farther, s.Outwards e (nearer ++ r :: farther) ∧ ∀ q ∈ nearer, s.boundIn? q name = none

section Resolve

variable {s : Store} {e r : ScopeRef} {name other : String} {b : Binding}

theorem Rooted.sees_iff (h : s.Rooted) (he : s.HasScope e) :
    s.Sees e r name ↔ ComesTo (s.boundIn? · name) r (s.chain e) := by
  have hchain := h.outwards_chain he
  constructor
  · rintro ⟨nearer, farther, hpath, hfree⟩
    exact ⟨nearer, farther, hpath.unique hchain, hfree⟩
  · rintro ⟨nearer, farther, hpath, hfree⟩
    exact ⟨nearer, farther, hpath ▸ hchain, hfree⟩

theorem resolve_eq_findSome? (s : Store) (e : ScopeRef) (name : String) :
    s.resolve e name = (s.chain e).findSome? (s.boundIn? · name) := rfl

theorem Rooted.resolve_eq_some_iff (h : s.Rooted) (he : s.HasScope e) :
    s.resolve e name = some b ↔ ∃ r, s.Sees e r name ∧ s.boundIn? r name = some b := by
  rw [resolve_eq_findSome?, List.findSome?_eq_some_iff]
  constructor
  · rintro ⟨nearer, r, farther, hpath, hb, hfree⟩
    exact ⟨r, (h.sees_iff he).2 ⟨nearer, farther, hpath, hfree⟩, hb⟩
  · rintro ⟨r, hsees, hb⟩
    obtain ⟨nearer, farther, hpath, hfree⟩ := (h.sees_iff he).1 hsees
    exact ⟨nearer, r, farther, hpath, hb, hfree⟩

theorem resolve_eq_none_iff :
    s.resolve e name = none ↔ ∀ r ∈ s.chain e, s.boundIn? r name = none := by
  rw [resolve_eq_findSome?, List.findSome?_eq_none_iff]

theorem chainLevels_override (levels : Nat) :
    (s.override r name b).chainLevels levels e = s.chainLevels levels e := by
  induction levels generalizing e with
  | zero => rfl
  | succ levels ih =>
    rw [chainLevels, chainLevels, parent?_override]
    cases (s.scope e).parent? with
    | none => rfl
    | some parent => exact congrArg (e :: ·) ih

theorem chain_override : (s.override r name b).chain e = s.chain e := by
  rw [chain, chain, size_scopes_override, chainLevels_override]

theorem boundIn?_override (hr : s.HasScope r) :
    ((s.override r name b).boundIn? · name) =
      Function.update (s.boundIn? · name) r (some b) := by
  funext q
  by_cases hq : q = r
  · subst hq
    simpa using boundIn?_override_self name b hr
  · rw [Function.update_of_ne hq]
    exact boundIn?_override_of_ne name b fun h => hq h.1

theorem Rooted.resolve_override_seen (h : s.Rooted) (he : s.HasScope e) (hr : s.HasScope r)
    (hsees : s.Sees e r name) : (s.override r name b).resolve e name = some b := by
  rw [resolve_eq_findSome?, chain_override, boundIn?_override hr]
  exact findSome?_update_of_comesTo ((h.sees_iff he).1 hsees) b

theorem Rooted.resolve_override_unseen (h : s.Rooted) (he : s.HasScope e) (hr : s.HasScope r)
    (hnot : ¬ (other = name ∧ s.Sees e r name)) :
    (s.override r name b).resolve e other = s.resolve e other := by
  rw [resolve_eq_findSome?, resolve_eq_findSome?, chain_override]
  by_cases hother : other = name
  · subst hother
    rw [boundIn?_override hr]
    refine findSome?_update_of_not_comesTo (fun hcomes => hnot ⟨rfl, ?_⟩) b
    exact (h.sees_iff he).2 hcomes
  · have hsame : ((s.override r name b).boundIn? · other) = (s.boundIn? · other) := by
      funext q
      exact boundIn?_override_of_ne name b fun hq => hother hq.2
    rw [hsame]

theorem Rooted.resolve_define_seen (h : s.Rooted) (he : s.HasScope e) (hr : s.HasScope r)
    (hsees : s.Sees e r name) (hfree : s.boundIn? r name = none) :
    (s.define r name b).2.resolve e name = some b := by
  rw [define_of_free b hfree]
  exact h.resolve_override_seen he hr hsees

theorem Rooted.resolve_define_unseen (h : s.Rooted) (he : s.HasScope e) (hr : s.HasScope r)
    (hnot : ¬ (other = name ∧ s.Sees e r name ∧ s.boundIn? r name = none)) :
    (s.define r name b).2.resolve e other = s.resolve e other := by
  cases hbound : s.boundIn? r name with
  | some found => rw [define_of_bound b hbound]
  | none =>
    rw [define_of_free b hbound]
    exact h.resolve_override_unseen he hr fun hseen => hnot ⟨hseen.1, hseen.2, hbound⟩

/-- Names in scopes after any calls. The way outwards from a scope ends. A name stands for what the
nearest scope on it says that binds the name, and for nothing if there is none. Binding a name in a
scope changes what stands for that name wherever the scope is seen, and nothing else; defining does
the same, provided that the name is free there. -/
theorem ScopeRun.resolve_nearest {start : Store} {calls : List ScopeCall}
    (hrun : start.ScopeRun calls s) (hstart : start.scopes = #[]) (he : s.HasScope e) :
    (s.Outwards e (s.chain e) ∧ ∀ path, s.Outwards e path → path = s.chain e) ∧
    (∀ name b, s.resolve e name = some b ↔ ∃ r, s.Sees e r name ∧ s.boundIn? r name = some b) ∧
    (∀ name, s.resolve e name = none ↔ ∀ r ∈ s.chain e, s.boundIn? r name = none) ∧
    ∀ r name b other, s.HasScope r →
      (other = name ∧ s.Sees e r name → (s.override r name b).resolve e other = some b) ∧
      (¬ (other = name ∧ s.Sees e r name) →
        (s.override r name b).resolve e other = s.resolve e other) ∧
      (other = name ∧ s.Sees e r name ∧ s.boundIn? r name = none →
        (s.define r name b).2.resolve e other = some b) ∧
      (¬ (other = name ∧ s.Sees e r name ∧ s.boundIn? r name = none) →
        (s.define r name b).2.resolve e other = s.resolve e other) := by
  have h : s.Rooted := hrun.rooted (rooted_of_scopes_eq hstart)
  have hchain := h.outwards_chain he
  refine ⟨⟨hchain, fun path hpath => hchain.unique hpath⟩, fun name b => h.resolve_eq_some_iff he,
    fun name => resolve_eq_none_iff, fun r name b other hr => ⟨?_, ?_, ?_, ?_⟩⟩
  · rintro ⟨rfl, hsees⟩
    exact h.resolve_override_seen he hr hsees
  · exact h.resolve_override_unseen he hr
  · rintro ⟨rfl, hsees, hfree⟩
    exact h.resolve_define_seen he hr hsees hfree
  · exact h.resolve_define_unseen he hr

end Resolve

/-- A scope with a name in it, and a scope within. -/
def nestedCalls (outer : Binding) : List ScopeCall :=
  [.root, .define ⟨0⟩ "x" outer, .enclosed ⟨0⟩]

/-- A name of the outer scope is seen from within until it is defined there, and the outer scope
keeps it. -/
theorem resolve_nearest_nested :
    let outer : Binding := ⟨.int 1, true, false⟩
    let inner : Binding := ⟨.int 2, false, false⟩
    let s := (nestedCalls outer).foldl perform empty
    empty.ScopeRun (nestedCalls outer) s ∧ empty.scopes = #[] ∧ s.HasScope ⟨0⟩ ∧ s.HasScope ⟨1⟩ ∧
      s.resolve ⟨1⟩ "x" = some outer ∧
      (s.define ⟨1⟩ "x" inner).2.resolve ⟨1⟩ "x" = some inner ∧
      (s.define ⟨1⟩ "x" inner).2.resolve ⟨0⟩ "x" = s.resolve ⟨0⟩ "x" := by
  intro outer inner s
  have hrun : empty.ScopeRun (nestedCalls outer) s :=
    .cons _ (by decide) (.cons _ (by decide) (.cons _ (by decide) (.nil s)))
  have hroot : s.HasScope ⟨0⟩ := by decide
  have hwithin : s.HasScope ⟨1⟩ := by decide
  have hfree : s.boundIn? ⟨1⟩ "x" = none := rfl
  have hbound : s.boundIn? ⟨0⟩ "x" = some outer := by decide
  have hway : s.Outwards ⟨1⟩ [⟨1⟩, ⟨0⟩] := .child rfl (.root rfl)
  obtain ⟨-, hresolve, -, hframe⟩ := hrun.resolve_nearest rfl hwithin
  obtain ⟨⟨-, hunique⟩, -, -, hframe'⟩ := hrun.resolve_nearest rfl hroot
  refine ⟨hrun, rfl, hroot, hwithin, ?_, ?_, ?_⟩
  · exact (hresolve "x" outer).2 ⟨⟨0⟩, ⟨[⟨1⟩], [], hway, by simpa using hfree⟩, hbound⟩
  · exact (hframe ⟨1⟩ "x" inner "x" hwithin).2.2.1 ⟨rfl, ⟨[], [⟨0⟩], hway, nofun⟩, hfree⟩
  · refine (hframe' ⟨1⟩ "x" inner "x" hwithin).2.2.2 ?_
    rintro ⟨-, ⟨nearer, farther, hpath, -⟩, -⟩
    have hmem : (⟨1⟩ : ScopeRef) ∈ [(⟨0⟩ : ScopeRef)] := by
      rw [hunique [⟨0⟩] (.root rfl), ← hunique _ hpath]
      simp
    revert hmem
    decide

end Store
end ScriptKit
