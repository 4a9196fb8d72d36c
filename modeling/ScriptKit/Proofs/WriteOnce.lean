import ScriptKit.Proofs.ScopeChain

/-! A name that was defined in a scope keeps its binding there until it is overridden in that scope.
Whatever else is called in between, on this scope or on others, defining it again is refused and
leaves no trace. -/
namespace ScriptKit.Store

variable {s t u : Store} {r : ScopeRef} {name : String} {b : Binding}

theorem hasScope_perform (hr : s.HasScope r) (call : ScopeCall) : (s.perform call).HasScope r := by
  have hle : s.scopes.size ≤ (s.perform call).scopes.size := by
    rcases s.perform_cases call with ⟨parent?, -, heq⟩ | ⟨q, other, c, -, -, heq⟩ | heq
    · simp [heq]
    · simp [heq]
    · simp [heq]
  exact Nat.lt_of_lt_of_le hr hle

/-- A call that does not override the name in its scope leaves the binding. -/
theorem boundIn?_perform (hr : s.HasScope r) (hb : s.boundIn? r name = some b) {call : ScopeCall}
    (hcall : ∀ c, call ≠ .override r name c) : (s.perform call).boundIn? r name = some b := by
  rcases s.perform_cases call with ⟨parent?, -, heq⟩ | ⟨q, other, c, -, hallowed, heq⟩ | heq
  · rw [heq, boundIn?, scope_newScope_of_ne s parent? (Nat.ne_of_lt hr)]
    exact hb
  · have hne : ¬ (r = q ∧ name = other) := by
      rintro ⟨rfl, rfl⟩
      rcases hallowed with hoverride | hfree
      · exact hcall c hoverride
      · simp [hb] at hfree
    rw [heq, boundIn?_override_of_ne other c hne]
    exact hb
  · rw [heq]
    exact hb

theorem ScopeRun.boundIn? {calls : List ScopeCall} (h : s.ScopeRun calls t) (hr : s.HasScope r)
    (hb : s.boundIn? r name = some b) (hkeep : ∀ c, ScopeCall.override r name c ∉ calls) :
    t.HasScope r ∧ t.boundIn? r name = some b := by
  induction h with
  | nil s => exact ⟨hr, hb⟩
  | cons call _ _ ih =>
    have hcall : ∀ c, call ≠ .override r name c := by
      rintro c rfl
      exact hkeep c List.mem_cons_self
    apply ih (hasScope_perform hr call) (boundIn?_perform hr hb hcall)
    exact fun c hc => hkeep c (List.mem_cons_of_mem call hc)

theorem resolve_of_bound (hr : s.HasScope r) (hb : s.boundIn? r name = some b) :
    s.resolve r name = some b := by
  obtain ⟨levels, hlevels⟩ : ∃ levels, s.scopes.size = levels + 1 :=
    Nat.exists_eq_succ_of_ne_zero (Nat.ne_zero_of_lt hr)
  rw [resolve_eq_findSome?, chain, hlevels, chainLevels, List.findSome?_cons, hb]

/-- Once a name has been defined or declared in a scope, and as long as it is not overridden there,
it stands for that binding in the scope, and every later definition or declaration of it there is
refused and leaves all scopes as they are. -/
theorem ScopeRun.bound_once {given : Binding} {later : List ScopeCall} (hr : s.HasScope r)
    (hfirst : s.define r name given = (.fresh b, t) ∨ s.declare r name given = (.ok b, t))
    (hlater : t.ScopeRun later u) (hkeep : ∀ c, ScopeCall.override r name c ∉ later) :
    b = given ∧ u.resolve r name = some b ∧
    (∀ c, u.define r name c = (.already b, u) ∧
      u.declare r name c = (.error (.redeclaration name), u)) ∧
    ∀ c, u.perform (.define r name c) = u ∧ u.perform (.declare r name c) = u := by
  have hdefine : s.define r name given = (.fresh b, t) := hfirst.elim id declare_eq_ok_iff.1
  have hfree : s.boundIn? r name = none := by
    refine Option.eq_none_iff_forall_ne_some.2 fun found hfound => ?_
    simp [define_of_bound given hfound] at hdefine
  rw [define_of_free given hfree] at hdefine
  obtain ⟨rfl, rfl⟩ : given = b ∧ s.override r name given = t := by simpa using hdefine
  have hscope : (s.override r name given).HasScope r := by
    rwa [HasScope, size_scopes_override]
  obtain ⟨hu, hbound⟩ := hlater.boundIn? hscope (boundIn?_override_self name given hr) hkeep
  refine ⟨rfl, resolve_of_bound hu hbound, fun c => ?_, fun c => ?_⟩
  · exact ⟨define_of_bound c hbound, declare_of_bound c hbound⟩
  · simp [perform, define_of_bound c hbound, declare_of_bound c hbound]

/-- Calls after a name was bound: a scope within that binds it too, another try, another name. -/
def retried (first second : Binding) : List ScopeCall :=
  [.enclosed ⟨0⟩, .override ⟨1⟩ "x" second, .declare ⟨0⟩ "x" second, .define ⟨0⟩ "y" first]

theorem bound_once_retried :
    let first : Binding := ⟨.int 1, false, false⟩
    let second : Binding := ⟨.int 2, true, false⟩
    let s := empty.perform .root
    let t := (s.define ⟨0⟩ "x" first).2
    let u := (retried first second).foldl perform t
    s.HasScope ⟨0⟩ ∧ s.define ⟨0⟩ "x" first = (.fresh first, t) ∧
      t.ScopeRun (retried first second) u ∧
      (∀ c, ScopeCall.override ⟨0⟩ "x" c ∉ retried first second) ∧
      u.resolve ⟨0⟩ "x" = some first ∧ u.resolve ⟨1⟩ "x" = some second ∧
      u.define ⟨0⟩ "x" second = (.already first, u) := by
  intro first second s t u
  have hr : s.HasScope ⟨0⟩ := by decide
  have hdefine : s.define ⟨0⟩ "x" first = (.fresh first, t) := rfl
  have hrun : t.ScopeRun (retried first second) u :=
    .cons _ (by decide) (.cons _ (by decide) (.cons _ (by decide) (.cons _ (by decide) (.nil u))))
  have hkeep : ∀ c, ScopeCall.override ⟨0⟩ "x" c ∉ retried first second := by simp [retried]
  obtain ⟨-, hresolve, hagain, -⟩ := ScopeRun.bound_once hr (.inl hdefine) hrun hkeep
  exact ⟨hr, hdefine, hrun, hkeep, hresolve, by decide, (hagain second).1⟩

end ScriptKit.Store
