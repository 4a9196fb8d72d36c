import Mathlib.Data.List.Sort
import Mathlib.Data.String.Basic
import ScriptKit.Diagnostic.Collector
import ScriptKit.Proofs.ByteOrder
import ScriptKit.Proofs.TableOrder

/-! What a collector holds after any calls. Every call comes down to offering some diagnostics one
after the other; the collector keeps the first of each drawn text, in the order of the texts. -/
namespace ScriptKit
namespace Collector

inductive Call
  | add (d : Diagnostic)
  | report (code : Option ErrorCode) (t : Token) (message : String)
  | absorb (log : ErrorLog)
  | checkDeclared (t : Token) (declared inferred : Descriptor)

def perform (c : Collector) : Call → Collector
  | .add d => (c.add d).1
  | .report code t message => (c.report code t message).1
  | .absorb log => (c.absorb log).1
  | .checkDeclared t declared inferred => (c.checkDeclared t declared inferred).1

def performAll (c : Collector) (calls : List Call) : Collector := calls.foldl perform c

def ofError (c : Collector) (e : SourceError) : Diagnostic :=
  c.diagnose (some e.code) (c.anchor e.span) e.message

/-- The diagnostics that a call offers, in order. -/
def offers (c : Collector) : Call → List Diagnostic
  | .add d => [d]
  | .report code t message => [c.diagnose code t message]
  | .absorb log => log.errors.map c.ofError
  | .checkDeclared t declared inferred =>
    match declared.check inferred with
    | .ok () => []
    | .error e => [c.diagnose (some .typeMismatch) t e.message]

def offered (c : Collector) (calls : List Call) : List Diagnostic := calls.flatMap c.offers

def addAll (c : Collector) (ds : List Diagnostic) : Collector :=
  ds.foldl (fun c d => (c.add d).1) c

section Frame

variable (c : Collector) (d : Diagnostic)

@[simp] theorem file_add : (c.add d).1.file = c.file := by
  unfold add
  split <;> rfl

@[simp] theorem tokens_add : (c.add d).1.tokens = c.tokens := by
  unfold add
  split <;> rfl

@[simp] theorem palette_add : (c.add d).1.palette = c.palette := by
  unfold add
  split <;> rfl

@[simp] theorem diagnose_add (code : Option ErrorCode) (t : Token) (message : String) :
    (c.add d).1.diagnose code t message = c.diagnose code t message := by
  simp [diagnose, render]

@[simp] theorem ofError_add (e : SourceError) : (c.add d).1.ofError e = c.ofError e := by
  simp [ofError, anchor]

theorem offers_addAll (ds : List Diagnostic) (call : Call) :
    (c.addAll ds).offers call = c.offers call := by
  induction ds generalizing c with
  | nil => rfl
  | cons d ds ih =>
    have hstep : (c.add d).1.offers call = c.offers call := by
      cases call <;> simp [offers, funext (ofError_add c d)]
    exact (ih (c.add d).1).trans hstep

end Frame

theorem addAll_append (c : Collector) (ds es : List Diagnostic) :
    c.addAll (ds ++ es) = (c.addAll ds).addAll es := by
  rw [addAll, List.foldl_append]
  rfl

theorem size_add (c : Collector) (d : Diagnostic) :
    (c.add d).1.size = c.size + if (c.add d).2 = true then 1 else 0 := by
  unfold add
  split
  · rfl
  · rename_i hnew
    exact Table.size_insert (Bool.eq_false_iff.2 hnew) d

def takeIn : Collector × Nat → SourceError → Collector × Nat
  | (c, count), e =>
    ((c.add (c.ofError e)).1, if (c.add (c.ofError e)).2 = true then count + 1 else count)

theorem absorb_eq_foldl (c : Collector) (log : ErrorLog) :
    c.absorb log = log.errors.foldl takeIn (c, 0) := rfl

/-- Taking in errors is adding their diagnostics; the count grows as the collector does. -/
theorem foldl_takeIn (es : List SourceError) (c : Collector) (count : Nat) :
    (es.foldl takeIn (c, count)).1 = c.addAll (es.map c.ofError) ∧
      (es.foldl takeIn (c, count)).1.size + count =
        c.size + (es.foldl takeIn (c, count)).2 := by
  induction es generalizing c count with
  | nil => exact ⟨rfl, rfl⟩
  | cons e es ih =>
    have hsize := size_add c (c.ofError e)
    have hmap : es.map (c.add (c.ofError e)).1.ofError = es.map c.ofError :=
      List.map_congr_left fun e' _ => ofError_add c _ e'
    rw [List.foldl_cons, takeIn]
    obtain ⟨hstate, hcount⟩ := ih (c.add (c.ofError e)).1
      (if (c.add (c.ofError e)).2 = true then count + 1 else count)
    refine ⟨?_, ?_⟩
    · rw [hstate, hmap]
      rfl
    · split at hsize
      · rename_i hnew
        simp only [hnew, if_true] at hcount ⊢
        omega
      · rename_i hnew
        simp only [hnew, Bool.false_eq_true, if_false] at hcount ⊢
        omega

theorem absorb_eq_addAll (c : Collector) (log : ErrorLog) :
    (c.absorb log).1 = c.addAll (c.offers (.absorb log)) := by
  rw [absorb_eq_foldl]
  exact (foldl_takeIn log.errors c 0).1

theorem size_absorb (c : Collector) (log : ErrorLog) :
    (c.absorb log).1.size = c.size + (c.absorb log).2 := by
  rw [absorb_eq_foldl]
  exact (foldl_takeIn log.errors c 0).2

theorem perform_eq_addAll (c : Collector) (call : Call) :
    c.perform call = c.addAll (c.offers call) := by
  cases call with
  | add d => rfl
  | report code t message => rfl
  | absorb log => exact c.absorb_eq_addAll log
  | checkDeclared t declared inferred =>
    rw [perform, checkDeclared, offers]
    cases declared.check inferred <;> rfl

/-- Any calls come down to adding what they offer. -/
theorem performAll_eq_addAll (c : Collector) (calls : List Call) :
    c.performAll calls = c.addAll (c.offered calls) := by
  induction calls generalizing c with
  | nil => rfl
  | cons call calls ih =>
    have hoffers : (c.addAll (c.offers call)).offers = c.offers :=
      funext (c.offers_addAll (c.offers call))
    rw [performAll, List.foldl_cons, ← performAll, perform_eq_addAll, ih, offered, hoffers,
      ← addAll_append]
    rfl

/-- The table is in order and holds the first offered diagnostic of each drawn text. -/
structure Holds (c : Collector) (ds : List Diagnostic) : Prop where
  sorted : c.found.Sorted
  first : ∀ text, c.found.find? text = ds.find? (·.rendered = text)

theorem holds_new (file : String) (tokens : List Token) (palette : Diagnostic.Palette) :
    (new file tokens palette).Holds [] :=
  ⟨Table.sorted_empty, fun _ => rfl⟩

section Holds

variable {c : Collector} {ds : List Diagnostic}

theorem Holds.contains_iff (h : c.Holds ds) (text : String) :
    c.found.contains text = true ↔ ∃ d ∈ ds, d.rendered = text := by
  rw [Table.contains, h.first, List.find?_isSome]
  simp

theorem Holds.add_isNew (h : c.Holds ds) (d : Diagnostic) :
    (c.add d).2 = true ↔ ∀ e ∈ ds, e.rendered ≠ d.rendered := by
  have hcontains := h.contains_iff d.rendered
  unfold add
  split
  · rename_i hfound
    obtain ⟨e, he, htext⟩ := hcontains.1 hfound
    exact ⟨nofun, fun hall => absurd htext (hall e he)⟩
  · rename_i hfound
    exact ⟨fun _ e he htext => hfound (hcontains.2 ⟨e, he, htext⟩), fun _ => rfl⟩

theorem Holds.add (h : c.Holds ds) (d : Diagnostic) : (c.add d).1.Holds (ds ++ [d]) := by
  have hcontains := h.contains_iff d.rendered
  unfold Collector.add
  split
  · rename_i hfound
    refine ⟨h.sorted, fun text => ?_⟩
    rw [List.find?_append, h.first]
    by_cases htext : d.rendered = text
    · rw [Table.contains, h.first, htext] at hfound
      rw [Option.or_of_isSome hfound]
    · simp [htext]
  · rename_i hfound
    refine ⟨Table.sorted_insert h.sorted _ _, fun text => ?_⟩
    rw [List.find?_append]
    by_cases htext : d.rendered = text
    · rw [Table.contains, h.first, htext, Bool.not_eq_true, Option.isSome_eq_false_iff,
        Option.isNone_iff_eq_none] at hfound
      rw [hfound, htext, Table.find?_insert_self]
      simp [htext]
    · rw [Table.find?_insert_of_ne _ (Ne.symm htext), h.first]
      simp [htext]

theorem Holds.addAll (h : c.Holds ds) (es : List Diagnostic) :
    (c.addAll es).Holds (ds ++ es) := by
  induction es generalizing c ds with
  | nil =>
    rw [List.append_nil]
    exact h
  | cons e es ih =>
    have hrest := ih (h.add e)
    rw [List.append_assoc] at hrest
    exact hrest

theorem Holds.rendered_eq (h : c.Holds ds) {text : String} {d : Diagnostic}
    (hd : (text, d) ∈ c.found.entries) : d.rendered = text := by
  have hfirst := h.first text
  rw [h.sorted.find?_eq_some_iff.2 hd] at hfirst
  simpa using List.find?_some hfirst.symm

theorem Holds.map_rendered (h : c.Holds ds) :
    c.diagnostics.map Diagnostic.rendered = c.found.keys := by
  rw [diagnostics, Table.values, List.map_map, Table.keys]
  exact List.map_congr_left fun x hx => h.rendered_eq hx

theorem Holds.keys_sorted (h : c.Holds ds) : c.found.keys.Pairwise (· < ·) :=
  List.pairwise_map.2 (h.sorted.imp fun hlt => compareOfLessAndEq_eq_lt.1 hlt)

theorem Holds.pairwise_bytes (h : c.Holds ds) :
    c.diagnostics.Pairwise fun d e => Text.bytes d.rendered < Text.bytes e.rendered := by
  have hkeys := h.keys_sorted
  rw [← h.map_rendered, List.pairwise_map] at hkeys
  exact hkeys.imp Text.bytes_lt_bytes

theorem Holds.mem_diagnostics (h : c.Holds ds) {d : Diagnostic} :
    d ∈ c.diagnostics ↔ ds.find? (·.rendered = d.rendered) = some d := by
  rw [← h.first, h.sorted.find?_eq_some_iff]
  constructor
  · intro hd
    obtain ⟨⟨text, e⟩, hmem, rfl⟩ := List.mem_map.1 hd
    rw [h.rendered_eq hmem]
    exact hmem
  · exact fun hmem => List.mem_map.2 ⟨_, hmem, rfl⟩

theorem Holds.mem_keys (h : c.Holds ds) {text : String} :
    text ∈ c.found.keys ↔ text ∈ ds.map Diagnostic.rendered := by
  rw [List.mem_map, ← h.contains_iff, Table.contains, Option.isSome_iff_exists, Table.keys,
    List.mem_map]
  constructor
  · rintro ⟨⟨k, d⟩, hd, rfl⟩
    exact ⟨d, h.sorted.find?_eq_some_iff.2 hd⟩
  · rintro ⟨d, hd⟩
    exact ⟨(text, d), h.sorted.find?_eq_some_iff.1 hd, rfl⟩

end Holds

section Calls

variable (file : String) (tokens : List Token) (palette : Diagnostic.Palette)

theorem holds_performAll (calls : List Call) :
    ((new file tokens palette).performAll calls).Holds
      ((new file tokens palette).offered calls) := by
  have h := (holds_new file tokens palette).addAll ((new file tokens palette).offered calls)
  rw [performAll_eq_addAll]
  rwa [List.nil_append] at h

theorem diagnose_performAll (c : Collector) (calls : List Call) (code : Option ErrorCode)
    (t : Token) (message : String) :
    (c.performAll calls).diagnose code t message = c.diagnose code t message := by
  have h := c.offers_addAll (c.offered calls) (.report code t message)
  rw [performAll_eq_addAll]
  exact (List.cons.inj h).1

/-- What a collector holds after any calls: its diagnostics ascend in the bytes of their drawn
texts, each is the first that was offered with its text, and so the texts depend on nothing but
which were offered. In that state a diagnostic is new if none with its text was offered before,
taking in a log counts what it adds, and a check of two types records nothing but a mismatch. -/
theorem performAll_spec (calls : List Call) :
    let start := new file tokens palette
    let c := start.performAll calls
    c.diagnostics.Pairwise (fun d e => Text.bytes d.rendered < Text.bytes e.rendered) ∧
    (∀ d, d ∈ c.diagnostics ↔
      (start.offered calls).find? (·.rendered = d.rendered) = some d) ∧
    (∀ d, (c.add d).2 = true ↔ ∀ e ∈ start.offered calls, e.rendered ≠ d.rendered) ∧
    (∀ code t message, (c.report code t message).2 = true ↔
      ∀ e ∈ start.offered calls, e.rendered ≠ start.render t message) ∧
    (∀ log, (c.absorb log).1.size = c.size + (c.absorb log).2) ∧
    (∀ t declared inferred,
      ((c.checkDeclared t declared inferred).2 = true ↔ declared.check inferred = .ok ()) ∧
      (declared.check inferred = .ok () → (c.checkDeclared t declared inferred).1 = c) ∧
      (∀ e, declared.check inferred = .error e →
        ∃ d ∈ (c.checkDeclared t declared inferred).1.diagnostics,
          d.rendered = start.render t e.message)) ∧
    (∀ calls', (∀ text, (∃ d ∈ start.offered calls, d.rendered = text) ↔
        ∃ d ∈ start.offered calls', d.rendered = text) →
      (start.performAll calls').diagnostics.map Diagnostic.rendered =
        c.diagnostics.map Diagnostic.rendered) := by
  intro start c
  have h : c.Holds (start.offered calls) := holds_performAll file tokens palette calls
  have hdiagnose : ∀ code t message, c.diagnose code t message = start.diagnose code t message :=
    start.diagnose_performAll calls
  refine ⟨h.pairwise_bytes, fun d => h.mem_diagnostics, h.add_isNew, ?_, c.size_absorb, ?_, ?_⟩
  · intro code t message
    rw [report, hdiagnose, h.add_isNew]
    rfl
  · intro t declared inferred
    rw [checkDeclared]
    cases hcheck : declared.check inferred with
    | ok u => exact ⟨⟨fun _ => rfl, fun _ => rfl⟩, fun _ => rfl, nofun⟩
    | error e =>
      refine ⟨⟨nofun, nofun⟩, nofun, ?_⟩
      rintro _ ⟨⟩
      change ∃ d ∈ (c.report (some .typeMismatch) t e.message).1.diagnostics, _
      rw [report, hdiagnose]
      have hadd := h.add (start.diagnose (some .typeMismatch) t e.message)
      have hkey : start.render t e.message ∈
          (c.add (start.diagnose (some .typeMismatch) t e.message)).1.found.keys := by
        rw [hadd.mem_keys, List.map_append]
        exact List.mem_append_right _ (List.mem_singleton.2 rfl)
      rw [← hadd.map_rendered] at hkey
      exact List.mem_map.1 hkey
  · intro calls' hsame
    have h' := holds_performAll file tokens palette calls'
    rw [h'.map_rendered, h.map_rendered]
    refine h'.keys_sorted.eq_of_mem_iff h.keys_sorted fun text => ?_
    rw [h'.mem_keys, h.mem_keys, List.mem_map, List.mem_map]
    exact (hsame text).symm

end Calls

end Collector
end ScriptKit
