import ScriptKit.Descriptor.Json
import ScriptKit.Report.Json
import Mathlib.Data.List.Forall2

/-! Members that a JSON form does not know. Reading a form asks for members by name, so members with
other names may stand anywhere in it, at any depth, and what is read stays the same. -/
namespace ScriptKit

/-- The objects that occur in forms: a node and a map, both with and without their shape, an error
and a log. -/
inductive Record
  | node | shapedNode | map | shapedMap | error | log
deriving DecidableEq, Repr

/-- What may stand in a form: text and numbers, an object of one kind, a node or a map told by its
shape, and a list of errors. -/
inductive Form
  | plain
  | record (r : Record)
  | descriptor
  | errors
deriving DecidableEq, Repr

namespace Record

/-- The members that an object of a kind knows, and what stands in each. -/
def fields : Record → List (String × Form)
  | node => [("kind", .plain), ("size", .plain), ("child", .record node)]
  | shapedNode =>
    [("shape", .plain), ("kind", .plain), ("size", .plain), ("child", .record node)]
  | map => [("left", .descriptor), ("right", .descriptor)]
  | shapedMap => [("shape", .plain), ("left", .descriptor), ("right", .descriptor)]
  | error =>
    [("file", .plain), ("code", .plain), ("severity", .plain), ("category", .plain),
     ("message", .plain), ("start_line", .plain), ("start_col", .plain), ("end_line", .plain),
     ("end_col", .plain), ("source_line", .plain), ("suggestion", .plain)]
  | log =>
    [("errors", .errors), ("warnings", .errors), ("total_errors", .plain),
     ("total_warnings", .plain)]

def field? (r : Record) (name : String) : Option Form := r.fields.lookup name

end Record

mutual

/-- The second value is the first with members added anywhere whose names the objects that they
stand in do not know. -/
inductive Form.Adds : Form → Json → Json → Prop
  | same {f : Form} {v : Json} : Form.Adds f v v
  | record {r : Record} {ms ms' : List (String × Json)} (h : Record.AddsMembers r ms ms') :
      Form.Adds (.record r) (.object ms) (.object ms')
  | node {ms ms' : List (String × Json)} (hshape : Json.get? ms "shape" = some (.string "node"))
      (h : Record.AddsMembers .shapedNode ms ms') : Form.Adds .descriptor (.object ms) (.object ms')
  | map {ms ms' : List (String × Json)} (hshape : Json.get? ms "shape" = some (.string "map"))
      (h : Record.AddsMembers .shapedMap ms ms') : Form.Adds .descriptor (.object ms) (.object ms')
  | errors {vs vs' : List Json} (h : List.Forall₂ (Form.Adds (.record .error)) vs vs') :
      Form.Adds .errors (.array vs) (.array vs')

/-- The same for the members of an object: each is kept, and may itself have been added to, and
others are put in anywhere. -/
inductive Record.AddsMembers : Record → List (String × Json) → List (String × Json) → Prop
  | nil {r : Record} : Record.AddsMembers r [] []
  | keep {r : Record} {name : String} {f : Form} {v v' : Json} {ms ms' : List (String × Json)}
      (hname : r.field? name = some f) (hv : Form.Adds f v v') (h : Record.AddsMembers r ms ms') :
      Record.AddsMembers r ((name, v) :: ms) ((name, v') :: ms')
  | add {r : Record} {name : String} {v : Json} {ms ms' : List (String × Json)}
      (hname : r.field? name = none) (h : Record.AddsMembers r ms ms') :
      Record.AddsMembers r ms ((name, v) :: ms')

end

namespace Json

theorem induct_member {motive : Json → Prop}
    (step : ∀ v, (∀ ms name w, v = .object ms → get? ms name = some w → motive w) → motive v)
    (v : Json) : motive v := by
  induction hsize : sizeOf v using Nat.strongRecOn generalizing v with
  | _ size ih =>
    subst hsize
    refine step v fun ms name w hv hw => ih (sizeOf w) ?_ w rfl
    rw [hv]
    exact sizeOf_get?_lt hw

end Json

section Reading

variable {r : Record} {f : Form} {name : String} {ms ms' : List (String × Json)}

theorem Form.Adds.eq_of_plain {v v' : Json} (h : Form.Adds .plain v v') : v' = v := by
  cases h
  rfl

theorem Form.Adds.null_iff {v v' : Json} (h : f.Adds v v') : v' = .null ↔ v = .null := by
  cases h <;> simp

/-- The member of a known name is there before and after, or neither. -/
theorem Record.AddsMembers.get? (h : r.AddsMembers ms ms') (hname : r.field? name = some f) :
    Option.Rel f.Adds (Json.get? ms name) (Json.get? ms' name) := by
  induction ms' generalizing ms with
  | nil =>
    cases h
    exact .none
  | cons m ms' ih =>
    cases h with
    | @keep _ name' g v v' ms _ hname' hv h =>
      by_cases heq : name' = name
      · subst heq
        obtain rfl : g = f := Option.some.inj (hname'.symm.trans hname)
        simpa using hv
      · simpa [heq] using ih h
    | @add _ name' v _ _ hname' h =>
      have hne : name' ≠ name := by
        rintro rfl
        simp [hname'] at hname
      simpa [hne] using ih h

variable {α : Type} {decode : Json → Option α}

theorem Record.AddsMembers.required? (h : r.AddsMembers ms ms') (hname : r.field? name = some f)
    (hdecode : ∀ v v', Json.get? ms name = some v → f.Adds v v' → decode v' = decode v) :
    Json.required? ms' name decode = Json.required? ms name decode := by
  have hget := h.get? hname
  rw [Json.required?, Json.required?]
  revert hdecode hget
  cases Json.get? ms name <;> cases Json.get? ms' name <;> simp +contextual

theorem Record.AddsMembers.optional? (h : r.AddsMembers ms ms') (hname : r.field? name = some f)
    (hdecode : ∀ v v', Json.get? ms name = some v → f.Adds v v' → decode v' = decode v) :
    Json.optional? ms' name decode = Json.optional? ms name decode := by
  have hget := h.get? hname
  cases hms : Json.get? ms name with
  | none =>
    cases hms' : Json.get? ms' name with
    | none => rw [Json.optional?_of_none hms, Json.optional?_of_none hms']
    | some v' => simp [hms, hms'] at hget
  | some v =>
    cases hms' : Json.get? ms' name with
    | none => simp [hms, hms'] at hget
    | some v' =>
      have hv : f.Adds v v' := by simpa [hms, hms'] using hget
      by_cases hnull : v = .null
      · rw [hnull] at hms
        rw [hv.null_iff.2 hnull] at hms'
        rw [Json.optional?_of_null hms, Json.optional?_of_null hms']
      · have hnull' : v' ≠ .null := fun h => hnull (hv.null_iff.1 h)
        rw [Json.optional?_of_some hms hnull, Json.optional?_of_some hms' hnull',
          hdecode v v' hms hv]

theorem Record.AddsMembers.required?_plain (h : r.AddsMembers ms ms')
    (hname : r.field? name = some .plain) :
    Json.required? ms' name decode = Json.required? ms name decode :=
  h.required? hname fun _ _ _ hv => congrArg decode hv.eq_of_plain

theorem Record.AddsMembers.optional?_plain (h : r.AddsMembers ms ms')
    (hname : r.field? name = some .plain) :
    Json.optional? ms' name decode = Json.optional? ms name decode :=
  h.optional? hname fun _ _ _ hv => congrArg decode hv.eq_of_plain

end Reading

namespace NodeType

theorem ofJson?_object (ms : List (String × Json)) : ofJson? (.object ms) = do
    let kind ← Json.required? ms "kind" Json.string?
    let size ← Json.optional? ms "size" Json.string?
    let child ← Json.optional? ms "child" ofJson?
    return child.elim (leaf kind size) (container kind size) := by
  rw [ofJson?]
  rfl

/-- A node is read alike with its shape and without. -/
theorem ofJson?_of_adds {r : Record} (hr : r = .node ∨ r = .shapedNode) {v v' : Json}
    (h : (Form.record r).Adds v v') : ofJson? v' = ofJson? v := by
  induction v using Json.induct_member generalizing r v' with
  | step v ih =>
    cases h with
    | same => rfl
    | @record _ ms ms' h =>
      have hkind : r.field? "kind" = some .plain := by rcases hr with rfl | rfl <;> rfl
      have hsize : r.field? "size" = some .plain := by rcases hr with rfl | rfl <;> rfl
      have hchild : r.field? "child" = some (.record .node) := by rcases hr with rfl | rfl <;> rfl
      rw [ofJson?_object, ofJson?_object, h.required?_plain hkind, h.optional?_plain hsize,
        h.optional? hchild fun w w' hw hadds => ih ms "child" w rfl hw (.inl rfl) hadds]

end NodeType

namespace Descriptor

section Shapes

variable {ms : List (String × Json)}

theorem ofJson?_of_node (h : Json.get? ms "shape" = some (.string "node")) :
    ofJson? (.object ms) = (NodeType.ofJson? (.object ms)).map node := by
  rw [ofJson?]
  simp [h]

theorem ofJson?_of_map (h : Json.get? ms "shape" = some (.string "map")) :
    ofJson? (.object ms) = mapOfJson? (.object ms) := by
  rw [ofJson?]
  simp only [h]
  rfl

theorem mapOfJson?_object (ms : List (String × Json)) : mapOfJson? (.object ms) = do
    let key ← Json.optional? ms "left" ofJson?
    let value ← Json.optional? ms "right" ofJson?
    return map key value := rfl

end Shapes

section Adds

variable {ms ms' : List (String × Json)}

theorem get?_shape_of_adds {r : Record} (hr : r.field? "shape" = some .plain)
    (h : r.AddsMembers ms ms') {v : Json} (hv : Json.get? ms "shape" = some v) :
    Json.get? ms' "shape" = some v := by
  have hget := h.get? hr
  rw [hv] at hget
  cases hms' : Json.get? ms' "shape" with
  | none => simp [hms'] at hget
  | some v' =>
    have hadds : Form.Adds .plain v v' := by simpa [hms'] using hget
    rw [hadds.eq_of_plain]

theorem mapOfJson?_of_addsMembers {r : Record} (hr : r = .map ∨ r = .shapedMap)
    (h : r.AddsMembers ms ms')
    (hside : ∀ name v v', Json.get? ms name = some v → Form.Adds .descriptor v v' →
      ofJson? v' = ofJson? v) : mapOfJson? (.object ms') = mapOfJson? (.object ms) := by
  have hleft : r.field? "left" = some .descriptor := by rcases hr with rfl | rfl <;> rfl
  have hright : r.field? "right" = some .descriptor := by rcases hr with rfl | rfl <;> rfl
  rw [mapOfJson?_object, mapOfJson?_object, h.optional? hleft (hside "left"),
    h.optional? hright (hside "right")]

theorem ofJson?_of_adds {v v' : Json} (h : Form.Adds .descriptor v v') :
    ofJson? v' = ofJson? v := by
  induction v using Json.induct_member generalizing v' with
  | step v ih =>
    cases h with
    | same => rfl
    | @node ms ms' hshape h =>
      have hshape' := get?_shape_of_adds rfl h hshape
      rw [ofJson?_of_node hshape, ofJson?_of_node hshape',
        NodeType.ofJson?_of_adds (.inr rfl) (.record h)]
    | @map ms ms' hshape h =>
      have hshape' := get?_shape_of_adds rfl h hshape
      rw [ofJson?_of_map hshape, ofJson?_of_map hshape']
      exact mapOfJson?_of_addsMembers (.inr rfl) h fun name w w' hw => ih ms name w rfl hw

theorem mapOfJson?_of_adds {v v' : Json} (h : (Form.record .map).Adds v v') :
    mapOfJson? v' = mapOfJson? v := by
  cases h with
  | same => rfl
  | record h => exact mapOfJson?_of_addsMembers (.inl rfl) h fun _ _ _ _ hv => ofJson?_of_adds hv

end Adds

end Descriptor

theorem SourceError.ofJson?_of_adds {v v' : Json} (h : (Form.record .error).Adds v v') :
    ofJson? v' = ofJson? v := by
  cases h with
  | same => rfl
  | record h =>
    simp only [ofJson?, Span.ofMembers?, Json.object?_object, Option.bind_eq_bind, Option.bind_some]
    simp (disch := decide) only [h.required?_plain, h.optional?_plain]

namespace ErrorLog

theorem listOfJson?_of_adds {v v' : Json} (h : Form.Adds .errors v v') :
    listOfJson? v' = listOfJson? v := by
  cases h with
  | same => rfl
  | errors h =>
    simp only [listOfJson?, Json.array?_array, Option.bind_eq_bind, Option.bind_some]
    induction h with
    | nil => rfl
    | cons hv _ ih => rw [List.mapM_cons, List.mapM_cons, ih, SourceError.ofJson?_of_adds hv]

theorem ofJson?_of_adds {v v' : Json} (h : (Form.record .log).Adds v v') :
    ofJson? v' = ofJson? v := by
  cases h with
  | same => rfl
  | @record _ ms ms' h =>
    have hlist : ∀ name, Record.log.field? name = some .errors →
        Json.required? ms' name listOfJson? = Json.required? ms name listOfJson? :=
      fun name hname => h.required? hname fun _ _ _ hv => listOfJson?_of_adds hv
    simp only [ofJson?, Json.object?_object, Option.bind_eq_bind, Option.bind_some]
    simp (disch := decide) only [hlist, h.required?_plain]

end ErrorLog

end ScriptKit
