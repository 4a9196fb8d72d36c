import ScriptKit.Descriptor.Basic
import ScriptKit.Json.Basic

/-! The JSON forms of type descriptors. A descriptor carries its shape, a node inside a node does
not, and what is absent is left out. -/
namespace ScriptKit

namespace Json

theorem sizeOf_get?_lt {members : List (String × Json)} {name : String} {value : Json}
    (h : get? members name = some value) : sizeOf value < sizeOf (object members) := by
  obtain ⟨⟨found, value'⟩, hfind, rfl⟩ := Option.map_eq_some_iff.1 h
  have hlt := List.sizeOf_lt_of_mem (List.mem_of_find?_eq_some hfind)
  simp only [Prod.mk.sizeOf_spec, object.sizeOf_spec] at hlt ⊢
  omega

end Json

namespace NodeType

def members : NodeType → List (String × Json)
  | leaf kind size => ("kind", .string kind) :: Json.memberIf "size" (size.map .string)
  | container kind size child =>
    ("kind", .string kind) :: Json.memberIf "size" (size.map .string) ++
      [("child", .object child.members)]

def toJson (n : NodeType) : Json := .object n.members

def ofJson? (value : Json) : Option NodeType :=
  match value with
  | .object members => do
    let kind ← Json.required? members "kind" Json.string?
    let size ← Json.optional? members "size" Json.string?
    let child ← Json.optionalFrom? members "child" fun child _ => ofJson? child
    return child.elim (leaf kind size) (container kind size)
  | _ => none
termination_by sizeOf value
decreasing_by exact Json.sizeOf_get?_lt ‹_›

end NodeType

namespace Descriptor

def toJson : Descriptor → Json
  | node n => .object (("shape", .string "node") :: n.members)
  | map none none => .object [("shape", .string "map")]
  | map (some key) none => .object [("shape", .string "map"), ("left", key.toJson)]
  | map none (some value) => .object [("shape", .string "map"), ("right", value.toJson)]
  | map (some key) (some value) =>
    .object [("shape", .string "map"), ("left", key.toJson), ("right", value.toJson)]

def mapMembers (key value : Option Descriptor) : List (String × Json) :=
  Json.memberIf "left" (key.map toJson) ++ Json.memberIf "right" (value.map toJson)

def mapToJson (key value : Option Descriptor) : Json := .object (mapMembers key value)

theorem toJson_map (key value : Option Descriptor) :
    (map key value).toJson = .object (("shape", .string "map") :: mapMembers key value) := by
  cases key <;> cases value <;> simp [toJson, mapMembers, Json.memberIf]

def ofJson? (value : Json) : Option Descriptor :=
  match value with
  | .object members =>
    match Json.get? members "shape" with
    | some (.string "node") => (NodeType.ofJson? (.object members)).map node
    | some (.string "map") => do
      let key ← Json.optionalFrom? members "left" fun side _ => ofJson? side
      let value ← Json.optionalFrom? members "right" fun side _ => ofJson? side
      return map key value
    | _ => none
  | _ => none
termination_by sizeOf value
decreasing_by all_goals exact Json.sizeOf_get?_lt ‹_›

def mapOfJson? (value : Json) : Option Descriptor := do
  let members ← value.object?
  let key ← Json.optional? members "left" ofJson?
  let value ← Json.optional? members "right" ofJson?
  return map key value

end Descriptor

end ScriptKit
