/-! Type descriptors: chains of nodes that end in a scalar, and maps from a key to a value type. -/
namespace ScriptKit

def arrayKind : String := "array"

def mapKind : String := "map"

/-- A scalar, or a container of one element type. A size is kept as it was written. -/
inductive NodeType
  | leaf (kind : String) (size : Option String)
  | container (kind : String) (size : Option String) (child : NodeType)
deriving DecidableEq, Repr

namespace NodeType

def kind : NodeType → String
  | leaf kind _ | container kind _ _ => kind

def size? : NodeType → Option String
  | leaf _ size | container _ size _ => size

def child? : NodeType → Option NodeType
  | leaf _ _ => none
  | container _ _ child => some child

def scalar (kind : String) : NodeType := leaf kind none

def array (size : Option String) (child : NodeType) : NodeType := container arrayKind size child

def withSize : NodeType → String → NodeType
  | leaf kind _, size => leaf kind (some size)
  | container kind _ child, size => container kind (some size) child

def withChild : NodeType → NodeType → NodeType
  | leaf kind size, child | container kind size _, child => container kind size child

def depth : NodeType → Nat
  | leaf _ _ => 0
  | container _ _ child => child.depth + 1

/-- The written form: a sized array puts its size before its element type, any other container
puts its element type in parentheses. -/
def text : NodeType → String
  | leaf kind none => kind
  | leaf kind (some size) => "[" ++ size ++ "]" ++ kind
  | container kind none child => kind ++ "(" ++ child.text ++ ")"
  | container kind (some size) child =>
    if kind = arrayKind then "[" ++ size ++ "]" ++ child.text
    else "[" ++ size ++ "]" ++ kind ++ "(" ++ child.text ++ ")"

end NodeType

inductive Descriptor
  | node (node : NodeType)
  | map (key value : Option Descriptor)
deriving Repr

namespace Descriptor

def kind : Descriptor → String
  | node n => n.kind
  | map _ _ => mapKind

def node? : Descriptor → Option NodeType
  | node n => some n
  | map _ _ => none

/-- The written form; an unknown side of a map stays empty, and so do the parentheses when both
sides are unknown. -/
def text : Descriptor → String
  | node n => n.text
  | map none none => mapKind
  | map (some key) none => mapKind ++ "(" ++ key.text ++ ", )"
  | map none (some value) => mapKind ++ "(, " ++ value.text ++ ")"
  | map (some key) (some value) => mapKind ++ "(" ++ key.text ++ ", " ++ value.text ++ ")"

/-- The greatest number of steps from a type to an element, key or value type within it. -/
def height : Descriptor → Nat
  | node n => n.depth
  | map none none => 0
  | map (some key) none => 1 + key.height
  | map none (some value) => 1 + value.height
  | map (some key) (some value) => 1 + max key.height value.height

theorem height_map_lt_succ {key value : Option Descriptor} {levels : Nat} :
    (map key value).height < levels + 1 ↔
      (∀ k ∈ key, k.height < levels) ∧ ∀ v ∈ value, v.height < levels := by
  cases key with
  | none => cases value <;> simp [height, Nat.add_comm 1]
  | some k =>
    cases value with
    | none => simp [height, Nat.add_comm 1]
    | some v =>
      rw [height, Nat.add_comm 1, Nat.add_lt_add_iff_right, Nat.max_lt]
      simp

/-- Induction over descriptors, with the sides of a map at hand when they are known. -/
@[elab_as_elim, induction_eliminator]
theorem induct {motive : Descriptor → Prop} (node : ∀ n, motive (node n))
    (map : ∀ key value, (∀ k, key = some k → motive k) → (∀ v, value = some v → motive v) →
      motive (map key value)) (d : Descriptor) : motive d :=
  @Descriptor.rec motive (fun side => ∀ d, side = some d → motive d)
    node (fun key value hk hv => map key value hk hv) (fun _ h => nomatch h)
    (fun _ hd _ h => Option.some.inj h ▸ hd) d

def same : Descriptor → Descriptor → Bool
  | node m, node n => m = n
  | map key value, map key' value' =>
    (match key, key' with
      | some k, some k' => same k k'
      | none, none => true
      | _, _ => false) &&
    (match value, value' with
      | some v, some v' => same v v'
      | none, none => true
      | _, _ => false)
  | _, _ => false

theorem same_iff (d e : Descriptor) : d.same e = true ↔ d = e := by
  induction d generalizing e with
  | node n => cases e <;> simp [same]
  | map key value hk hv =>
    cases e with
    | node n => simp [same]
    | map key' value' =>
      cases key <;> cases key' <;> cases value <;> cases value' <;> simp_all [same]

instance : DecidableEq Descriptor := fun d e => decidable_of_iff _ (same_iff d e)

end Descriptor

end ScriptKit
