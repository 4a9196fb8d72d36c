import ScriptKit.Proofs.UnknownMembers

/-! JSON forms are read back. What is written for a type, an error or a log is read as the same
value again, also after members that the form does not know were added anywhere in it. -/
namespace ScriptKit

namespace Json

def names : Json → List String
  | object members => members.map Prod.fst
  | _ => []

def member? (v : Json) (name : String) : Option Json := v.object?.bind fun ms => get? ms name

def shaped (shape : String) : Json → Json
  | object members => object (("shape", string shape) :: members)
  | v => v

@[simp] theorem names_object (ms : List (String × Json)) :
    (object ms).names = ms.map Prod.fst := rfl

@[simp] theorem member?_object (ms : List (String × Json)) (name : String) :
    (object ms).member? name = get? ms name := rfl

@[simp] theorem get?_append (ms ms' : List (String × Json)) (name : String) :
    get? (ms ++ ms') name = (get? ms name).or (get? ms' name) := by
  simp [get?, List.find?_append, Option.map_or]

@[simp] theorem get?_memberIf (name' : String) (v : Option Json) (name : String) :
    get? (memberIf name' v) name = if name' = name then v else none := by
  cases v <;> simp [memberIf]

section Written

variable {α : Type} {ms : List (String × Json)} {name : String} {decode : Json → Option α}
  {encode : α → Json}

theorem required?_written {a : α} (h : get? ms name = some (encode a))
    (hdecode : decode (encode a) = some a) : required? ms name decode = some a := by
  simp [required?, h, hdecode]

theorem optional?_written {a? : Option α} (h : get? ms name = a?.map encode)
    (hnull : ∀ a, encode a ≠ .null) (hdecode : ∀ a ∈ a?, decode (encode a) = some a) :
    optional? ms name decode = some a? := by
  cases a? with
  | none => exact optional?_of_none h
  | some a => rw [optional?_of_some h (hnull a), hdecode a rfl, Option.map_some]

end Written

end Json

def present {α : Type} (name : String) (value : Option α) : List String :=
  (value.map fun _ => name).toList

@[simp] theorem map_fst_memberIf {α : Type} (name : String) (value : Option α) (encode : α → Json) :
    (Json.memberIf name (value.map encode)).map Prod.fst = present name value := by
  cases value <;> rfl

namespace NodeType

section Members

variable (n : NodeType)

@[simp] theorem get?_members_kind : Json.get? n.members "kind" = some (.string n.kind) := by
  cases n <;> simp [members, kind]

@[simp] theorem get?_members_size : Json.get? n.members "size" = n.size?.map .string := by
  cases n <;> simp [members, size?]

@[simp] theorem get?_members_child : Json.get? n.members "child" = n.child?.map toJson := by
  cases n <;> simp [members, child?, toJson]

theorem names_members :
    n.members.map Prod.fst = "kind" :: (present "size" n.size? ++ present "child" n.child?) := by
  cases n <;> simp [members, size?, child?, present]

end Members

theorem ofJson?_written {n : NodeType} {ms : List (String × Json)}
    (hkind : Json.get? ms "kind" = some (.string n.kind))
    (hsize : Json.get? ms "size" = n.size?.map .string)
    (hchild : Json.get? ms "child" = n.child?.map toJson)
    (hread : ∀ child ∈ n.child?, ofJson? child.toJson = some child) :
    ofJson? (.object ms) = some n := by
  rw [ofJson?_object, Json.required?_written hkind rfl,
    Json.optional?_written hsize (by simp) (by simp),
    Json.optional?_written hchild (by simp [toJson]) hread]
  cases n <;> rfl

theorem ofJson?_toJson (n : NodeType) : ofJson? n.toJson = some n := by
  induction n with
  | leaf kind size => exact ofJson?_written (by simp) (by simp) (by simp) (by simp [child?])
  | container kind size child ih =>
    exact ofJson?_written (by simp) (by simp) (by simp) (by simpa [child?] using ih)

end NodeType

namespace Descriptor

theorem toJson_ne_null (d : Descriptor) : d.toJson ≠ .null := by
  cases d with
  | node n => simp [toJson]
  | map key value => simp [toJson_map]

theorem get?_mapMembers_left (key value : Option Descriptor) :
    Json.get? (mapMembers key value) "left" = key.map toJson := by
  simp [mapMembers]

theorem get?_mapMembers_right (key value : Option Descriptor) :
    Json.get? (mapMembers key value) "right" = value.map toJson := by
  simp [mapMembers]

theorem mapOfJson?_written {key value : Option Descriptor} {ms : List (String × Json)}
    (hleft : Json.get? ms "left" = key.map toJson)
    (hright : Json.get? ms "right" = value.map toJson)
    (hkey : ∀ k ∈ key, ofJson? k.toJson = some k)
    (hvalue : ∀ v ∈ value, ofJson? v.toJson = some v) :
    mapOfJson? (.object ms) = some (map key value) := by
  rw [mapOfJson?_object, Json.optional?_written hleft toJson_ne_null hkey,
    Json.optional?_written hright toJson_ne_null hvalue]
  rfl

theorem ofJson?_toJson (d : Descriptor) : ofJson? d.toJson = some d := by
  induction d with
  | node n =>
    have hnode : NodeType.ofJson? (.object (("shape", .string "node") :: n.members)) = some n :=
      NodeType.ofJson?_written (by simp) (by simp) (by simp) fun c _ => c.ofJson?_toJson
    rw [toJson, ofJson?_of_node (by simp), hnode, Option.map_some]
  | map key value hkey hvalue =>
    rw [toJson_map, ofJson?_of_map (by simp)]
    exact mapOfJson?_written (by simp [get?_mapMembers_left]) (by simp [get?_mapMembers_right])
      hkey hvalue

theorem mapOfJson?_mapToJson (key value : Option Descriptor) :
    mapOfJson? (mapToJson key value) = some (map key value) :=
  mapOfJson?_written (get?_mapMembers_left key value) (get?_mapMembers_right key value)
    (fun k _ => k.ofJson?_toJson) fun v _ => v.ofJson?_toJson

end Descriptor

@[simp] theorem Span.coordinate?_nat (n : UInt32) : coordinate? (.nat n.toNat) = some n := by
  have hle : n.toNat ≤ maxCoordinate := Nat.le_of_lt_succ n.toNat_lt
  simp [coordinate?, Json.nat?_nat hle]

@[simp] theorem ErrorLog.total?_nat (n : UInt64) : total? (.nat n.toNat) = some n := by
  have hle : n.toNat ≤ maxTotal := Nat.le_of_lt_succ n.toNat_lt
  simp [total?, Json.nat?_nat hle]

@[simp] theorem Severity.ofJson?_toJson (s : Severity) : ofJson? s.toJson = some s := by
  simp [ofJson?, toJson]

@[simp] theorem Category.ofJson?_toJson (c : Category) : ofJson? c.toJson = some c := by
  simp [ofJson?, toJson]

@[simp] theorem ErrorCode.ofJson?_toJson (code : ErrorCode) : ofJson? code.toJson = some code := by
  have hle : code.number.toNat ≤ 65535 := Nat.le_of_lt_succ code.number.toNat_lt
  simp [ofJson?, toJson, Json.nat?_nat hle]

namespace SourceError

theorem ofJson?_toJson (e : SourceError) : ofJson? e.toJson = some e := by
  have hsuggestion : ∀ ms, Json.get? ms "suggestion" = e.suggestion.map .string →
      Json.optional? ms "suggestion" Json.string? = some e.suggestion :=
    fun _ hms => Json.optional?_written hms (by simp) (by simp)
  simp [ofJson?, toJson, Span.ofMembers?, Span.members, Json.required?, hsuggestion]

theorem member?_span (e : SourceError) {m : String × Json} (hm : m ∈ e.span.members) :
    e.toJson.member? m.1 = some m.2 := by
  simp only [Span.members, List.mem_cons, List.not_mem_nil, or_false] at hm
  rcases hm with rfl | rfl | rfl | rfl <;> simp [toJson, Span.members]

theorem names_toJson (e : SourceError) :
    e.toJson.names = ["file", "code", "severity", "category", "message", "start_line", "start_col",
      "end_line", "end_col", "source_line"] ++ present "suggestion" e.suggestion := by
  simp [toJson, Span.members]

end SourceError

namespace ErrorLog

theorem listOfJson?_toJson (es : List SourceError) :
    listOfJson? (.array (es.map SourceError.toJson)) = some es := by
  simp only [listOfJson?, Json.array?_array, Option.bind_eq_bind, Option.bind_some]
  induction es with
  | nil => rfl
  | cons e es ih => simp [SourceError.ofJson?_toJson e, ih]

theorem ofJson?_toJson (log : ErrorLog) : ofJson? log.toJson = some log := by
  simp [ofJson?, toJson, Json.required?, listOfJson?_toJson]

end ErrorLog

/-- A value is read from its form, and from whatever comes about by adding members to the form that
it does not know. -/
def Form.Decodes {α : Type} (f : Form) (decode : Json → Option α) (form : Json) (x : α) : Prop :=
  decode form = some x ∧ ∀ v, f.Adds form v → decode v = some x

theorem Form.decodes_of_adds {α : Type} {f : Form} {decode : Json → Option α} {form : Json} {x : α}
    (h : decode form = some x) (hadds : ∀ {v v'}, f.Adds v v' → decode v' = decode v) :
    f.Decodes decode form x :=
  ⟨h, fun _ hv => (hadds hv).trans h⟩

/-- Every type, map, error and log is read from its form, with members that the form does not know
anywhere in it. A node's element type is written without a shape and the sides of a map with theirs,
what is absent is left out, and the coordinates of an error stand among its other members. -/
theorem decode_forms :
    (∀ n : NodeType, (Form.record .node).Decodes NodeType.ofJson? n.toJson n ∧
      n.toJson.names = "kind" :: (present "size" n.size? ++ present "child" n.child?) ∧
      n.toJson.member? "child" = n.child?.map NodeType.toJson) ∧
    (∀ d : Descriptor, Form.descriptor.Decodes Descriptor.ofJson? d.toJson d) ∧
    (∀ n : NodeType, (Descriptor.node n).toJson = n.toJson.shaped "node") ∧
    (∀ key value : Option Descriptor,
      (Form.record .map).Decodes Descriptor.mapOfJson? (Descriptor.mapToJson key value)
        (.map key value) ∧
      (Descriptor.mapToJson key value).names = present "left" key ++ present "right" value ∧
      (Descriptor.mapToJson key value).member? "left" = key.map Descriptor.toJson ∧
      (Descriptor.mapToJson key value).member? "right" = value.map Descriptor.toJson ∧
      (Descriptor.map key value).toJson = (Descriptor.mapToJson key value).shaped "map") ∧
    (∀ e : SourceError, (Form.record .error).Decodes SourceError.ofJson? e.toJson e ∧
      e.toJson.names = ["file", "code", "severity", "category", "message", "start_line",
        "start_col", "end_line", "end_col", "source_line"] ++ present "suggestion" e.suggestion ∧
      ∀ m ∈ e.span.members, e.toJson.member? m.1 = some m.2) ∧
    ∀ log : ErrorLog, (Form.record .log).Decodes ErrorLog.ofJson? log.toJson log := by
  refine ⟨fun n => ⟨?_, n.names_members, n.get?_members_child⟩, fun d => ?_, fun n => rfl,
    fun key value => ⟨?_, ?_, ?_, ?_, Descriptor.toJson_map key value⟩,
    fun e => ⟨?_, e.names_toJson, fun m => e.member?_span⟩, fun log => ?_⟩
  · exact Form.decodes_of_adds n.ofJson?_toJson (NodeType.ofJson?_of_adds (.inl rfl))
  · exact Form.decodes_of_adds d.ofJson?_toJson Descriptor.ofJson?_of_adds
  · exact Form.decodes_of_adds (Descriptor.mapOfJson?_mapToJson key value)
      Descriptor.mapOfJson?_of_adds
  · simp [Descriptor.mapToJson, Descriptor.mapMembers]
  · exact Descriptor.get?_mapMembers_left key value
  · exact Descriptor.get?_mapMembers_right key value
  · exact Form.decodes_of_adds e.ofJson?_toJson SourceError.ofJson?_of_adds
  · exact Form.decodes_of_adds log.ofJson?_toJson ErrorLog.ofJson?_of_adds

/-- A map to arrays, with members that are not known at three depths, one of them a shape inside a
node, and a log of one error, with a member added before the others. -/
theorem decode_forms_widened :
    Descriptor.ofJson? (.object [("note", .null), ("shape", .string "map"),
        ("right", .object [("shape", .string "node"), ("kind", .string "array"), ("left", .null),
          ("child", .object [("shape", .string "map"), ("kind", .string "int")])])]) =
      some (.map none (some (.node (.array none (.scalar "int"))))) ∧
    (let e : SourceError := ⟨"a", ⟨100⟩, .error, .grammar, "m", ⟨1, 1, 1, 2⟩, "x", none⟩
    ErrorLog.ofJson? (.object [("span", .null), ("errors", .array [e.toJson]),
        ("warnings", .array []), ("total_errors", .nat 1), ("total_warnings", .nat 0)]) =
      some ⟨[e], [], 1, 0⟩) := by
  constructor
  · refine (decode_forms.2.1 _).2 _ (.map rfl (.add rfl (.keep rfl .same (.keep rfl ?_ .nil))))
    refine .node rfl (.keep rfl .same (.keep rfl .same (.add rfl (.keep rfl ?_ .nil))))
    exact .record (.add rfl (.keep rfl .same .nil))
  · refine (decode_forms.2.2.2.2.2 _).2 _ (.record (.add rfl ?_))
    exact .keep rfl .same (.keep rfl .same (.keep rfl .same (.keep rfl .same .nil)))

end ScriptKit
