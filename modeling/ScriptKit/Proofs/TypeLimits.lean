import ScriptKit.Proofs.Divergence
import ScriptKit.Proofs.TypeText

/-! The limits of reading and of comparing types. A type that was read nests less deeply than types
can be compared, so its comparison ends with an answer about the types; and it fits itself unless
one of its sizes is too large a number. -/
namespace ScriptKit

section Sizes

variable {s : String}

theorem SizeIs.unique {v w : Int64} (hv : SizeIs s v.toInt) (hw : SizeIs s w.toInt) : v = w := by
  rw [← NodeType.sizeValue?_eq_some] at hv hw
  exact Option.some.inj (hv.symm.trans hw)

theorem sizeIs_iff_denotes (h : IsDigits s.toList) {v : Int64} :
    SizeIs s v.toInt ↔ Integer.Denotes s.toList v.toInt := by
  have hblank : ∀ c ∈ s.toList, Text.isBlank c = false :=
    fun c hc => Text.isBlank_of_isDigit (h.2 c hc)
  have htrim : Text.trim s.toList = s.toList :=
    Text.trim_eq_self (fun c hc => hblank c (List.mem_of_mem_head? hc))
      fun c hc => hblank c (List.mem_of_mem_getLast? hc)
  rw [← NodeType.sizeValue?_eq_some, ← Integer.read_eq_ok, NodeType.sizeValue?, htrim]
  cases Integer.read s.toList <;> simp [Except.toOption]

theorem Integer.Denotes.nonneg {cs : List Char} {n : Int} (hn : Denotes cs n) (h : IsDigits cs) :
    0 ≤ n := by
  cases hn with
  | digits | plus => exact Int.natCast_nonneg _
  | minus => exact absurd h (not_isDigits_cons (by decide))

theorem exists_sizeIs_iff (h : IsDigits s.toList) :
    (∃ v : Int64, SizeIs s v.toInt) ↔ ∃ n, Integer.Denotes s.toList n ∧ n ≤ Integer.greatest := by
  constructor
  · rintro ⟨v, hv⟩
    exact ⟨v.toInt, (sizeIs_iff_denotes h).1 hv, Integer.toInt_le v⟩
  · rintro ⟨n, hn, hle⟩
    have hnonneg := hn.nonneg h
    have htoInt : (Int64.ofInt n).toInt = n := (Integer.ofInt_eq_iff (by omega) hle).1 rfl
    refine ⟨.ofInt n, (sizeIs_iff_denotes h).2 ?_⟩
    rwa [htoInt]

end Sizes

namespace Descriptor

variable {d : Descriptor}

theorem height_lt_of_part? {e : Descriptor} {s : Step} (h : d.part? s = some e) :
    e.height < d.height := by
  cases d with
  | node n =>
    cases s with
    | child =>
      obtain ⟨c, hc, rfl⟩ := Option.map_eq_some_iff.1 h
      exact NodeType.depth_lt_succ.1 (Nat.lt_succ_self n.depth) c hc
    | key | value => cases h
  | map key value =>
    obtain ⟨hkey, hvalue⟩ := height_map_lt_succ.1 (Nat.lt_succ_self (map key value).height)
    cases s with
    | child => cases h
    | key => exact hkey e h
    | value => exact hvalue e h

theorem length_le_height {e : Descriptor} {p : Path} (h : d.at? p = some e) :
    p.length ≤ d.height := by
  induction p generalizing d with
  | nil => exact Nat.zero_le _
  | cons s p ih =>
    obtain ⟨x, hx, hp⟩ := Option.bind_eq_some_iff.1 h
    exact Nat.lt_of_le_of_lt (ih hp) (height_lt_of_part? hx)

theorem WellFormed.part? {e : Descriptor} {s : Step} (hd : d.WellFormed)
    (h : d.part? s = some e) : e.WellFormed := by
  cases d with
  | node n =>
    cases s with
    | child =>
      obtain ⟨c, hc, rfl⟩ := Option.map_eq_some_iff.1 h
      cases n with
      | leaf kind size => cases hc
      | container kind size child =>
        cases hc
        exact hd.2.2
    | key | value => cases h
  | map key value =>
    obtain ⟨hkey, hvalue⟩ := wellFormed_map.1 hd
    cases s with
    | child => cases h
    | key => exact hkey e h
    | value => exact hvalue e h

theorem WellFormed.at? {e : Descriptor} {p : Path} (hd : d.WellFormed)
    (h : d.at? p = some e) : e.WellFormed := by
  induction p generalizing d with
  | nil =>
    cases h
    exact hd
  | cons s p ih =>
    obtain ⟨x, hx, hp⟩ := Option.bind_eq_some_iff.1 h
    exact ih (hd.part? hx) hp

/-- The tree has a node with that size. -/
def HasSize (d : Descriptor) (s : String) : Prop :=
  ∃ p n, d.at? p = some (node n) ∧ n.size? = some s

theorem WellFormed.isDigits {s : String} (hd : d.WellFormed) (h : d.HasSize s) :
    IsDigits s.toList := by
  obtain ⟨p, n, hn, hs⟩ := h
  have hwf : n.WellFormed := hd.at? hn
  cases n with
  | leaf kind size =>
    rw [show size = some s from hs] at hwf
    cases hwf.2
  | container kind size child => exact (hwf.2.1 s hs).2

theorem compat_self_iff : Compat d d ↔ ∀ s, d.HasSize s → ∃ v : Int64, SizeIs s v.toInt := by
  rw [compat_iff_passes]
  constructor
  · rintro h s ⟨p, n, hn, hs⟩
    have hp := h p
    rw [Passes, hn] at hp
    cases hp with
    | nodes _ hsize =>
      obtain ⟨v, -, hv, -⟩ := hsize s hs s hs
      exact ⟨v, hv⟩
  · intro h p
    rw [Passes]
    cases hp : d.at? p with
    | none => exact .absent
    | some e =>
      cases e with
      | map key value => exact .maps
      | node n =>
        refine .nodes rfl fun s hs s' hs' => ?_
        obtain rfl : s = s' := Option.mem_unique hs hs'
        obtain ⟨v, hv⟩ := h s ⟨p, n, hp, hs⟩
        exact ⟨v, v, hv, hv, Int.le_refl _⟩

theorem LocalFault.of_self {operand : Operand} {reason : Mismatch}
    (h : LocalFault d d operand reason) :
    ∃ n s, d = node n ∧ n.size? = some s ∧ (∀ v : Int64, ¬ SizeIs s v.toInt) ∧
      operand = .declared ∧ reason = .invalidSize s := by
  cases h with
  | kinds hkind => exact absurd rfl hkind
  | declaredSize _ hs _ hv => exact ⟨_, _, rfl, hs, hv, rfl, rfl⟩
  | inferredSize _ hs hs' hv hinvalid =>
    rw [hs] at hs'
    cases hs'
    exact absurd hv (hinvalid _)
  | capacity _ hs hs' hc hn hlt =>
    rw [hs] at hs'
    cases hs'
    rw [hc.unique hn] at hlt
    exact absurd hlt (Int.lt_irrefl _)
  | missingChild _ _ hnone hsome =>
    rw [Operand.pick_self] at hnone hsome
    rw [hnone] at hsome
    cases hsome
  | missingSide hsome hnone =>
    rw [Operand.pick_self] at hnone hsome
    rw [hnone] at hsome
    cases hsome

theorem tooDeep_of_check {e : Descriptor} (h : check d e = .error .tooDeep) :
    maxTypeDepth < d.height ∧ maxTypeDepth < e.height := by
  obtain ⟨p, x, y, hp, hcomes⟩ := explains_of_checkLevels h
  have hd := length_le_height hcomes.declared
  have he := length_le_height hcomes.inferred
  omega

/-- A type of moderate height fits itself, or else the check names the first of its sizes that
cannot be read. -/
theorem check_self_cases (hd : d.height ≤ maxTypeDepth) :
    check d d = .ok () ∨ ∃ p n s, d.at? p = some (node n) ∧ n.size? = some s ∧
      (∀ v : Int64, ¬ SizeIs s v.toInt) ∧
      check d d = .error (.mismatch (node n) .declared (.invalidSize s)) := by
  cases h : check d d with
  | ok u => exact .inl rfl
  | error e =>
    right
    have hexplains := explains_of_checkLevels h
    cases e with
    | absent operand => exact hexplains.elim
    | tooDeep => exact absurd (tooDeep_of_check h).1 (Nat.not_lt.2 hd)
    | mismatch offending operand reason =>
      obtain ⟨p, x, y, -, hcomes, rfl, hfault⟩ := hexplains
      obtain rfl : x = y := Option.some.inj (hcomes.declared.symm.trans hcomes.inferred)
      obtain ⟨n, s, rfl, hs, hinvalid, rfl, rfl⟩ := hfault.of_self
      exact ⟨p, n, s, hcomes.declared, hs, hinvalid, rfl⟩

/-- A type that was read from a text is never too deep to be compared, on either side and with any
type. It fits itself exactly if each of its sizes writes an integer of at most 9223372036854775807,
the greatest of sixty-four bits; and else the check returns the declared side's first size that does
not. -/
theorem check_of_ofText {text : String} {d : Descriptor} (h : ofText text = .ok d) :
    (∀ e, check d e ≠ .error .tooDeep ∧ check e d ≠ .error .tooDeep) ∧
    (check d d = .ok () ↔ ∀ s, d.HasSize s →
      ∃ n, Integer.Denotes s.toList n ∧ n ≤ 9223372036854775807) ∧
    (¬ (∀ s, d.HasSize s → ∃ n, Integer.Denotes s.toList n ∧ n ≤ 9223372036854775807) →
      ∃ p n s, d.at? p = some (node n) ∧ n.size? = some s ∧
        (∀ m, Integer.Denotes s.toList m → 9223372036854775807 < m) ∧
        check d d = .error (.mismatch (node n) .declared (.invalidSize s))) := by
  obtain ⟨hwf, hheight⟩ := wellFormed_of_ofText h
  have hread : ∀ s, d.HasSize s → ((∃ v : Int64, SizeIs s v.toInt) ↔
      ∃ n, Integer.Denotes s.toList n ∧ n ≤ 9223372036854775807) :=
    fun s hs => exists_sizeIs_iff (hwf.isDigits hs)
  have hself : check d d = .ok () ↔ ∀ s, d.HasSize s →
      ∃ n, Integer.Denotes s.toList n ∧ n ≤ 9223372036854775807 := by
    rw [check, checkLevels_eq_ok, compat_self_iff, and_iff_left (Nat.lt_succ_of_lt hheight)]
    exact forall₂_congr hread
  refine ⟨fun e => ⟨fun hd => ?_, fun he => ?_⟩, hself, fun hsizes => ?_⟩
  · exact absurd (tooDeep_of_check hd).1 (Nat.not_lt.2 (Nat.le_of_lt hheight))
  · exact absurd (tooDeep_of_check he).2 (Nat.not_lt.2 (Nat.le_of_lt hheight))
  · rcases check_self_cases (Nat.le_of_lt hheight) with hok | ⟨p, n, s, hn, hs, hinvalid, herror⟩
    · exact absurd (hself.1 hok) hsizes
    · refine ⟨p, n, s, hn, hs, fun m hm => ?_, herror⟩
      by_contra hle
      obtain ⟨v, hv⟩ := (hread s ⟨p, n, hn, hs⟩).2 ⟨m, hm, Int.not_lt.1 hle⟩
      exact hinvalid v hv

/-- A map whose key has the greatest size that can be read, and whose value has the next one. -/
def overfull : Descriptor :=
  map (some (node (.array (some "9223372036854775807") (.scalar "int"))))
    (some (node (.array (some "9223372036854775808") (.scalar "int"))))

theorem wellFormed_overfull : overfull.WellFormed := by
  have hint : IsTypeName "int" := by
    have hname : IsName ['i', 'n', 't'] := isName_cons (by decide) (by decide)
    refine ⟨hname, ?_, by decide⟩
    intro word
    cases word <;> decide
  have hdigits : ∀ s ∈ ["9223372036854775807", "9223372036854775808"], IsDigits s.toList := by
    intro s hs
    exact ⟨by revert s; decide, List.all_eq_true.1 (by revert s; decide)⟩
  have harray : ∀ s ∈ ["9223372036854775807", "9223372036854775808"],
      (NodeType.array (some s) (.scalar "int")).WellFormed := by
    intro s hs
    refine ⟨isTypeName_arrayKind, ?_, hint, rfl⟩
    rintro _ ⟨⟩
    exact ⟨rfl, hdigits s hs⟩
  exact ⟨harray _ (by simp), harray _ (by simp)⟩

theorem check_of_ofText_overfull :
    ofText "map([9223372036854775807]int, [9223372036854775808]int)" = .ok overfull ∧
      (∀ e, check overfull e ≠ .error .tooDeep) ∧
      ∃ p n s, overfull.at? p = some (node n) ∧ n.size? = some s ∧
        (∀ m, Integer.Denotes s.toList m → 9223372036854775807 < m) ∧
        check overfull overfull = .error (.mismatch (node n) .declared (.invalidSize s)) := by
  have htext : overfull.text = "map([9223372036854775807]int, [9223372036854775808]int)" := by
    decide
  have hread : ofText "map([9223372036854775807]int, [9223372036854775808]int)" = .ok overfull := by
    rw [← htext]
    exact reread_eq_ok wellFormed_overfull (by decide)
  obtain ⟨hdepth, -, hsize⟩ := check_of_ofText hread
  refine ⟨hread, fun e => (hdepth e).1, hsize fun hall => ?_⟩
  obtain ⟨n, hn, hle⟩ := hall "9223372036854775808" ⟨[.value], _, rfl, rfl⟩
  obtain ⟨-, rfl⟩ := (Integer.denotes_unsigned (by simp) (by simp)).1 hn
  exact absurd hle (by decide)

end Descriptor

end ScriptKit
