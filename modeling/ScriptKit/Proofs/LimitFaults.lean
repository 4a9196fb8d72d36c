import ScriptKit.Proofs.TokenLanguage

/-! When a limit is in the way of reading a type. The reader goes down into the types inside a type
from left to right. It stops at the first token of a type that nests too deep, and at the first
token of a map, once it is read, where an element type is wanted. -/
namespace ScriptKit
namespace Descriptor

/-- The tokens of a type before a type inside it, with the sign that leaves that type out. An
element type cannot be left out. -/
inductive Opens (levels : Nat) : List Token → Option Symbol → Prop
  | array {opening closing : Token} (ho : opening.kind = .symbol .bracketOpen)
      (hc : closing.kind = .symbol .bracketClose) : Opens levels [opening, closing] none
  | sizedArray {opening size closing : Token} (ho : opening.kind = .symbol .bracketOpen)
      (hs : size.kind = .int) (hc : closing.kind = .symbol .bracketClose) :
      Opens levels [opening, size, closing] none
  | element {word opening : Token} (hw : word.kind = .identifier) (ht : word.text ≠ mapKind)
      (ho : opening.kind = .symbol .parenOpen) : Opens levels [word, opening] none
  | key {word opening : Token} (hw : word.kind = .identifier) (ht : word.text = mapKind)
      (ho : opening.kind = .symbol .parenOpen) : Opens levels [word, opening] (some .comma)
  | value {word opening comma : Token} {ks : List Token} {key : Option Descriptor}
      (hw : word.kind = .identifier) (ht : word.text = mapKind)
      (ho : opening.kind = .symbol .parenOpen) (hk : DerivesSide levels ks key)
      (hm : comma.kind = .symbol .comma) :
      Opens levels (word :: opening :: (ks ++ [comma])) (some .parenClose)

/-- The limit that a type of so many levels meets first, and its place: the levels are used up, or
an element type is a map, or a type inside meets one. -/
inductive MeetsLimit (stop : Span) : Nat → List Token → Fault → Prop
  | tooDeep (ts : List Token) : MeetsLimit stop 0 ts (.tooDeep, nextSpan stop ts)
  | mapElement {levels : Nat} {first used rest : List Token} {key value : Option Descriptor}
      (ho : Opens levels first none) (h : Derives levels used (map key value))
      (hrest : used.length = 1 → NotNext (.symbol .parenOpen) rest) :
      MeetsLimit stop (levels + 1) (first ++ (used ++ rest))
        (.mapElement (map key value), nextSpan stop (used ++ rest))
  | inside {levels : Nat} {first ts : List Token} {sign? : Option Symbol} {fault : Fault}
      (ho : Opens levels first sign?) (hsign : ∀ sign ∈ sign?, NotNext (.symbol sign) ts)
      (h : MeetsLimit stop levels ts fault) : MeetsLimit stop (levels + 1) (first ++ ts) fault

section Readers

variable {stop : Span} {read : Reader} {ts : List Token} {fault : Fault}

theorem isLimit_of_expect {kind : TokenKind} (h : expect stop kind ts = .error fault) :
    fault.1.isLimit = false := by
  cases ts with
  | nil =>
    cases h
    rfl
  | cons t rest =>
    rw [expect] at h
    split at h
    · cases h
    · cases h
      rfl

theorem readElement_eq_error : readElement stop read ts = .error fault ↔
    read ts = .error fault ∨ ∃ key value rest, read ts = .ok (map key value, rest) ∧
      fault = (.mapElement (map key value), nextSpan stop ts) := by
  rw [readElement, Outcome.bind_eq_error]
  refine or_congr_right ⟨?_, ?_⟩
  · rintro ⟨⟨d, rest⟩, hread, h⟩
    cases d with
    | node n => cases h
    | map key value =>
      cases h
      exact ⟨key, value, rest, hread, rfl⟩
  · rintro ⟨key, value, rest, hread, rfl⟩
    exact ⟨_, hread, rfl⟩

theorem readSide_eq_error {closing : Symbol} : readSide closing read ts = .error fault ↔
    NotNext (.symbol closing) ts ∧ read ts = .error fault := by
  cases ts with
  | nil => simp [readSide, notNext_nil, Outcome.map_eq_error]
  | cons t rest =>
    by_cases hk : t.kind = .symbol closing
    · simp [readSide, notNext_cons, hk]
    · simp [readSide, notNext_cons, hk, Outcome.map_eq_error]

end Readers

section Maps

variable {stop : Span} {levels : Nat} {key value : Option Descriptor}

theorem readType_map {used rest : List Token} (h : Derives levels used (map key value))
    (hrest : used.length = 1 → NotNext (.symbol .parenOpen) rest) :
    readType stop levels (used ++ rest) = .ok (map key value, rest) := by
  cases h with
  | bareMap hw ht => simpa [readType, hw, ht] using readMap_bare (hrest rfl)
  | map hw ht ho hk hm hv hc =>
    simpa [readType, hw, ht] using
      Complete.readMap (readType_complete stop _) ho hk hm hv hc

/-- A map without its sides is read only where no parenthesis opens after it. -/
theorem derives_of_readType_map {ts rest : List Token}
    (h : readType stop levels ts = .ok (map key value, rest)) :
    ∃ used, ts = used ++ rest ∧ Derives levels used (map key value) ∧
      (used.length = 1 → NotNext (.symbol .parenOpen) rest) := by
  obtain ⟨used, rfl, hused⟩ := readType_sound stop levels h
  refine ⟨used, rfl, hused, fun hone => ?_⟩
  cases hused with
  | map => simp at hone
  | bareMap hw ht =>
    rintro t hhead ho
    obtain ⟨tail, rfl⟩ := List.head?_eq_some_iff.1 hhead
    simp only [List.singleton_append, readType, hw, ht, if_true, readMap, ho, Outcome.bind_eq_ok,
      expect_eq_ok, Prod.exists] at h
    obtain ⟨key, ts₁, hkey, ts₂, ⟨comma, rfl, hm⟩, value, ts₃, hvalue, ts₄,
      ⟨closing, rfl, hc⟩, h⟩ := h
    obtain ⟨ks, rfl, -⟩ := Sound.readSide (readType_sound stop _) hkey
    obtain ⟨vs, rfl, -⟩ := Sound.readSide (readType_sound stop _) hvalue
    have hlength := congrArg List.length (Prod.mk.inj (Except.ok.inj h)).2
    simp at hlength
    omega

end Maps

section Limits

variable {stop : Span} {levels : Nat} {first ts : List Token} {fault : Fault}

theorem Opens.readType_element (ho : Opens levels first none)
    (h : readElement stop (readType stop levels) ts = .error fault) :
    readType stop (levels + 1) (first ++ ts) = .error fault := by
  cases ho with
  | array ho hc => simp [readType, ho, readArray, readSize, hc, expect, h, bind, Except.bind]
  | sizedArray ho hs hc =>
    simp [readType, ho, readArray, readSize, hs, hc, expect, h, bind, Except.bind]
  | element hw ht ho => simp [readType, hw, ht, readNamed, ho, h, bind, Except.bind]

theorem Opens.readType_side {sign : Symbol} (ho : Opens levels first (some sign))
    (h : readSide sign (readType stop levels) ts = .error fault) :
    readType stop (levels + 1) (first ++ ts) = .error fault := by
  cases ho with
  | key hw ht ho => simp [readType, hw, ht, readMap, ho, h, bind, Except.bind]
  | @value _ _ comma ks key hw ht ho hk hm =>
    have hkey : readSide .comma (readType stop levels) (ks ++ comma :: ts) =
        .ok (key, comma :: ts) :=
      Complete.readSide (readType_complete stop levels) hk (by decide) (by decide) hm
    simp [readType, hw, ht, readMap, ho, hkey, expect, hm, h, bind, Except.bind]

theorem readType_of_meetsLimit (h : MeetsLimit stop levels ts fault) :
    readType stop levels ts = .error fault ∧ fault.1.isLimit = true := by
  induction h with
  | tooDeep ts => exact ⟨rfl, rfl⟩
  | mapElement ho h hrest =>
    refine ⟨ho.readType_element (readElement_eq_error.2 (.inr ?_)), rfl⟩
    exact ⟨_, _, _, readType_map h hrest, rfl⟩
  | @inside levels first ts sign? fault ho hsign h ih =>
    refine ⟨?_, ih.2⟩
    cases sign? with
    | none => exact ho.readType_element (readElement_eq_error.2 (.inl ih.1))
    | some sign => exact ho.readType_side (readSide_eq_error.2 ⟨hsign sign rfl, ih.1⟩)

/-- Every limit that stops the reader is one that the tokens meet. -/
def StopsAtLimits (stop : Span) (levels : Nat) : Prop :=
  ∀ {ts : List Token} {fault : Fault}, readType stop levels ts = .error fault →
    fault.1.isLimit = true → MeetsLimit stop levels ts fault

section Step

variable (ih : StopsAtLimits stop levels) (hlimit : fault.1.isLimit = true)
include ih hlimit

theorem Opens.meetsLimit_element (ho : Opens levels first none)
    (h : readElement stop (readType stop levels) ts = .error fault) :
    MeetsLimit stop (levels + 1) (first ++ ts) fault := by
  rcases readElement_eq_error.1 h with h | ⟨key, value, rest, hread, rfl⟩
  · exact .inside ho (by simp) (ih h hlimit)
  · obtain ⟨used, rfl, hused, hrest⟩ := derives_of_readType_map hread
    exact .mapElement ho hused hrest

theorem Opens.meetsLimit_side {sign : Symbol} (ho : Opens levels first (some sign))
    (h : readSide sign (readType stop levels) ts = .error fault) :
    MeetsLimit stop (levels + 1) (first ++ ts) fault := by
  obtain ⟨hsign, h⟩ := readSide_eq_error.1 h
  exact .inside ho (by simpa using hsign) (ih h hlimit)

theorem meetsLimit_of_readArray {opening : Token} (ho : opening.kind = .symbol .bracketOpen)
    (h : readArray stop (readType stop levels) ts = .error fault) :
    MeetsLimit stop (levels + 1) (opening :: ts) fault := by
  obtain ⟨size, ts', hsize⟩ : ∃ size ts', readSize ts = (size, ts') := ⟨_, _, rfl⟩
  simp only [readArray, hsize, Outcome.bind_eq_error, expect_eq_ok] at h
  rcases h with h | ⟨ts'', ⟨closing, rfl, hc⟩, h | ⟨_, _, h⟩⟩
  · simp [isLimit_of_expect h] at hlimit
  · rcases readSize_eq hsize with ⟨rfl, rfl⟩ | ⟨t, rfl, ht, rfl⟩
    · exact Opens.meetsLimit_element ih hlimit (.array ho hc) h
    · exact Opens.meetsLimit_element ih hlimit (.sizedArray ho ht hc) h
  · cases h

theorem meetsLimit_of_readMap {word : Token} (hw : word.kind = .identifier)
    (ht : word.text = mapKind) (h : readMap stop (readType stop levels) ts = .error fault) :
    MeetsLimit stop (levels + 1) (word :: ts) fault := by
  cases ts with
  | nil => cases h
  | cons opening tail =>
    rw [readMap] at h
    split at h
    · rename_i ho
      simp only [Outcome.bind_eq_error, expect_eq_ok] at h
      rcases h with h | ⟨⟨key, ts₁⟩, hkey,
        h | ⟨ts₂, ⟨comma, hcomma, hm⟩, h | ⟨_, _, h | ⟨_, _, h⟩⟩⟩⟩
      · exact Opens.meetsLimit_side ih hlimit (.key hw ht ho) h
      · simp [isLimit_of_expect h] at hlimit
      · obtain ⟨ks, rfl, hks⟩ := Sound.readSide (readType_sound stop levels) hkey
        obtain rfl : ts₁ = comma :: ts₂ := hcomma
        simpa using Opens.meetsLimit_side ih hlimit (.value hw ht ho hks hm) h
      · simp [isLimit_of_expect h] at hlimit
      · cases h
    · cases h

theorem meetsLimit_of_readNamed {word : Token} (hw : word.kind = .identifier)
    (ht : word.text ≠ mapKind)
    (h : readNamed stop (readType stop levels) word.text ts = .error fault) :
    MeetsLimit stop (levels + 1) (word :: ts) fault := by
  cases ts with
  | nil => cases h
  | cons opening tail =>
    rw [readNamed] at h
    split at h
    · rename_i ho
      simp only [Outcome.bind_eq_error, expect_eq_ok] at h
      rcases h with h | ⟨_, _, h | ⟨_, _, h⟩⟩
      · exact Opens.meetsLimit_element ih hlimit (.element hw ht ho) h
      · simp [isLimit_of_expect h] at hlimit
      · cases h
    · cases h

end Step

theorem stopsAtLimits (stop : Span) (levels : Nat) : StopsAtLimits stop levels := by
  induction levels with
  | zero =>
    intro ts fault h _
    cases h
    exact .tooDeep ts
  | succ levels ih =>
    intro ts fault h hlimit
    cases ts with
    | nil =>
      cases h
      cases hlimit
    | cons t tail =>
      rw [readType] at h
      split at h
      · rename_i hk
        exact meetsLimit_of_readArray ih hlimit hk h
      · rename_i hk
        split at h
        · rename_i ht
          exact meetsLimit_of_readMap ih hlimit hk ht h
        · rename_i ht
          exact meetsLimit_of_readNamed ih hlimit hk ht h
      · cases h
        cases hlimit

/-- The reader stops at a limit exactly where the tokens meet one. -/
theorem readType_eq_error_iff_meetsLimit :
    readType stop levels ts = .error fault ∧ fault.1.isLimit = true ↔
      MeetsLimit stop levels ts fault :=
  ⟨fun h => stopsAtLimits stop levels h.1 h.2, readType_of_meetsLimit⟩

end Limits

end Descriptor
end ScriptKit
