import ScriptKit.Descriptor.Parser

/-! The grammar of type annotations over tokens. The reader accepts exactly the sentences of the
grammar that nest no deeper than its limit, and each sentence has one tree. -/
namespace ScriptKit

namespace Outcome

variable {ε α β : Type}

theorem bind_eq_ok {x : Except ε α} {f : α → Except ε β} {b : β} :
    (x >>= f) = .ok b ↔ ∃ a, x = .ok a ∧ f a = .ok b := by
  constructor
  · intro h
    cases x with
    | error e => cases h
    | ok a => exact ⟨a, rfl, h⟩
  · rintro ⟨a, rfl, h⟩
    exact h

theorem bind_eq_error {x : Except ε α} {f : α → Except ε β} {e : ε} :
    (x >>= f) = .error e ↔ x = .error e ∨ ∃ a, x = .ok a ∧ f a = .error e := by
  cases x with
  | error e' => simp [bind, Except.bind]
  | ok a => simp [bind, Except.bind]

theorem check_bind_eq_ok {x : Except ε Unit} {y : Except ε β} {b : β} :
    (x >>= fun _ => y) = .ok b ↔ x = .ok () ∧ y = .ok b := by
  rw [bind_eq_ok]
  exact ⟨fun ⟨_, h⟩ => h, fun h => ⟨(), h⟩⟩

theorem map_eq_ok {x : Except ε α} {f : α → β} {b : β} :
    x.map f = .ok b ↔ ∃ a, x = .ok a ∧ f a = b := by
  cases x <;> simp [Except.map]

theorem map_eq_error {x : Except ε α} {f : α → β} {e : ε} :
    x.map f = .error e ↔ x = .error e := by
  cases x <;> simp [Except.map]

end Outcome

namespace Descriptor

mutual

/-- The tokens are a type of at most so many nested levels and have the given tree. An element
type is a type whose tree is a node. -/
inductive Derives : Nat → List Token → Descriptor → Prop
  | array {levels : Nat} {opening closing : Token} {ts : List Token} {child : NodeType}
      (ho : opening.kind = .symbol .bracketOpen) (hc : closing.kind = .symbol .bracketClose)
      (h : Derives levels ts (node child)) :
      Derives (levels + 1) (opening :: closing :: ts) (node (.array none child))
  | sizedArray {levels : Nat} {opening size closing : Token} {ts : List Token} {child : NodeType}
      (ho : opening.kind = .symbol .bracketOpen) (hs : size.kind = .int)
      (hc : closing.kind = .symbol .bracketClose) (h : Derives levels ts (node child)) :
      Derives (levels + 1) (opening :: size :: closing :: ts)
        (node (.array (some size.text) child))
  | bareMap {levels : Nat} {word : Token} (hw : word.kind = .identifier)
      (ht : word.text = mapKind) : Derives (levels + 1) [word] (map none none)
  | map {levels : Nat} {word opening comma closing : Token} {ks vs : List Token}
      {key value : Option Descriptor} (hw : word.kind = .identifier) (ht : word.text = mapKind)
      (ho : opening.kind = .symbol .parenOpen) (hk : DerivesSide levels ks key)
      (hm : comma.kind = .symbol .comma) (hv : DerivesSide levels vs value)
      (hc : closing.kind = .symbol .parenClose) :
      Derives (levels + 1) (word :: opening :: (ks ++ comma :: (vs ++ [closing]))) (map key value)
  | scalar {levels : Nat} {word : Token} (hw : word.kind = .identifier)
      (ht : word.text ≠ mapKind) : Derives (levels + 1) [word] (node (.scalar word.text))
  | container {levels : Nat} {word opening closing : Token} {ts : List Token} {child : NodeType}
      (hw : word.kind = .identifier) (ht : word.text ≠ mapKind)
      (ho : opening.kind = .symbol .parenOpen) (h : Derives levels ts (node child))
      (hc : closing.kind = .symbol .parenClose) :
      Derives (levels + 1) (word :: opening :: (ts ++ [closing]))
        (node (.container word.text none child))

inductive DerivesSide : Nat → List Token → Option Descriptor → Prop
  | absent {levels : Nat} : DerivesSide levels [] none
  | present {levels : Nat} {ts : List Token} {d : Descriptor} (h : Derives levels ts d) :
      DerivesSide levels ts (some d)

end

def NotNext (kind : TokenKind) (ts : List Token) : Prop := ∀ t ∈ ts.head?, t.kind ≠ kind

theorem notNext_cons {kind : TokenKind} {t : Token} {ts : List Token} :
    NotNext kind (t :: ts) ↔ t.kind ≠ kind := by simp [NotNext]

theorem notNext_nil (kind : TokenKind) : NotNext kind [] := by simp [NotNext]

section Readers

variable {stop : Span} {read : Reader} {ts rest : List Token}

theorem expect_eq_ok {kind : TokenKind} :
    expect stop kind ts = .ok rest ↔ ∃ t, ts = t :: rest ∧ t.kind = kind := by
  constructor
  · intro h
    cases ts with
    | nil => cases h
    | cons t tail =>
      rw [expect] at h
      split at h
      · rename_i hk
        cases h
        exact ⟨t, rfl, hk⟩
      · cases h
  · rintro ⟨t, rfl, hk⟩
    rw [expect, if_pos hk]

theorem readElement_eq_ok {n : NodeType} :
    readElement stop read ts = .ok (n, rest) ↔ read ts = .ok (node n, rest) := by
  rw [readElement, Outcome.bind_eq_ok]
  constructor
  · rintro ⟨⟨d, rest'⟩, hr, h⟩
    cases d with
    | node m =>
      cases h
      exact hr
    | map key value => cases h
  · intro h
    exact ⟨_, h, rfl⟩

theorem readSize_eq {size : Option String} (h : readSize ts = (size, rest)) :
    (size = none ∧ ts = rest) ∨ ∃ t, ts = t :: rest ∧ t.kind = .int ∧ size = some t.text := by
  cases ts with
  | nil =>
    cases h
    exact .inl ⟨rfl, rfl⟩
  | cons t tail =>
    rw [readSize] at h
    split at h
    · rename_i hk
      cases h
      exact .inr ⟨t, rfl, hk, rfl⟩
    · cases h
      exact .inl ⟨rfl, rfl⟩

theorem map_present_eq_ok {side : Option Descriptor} :
    (read ts).map (fun (d, rest) => (some d, rest)) = .ok (side, rest) ↔
      ∃ d, side = some d ∧ read ts = .ok (d, rest) := by
  rw [Outcome.map_eq_ok]
  constructor
  · rintro ⟨⟨d, rest'⟩, hr, h⟩
    cases h
    exact ⟨d, rfl, hr⟩
  · rintro ⟨d, rfl, hr⟩
    exact ⟨_, hr, rfl⟩

theorem readSide_eq_ok {closing : Symbol} {side : Option Descriptor} :
    readSide closing read ts = .ok (side, rest) ↔
      (side = none ∧ ts = rest ∧ ¬ NotNext (.symbol closing) ts) ∨
      ((∃ d, side = some d ∧ read ts = .ok (d, rest)) ∧ NotNext (.symbol closing) ts) := by
  cases ts with
  | nil => simp [readSide, map_present_eq_ok, notNext_nil]
  | cons t tail =>
    by_cases hk : t.kind = .symbol closing
    · simp [readSide, notNext_cons, hk, eq_comm]
    · simp [readSide, notNext_cons, hk, map_present_eq_ok]

end Readers

/-- What the reader takes from the front of the tokens is a sentence with the tree that it
returns. -/
def Sound (levels : Nat) (read : Reader) : Prop :=
  ∀ {ts rest : List Token} {d : Descriptor}, read ts = .ok (d, rest) →
    ∃ used, ts = used ++ rest ∧ Derives levels used d

section Soundness

variable {levels : Nat} {stop : Span} {read : Reader} {ts rest : List Token} {d : Descriptor}

theorem Sound.readSide (hread : Sound levels read) {closing : Symbol} {side : Option Descriptor}
    (h : readSide closing read ts = .ok (side, rest)) :
    ∃ used, ts = used ++ rest ∧ DerivesSide levels used side := by
  rcases readSide_eq_ok.1 h with ⟨rfl, rfl, -⟩ | ⟨⟨d, rfl, hd⟩, -⟩
  · exact ⟨[], rfl, .absent⟩
  · obtain ⟨used, hts, hused⟩ := hread hd
    exact ⟨used, hts, .present hused⟩

theorem Sound.readArray (hread : Sound levels read) {opening : Token}
    (ho : opening.kind = .symbol .bracketOpen) (h : readArray stop read ts = .ok (d, rest)) :
    ∃ used, ts = used ++ rest ∧ Derives (levels + 1) (opening :: used) d := by
  obtain ⟨size, ts', hsize⟩ : ∃ size ts', readSize ts = (size, ts') := ⟨_, _, rfl⟩
  simp only [Descriptor.readArray, hsize, Outcome.bind_eq_ok, expect_eq_ok, Prod.exists,
    readElement_eq_ok] at h
  obtain ⟨ts'', ⟨closing, rfl, hc⟩, child, rest', hchild, h⟩ := h
  cases h
  obtain ⟨used, rfl, hused⟩ := hread hchild
  rcases readSize_eq hsize with ⟨rfl, rfl⟩ | ⟨t, rfl, ht, rfl⟩
  · exact ⟨closing :: used, rfl, .array ho hc hused⟩
  · exact ⟨t :: closing :: used, rfl, .sizedArray ho ht hc hused⟩

theorem Sound.readMap (hread : Sound levels read) {word : Token} (hw : word.kind = .identifier)
    (ht : word.text = mapKind) (h : readMap stop read ts = .ok (d, rest)) :
    ∃ used, ts = used ++ rest ∧ Derives (levels + 1) (word :: used) d := by
  cases ts with
  | nil =>
    cases h
    exact ⟨[], rfl, .bareMap hw ht⟩
  | cons opening tail =>
    rw [Descriptor.readMap] at h
    split at h
    · rename_i ho
      simp only [Outcome.bind_eq_ok, expect_eq_ok, Prod.exists] at h
      obtain ⟨key, ts₁, hkey, ts₂, ⟨comma, rfl, hm⟩, value, ts₃, hvalue, ts₄,
        ⟨closing, rfl, hc⟩, h⟩ := h
      cases h
      obtain ⟨ks, rfl, hks⟩ := hread.readSide hkey
      obtain ⟨vs, rfl, hvs⟩ := hread.readSide hvalue
      refine ⟨opening :: (ks ++ comma :: (vs ++ [closing])), ?_, .map hw ht ho hks hm hvs hc⟩
      simp
    · cases h
      exact ⟨[], rfl, .bareMap hw ht⟩

theorem Sound.readNamed (hread : Sound levels read) {word : Token} (hw : word.kind = .identifier)
    (ht : word.text ≠ mapKind) (h : readNamed stop read word.text ts = .ok (d, rest)) :
    ∃ used, ts = used ++ rest ∧ Derives (levels + 1) (word :: used) d := by
  cases ts with
  | nil =>
    cases h
    exact ⟨[], rfl, .scalar hw ht⟩
  | cons opening tail =>
    rw [Descriptor.readNamed] at h
    split at h
    · rename_i ho
      simp only [Outcome.bind_eq_ok, expect_eq_ok, Prod.exists, readElement_eq_ok] at h
      obtain ⟨child, ts₁, hchild, ts₂, ⟨closing, rfl, hc⟩, h⟩ := h
      cases h
      obtain ⟨used, rfl, hused⟩ := hread hchild
      refine ⟨opening :: (used ++ [closing]), ?_, .container hw ht ho hused hc⟩
      simp
    · cases h
      exact ⟨[], rfl, .scalar hw ht⟩

end Soundness

theorem readType_sound (stop : Span) (levels : Nat) : Sound levels (readType stop levels) := by
  induction levels with
  | zero =>
    intro ts rest d h
    cases h
  | succ levels ih =>
    intro ts rest d h
    cases ts with
    | nil => cases h
    | cons t tail =>
      rw [readType] at h
      split at h
      · rename_i hk
        obtain ⟨used, rfl, hused⟩ := ih.readArray hk h
        exact ⟨t :: used, rfl, hused⟩
      · rename_i hk
        split at h
        · rename_i hmap
          obtain ⟨used, rfl, hused⟩ := ih.readMap hk hmap h
          exact ⟨t :: used, rfl, hused⟩
        · rename_i hmap
          obtain ⟨used, rfl, hused⟩ := ih.readNamed hk hmap h
          exact ⟨t :: used, rfl, hused⟩
      · cases h

/-- A sentence at the front of the tokens is taken whole. What follows must not open a
parenthesis, which would belong to a name that ends the sentence. -/
def Complete (levels : Nat) (read : Reader) : Prop :=
  ∀ {used rest : List Token} {d : Descriptor}, Derives levels used d →
    NotNext (.symbol .parenOpen) rest → read (used ++ rest) = .ok (d, rest)

section Completeness

variable {levels : Nat} {stop : Span} {read : Reader} {used rest : List Token}

theorem Derives.notNext {d : Descriptor} (h : Derives levels used d) {kind : TokenKind}
    (hb : .symbol .bracketOpen ≠ kind) (hi : .identifier ≠ kind) : NotNext kind (used ++ rest) := by
  cases h with
  | array ho | sizedArray ho => simpa only [List.cons_append, notNext_cons, ho] using hb
  | bareMap hw | map hw | scalar hw | container hw =>
    simpa only [List.cons_append, notNext_cons, hw] using hi

theorem Complete.readSide (hread : Complete levels read) {side : Option Descriptor}
    (h : DerivesSide levels used side) {sign : Symbol} (hp : sign ≠ .parenOpen)
    (hb : .bracketOpen ≠ sign) {closing : Token} (hc : closing.kind = .symbol sign) :
    readSide sign read (used ++ closing :: rest) = .ok (side, closing :: rest) := by
  apply readSide_eq_ok.2
  cases h with
  | absent =>
    left
    exact ⟨rfl, rfl, by simp [notNext_cons, hc]⟩
  | present h =>
    right
    refine ⟨⟨_, rfl, hread h ?_⟩, h.notNext (by simpa using hb) (by simp)⟩
    simpa [notNext_cons, hc] using hp

theorem Complete.readArray (hread : Complete levels read) {child : NodeType} {closing : Token}
    (hc : closing.kind = .symbol .bracketClose) (h : Derives levels used (node child))
    (hrest : NotNext (.symbol .parenOpen) rest) :
    readArray stop read (closing :: (used ++ rest)) = .ok (node (.array none child), rest) := by
  have hsize : readSize (closing :: (used ++ rest)) = (none, closing :: (used ++ rest)) := by
    simp [readSize, hc]
  simp only [Descriptor.readArray, hsize, Outcome.bind_eq_ok, expect_eq_ok, Prod.exists,
    readElement_eq_ok]
  exact ⟨_, ⟨closing, rfl, hc⟩, child, rest, hread h hrest, rfl⟩

theorem Complete.readArray_size (hread : Complete levels read) {child : NodeType}
    {size closing : Token} (hs : size.kind = .int) (hc : closing.kind = .symbol .bracketClose)
    (h : Derives levels used (node child)) (hrest : NotNext (.symbol .parenOpen) rest) :
    Descriptor.readArray stop read (size :: closing :: (used ++ rest)) =
      .ok (node (.array (some size.text) child), rest) := by
  have hsize : readSize (size :: closing :: (used ++ rest)) =
      (some size.text, closing :: (used ++ rest)) := by
    simp [readSize, hs]
  simp only [Descriptor.readArray, hsize, Outcome.bind_eq_ok, expect_eq_ok, Prod.exists,
    readElement_eq_ok]
  exact ⟨_, ⟨closing, rfl, hc⟩, child, rest, hread h hrest, rfl⟩

theorem readMap_bare (hrest : NotNext (.symbol .parenOpen) rest) :
    readMap stop read rest = .ok (map none none, rest) := by
  cases rest with
  | nil => rfl
  | cons t tail => rw [readMap, if_neg (notNext_cons.1 hrest)]

theorem Complete.readMap (hread : Complete levels read) {opening comma closing : Token}
    {ks vs : List Token} {key value : Option Descriptor} (ho : opening.kind = .symbol .parenOpen)
    (hk : DerivesSide levels ks key) (hm : comma.kind = .symbol .comma)
    (hv : DerivesSide levels vs value) (hc : closing.kind = .symbol .parenClose) :
    readMap stop read (opening :: (ks ++ comma :: (vs ++ closing :: rest))) =
      .ok (map key value, rest) := by
  rw [Descriptor.readMap, if_pos ho]
  simp only [Outcome.bind_eq_ok, expect_eq_ok, Prod.exists]
  exact ⟨key, _, hread.readSide hk (by decide) (by decide) hm, _, ⟨comma, rfl, hm⟩,
    value, _, hread.readSide hv (by decide) (by decide) hc, _, ⟨closing, rfl, hc⟩, rfl⟩

theorem readNamed_bare {kind : String} (hrest : NotNext (.symbol .parenOpen) rest) :
    readNamed stop read kind rest = .ok (node (.scalar kind), rest) := by
  cases rest with
  | nil => rfl
  | cons t tail => rw [readNamed, if_neg (notNext_cons.1 hrest)]

theorem Complete.readNamed (hread : Complete levels read) {kind : String}
    {opening closing : Token} {child : NodeType} (ho : opening.kind = .symbol .parenOpen)
    (h : Derives levels used (node child)) (hc : closing.kind = .symbol .parenClose) :
    readNamed stop read kind (opening :: (used ++ closing :: rest)) =
      .ok (node (.container kind none child), rest) := by
  have hnext : NotNext (.symbol .parenOpen) (closing :: rest) := by simp [notNext_cons, hc]
  rw [Descriptor.readNamed, if_pos ho]
  simp only [Outcome.bind_eq_ok, expect_eq_ok, Prod.exists, readElement_eq_ok]
  exact ⟨child, _, hread h hnext, _, ⟨closing, rfl, hc⟩, rfl⟩

end Completeness

theorem readType_complete (stop : Span) (levels : Nat) :
    Complete levels (readType stop levels) := by
  induction levels with
  | zero =>
    intro used rest d h
    cases h
  | succ levels ih =>
    intro used rest d h hrest
    cases h with
    | array ho hc h => simpa [readType, ho] using ih.readArray hc h hrest
    | sizedArray ho hs hc h => simpa [readType, ho] using ih.readArray_size hs hc h hrest
    | bareMap hw ht => simpa [readType, hw, ht] using readMap_bare hrest
    | map hw ht ho hk hm hv hc => simpa [readType, hw, ht] using ih.readMap ho hk hm hv hc
    | scalar hw ht => simpa [readType, hw, ht] using readNamed_bare hrest
    | container hw ht ho h hc => simpa [readType, hw, ht] using ih.readNamed ho h hc

theorem Derives.mono {m n : Nat} {ts : List Token} {d : Descriptor} (h : Derives m ts d)
    (hmn : m ≤ n) : Derives n ts d := by
  induction m generalizing n ts d with
  | zero => cases h
  | succ m ih =>
    obtain ⟨n, rfl⟩ : ∃ n', n = n' + 1 := ⟨n - 1, by omega⟩
    have hside : ∀ {ts side}, DerivesSide m ts side → DerivesSide n ts side := by
      intro ts side h
      cases h with
      | absent => exact .absent
      | present h => exact .present (ih h (by omega))
    cases h with
    | array ho hc h => exact .array ho hc (ih h (by omega))
    | sizedArray ho hs hc h => exact .sizedArray ho hs hc (ih h (by omega))
    | bareMap hw ht => exact .bareMap hw ht
    | map hw ht ho hk hm hv hc => exact .map hw ht ho (hside hk) hm (hside hv) hc
    | scalar hw ht => exact .scalar hw ht
    | container hw ht ho h hc => exact .container hw ht ho (ih h (by omega)) hc

theorem readType_eq_ok_iff_derives (stop : Span) {levels : Nat} {ts : List Token}
    {d : Descriptor} : readType stop levels ts = .ok (d, []) ↔ Derives levels ts d := by
  constructor
  · intro h
    obtain ⟨used, hts, hused⟩ := readType_sound stop levels h
    rwa [hts, List.append_nil]
  · intro h
    have hr := readType_complete stop levels h (notNext_nil _)
    rwa [List.append_nil] at hr

/-- The reader is a function, so a sentence has one tree. -/
theorem Derives.unique {m n : Nat} {ts : List Token} {d e : Descriptor} (hd : Derives m ts d)
    (he : Derives n ts e) : d = e := by
  have hd' := (readType_eq_ok_iff_derives (.point 1 1)).2 (hd.mono (Nat.le_max_left m n))
  have he' := (readType_eq_ok_iff_derives (.point 1 1)).2 (he.mono (Nat.le_max_right m n))
  have heq := hd'.symm.trans he'
  simpa using heq

@[simp] theorem totalErrors_faultLog (file : SourceFile) (fault : Fault) :
    (faultLog file fault).totalErrors = 1 := rfl

theorem parse_clean_iff (file : SourceFile) (tokens : List Token) (d : Descriptor) :
    (parse file tokens).type? = some d ∧ (parse file tokens).errors.totalErrors = 0 ↔
      readType (endSpan tokens) maxTypeDepth (content tokens) = .ok (d, []) := by
  rw [parse]
  split <;> rename_i hr <;> simp [hr]

/-- All tokens before the first end mark are read as one type without an error exactly if they are
a sentence of the grammar within the nesting limit; and no sentence has two trees. -/
theorem parse_iff_derives (file : SourceFile) (tokens : List Token) :
    (∀ d, (parse file tokens).type? = some d ∧ (parse file tokens).errors.totalErrors = 0 ↔
      Derives 64 (tokens.takeWhile (·.kind ≠ .eof)) d) ∧
    ∀ (ts : List Token) (m n : Nat) (d e : Descriptor),
      Derives m ts d → Derives n ts e → d = e := by
  constructor
  · intro d
    rw [parse_clean_iff, readType_eq_ok_iff_derives]
    have hc : content tokens = tokens.takeWhile (·.kind ≠ .eof) := by
      simp [content, Token.isEof]
    rw [hc, maxTypeDepth]
  · intro ts m n d e hd he
    exact hd.unique he

def sizedArrayTokens : List Token :=
  [⟨.symbol .bracketOpen, "[", .point 1 1⟩, ⟨.int, "2", .point 1 1⟩,
   ⟨.symbol .bracketClose, "]", .point 1 1⟩, ⟨.identifier, "int", .point 1 1⟩]

theorem sizedArrayTokens_derive_once :
    Derives 64 sizedArrayTokens (node (.array (some "2") (.scalar "int"))) ∧
    ∀ n e, Derives n sizedArrayTokens e → node (.array (some "2") (.scalar "int")) = e := by
  have h := parse_iff_derives ⟨typeFileName, "[2]int"⟩ sizedArrayTokens
  have hd : Derives 64 sizedArrayTokens (node (.array (some "2") (.scalar "int"))) :=
    (h.1 _).1 (by decide)
  exact ⟨hd, fun n e he => h.2 _ _ _ _ _ hd he⟩

end Descriptor
end ScriptKit
