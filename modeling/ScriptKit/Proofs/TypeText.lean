import Mathlib.Tactic.TFAE
import ScriptKit.Proofs.Tiling
import ScriptKit.Proofs.TypeGrammar

/-! The written form of types. A type can be read from some text exactly if it is read back from
its own written form, and this is so exactly if its names, sizes and nesting are well formed. -/
namespace ScriptKit

/-- A name that is no reserved word and does not stand for maps. -/
def IsTypeName (kind : String) : Prop :=
  IsName kind.toList ∧ (∀ word : Keyword, word.text ≠ kind) ∧ kind ≠ mapKind

/-- Every kind is a type name, and only an array with an element type has a size, in digits. -/
def NodeType.WellFormed : NodeType → Prop
  | leaf kind size => IsTypeName kind ∧ size = none
  | container kind size child =>
    IsTypeName kind ∧ (∀ s ∈ size, kind = arrayKind ∧ IsDigits s.toList) ∧ child.WellFormed

theorem isTypeName_of_isLexeme {kind : String} (h : IsLexeme .identifier kind.toList)
    (hmap : kind ≠ mapKind) : IsTypeName kind := by
  refine ⟨h.1, ?_, hmap⟩
  rintro word rfl
  exact h.2 word rfl

theorem IsTypeName.isLexeme {kind : String} (h : IsTypeName kind) :
    IsLexeme .identifier kind.toList := by
  refine ⟨h.1, ?_⟩
  intro word hword
  exact h.2.1 word (String.toList_inj.1 hword)

theorem isTypeName_arrayKind : IsTypeName arrayKind := by
  have hname : IsName ['a', 'r', 'r', 'a', 'y'] := isName_cons (by decide) (by decide)
  refine ⟨hname, ?_, by decide⟩
  intro word
  cases word <;> decide

namespace Descriptor

/-- Every node in the tree is well formed. -/
def WellFormed : Descriptor → Prop
  | node n => n.WellFormed
  | map none none => True
  | map (some key) none => key.WellFormed
  | map none (some value) => value.WellFormed
  | map (some key) (some value) => key.WellFormed ∧ value.WellFormed

theorem wellFormed_map {key value : Option Descriptor} :
    (map key value).WellFormed ↔ (∀ k ∈ key, k.WellFormed) ∧ ∀ v ∈ value, v.WellFormed := by
  cases key <;> cases value <;> simp [WellFormed]

section Derived

variable {n : Nat} {ts : List Token}

/-- What is read from lexemes is well formed and is less high than the number of levels. -/
theorem Derives.wellFormed {d : Descriptor} (h : Derives n ts d)
    (hts : ∀ t ∈ ts, IsLexeme t.kind t.text.toList) : d.WellFormed ∧ d.height < n := by
  -- Types and sides are derived together, so the induction is on the levels and not on `h`.
  induction n generalizing ts d with
  | zero => cases h
  | succ n ih =>
    have hname : ∀ word ∈ ts, word.kind = .identifier → word.text ≠ mapKind →
        IsTypeName word.text := by
      intro word hmem hw ht
      have hlex := hts word hmem
      rw [hw] at hlex
      exact isTypeName_of_isLexeme hlex ht
    have hside : ∀ {us side}, DerivesSide n us side → (∀ t ∈ us, t ∈ ts) →
        ∀ d ∈ side, d.WellFormed ∧ d.height < n := by
      intro us side hs hus d hd
      cases hs with
      | absent => cases hd
      | present hs =>
        cases hd
        exact ih hs fun t ht => hts t (hus t ht)
    cases h with
    | array ho hc h =>
      obtain ⟨hwf, hle⟩ := ih h fun t ht => hts t (by simp [ht])
      refine ⟨⟨isTypeName_arrayKind, by simp, hwf⟩, ?_⟩
      simp only [height, NodeType.array, NodeType.depth] at hle ⊢
      omega
    | @sizedArray _ _ size _ _ child ho hs hc h =>
      obtain ⟨hwf, hle⟩ := ih h fun t ht => hts t (by simp [ht])
      have hsize := hts size (by simp)
      rw [hs] at hsize
      refine ⟨⟨isTypeName_arrayKind, ?_, hwf⟩, ?_⟩
      · rintro s ⟨⟩
        exact ⟨rfl, hsize⟩
      · simp only [height, NodeType.array, NodeType.depth] at hle ⊢
        omega
    | bareMap hw ht => exact ⟨trivial, Nat.zero_lt_succ n⟩
    | map hw ht ho hk hm hv hc =>
      have hkey := hside hk (by simp_all)
      have hvalue := hside hv (by simp_all)
      exact ⟨wellFormed_map.2 ⟨fun k h => (hkey k h).1, fun v h => (hvalue v h).1⟩,
        height_map_lt_succ.2 ⟨fun k h => (hkey k h).2, fun v h => (hvalue v h).2⟩⟩
    | scalar hw ht =>
      refine ⟨⟨hname _ List.mem_cons_self hw ht, rfl⟩, ?_⟩
      simp [height, NodeType.scalar, NodeType.depth]
    | container hw ht ho h hc =>
      obtain ⟨hwf, hle⟩ := ih h fun t ht => hts t (by simp [ht])
      refine ⟨⟨hname _ List.mem_cons_self hw ht, by simp, hwf⟩, ?_⟩
      simp only [height, NodeType.depth] at hle ⊢
      omega

end Derived

end Descriptor

namespace Piece

def ofName (name : String) : Piece := lexeme .identifier name.toList

def ofSign (sign : Symbol) : Piece := lexeme (.symbol sign) sign.chars

end Piece

/-- The pieces of which the written form of a well-formed node consists. -/
def NodeType.spelling : NodeType → List Piece
  | leaf kind _ => [.ofName kind]
  | container kind none child =>
    .ofName kind :: .ofSign .parenOpen :: (child.spelling ++ [.ofSign .parenClose])
  | container _ (some size) child =>
    .ofSign .bracketOpen :: .lexeme .int size.toList :: .ofSign .bracketClose :: child.spelling

def Descriptor.spelling : Descriptor → List Piece
  | node n => n.spelling
  | map none none => [.ofName mapKind]
  | map (some key) none =>
    .ofName mapKind :: .ofSign .parenOpen ::
      (key.spelling ++ [.ofSign .comma, .blank ' ', .ofSign .parenClose])
  | map none (some value) =>
    .ofName mapKind :: .ofSign .parenOpen :: .ofSign .comma :: .blank ' ' ::
      (value.spelling ++ [.ofSign .parenClose])
  | map (some key) (some value) =>
    .ofName mapKind :: .ofSign .parenOpen ::
      (key.spelling ++ .ofSign .comma :: .blank ' ' :: (value.spelling ++ [.ofSign .parenClose]))

section Sides

variable {key value : Option Descriptor}

theorem toList_text_map (h : ¬ (key = none ∧ value = none)) :
    (Descriptor.map key value).text.toList =
      mapKind.toList ++ '(' :: (key.elim [] (·.text.toList) ++ ',' :: ' ' ::
        (value.elim [] (·.text.toList) ++ [')'])) := by
  cases key <;> cases value <;> simp_all [Descriptor.text]

theorem spelling_map (h : ¬ (key = none ∧ value = none)) :
    (Descriptor.map key value).spelling =
      .ofName mapKind :: .ofSign .parenOpen :: (key.elim [] (·.spelling) ++ .ofSign .comma ::
        .blank ' ' :: (value.elim [] (·.spelling) ++ [.ofSign .parenClose])) := by
  cases key <;> cases value <;> simp_all [Descriptor.spelling]

end Sides

def typeSigns : List Symbol := [.parenOpen, .parenClose, .bracketOpen, .bracketClose, .comma]

theorem lone_of_mem_typeSigns {sign : Symbol} (h : sign ∈ typeSigns) : sign.Lone := by
  intro longer c
  simp only [typeSigns, List.mem_cons, List.not_mem_nil, or_false] at h
  rcases h with rfl | rfl | rfl | rfl | rfl <;> cases longer <;> simp [Symbol.chars]

theorem NodeType.isFaulty_of_mem_spelling {n : NodeType} {p : Piece} (h : p ∈ n.spelling) :
    p.isFaulty = false := by
  induction n with
  | leaf kind size =>
    simp only [spelling, List.mem_singleton] at h
    rw [h]
    rfl
  | container kind size child ih =>
    cases size with
    | none =>
      simp only [spelling, List.mem_cons, List.mem_append, List.not_mem_nil, or_false] at h
      rcases h with rfl | rfl | h | rfl
      exacts [rfl, rfl, ih h, rfl]
    | some size =>
      simp only [spelling, List.mem_cons] at h
      rcases h with rfl | rfl | rfl | h
      exacts [rfl, rfl, rfl, ih h]

theorem Descriptor.isFaulty_of_mem_spelling {d : Descriptor} {p : Piece} (h : p ∈ d.spelling) :
    p.isFaulty = false := by
  induction d with
  | node n => exact NodeType.isFaulty_of_mem_spelling h
  | map key value hkey hvalue =>
    by_cases hbare : key = none ∧ value = none
    · obtain ⟨rfl, rfl⟩ := hbare
      simp only [spelling, List.mem_singleton] at h
      rw [h]
      rfl
    · have hside : ∀ {side : Option Descriptor}, (∀ d, side = some d → p ∈ d.spelling →
          p.isFaulty = false) → p ∈ side.elim [] (·.spelling) → p.isFaulty = false := by
        intro side hd hp
        cases side with
        | none => cases hp
        | some d => exact hd d rfl hp
      simp only [spelling_map hbare, List.mem_cons, List.mem_append, List.not_mem_nil,
        or_false] at h
      rcases h with rfl | rfl | h | rfl | rfl | h | rfl
      exacts [rfl, rfl, hside hkey h, rfl, rfl, hside hvalue h, rfl]

section Spelling

variable {rest : List Char}

theorem pieces_typeSign {sign : Symbol} (h : sign ∈ typeSigns) {c : Char}
    (hc : sign.chars = [c]) : pieces (c :: rest) = .ofSign sign :: pieces rest := by
  rw [pieces_lone hc (lone_of_mem_typeSigns h), Piece.ofSign, hc]

theorem pieces_identifier {name : String} (h : IsLexeme .identifier name.toList)
    (hrest : Stops isNamePart rest) :
    pieces (name.toList ++ rest) = .ofName name :: pieces rest := by
  have hkind : Piece.nameKind name.toList = .identifier := by
    unfold Piece.nameKind
    split
    · rename_i word hword
      have ht := Keyword.text_of_ofText? hword
      exact absurd (by rw [ht, String.toList_ofList]) (h.2 word)
    · rfl
  rw [pieces_name h.1 hrest, hkind, Piece.ofName]

theorem pieces_parenOpen : pieces ('(' :: rest) = .ofSign .parenOpen :: pieces rest :=
  pieces_typeSign (by decide) rfl

theorem pieces_parenClose : pieces (')' :: rest) = .ofSign .parenClose :: pieces rest :=
  pieces_typeSign (by decide) rfl

theorem pieces_comma :
    pieces (',' :: ' ' :: rest) = .ofSign .comma :: .blank ' ' :: pieces rest := by
  rw [pieces_typeSign (by decide : Symbol.comma ∈ typeSigns) rfl, pieces_blank (by decide)]

theorem pieces_size {size : String} (h : IsDigits size.toList) :
    pieces ('[' :: (size.toList ++ ']' :: rest)) =
      .ofSign .bracketOpen :: .lexeme .int size.toList :: .ofSign .bracketClose :: pieces rest := by
  have hopen : Symbol.bracketOpen ∈ typeSigns := by decide
  have hclose : Symbol.bracketClose ∈ typeSigns := by decide
  rw [pieces_typeSign hopen rfl,
    pieces_int h (stops_cons.2 (by decide)) (noFraction_of_head?_ne (by simp)),
    pieces_typeSign hclose rfl]

theorem NodeType.pieces_text {n : NodeType} (h : n.WellFormed) (hrest : Stops isNamePart rest) :
    pieces (n.text.toList ++ rest) = n.spelling ++ pieces rest := by
  induction n generalizing rest with
  | leaf kind size =>
    obtain ⟨hkind, rfl⟩ := h
    simpa [text, spelling] using pieces_identifier hkind.isLexeme hrest
  | container kind size child ih =>
    obtain ⟨hkind, hsize, hchild⟩ := h
    cases size with
    | none =>
      have htext : (container kind none child).text.toList ++ rest =
          kind.toList ++ '(' :: (child.text.toList ++ ')' :: rest) := by simp [text]
      rw [htext, pieces_identifier hkind.isLexeme (stops_cons.2 (by decide)), pieces_parenOpen,
        ih hchild (stops_cons.2 (by decide)), pieces_parenClose]
      simp [spelling]
    | some size =>
      obtain ⟨rfl, hdigits⟩ := hsize size rfl
      have htext : (container arrayKind (some size) child).text.toList ++ rest =
          '[' :: (size.toList ++ ']' :: (child.text.toList ++ rest)) := by simp [text]
      rw [htext, pieces_size hdigits, ih hchild hrest]
      simp [spelling]

theorem isLexeme_mapKind : IsLexeme .identifier mapKind.toList := by
  have hname : IsName ['m', 'a', 'p'] := isName_cons (by decide) (by decide)
  refine ⟨hname, ?_⟩
  intro word
  cases word <;> decide

theorem pieces_side {side : Option Descriptor}
    (h : ∀ d, side = some d → pieces (d.text.toList ++ rest) = d.spelling ++ pieces rest) :
    pieces (side.elim [] (·.text.toList) ++ rest) = side.elim [] (·.spelling) ++ pieces rest := by
  cases side with
  | none => rfl
  | some d => exact h d rfl

/-- The written form of a well-formed type is cut where it was put together. -/
theorem Descriptor.pieces_text {d : Descriptor} (h : d.WellFormed)
    (hrest : Stops isNamePart rest) :
    pieces (d.text.toList ++ rest) = d.spelling ++ pieces rest := by
  induction d generalizing rest with
  | node n => exact NodeType.pieces_text h hrest
  | map key value hkey hvalue =>
    by_cases hbare : key = none ∧ value = none
    · obtain ⟨rfl, rfl⟩ := hbare
      simpa [text, spelling] using pieces_identifier isLexeme_mapKind hrest
    · obtain ⟨hk, hv⟩ := wellFormed_map.1 h
      have htext : (map key value).text.toList ++ rest =
          mapKind.toList ++ '(' :: (key.elim [] (·.text.toList) ++ ',' :: ' ' ::
            (value.elim [] (·.text.toList) ++ ')' :: rest)) := by
        simp [toList_text_map hbare]
      have hcomma : ∀ cs, Stops isNamePart (',' :: cs) := fun _ => stops_cons.2 (by decide)
      have hclose : ∀ cs, Stops isNamePart (')' :: cs) := fun _ => stops_cons.2 (by decide)
      have hkey' := fun cs => pieces_side fun k heq => hkey k heq (hk k heq) (hcomma cs)
      have hvalue' := fun cs => pieces_side fun v heq => hvalue v heq (hv v heq) (hclose cs)
      rw [htext, pieces_identifier isLexeme_mapKind (stops_cons.2 (by decide)), pieces_parenOpen,
        hkey', pieces_comma, hvalue', pieces_parenClose]
      simp [spelling_map hbare]

end Spelling

/-- Kind and characters of a token, which are all that the grammar looks at. -/
def Token.content (t : Token) : TokenKind × List Char := (t.kind, t.text.toList)

/-- The tokens have the kinds and characters of the pieces' tokens. -/
def Spells (ts : List Token) (ps : List Piece) : Prop :=
  ts.map Token.content = ps.filterMap Piece.content?

section Spells

variable {ts : List Token} {ps qs : List Piece}

theorem spells_nil : Spells ts [] ↔ ts = [] := by simp [Spells]

theorem spells_append :
    Spells ts (ps ++ qs) ↔ ∃ ts₁ ts₂, ts = ts₁ ++ ts₂ ∧ Spells ts₁ ps ∧ Spells ts₂ qs := by
  rw [Spells, List.filterMap_append, List.map_eq_append_iff]
  exact Iff.rfl

theorem spells_blank {c : Char} : Spells ts (.blank c :: ps) ↔ Spells ts ps := Iff.rfl

theorem spells_name {name : String} :
    Spells ts (.ofName name :: ps) ↔
      ∃ t us, ts = t :: us ∧ (t.kind = .identifier ∧ t.text = name) ∧ Spells us ps := by
  simp [Spells, Piece.ofName, Piece.content?, List.map_eq_cons_iff, Token.content,
    String.toList_inj]

theorem spells_sign {sign : Symbol} :
    Spells ts (.ofSign sign :: ps) ↔
      ∃ t us, ts = t :: us ∧ (t.kind = .symbol sign ∧ t.text.toList = sign.chars) ∧
        Spells us ps := by
  simp [Spells, Piece.ofSign, Piece.content?, List.map_eq_cons_iff, Token.content]

theorem spells_int {size : String} :
    Spells ts (.lexeme .int size.toList :: ps) ↔
      ∃ t us, ts = t :: us ∧ (t.kind = .int ∧ t.text = size) ∧ Spells us ps := by
  simp [Spells, Piece.content?, List.map_eq_cons_iff, Token.content, String.toList_inj]

end Spells

section Derivation

open Descriptor (Derives DerivesSide)

variable {ts : List Token} {levels : Nat}

theorem NodeType.derives_of_spells {n : NodeType} (h : n.WellFormed) (hn : n.depth < levels)
    (hts : Spells ts n.spelling) : Derives levels ts (.node n) := by
  induction n generalizing ts levels with
  | leaf kind size =>
    obtain ⟨hkind, rfl⟩ := h
    obtain ⟨levels, rfl⟩ : ∃ m, levels = m + 1 := ⟨levels - 1, by omega⟩
    obtain ⟨word, us, rfl, ⟨hw, rfl⟩, hus⟩ := spells_name.1 hts
    obtain rfl := spells_nil.1 hus
    exact .scalar hw hkind.2.2
  | container kind size child ih =>
    obtain ⟨hkind, hsize, hchild⟩ := h
    obtain ⟨levels, rfl⟩ : ∃ m, levels = m + 1 := ⟨levels - 1, by omega⟩
    have hdepth : child.depth < levels := Nat.lt_of_succ_lt_succ hn
    cases size with
    | none =>
      obtain ⟨word, us, rfl, ⟨hw, rfl⟩, h₁⟩ := spells_name.1 hts
      obtain ⟨opening, us, rfl, ⟨ho, -⟩, h₂⟩ := spells_sign.1 h₁
      obtain ⟨used, us, rfl, hused, h₃⟩ := spells_append.1 h₂
      obtain ⟨closing, us, rfl, ⟨hc, -⟩, h₄⟩ := spells_sign.1 h₃
      obtain rfl := spells_nil.1 h₄
      exact .container hw hkind.2.2 ho (ih hchild hdepth hused) hc
    | some size =>
      obtain ⟨rfl, -⟩ := hsize size rfl
      obtain ⟨opening, us, rfl, ⟨ho, -⟩, h₁⟩ := spells_sign.1 hts
      obtain ⟨number, us, rfl, ⟨hs, rfl⟩, h₂⟩ := spells_int.1 h₁
      obtain ⟨closing, us, rfl, ⟨hc, -⟩, h₃⟩ := spells_sign.1 h₂
      exact .sizedArray ho hs hc (ih hchild hdepth h₃)

theorem derivesSide_of_spells {side : Option Descriptor}
    (h : ∀ d, side = some d → Spells ts d.spelling → Derives levels ts d)
    (hts : Spells ts (side.elim [] (·.spelling))) : DerivesSide levels ts side := by
  cases side with
  | none =>
    obtain rfl := spells_nil.1 hts
    exact .absent
  | some d => exact .present (h d rfl hts)

/-- Tokens that spell a well-formed type are a sentence with that tree. -/
theorem Descriptor.derives_of_spells {d : Descriptor} (h : d.WellFormed) (hd : d.height < levels)
    (hts : Spells ts d.spelling) : Derives levels ts d := by
  induction d generalizing ts levels with
  | node n => exact NodeType.derives_of_spells h hd hts
  | map key value hkey hvalue =>
    obtain ⟨hk, hv⟩ := wellFormed_map.1 h
    obtain ⟨levels, rfl⟩ : ∃ m, levels = m + 1 := ⟨levels - 1, by omega⟩
    obtain ⟨hk', hv'⟩ := height_map_lt_succ.1 hd
    by_cases hbare : key = none ∧ value = none
    · obtain ⟨rfl, rfl⟩ := hbare
      obtain ⟨word, us, rfl, ⟨hw, ht⟩, h₁⟩ := spells_name.1 hts
      obtain rfl := spells_nil.1 h₁
      exact .bareMap hw ht
    · rw [spelling_map hbare] at hts
      obtain ⟨word, us, rfl, ⟨hw, ht⟩, h₁⟩ := spells_name.1 hts
      obtain ⟨opening, us, rfl, ⟨ho, -⟩, h₂⟩ := spells_sign.1 h₁
      obtain ⟨ks, us, rfl, hks, h₃⟩ := spells_append.1 h₂
      obtain ⟨comma, us, rfl, ⟨hm, -⟩, h₄⟩ := spells_sign.1 h₃
      obtain ⟨vs, us, rfl, hvs, h₅⟩ := spells_append.1 (spells_blank.1 h₄)
      obtain ⟨closing, us, rfl, ⟨hc, -⟩, h₆⟩ := spells_sign.1 h₅
      obtain rfl := spells_nil.1 h₆
      have hkey' := derivesSide_of_spells (fun k heq => hkey k heq (hk k heq) (hk' k heq)) hks
      have hvalue' := derivesSide_of_spells (fun v heq => hvalue v heq (hv v heq) (hv' v heq)) hvs
      exact .map hw ht ho hkey' hm hvalue' hc

end Derivation

theorem spells_layOut (p : Position) (ps : List Piece) :
    Spells ((layOut p ps).filterMap Placed.token?) ps := by
  induction ps generalizing p with
  | nil => rfl
  | cons piece ps ih =>
    rw [layOut, filterMap_cons_toList, Spells, List.map_append, filterMap_cons_toList]
    congr 1
    · cases piece <;> simp [Placed.token?, Piece.content?, Token.content]
    · exact ih _

namespace SourceFile

theorem content_tokens_lex (file : SourceFile) :
    Descriptor.content file.lex.tokens = file.placedPieces.filterMap Placed.token? := by
  have hkind : ∀ t ∈ file.placedPieces.filterMap Placed.token?, (!t.isEof) = true := by
    intro t ht
    simpa [Token.isEof] using file.kind_ne_eof_of_mem ht
  rw [Descriptor.content, lex, List.takeWhile_append_of_pos hkind]
  simp

end SourceFile

namespace Descriptor

theorem keepsAll_parse (file : SourceFile) (tokens : List Token) :
    (parse file tokens).errors.KeepsAll := by
  rw [parse]
  split <;> exact ⟨rfl, Nat.le_of_ble_eq_true rfl, rfl, rfl⟩

def lexedText (text : String) : Lexed := (SourceFile.mk typeFileName text).lex

def parsedText (text : String) : Parsed := parse ⟨typeFileName, text⟩ (lexedText text).tokens

def joinedErrors (text : String) : ErrorLog := (lexedText text).errors ++ (parsedText text).errors

theorem totalErrors_joinedErrors (text : String) :
    (joinedErrors text).totalErrors.toNat =
      (lexedText text).errors.totalErrors.toNat + (parsedText text).errors.totalErrors.toNat :=
  (SourceFile.keepsAll_lex _).toNat_totalErrors_append (keepsAll_parse _ _)

theorem totalErrors_parse_of_none {file : SourceFile} {tokens : List Token}
    (h : (parse file tokens).type? = none) : (parse file tokens).errors.totalErrors = 1 := by
  rw [parse] at h ⊢
  split at h
  · simp
  · cases h
  · cases h

/-- A text is read as a type if both stages are without errors; else their errors are returned, of
which there is one at least. -/
theorem ofText_cases (text : String) :
    (∃ d, ofText text = .ok d ∧ (parsedText text).type? = some d ∧
      (joinedErrors text).totalErrors.toNat = 0) ∨
    ofText text = .error (joinedErrors text) ∧ 0 < (joinedErrors text).totalErrors.toNat := by
  simp only [ofText]
  split
  · rename_i d htype
    split
    · rename_i hpos
      exact .inr ⟨rfl, ErrorLog.hasErrors_iff.1 hpos⟩
    · rename_i hpos
      refine .inl ⟨d, rfl, htype, Nat.eq_zero_of_not_pos fun h => hpos ?_⟩
      exact ErrorLog.hasErrors_iff.2 h
  · rename_i hnone
    have hparsed : (parsedText text).errors.totalErrors = 1 := totalErrors_parse_of_none hnone
    refine .inr ⟨rfl, ?_⟩
    rw [totalErrors_joinedErrors, hparsed]
    exact Nat.add_pos_right _ Nat.one_pos

theorem ofText_eq_ok {text : String} {d : Descriptor} :
    ofText text = .ok d ↔
      (lexedText text).errors.totalErrors = 0 ∧
      Derives maxTypeDepth
        ((SourceFile.mk typeFileName text).placedPieces.filterMap Placed.token?) d := by
  have hclean : (parsedText text).type? = some d ∧ (parsedText text).errors.totalErrors = 0 ↔ _ :=
    parse_clean_iff ⟨typeFileName, text⟩ (lexedText text).tokens d
  rw [readType_eq_ok_iff_derives, lexedText, SourceFile.content_tokens_lex] at hclean
  have htotal := totalErrors_joinedErrors text
  rw [← hclean, ← UInt64.toNat_inj, ← UInt64.toNat_inj (b := 0), UInt64.toNat_zero]
  rcases ofText_cases text with ⟨e, hok, htype, hzero⟩ | ⟨herror, hpos⟩
  · have hlexed : (lexedText text).errors.totalErrors.toNat = 0 := by omega
    have hparsed : (parsedText text).errors.totalErrors.toNat = 0 := by omega
    rw [hok, htype, Except.ok.injEq, Option.some.injEq]
    exact ⟨fun h => ⟨hlexed, h, hparsed⟩, fun h => h.2.1⟩
  · rw [herror]
    simp only [reduceCtorEq, false_iff]
    rintro ⟨hlexed, -, hparsed⟩
    omega

theorem reread_eq_ok {d : Descriptor} (h : d.WellFormed) (hd : d.height < maxTypeDepth) :
    d.reread = .ok d := by
  have hpieces : pieces (SourceFile.mk typeFileName d.text).text.toList = d.spelling := by
    simpa using pieces_text h (stops_nil isNamePart)
  have hfaults :
      (pieces (SourceFile.mk typeFileName d.text).text.toList).countP Piece.isFaulty = 0 := by
    rw [hpieces]
    exact List.countP_eq_zero.2 fun p hp => by simp [isFaulty_of_mem_spelling hp]
  have hread : (SourceFile.mk typeFileName d.text).readPieces = d.spelling := by
    rw [SourceFile.readPieces_of_faultless hfaults, hpieces]
  apply ofText_eq_ok.2
  constructor
  · rw [lexedText, SourceFile.lex_errors_of_faultless hfaults]
    rfl
  · apply derives_of_spells h hd
    rw [SourceFile.placedPieces, hread]
    exact spells_layOut _ _

theorem wellFormed_of_ofText {text : String} {d : Descriptor} (h : ofText text = .ok d) :
    d.WellFormed ∧ d.height < maxTypeDepth := by
  obtain ⟨-, hderives⟩ := ofText_eq_ok.1 h
  obtain ⟨left, -, htiles, -⟩ := (SourceFile.mk typeFileName text).tiles_placedPieces
  exact hderives.wellFormed htiles.isLexeme

/-- A type can be read from some text exactly if it is read back from its written form, and exactly
if it is well formed and nests at most 64 levels. -/
theorem readable_tfae (d : Descriptor) :
    List.TFAE [∃ text, ofText text = .ok d, d.reread = .ok d,
      d.WellFormed ∧ d.height + 1 ≤ 64] := by
  tfae_have 1 → 3 := fun ⟨_, h⟩ => wellFormed_of_ofText h
  tfae_have 3 → 2 := fun ⟨h, hd⟩ => reread_eq_ok h hd
  tfae_have 2 → 1 := fun h => ⟨d.text, h⟩
  tfae_finish

end Descriptor

end ScriptKit
