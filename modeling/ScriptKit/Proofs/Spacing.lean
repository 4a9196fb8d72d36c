import ScriptKit.Proofs.LongestMatch
import ScriptKit.Proofs.TypeText

/-! Lexemes that are kept apart. Any lexemes, written one after the other with some blank or comment
between any two, are read back as they are, whatever stands between them. So the choice of
blanks and comments has no part in what type a text denotes. -/
namespace ScriptKit

/-- Blanks and comments, each comment with the line feed that ends it. -/
inductive IsTrivia : List Char → Prop
  | nil : IsTrivia []
  | blank {c : Char} {cs : List Char} (hc : Text.isBlank c = true) (h : IsTrivia cs) :
      IsTrivia (c :: cs)
  | comment {body cs : List Char} (hb : '\n' ∉ body) (h : IsTrivia cs) :
      IsTrivia ('#' :: body ++ '\n' :: cs)

/-- The text goes on with a blank or a comment, or not at all. -/
def Parted (cs : List Char) : Prop := ∀ c ∈ cs.head?, Text.isBlank c = true ∨ c = '#'

theorem IsTrivia.parted {gap : List Char} (h : IsTrivia gap) (hne : gap ≠ []) (rest : List Char) :
    Parted (gap ++ rest) := by
  cases h with
  | nil => exact absurd rfl hne
  | blank hc =>
    rintro c ⟨⟩
    exact .inl hc
  | comment =>
    rintro c ⟨⟩
    exact .inr rfl

section Parted

variable {rest : List Char}

theorem Parted.stops (h : Parted rest) {p : Char → Bool}
    (hblank : ∀ c, p c = true → Text.isBlank c = false) (hsign : p '#' = false) :
    Stops p rest := by
  intro c hc
  rcases h c hc with hb | rfl
  · by_contra hp
    rw [hblank c (by simpa using hp)] at hb
    cases hb
  · exact hsign

theorem Parted.stops_isDigit (h : Parted rest) : Stops Char.isDigit rest :=
  h.stops (fun _ => Text.isBlank_of_isDigit) (by decide)

theorem Parted.stops_isNamePart (h : Parted rest) : Stops isNamePart rest :=
  h.stops (fun _ => isBlank_of_isNamePart) (by decide)

theorem Parted.head?_ne (h : Parted rest) {c : Char} (hblank : Text.isBlank c = false)
    (hsign : c ≠ '#') : rest.head? ≠ some c := by
  intro hc
  rcases h c hc with hb | he
  · rw [hblank] at hb
    cases hb
  · exact hsign he

theorem Symbol.chars_ne_two {c d : Char} (hd : Text.isBlank d = true ∨ d = '#') (sign : Symbol) :
    sign.chars ≠ [c, d] := by
  intro h
  have hsecond : Text.isBlank d = false ∧ d ≠ '#' := by
    cases sign <;> cases h <;> decide
  rcases hd with hb | he
  · rw [hsecond.1] at hb
    cases hb
  · exact hsecond.2 he

theorem Parted.ofChars?_eq_none (h : Parted rest) (c : Char) :
    ∀ d ∈ rest.head?, Symbol.ofChars? [c, d] = none := by
  intro d hd
  cases hfound : Symbol.ofChars? [c, d] with
  | none => rfl
  | some sign => exact absurd (Symbol.chars_of_ofChars? hfound) (sign.chars_ne_two (h d hd))

theorem pieces_float {whole fraction : List Char} (hwhole : IsDigits whole)
    (hfraction : IsDigits fraction) (hrest : Stops Char.isDigit rest) :
    pieces (whole ++ '.' :: fraction ++ rest) =
      .lexeme .float (whole ++ '.' :: fraction) :: pieces rest := by
  have hnumber : Piece.readNumber (whole ++ '.' :: (fraction ++ rest)) = _ :=
    Piece.readNumber_float hwhole hfraction
  rw [takeWhile_append_of_stops hfraction.2 hrest,
    dropWhile_append_of_stops hfraction.2 hrest] at hnumber
  obtain ⟨c, tail, rfl⟩ := List.exists_cons_of_ne_nil hwhole.1
  have hc : c.isDigit = true := hwhole.2 c List.mem_cons_self
  rw [List.append_assoc, List.cons_append, List.cons_append, pieces_cons, read_eq_readNumber hc,
    ← List.cons_append, hnumber]

theorem pieces_string {body : List Char} (h : ∀ x ∈ body, isStringPart x = true) :
    pieces ('"' :: body ++ ['"'] ++ rest) = .lexeme .string body :: pieces rest := by
  have hread : Piece.read '"' (body ++ '"' :: rest) = Piece.readString (body ++ '"' :: rest) := rfl
  rw [List.append_assoc, List.singleton_append, List.cons_append, pieces_cons, hread,
    Piece.readString_closed h]

theorem pieces_keyword (word : Keyword) (hrest : Stops isNamePart rest) :
    pieces (word.text.toList ++ rest) =
      .lexeme (.keyword word) word.text.toList :: pieces rest := by
  have hname : IsName word.text.toList := by
    cases word <;> exact isName_cons (by decide) (by decide)
  have hkind : Piece.nameKind word.text.toList = .keyword word := by
    rw [Piece.nameKind, String.ofList_toList, Keyword.ofText?_text]
  rw [pieces_name hname hrest, hkind]

theorem pieces_twoSign {sign : Symbol} {c d : Char} (h : sign.chars = [c, d]) :
    pieces (c :: d :: rest) = .lexeme (.symbol sign) [c, d] :: pieces rest := by
  obtain ⟨c', cs, hcs, hstart⟩ := sign.chars_eq_cons
  rw [h] at hcs
  cases hcs
  have hsign : Symbol.ofChars? [c, d] = some sign := by rw [← h, Symbol.ofChars?_chars]
  rw [pieces_cons, read_eq_readSymbol hstart, Piece.readSymbol, hsign]

theorem pieces_symbol (sign : Symbol) (hrest : Parted rest) :
    pieces (sign.chars ++ rest) = .lexeme (.symbol sign) sign.chars :: pieces rest := by
  rcases sign.chars_eq_one_or_two with ⟨c, hc⟩ | ⟨c, d, hcd⟩
  · rw [hc]
    exact pieces_sign hc (hrest.ofChars?_eq_none c)
  · rw [hcd]
    exact pieces_twoSign hcd

/-- Every scanner stops where lexemes are parted. -/
theorem pieces_lexeme {kind : TokenKind} {text : List Char} (h : IsLexeme kind text)
    (hrest : Parted rest) :
    pieces ((Piece.lexeme kind text).chars ++ rest) = .lexeme kind text :: pieces rest := by
  cases kind with
  | int =>
    have hpoint : NoFraction rest := noFraction_of_head?_ne (hrest.head?_ne (by decide) (by decide))
    exact pieces_int h hrest.stops_isDigit hpoint
  | float =>
    obtain ⟨whole, fraction, hwhole, hfraction, rfl⟩ := h
    exact pieces_float hwhole hfraction hrest.stops_isDigit
  | string => exact pieces_string h
  | identifier =>
    obtain ⟨name, rfl⟩ : ∃ name : String, text = name.toList := ⟨.ofList text, by simp⟩
    exact pieces_identifier h hrest.stops_isNamePart
  | keyword word =>
    obtain rfl : text = word.text.toList := h
    exact pieces_keyword word hrest.stops_isNamePart
  | symbol sign =>
    obtain rfl : text = sign.chars := h
    exact pieces_symbol sign hrest
  | eof => exact h.elim

theorem pieces_comment {body : List Char} (hb : '\n' ∉ body) (hrest : AtLineEnd rest) :
    pieces ('#' :: body ++ rest) = .comment body :: pieces rest := by
  have hbody : ∀ c ∈ body, decide (c ≠ '\n') = true := fun c hc =>
    decide_eq_true fun h => hb (h ▸ hc)
  have hstop : Stops (fun c => decide (c ≠ '\n')) rest := fun c hc => by simpa using hrest c hc
  have hread : Piece.read '#' (body ++ rest) =
      (.comment ((body ++ rest).takeWhile (· ≠ '\n')), (body ++ rest).dropWhile (· ≠ '\n')) := rfl
  rw [List.cons_append, pieces_cons, hread, takeWhile_append_of_stops hbody hstop,
    dropWhile_append_of_stops hbody hstop]

end Parted

/-- The text is cut into pieces without a fault, and these are its tokens. -/
structure Writes (cs : List Char) (items : List (TokenKind × List Char)) : Prop where
  content : (pieces cs).filterMap Piece.content? = items
  faultless : (pieces cs).countP Piece.isFaulty = 0

section Writes

variable {cs : List Char} {items : List (TokenKind × List Char)}

theorem writes_nil : Writes [] [] := ⟨by simp, by simp⟩

theorem Writes.of_pieces {ds : List Char} {p : Piece} (h : Writes cs items)
    (hp : pieces ds = p :: pieces cs) (htrivia : p.isTrivia = true) : Writes ds items := by
  have hcontent : p.content? = none := by
    cases p <;> first | rfl | cases htrivia
  constructor
  · rw [hp, List.filterMap_cons_none hcontent, h.content]
  · rw [hp, List.countP_cons, h.faultless, Piece.isFaulty_of_isTrivia htrivia]
    rfl

theorem Writes.trivia (h : Writes cs items) {gap : List Char} (hgap : IsTrivia gap) :
    Writes (gap ++ cs) items := by
  induction hgap with
  | nil => exact h
  | blank hc _ ih => exact ih.of_pieces (pieces_blank hc) rfl
  | @comment body gap hb _ ih =>
    have hfeed := ih.of_pieces (pieces_blank (c := '\n') (by decide)) rfl
    have hend : AtLineEnd ('\n' :: (gap ++ cs)) := by simp [AtLineEnd]
    have hcomment := hfeed.of_pieces (pieces_comment hb hend) rfl
    rwa [List.append_assoc, List.cons_append]

theorem Writes.lexeme (h : Writes cs items) (hcs : Parted cs) {kind : TokenKind}
    {text : List Char} (hlex : IsLexeme kind text) :
    Writes ((Piece.lexeme kind text).chars ++ cs) ((kind, text) :: items) := by
  have hp := pieces_lexeme hlex hcs
  constructor
  · rw [hp, filterMap_cons_toList, h.content]
    rfl
  · rw [hp, List.countP_cons, h.faultless]
    rfl

end Writes

/-- A lexeme and the trivia after it. -/
structure Spaced where
  kind : TokenKind
  text : String
  gap : List Char
  isLexeme : IsLexeme kind text.toList
  isTrivia : IsTrivia gap

def Spaced.chars (x : Spaced) : List Char :=
  (Piece.lexeme x.kind x.text.toList).chars ++ x.gap

/-- Lexemes with trivia before, between and after them. Only the last gap and the trivia before the
first lexeme may be empty. -/
structure SpacedText where
  lead : List Char
  items : List Spaced
  isTrivia : IsTrivia lead
  apart : ∀ x ∈ items.dropLast, x.gap ≠ []

namespace SpacedText

def text (t : SpacedText) : String := String.ofList (t.lead ++ t.items.flatMap Spaced.chars)

def content (t : SpacedText) : List (TokenKind × String) := t.items.map fun x => (x.kind, x.text)

theorem writes_items {items : List Spaced} (h : ∀ x ∈ items.dropLast, x.gap ≠ []) :
    Writes (items.flatMap Spaced.chars) (items.map fun x => (x.kind, x.text.toList)) := by
  induction items with
  | nil => exact writes_nil
  | cons x items ih =>
    have hparted : Parted (x.gap ++ items.flatMap Spaced.chars) := by
      by_cases hgap : x.gap = []
      · have hlast : items = [] := by
          by_contra hne
          rw [List.dropLast_cons_of_ne_nil hne] at h
          exact h x List.mem_cons_self hgap
        simp [hgap, hlast, Parted]
      · exact x.isTrivia.parted hgap _
    have hrest : ∀ y ∈ items.dropLast, y.gap ≠ [] := by
      intro y hy
      refine h y ?_
      rw [List.dropLast_cons_of_ne_nil (List.ne_nil_of_mem (List.dropLast_subset _ hy))]
      exact List.mem_cons_of_mem x hy
    have hwrites := ((ih hrest).trivia x.isTrivia).lexeme hparted x.isLexeme
    rwa [List.flatMap_cons, Spaced.chars, List.append_assoc]

theorem writes_text (t : SpacedText) :
    Writes t.text.toList (t.items.map fun x => (x.kind, x.text.toList)) := by
  rw [text, String.toList_ofList]
  exact (writes_items t.apart).trivia t.isTrivia

end SpacedText

theorem SourceFile.content_of_writes {file : SourceFile} {items : List (TokenKind × List Char)}
    (h : Writes file.text.toList items) :
    (file.placedPieces.filterMap Placed.token?).map Token.content = items := by
  have hspells := spells_layOut .start file.readPieces
  rw [readPieces_of_faultless h.faultless, Spells, h.content] at hspells
  rw [placedPieces, readPieces_of_faultless h.faultless, hspells]

section Grammar

open Descriptor (Derives DerivesSide)

/-- Tokens of the same kinds and texts, whatever their places. -/
def SameContent (us ts : List Token) : Prop := us.map Token.content = ts.map Token.content

variable {us ts ts' : List Token} {t : Token}

theorem sameContent_nil : SameContent us [] ↔ us = [] := by simp [SameContent]

theorem sameContent_cons :
    SameContent us (t :: ts) ↔
      ∃ u us', us = u :: us' ∧ (u.kind = t.kind ∧ u.text = t.text) ∧ SameContent us' ts := by
  simp [SameContent, List.map_eq_cons_iff, Token.content, String.toList_inj]

theorem sameContent_append :
    SameContent us (ts ++ ts') ↔
      ∃ us₁ us₂, us = us₁ ++ us₂ ∧ SameContent us₁ ts ∧ SameContent us₂ ts' := by
  rw [SameContent, List.map_append, List.map_eq_append_iff]
  exact Iff.rfl

/-- The grammar looks at nothing but kinds and texts. -/
theorem Descriptor.Derives.of_sameContent {n : Nat} {d : Descriptor} (h : Derives n ts d)
    (hus : SameContent us ts) : Derives n us d := by
  induction n generalizing ts us d with
  | zero => cases h
  | succ n ih =>
    have hside : ∀ {ts us side}, DerivesSide n ts side → SameContent us ts →
        DerivesSide n us side := by
      intro ts us side h hus
      cases h with
      | absent =>
        rw [sameContent_nil.1 hus]
        exact .absent
      | present h => exact .present (ih h hus)
    cases h with
    | array ho hc h =>
      obtain ⟨o, us, rfl, ⟨hok, -⟩, h₁⟩ := sameContent_cons.1 hus
      obtain ⟨c, us, rfl, ⟨hck, -⟩, h₂⟩ := sameContent_cons.1 h₁
      exact .array (hok.trans ho) (hck.trans hc) (ih h h₂)
    | sizedArray ho hs hc h =>
      obtain ⟨o, us, rfl, ⟨hok, -⟩, h₁⟩ := sameContent_cons.1 hus
      obtain ⟨size, us, rfl, ⟨hsk, hst⟩, h₂⟩ := sameContent_cons.1 h₁
      obtain ⟨c, us, rfl, ⟨hck, -⟩, h₃⟩ := sameContent_cons.1 h₂
      rw [← hst]
      exact .sizedArray (hok.trans ho) (hsk.trans hs) (hck.trans hc) (ih h h₃)
    | bareMap hw ht =>
      obtain ⟨w, us, rfl, ⟨hwk, hwt⟩, h₁⟩ := sameContent_cons.1 hus
      rw [sameContent_nil.1 h₁]
      exact .bareMap (hwk.trans hw) (hwt.trans ht)
    | map hw ht ho hk hm hv hc =>
      obtain ⟨w, us, rfl, ⟨hwk, hwt⟩, h₁⟩ := sameContent_cons.1 hus
      obtain ⟨o, us, rfl, ⟨hok, -⟩, h₂⟩ := sameContent_cons.1 h₁
      obtain ⟨ks, us, rfl, hks, h₃⟩ := sameContent_append.1 h₂
      obtain ⟨m, us, rfl, ⟨hmk, -⟩, h₄⟩ := sameContent_cons.1 h₃
      obtain ⟨vs, us, rfl, hvs, h₅⟩ := sameContent_append.1 h₄
      obtain ⟨c, us, rfl, ⟨hck, -⟩, h₆⟩ := sameContent_cons.1 h₅
      rw [sameContent_nil.1 h₆]
      exact .map (hwk.trans hw) (hwt.trans ht) (hok.trans ho) (hside hk hks) (hmk.trans hm)
        (hside hv hvs) (hck.trans hc)
    | scalar hw ht =>
      obtain ⟨w, us, rfl, ⟨hwk, hwt⟩, h₁⟩ := sameContent_cons.1 hus
      rw [sameContent_nil.1 h₁, ← hwt]
      exact .scalar (hwk.trans hw) (hwt ▸ ht)
    | container hw ht ho h hc =>
      obtain ⟨w, us, rfl, ⟨hwk, hwt⟩, h₁⟩ := sameContent_cons.1 hus
      obtain ⟨o, us, rfl, ⟨hok, -⟩, h₂⟩ := sameContent_cons.1 h₁
      obtain ⟨vs, us, rfl, hvs, h₃⟩ := sameContent_append.1 h₂
      obtain ⟨c, us, rfl, ⟨hck, -⟩, h₄⟩ := sameContent_cons.1 h₃
      rw [sameContent_nil.1 h₄, ← hwt]
      exact .container (hwk.trans hw) (hwt ▸ ht) (hok.trans ho) (ih h hvs) (hck.trans hc)

end Grammar

namespace SpacedText

open Descriptor (Derives)

def tokens (t : SpacedText) : List Token := t.content.map fun p => ⟨p.1, p.2, .point 1 1⟩

theorem ofText_text_eq_ok (t : SpacedText) {d : Descriptor} :
    Descriptor.ofText t.text = .ok d ↔ Derives maxTypeDepth t.tokens d := by
  have hwrites : Writes (SourceFile.mk Descriptor.typeFileName t.text).text.toList _ :=
    t.writes_text
  have hsame : SameContent
      ((SourceFile.mk Descriptor.typeFileName t.text).placedPieces.filterMap Placed.token?)
      t.tokens := by
    rw [SameContent, SourceFile.content_of_writes hwrites]
    simp [tokens, content, Token.content]
  rw [Descriptor.ofText_eq_ok, Descriptor.lexedText,
    SourceFile.lex_errors_of_faultless hwrites.faultless]
  constructor
  · intro h
    exact h.2.of_sameContent hsame.symm
  · intro h
    exact ⟨rfl, h.of_sameContent hsame⟩

/-- Lexemes that are kept apart are read back, kind by kind and text by text, without an error and
with one end mark after them; and the trivia between them have no part in the type that a text
denotes. -/
theorem lex_spaced_text (t : SpacedText) :
    (∀ name, (SourceFile.mk name t.text).lex.errors = .empty ∧
      (SourceFile.mk name t.text).lex.tokens.map (fun token => (token.kind, token.text)) =
        t.content ++ [(.eof, "")]) ∧
    ∀ u : SpacedText, u.content = t.content →
      ∀ d, Descriptor.ofText t.text = .ok d ↔ Descriptor.ofText u.text = .ok d := by
  constructor
  · intro name
    have hwrites : Writes (SourceFile.mk name t.text).text.toList _ := t.writes_text
    refine ⟨SourceFile.lex_errors_of_faultless hwrites.faultless, ?_⟩
    have hcontent := SourceFile.content_of_writes hwrites
    have hmap := congrArg (List.map fun p => (p.1, String.ofList p.2)) hcontent
    simp only [List.map_map, Function.comp_def, Token.content, String.ofList_toList] at hmap
    rw [SourceFile.lex, List.map_append, hmap]
    rfl
  · intro u hcontent d
    rw [ofText_text_eq_ok, ofText_text_eq_ok, tokens, tokens, hcontent]

/-- A map type that leaves out both sides, with one and the same gap after each lexeme. -/
def emptyMap (gap : List Char) (h : IsTrivia gap) (hne : gap ≠ []) : SpacedText where
  lead := []
  items :=
    [⟨.identifier, mapKind, gap, isLexeme_mapKind, h⟩, ⟨.symbol .parenOpen, "(", gap, rfl, h⟩,
     ⟨.symbol .comma, ",", gap, rfl, h⟩, ⟨.symbol .parenClose, ")", gap, rfl, h⟩]
  isTrivia := .nil
  apart := by simp [hne]

theorem lex_spaced_text_emptyMap :
    let blank := emptyMap [' '] (.blank rfl .nil) (List.cons_ne_nil _ _)
    let comment := emptyMap ('#' :: ['n'] ++ ['\n']) (.comment (by decide) .nil)
      (List.cons_ne_nil _ _)
    comment.content = blank.content ∧ Descriptor.ofText blank.text = .ok (.map none none) ∧
      Descriptor.ofText comment.text = .ok (.map none none) := by
  intro blank comment
  have hcontent : comment.content = blank.content := rfl
  have hblank : Descriptor.ofText blank.text = .ok (.map none none) :=
    blank.ofText_text_eq_ok.2 ((Descriptor.readType_eq_ok_iff_derives (.point 1 1)).1 rfl)
  exact ⟨hcontent, hblank, ((lex_spaced_text blank).2 comment hcontent _).1 hblank⟩

end SpacedText

end ScriptKit
