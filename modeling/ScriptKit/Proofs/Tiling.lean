import ScriptKit.Proofs.Lexeme
import ScriptKit.Proofs.Log
import ScriptKit.Proofs.Places
import ScriptKit.Token.Lexer

/-! Reading covers the source: blanks, comments, rejected characters and lexemes follow one another
without gap or overlap, and each token and error stands where the characters before it put it, if
the counters can hold that place. -/
namespace ScriptKit

def LexFault.errorAt (fault : LexFault) (file : SourceFile) (span : Span) : SourceError :=
  .ofCode file.name fault.code fault.message span (file.lineOrEmpty span.row) fault.suggestion?

/-- After the characters `before`, the source `cs` is read into the tokens `ts` and the errors `es`,
and `left` remains: `Tiles file At before cs ts es left`, where `At span before chars` tells what
the span of `chars` after `before` is. -/
inductive Tiles (file : SourceFile) (At : Span → List Char → List Char → Prop) :
    List Char → List Char → List Token → List SourceError → List Char → Prop
  | stop {before left : List Char} : Tiles file At before left [] [] left
  | blank {before cs left : List Char} {ts : List Token} {es : List SourceError} {c : Char}
      (hc : Text.isBlank c = true) (h : Tiles file At (before ++ [c]) cs ts es left) :
      Tiles file At before (c :: cs) ts es left
  | comment {before body cs left : List Char} {ts : List Token} {es : List SourceError}
      (hb : '\n' ∉ body) (he : AtLineEnd cs)
      (h : Tiles file At (before ++ '#' :: body) cs ts es left) :
      Tiles file At before ('#' :: body ++ cs) ts es left
  | rejected {before cs left : List Char} {ts : List Token} {es : List SourceError} {c : Char}
      {span : Span} (hc : isSignStart c = true) (hsign : ∀ sign : Symbol, ¬ sign.chars <+: c :: cs)
      (hs : At span before [c]) (h : Tiles file At (before ++ [c]) cs ts es left) :
      Tiles file At before (c :: cs) ts ((LexFault.unexpected c).errorAt file span :: es) left
  | lexeme {before cs left : List Char} {ts : List Token} {es : List SourceError} {t : Token}
      (ht : IsLexeme t.kind t.text.toList) (hs : At t.span before t.written)
      (h : Tiles file At (before ++ t.written) cs ts es left) :
      Tiles file At before (t.written ++ cs) (t :: ts) es left
  | unclosed {before cs left : List Char} {ts : List Token} {es : List SourceError} {t : Token}
      (hk : t.kind = .string) (ht : IsLexeme .string t.text.toList) (he : AtLineEnd cs)
      (hs : At t.span before ('"' :: t.text.toList))
      (h : Tiles file At (before ++ '"' :: t.text.toList) cs ts es left) :
      Tiles file At before ('"' :: t.text.toList ++ cs) (t :: ts)
        (LexFault.unterminated.errorAt file t.span :: es) left

/-- A span as counted, which is the true one exactly if the counters can hold the row and the column
after it. -/
structure Span.Counted (s : Span) (before chars : List Char) : Prop where
  eq_spanAfter : s = spanAfter before chars
  covers_iff : s.Covers before chars ↔
    rowAfter before < UInt32.size ∧ colAfter (before ++ chars) < UInt32.size

/-- A piece at the place that the characters before it give it. -/
def Piece.placedAfter (p : Piece) (before : List Char) : Placed :=
  ⟨p, positionAfter before, positionAfter (before ++ p.chars)⟩

theorem layOut_positionAfter (before : List Char) (p : Piece) (ps : List Piece) :
    layOut (positionAfter before) (p :: ps) =
      p.placedAfter before :: layOut (positionAfter (before ++ p.chars)) ps := by
  rw [layOut, advance_positionAfter]
  rfl

theorem layOut_append (p : Position) (ps qs : List Piece) :
    layOut p (ps ++ qs) = layOut p ps ++ layOut (p.advance (ps.flatMap Piece.chars)) qs := by
  induction ps generalizing p with
  | nil => rfl
  | cons piece ps ih =>
    rw [List.cons_append, layOut, layOut, ih, List.flatMap_cons, Position.advance_append,
      List.cons_append]

/-- Each piece stands behind a first part of what all of them hold. -/
theorem exists_placedAfter_of_mem (front : List Char) {ps : List Piece} {q : Placed}
    (h : q ∈ layOut (positionAfter front) ps) :
    ∃ before, q = q.piece.placedAfter before ∧
      before ++ q.piece.chars <+: front ++ ps.flatMap Piece.chars := by
  induction ps generalizing front with
  | nil => simp [layOut] at h
  | cons piece ps ih =>
    rw [layOut_positionAfter] at h
    rw [List.flatMap_cons, ← List.append_assoc]
    rcases List.mem_cons.1 h with rfl | h
    · exact ⟨front, rfl, List.prefix_append _ _⟩
    · exact ih _ h

namespace Piece

theorem chars_lexeme_ne_nil {kind : TokenKind} {text : List Char} (h : IsLexeme kind text) :
    (lexeme kind text).chars ≠ [] := by
  cases kind with
  | int => exact h.1
  | float =>
    obtain ⟨whole, fraction, -, -, rfl⟩ := h
    simp [chars]
  | string => simp [chars]
  | identifier =>
    obtain ⟨c, rest, rfl, -⟩ := h.1
    simp [chars]
  | keyword word =>
    rw [show text = word.text.toList from h]
    cases word <;> decide
  | symbol sign =>
    rw [show text = sign.chars from h]
    cases sign <;> decide
  | eof => exact h.elim

theorem newline_notMem_chars {kind : TokenKind} {text : List Char} (h : IsLexeme kind text) :
    '\n' ∉ (lexeme kind text).chars := by
  have hn := h.newline_notMem
  cases kind <;> simpa [chars] using hn

theorem written_token (kind : TokenKind) (text : String) (span : Span) :
    Token.written ⟨kind, text, span⟩ = (lexeme kind text.toList).chars := by
  cases kind <;> simp [Token.written, chars]

theorem counted_placedAfter {p : Piece} (before : List Char) (hn : '\n' ∉ p.chars)
    (hne : p.chars ≠ []) : (p.placedAfter before).span.Counted before p.chars :=
  ⟨rfl, covers_spanAfter_iff before hn hne⟩

end Piece

section Tiles

variable {file : SourceFile} {At : Span → List Char → List Char → Prop}
  {before cs left : List Char} {ts : List Token} {es : List SourceError}

theorem Tiles.cons_piece {p : Piece} (hp : p.Fits cs)
    (h : Tiles file Span.Counted (before ++ p.chars) cs ts es left) :
    Tiles file Span.Counted before (p.chars ++ cs) ((p.placedAfter before).token?.toList ++ ts)
      (((p.placedAfter before).error? file).toList ++ es) left := by
  cases p with
  | blank c => exact .blank hp h
  | comment body => exact .comment hp.1 hp.2 h
  | rejected c =>
    have hn : '\n' ∉ [c] := by
      rintro hn
      obtain rfl := List.mem_singleton.1 hn
      exact absurd hp.1 (by decide)
    exact .rejected hp.1 hp.2 (Piece.counted_placedAfter before hn (List.cons_ne_nil _ _)) h
  | lexeme kind text =>
    obtain ⟨word, rfl⟩ : ∃ word : String, text = word.toList := ⟨.ofList text, by simp⟩
    have hspan := Piece.counted_placedAfter before (Piece.newline_notMem_chars hp)
      (Piece.chars_lexeme_ne_nil hp)
    have htoken : ((Piece.lexeme kind word.toList).placedAfter before).token? =
        some ⟨kind, word, ((Piece.lexeme kind word.toList).placedAfter before).span⟩ := by
      simp [Placed.token?, Piece.placedAfter, Piece.content?]
    have hwritten := Piece.written_token kind word
      ((Piece.lexeme kind word.toList).placedAfter before).span
    have hl := Tiles.lexeme (t := ⟨kind, word, _⟩) hp (by rw [hwritten]; exact hspan)
      (by rw [hwritten]; exact h)
    rw [hwritten] at hl
    rw [htoken]
    exact hl
  | unclosed text =>
    obtain ⟨word, rfl⟩ : ∃ word : String, text = word.toList := ⟨.ofList text, by simp⟩
    have hn : '\n' ∉ (Piece.unclosed word.toList).chars := by
      simpa [Piece.chars] using hp.1.newline_notMem
    have hspan := Piece.counted_placedAfter before hn (List.cons_ne_nil _ _)
    have htoken : ((Piece.unclosed word.toList).placedAfter before).token? =
        some ⟨.string, word, ((Piece.unclosed word.toList).placedAfter before).span⟩ := by
      simp [Placed.token?, Piece.placedAfter, Piece.content?]
    rw [htoken]
    exact .unclosed (t := ⟨.string, word, _⟩) rfl hp.1 hp.2 hspan h

theorem Tiles.isLexeme (h : Tiles file At before cs ts es left) :
    ∀ t ∈ ts, IsLexeme t.kind t.text.toList := by
  induction h with
  | stop => simp
  | blank _ _ ih => exact ih
  | comment _ _ _ ih => exact ih
  | rejected _ _ _ _ ih => exact ih
  | lexeme ht _ _ ih => exact List.forall_mem_cons.2 ⟨ht, ih⟩
  | unclosed hk ht _ _ _ ih => exact List.forall_mem_cons.2 ⟨by rw [hk]; exact ht, ih⟩

theorem Tiles.left_suffix (h : Tiles file At before cs ts es left) : left <:+ cs := by
  induction h with
  | stop => exact List.suffix_rfl
  | @blank _ _ _ _ _ c _ _ ih => exact ih.trans (List.suffix_cons c _)
  | @comment _ body _ _ _ _ _ _ _ ih => exact ih.trans (List.suffix_append ('#' :: body) _)
  | @rejected _ _ _ _ _ c _ _ _ _ _ ih => exact ih.trans (List.suffix_cons c _)
  | @lexeme _ _ _ _ _ t _ _ _ ih => exact ih.trans (List.suffix_append t.written _)
  | @unclosed _ _ _ _ _ t _ _ _ _ _ ih =>
    exact ih.trans (List.suffix_append ('"' :: t.text.toList) _)

theorem Tiles.imp {At' : Span → List Char → List Char → Prop}
    (h : Tiles file At before cs ts es left)
    (himp : ∀ span front chars rest, before ++ cs = front ++ chars ++ (rest ++ left) →
      At span front chars → At' span front chars) :
    Tiles file At' before cs ts es left := by
  induction h with
  | stop => exact .stop
  | blank hc _ ih => exact .blank hc (ih (by simpa using himp))
  | comment hb he _ ih => exact .comment hb he (ih (by simpa using himp))
  | rejected hc hsign hs h ih =>
    obtain ⟨rest, hrest⟩ := h.left_suffix
    exact .rejected hc hsign (himp _ _ _ rest (by simp [hrest]) hs) (ih (by simpa using himp))
  | lexeme ht hs h ih =>
    obtain ⟨rest, hrest⟩ := h.left_suffix
    exact .lexeme ht (himp _ _ _ rest (by simp [hrest]) hs) (ih (by simpa using himp))
  | unclosed hk ht he hs h ih =>
    obtain ⟨rest, hrest⟩ := h.left_suffix
    exact .unclosed hk ht he (himp _ _ _ rest (by simp [hrest]) hs) (ih (by simpa using himp))

end Tiles

theorem filterMap_cons_toList {α β : Type} (f : α → Option β) (a : α) (as : List α) :
    (a :: as).filterMap f = (f a).toList ++ as.filterMap f := by
  cases h : f a <;> simp [h]

/-- The first pieces of a text tile it up to the other pieces. -/
theorem tiles_of_pieces (file : SourceFile) (before : List Char) {cs : List Char}
    {ps qs : List Piece} (h : pieces cs = ps ++ qs) :
    Tiles file Span.Counted before cs
      ((layOut (positionAfter before) ps).filterMap Placed.token?)
      ((layOut (positionAfter before) ps).filterMap (Placed.error? file))
      (qs.flatMap Piece.chars) := by
  induction ps generalizing cs before with
  | nil =>
    have hcs : qs.flatMap Piece.chars = cs := by
      rw [← flatMap_chars_pieces cs, h, List.nil_append]
    rw [hcs]
    exact .stop
  | cons p ps ih =>
    cases cs with
    | nil => simp at h
    | cons c cs =>
      rw [pieces_cons, List.cons_append, List.cons.injEq] at h
      obtain ⟨rfl, hrest⟩ := h
      have htail := ih (before ++ (Piece.read c cs).1.chars) hrest
      have hstep := Tiles.cons_piece (Piece.fits_read c cs) htail
      rw [Piece.chars_read] at hstep
      rwa [layOut_positionAfter, filterMap_cons_toList, filterMap_cons_toList]

/-- If the counters hold all places on the way, every token and error is given its own. -/
theorem tiles_of_inRange (file : SourceFile) {before cs : List Char} {ps qs : List Piece}
    (h : pieces cs = ps ++ qs) (hrange : InRange (before ++ ps.flatMap Piece.chars)) :
    Tiles file Span.Covers before cs
      ((layOut (positionAfter before) ps).filterMap Placed.token?)
      ((layOut (positionAfter before) ps).filterMap (Placed.error? file))
      (qs.flatMap Piece.chars) := by
  have hcs : cs = ps.flatMap Piece.chars ++ qs.flatMap Piece.chars := by
    rw [← List.flatMap_append, ← h, flatMap_chars_pieces]
  refine (tiles_of_pieces file before h).imp fun span front chars rest hsplit hs => ?_
  have hread : before ++ ps.flatMap Piece.chars = front ++ chars ++ rest := by
    rw [hcs, ← List.append_assoc, ← List.append_assoc] at hsplit
    exact List.append_cancel_right hsplit
  have hafter : front ++ chars <+: before ++ ps.flatMap Piece.chars := ⟨rest, hread.symm⟩
  exact hs.covers_iff.2 ⟨(hrange front ((List.prefix_append _ _).trans hafter)).1,
    (hrange (front ++ chars) hafter).2⟩

theorem pieces_letter : pieces ['x'] = [.lexeme .identifier ['x']] :=
  (pieces_cons 'x' []).trans (congrArg _ pieces_nil)

section Blanks

variable {c : Char} (n : Nat)

theorem pieces_blanks (hc : Text.isBlank c = true) (cs : List Char) :
    pieces (List.replicate n c ++ cs) = List.replicate n (.blank c) ++ pieces cs := by
  induction n with
  | zero => rfl
  | succ n ih =>
    rw [List.replicate_succ, List.cons_append, pieces_blank hc, List.replicate_succ,
      List.cons_append, ih]

theorem pieces_before_spaces {p : Piece}
    (hread : ∀ rest, Piece.read c (' ' :: rest) = (p, ' ' :: rest)) {n : Nat} (hn : 0 < n)
    (cs : List Char) :
    pieces ([c] ++ (List.replicate n ' ' ++ cs)) = [p] ++ pieces (List.replicate n ' ' ++ cs) := by
  obtain ⟨m, rfl⟩ := Nat.exists_eq_add_one.2 hn
  rw [List.singleton_append, List.singleton_append, List.replicate_succ, List.cons_append,
    pieces_cons, hread]

theorem filterMap_layOut_blanks {α : Type} {f : Placed → Option α}
    (hf : ∀ first after, f ⟨.blank c, first, after⟩ = none) (before : List Char)
    (ps : List Piece) :
    (layOut (positionAfter before) (List.replicate n (.blank c) ++ ps)).filterMap f =
      (layOut (positionAfter (before ++ List.replicate n c)) ps).filterMap f := by
  induction n generalizing before with
  | zero => simp
  | succ n ih =>
    rw [List.replicate_succ, List.cons_append, layOut_positionAfter, filterMap_cons_toList, ih,
      Piece.placedAfter, hf, List.replicate_succ, Piece.chars, List.append_assoc]
    rfl

theorem colAfter_spaces {front : List Char} (hfront : '\n' ∉ front) :
    colAfter (front ++ List.replicate n ' ') = 1 + (front.length + n) := by
  have hn : '\n' ∉ front ++ List.replicate n ' ' := by simp [hfront]
  have hcol := colAfter_append [] hn
  rwa [List.nil_append, List.length_append, List.length_replicate] at hcol

theorem spanAfter_spaces {front : List Char} (hfront : '\n' ∉ front) (hc : '\n' ∉ [c]) :
    spanAfter (front ++ List.replicate n ' ') [c] =
      ⟨1, .ofNat (1 + (front.length + n)), 1,
        .ofNat (max ((UInt32.ofNat (1 + (front.length + n) + 1)).toNat - 1) 1)⟩ := by
  have hn : '\n' ∉ front ++ List.replicate n ' ' := by simp [hfront]
  have hrow := rowAfter_append [] hn
  rw [List.nil_append] at hrow
  rw [spanAfter_eq _ hc, hrow, colAfter_spaces n hfront]
  rfl

end Blanks

def Piece.isFaulty (p : Piece) : Bool := p.fault?.isSome

theorem Piece.isFaulty_of_isTrivia {p : Piece} (h : p.isTrivia = true) : p.isFaulty = false := by
  cases p <;> first | rfl | cases h

theorem prefix_untilFault (n : Nat) (ps : List Piece) : untilFault n ps <+: ps := by
  fun_induction untilFault n ps with
  | case1 ps => exact List.nil_prefix
  | case2 n => exact List.nil_prefix
  | case3 c rest => exact List.cons_prefix_cons.2 ⟨rfl, List.takeWhile_prefix _⟩
  | case4 n p rest _ ih => exact List.cons_prefix_cons.2 ⟨rfl, ih⟩

theorem countP_takeWhile_isTrivia (ps : List Piece) :
    (ps.takeWhile Piece.isTrivia).countP Piece.isFaulty = 0 := by
  apply List.countP_eq_zero.2
  intro p hp
  simp [Piece.isFaulty_of_isTrivia (List.mem_takeWhile_imp hp)]

/-- Reading meets no more faults than it may, and ends early only if it meets that many. -/
theorem untilFault_spec (n : Nat) (ps : List Piece) :
    (untilFault n ps).countP Piece.isFaulty ≤ n ∧
      ((untilFault n ps).countP Piece.isFaulty < n → untilFault n ps = ps) := by
  fun_induction untilFault n ps with
  | case1 ps => simp
  | case2 n => simp
  | case3 c rest =>
    have hc : (Piece.rejected c).isFaulty = true := rfl
    simp [hc, countP_takeWhile_isTrivia]
  | case4 n p rest _ ih =>
    obtain ⟨hle, heq⟩ := ih
    rw [List.countP_cons]
    by_cases hp : p.isFaulty = true
    · rw [if_pos (show p.fault?.isSome = true from hp)] at hle heq ⊢
      rw [if_pos hp]
      refine ⟨by omega, fun hlt => ?_⟩
      rw [heq (by omega)]
    · rw [if_neg (show ¬ p.fault?.isSome = true from hp)] at hle heq ⊢
      rw [if_neg hp]
      refine ⟨by omega, fun hlt => ?_⟩
      rw [heq (by omega)]

theorem length_errors_layOut (file : SourceFile) (p : Position) (ps : List Piece) :
    ((layOut p ps).filterMap (Placed.error? file)).length = ps.countP Piece.isFaulty := by
  induction ps generalizing p with
  | nil => rfl
  | cons piece ps ih =>
    rw [layOut, filterMap_cons_toList, List.length_append, ih, List.countP_cons, Nat.add_comm]
    congr 1
    cases piece <;> rfl

namespace SourceFile

theorem readPieces_eq {file : SourceFile}
    (h : (pieces file.text.toList).countP Piece.isFaulty < maxErrors) :
    file.readPieces = pieces file.text.toList := by
  have hle := (prefix_untilFault maxErrors (pieces file.text.toList)).sublist.countP_le
    (p := Piece.isFaulty)
  exact (untilFault_spec maxErrors _).2 (Nat.lt_of_le_of_lt hle h)

theorem length_error?_placedPieces_le (file : SourceFile) :
    (file.placedPieces.filterMap (Placed.error? file)).length ≤ maxErrors := by
  rw [placedPieces, length_errors_layOut]
  exact (untilFault_spec maxErrors _).1

theorem lex_errors (file : SourceFile) :
    file.lex.errors =
      ⟨file.placedPieces.filterMap (Placed.error? file), [],
        UInt64.ofNat (file.placedPieces.filterMap (Placed.error? file)).length, 0⟩ := by
  rw [lex, ErrorLog.ofLists_errors, List.take_of_length_le file.length_error?_placedPieces_le]

theorem errors_lex (file : SourceFile) :
    file.lex.errors.errors = file.placedPieces.filterMap (Placed.error? file) := by
  rw [lex_errors]

theorem totalErrors_lex (file : SourceFile) :
    file.lex.errors.totalErrors.toNat = file.lex.errors.errors.length := by
  have hle := file.length_error?_placedPieces_le
  have hsize : maxErrors < UInt64.size := by decide
  rw [lex_errors, ErrorLog.toNat_ofNat_eq_iff.2 (Nat.lt_of_le_of_lt hle hsize)]

theorem totalErrors_lex_le (file : SourceFile) : file.lex.errors.totalErrors.toNat ≤ maxErrors := by
  rw [totalErrors_lex, errors_lex]
  exact file.length_error?_placedPieces_le

theorem keepsAll_lex (file : SourceFile) : file.lex.errors.KeepsAll := by
  refine ⟨file.totalErrors_lex, ?_, ?_, ?_⟩
  · rw [errors_lex]
    exact file.length_error?_placedPieces_le
  · rw [lex_errors]
  · rw [lex_errors]

section Faultless

variable {file : SourceFile} (h : (pieces file.text.toList).countP Piece.isFaulty = 0)

include h

theorem readPieces_of_faultless : file.readPieces = pieces file.text.toList :=
  readPieces_eq (by rw [h]; decide)

theorem lex_errors_of_faultless : file.lex.errors = .empty := by
  have hlength : (file.placedPieces.filterMap (Placed.error? file)).length = 0 := by
    rw [placedPieces, length_errors_layOut, readPieces_of_faultless h, h]
  rw [lex_errors, List.length_eq_zero_iff.1 hlength]
  rfl

end Faultless

/-- The pieces that are read tile the text; no character is left unless the last fault that may be
reported was met. -/
theorem tiles_placedPieces (file : SourceFile) :
    ∃ left, file.text.toList = file.consumed ++ left ∧
      Tiles file Span.Counted [] file.text.toList (file.placedPieces.filterMap Placed.token?)
        (file.placedPieces.filterMap (Placed.error? file)) left ∧
      ((file.placedPieces.filterMap (Placed.error? file)).length < maxErrors → left = []) := by
  obtain ⟨qs, hqs⟩ := prefix_untilFault maxErrors (pieces file.text.toList)
  refine ⟨qs.flatMap Piece.chars, ?_, tiles_of_pieces file [] hqs.symm, ?_⟩
  · rw [consumed, readPieces, ← List.flatMap_append, hqs, flatMap_chars_pieces]
  · intro hlt
    rw [placedPieces, length_errors_layOut, readPieces] at hlt
    have hall := (untilFault_spec maxErrors (pieces file.text.toList)).2 hlt
    have hnil : qs = [] := by simpa [hall] using hqs
    rw [hnil, List.flatMap_nil]

theorem tiles_covers {file : SourceFile} (h : InRange file.consumed) :
    ∃ left, Tiles file Span.Covers [] file.text.toList (file.placedPieces.filterMap Placed.token?)
      (file.placedPieces.filterMap (Placed.error? file)) left := by
  obtain ⟨qs, hqs⟩ := prefix_untilFault maxErrors (pieces file.text.toList)
  exact ⟨_, tiles_of_inRange file hqs.symm h⟩

theorem kind_ne_eof_of_mem (file : SourceFile) {t : Token}
    (ht : t ∈ file.placedPieces.filterMap Placed.token?) : t.kind ≠ .eof := by
  obtain ⟨left, -, htiles, -⟩ := file.tiles_placedPieces
  intro heof
  have hlex := htiles.isLexeme t ht
  rwa [heof] at hlex

theorem filter_tokens_lex (file : SourceFile) :
    file.lex.tokens.filter (·.kind ≠ .eof) = file.placedPieces.filterMap Placed.token? := by
  have hkind : ∀ t ∈ file.placedPieces.filterMap Placed.token?, decide (t.kind ≠ .eof) = true :=
    fun t ht => decide_eq_true (file.kind_ne_eof_of_mem ht)
  rw [lex, List.filter_append, List.filter_eq_self.2 hkind]
  simp [Token.endAt]

/-- Reading tiles a first part of the source, and all of it while fewer errors than the limit are
recorded. The span of each token and error is the one that is counted, which is that of its
characters exactly if the counters can hold its row and the column after it. -/
theorem lex_tiles (file : SourceFile) :
    ∃ consumed left, file.text.toList = consumed ++ left ∧
      Tiles file Span.Counted [] file.text.toList (file.lex.tokens.filter (·.kind ≠ .eof))
        file.lex.errors.errors left ∧
      file.lex.errors.totalErrors.toNat = file.lex.errors.errors.length ∧
      (file.lex.errors.totalErrors.toNat < maxErrors → left = []) := by
  obtain ⟨left, htext, htiles, hleft⟩ := file.tiles_placedPieces
  refine ⟨file.consumed, left, htext, ?_, file.totalErrors_lex, ?_⟩
  · rwa [filter_tokens_lex, errors_lex]
  · rwa [totalErrors_lex, errors_lex]

/-- A character so many blanks behind a first word. -/
def spaced (front : List Char) (n : Nat) (c : Char) : SourceFile :=
  ⟨"", String.ofList (front ++ (List.replicate n ' ' ++ [c]))⟩

section Spaced

variable {front : List Char} {ps : List Piece} {n : Nat} {c : Char}
  (hfront : pieces (front ++ (List.replicate n ' ' ++ [c])) =
    ps ++ pieces (List.replicate n ' ' ++ [c]))
  (hfaults : ps.countP Piece.isFaulty + (pieces [c]).countP Piece.isFaulty < maxErrors)

include hfront hfaults

theorem placedPieces_spaced :
    (spaced front n c).placedPieces =
      layOut .start ps ++
        layOut (positionAfter front) (List.replicate n (.blank ' ') ++ pieces [c]) := by
  have hchars : ps.flatMap Piece.chars = front := by
    have hflat := congrArg (List.flatMap Piece.chars) hfront
    rw [List.flatMap_append, flatMap_chars_pieces, flatMap_chars_pieces] at hflat
    exact (List.append_cancel_right hflat).symm
  have hpieces : pieces (spaced front n c).text.toList =
      ps ++ (List.replicate n (.blank ' ') ++ pieces [c]) := by
    rw [spaced, String.toList_ofList, hfront, pieces_blanks n (by decide)]
  have hcount : (List.replicate n (Piece.blank ' ')).countP Piece.isFaulty = 0 := by
    rw [List.countP_replicate]
    rfl
  have hfew : (pieces (spaced front n c).text.toList).countP Piece.isFaulty < maxErrors := by
    rwa [hpieces, List.countP_append, List.countP_append, hcount, Nat.zero_add]
  rw [placedPieces, readPieces_eq hfew, hpieces, layOut_append, hchars, start_advance]

theorem filterMap_spaced {α : Type} {f : Placed → Option α}
    (hf : ∀ first after, f ⟨.blank ' ', first, after⟩ = none) :
    (spaced front n c).placedPieces.filterMap f =
      (layOut .start ps).filterMap f ++
        (layOut (positionAfter (front ++ List.replicate n ' ')) (pieces [c])).filterMap f := by
  rw [placedPieces_spaced hfront hfaults, List.filterMap_append, filterMap_layOut_blanks n hf]

end Spaced

theorem tokens_spaced_name (n : Nat) :
    (spaced [] n 'x').lex.tokens.filter (·.kind ≠ .eof) =
      [⟨.identifier, "x", ⟨1, .ofNat (1 + (0 + n)), 1,
        .ofNat (max ((UInt32.ofNat (1 + (0 + n) + 1)).toNat - 1) 1)⟩⟩] := by
  have hfront : pieces ([] ++ (List.replicate n ' ' ++ ['x'])) =
      [] ++ pieces (List.replicate n ' ' ++ ['x']) := rfl
  have hspan := spanAfter_spaces n List.not_mem_nil (c := 'x') (by decide)
  rw [filter_tokens_lex, filterMap_spaced hfront (by rw [pieces_letter]; decide) fun _ _ => rfl,
    pieces_letter, layOut_positionAfter]
  exact congrArg (fun span => [Token.mk .identifier "x" span]) hspan

/-- A name behind as many blanks as the counter can count stands, so it says, in column zero. -/
theorem name_in_column_zero :
    (spaced [] 4294967295 'x').text.toList = List.replicate 4294967295 ' ' ++ ['x'] ∧
      colAfter (List.replicate 4294967295 ' ') = 4294967296 ∧
      (spaced [] 4294967295 'x').lex.tokens.filter (·.kind ≠ .eof) =
        [⟨.identifier, "x", ⟨1, 0, 1, 1⟩⟩] := by
  have htext (n : Nat) : (spaced [] n 'x').text.toList = List.replicate n ' ' ++ ['x'] :=
    String.toList_ofList
  have hcol (n : Nat) : colAfter (List.replicate n ' ') = 1 + (0 + n) :=
    colAfter_spaces n List.not_mem_nil
  refine ⟨htext _, hcol _, ?_⟩
  rw [tokens_spaced_name]
  decide

end SourceFile

end ScriptKit
