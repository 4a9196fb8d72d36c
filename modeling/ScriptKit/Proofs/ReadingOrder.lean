import ScriptKit.Proofs.Tiling

/-! The order in which tokens and errors stand. Reading goes forward only, so as long as the
counters hold all places, errors have ascending places, and a token ends, with the quotes of a
string, before the next one begins. -/
namespace ScriptKit

/-- One token ends before another begins. -/
def Token.EndsBefore (t u : Token) : Prop :=
  Place.mk t.row (t.col + t.written.length) ≤ u.span.place

section Lexeme

variable {t : Token} (h : IsLexeme t.kind t.text.toList)

include h

theorem newline_notMem_of_isLexeme : '\n' ∉ t.written := by
  rw [show t.written = _ from Piece.written_token t.kind t.text t.span]
  exact Piece.newline_notMem_chars h

theorem written_ne_nil_of_isLexeme : t.written ≠ [] := by
  rw [show t.written = _ from Piece.written_token t.kind t.text t.span]
  exact Piece.chars_lexeme_ne_nil h

theorem not_atLineEnd_of_isLexeme (cs : List Char) : ¬ AtLineEnd (t.written ++ cs) := by
  obtain ⟨c, rest, hwritten⟩ := List.exists_cons_of_ne_nil (written_ne_nil_of_isLexeme h)
  have hn := newline_notMem_of_isLexeme h
  rw [hwritten] at hn ⊢
  intro hend
  exact hn (hend c rfl ▸ List.mem_cons_self)

end Lexeme

section Tiles

variable {file : SourceFile} {before cs left : List Char} {ts : List Token}
  {es : List SourceError}

/-- Tokens and errors that stand after some characters. -/
def AllAfter (before : List Char) (ts : List Token) (es : List SourceError) : Prop :=
  (∀ t ∈ ts, placeAfter before ≤ t.span.place) ∧ ∀ e ∈ es, placeAfter before ≤ e.span.place

theorem AllAfter.of_append (h : AllAfter (before ++ cs) ts es) : AllAfter before ts es := by
  have hle := placeAfter_le_append before cs
  exact ⟨fun t ht => Place.le_trans hle (h.1 t ht), fun e he => Place.le_trans hle (h.2 e he)⟩

theorem Span.Covers.placeAfter_le {s : Span} (h : s.Covers before cs) :
    placeAfter before ≤ s.place := by
  rw [h.place]
  exact Place.le_refl _

theorem Tiles.allAfter (h : Tiles file Span.Covers before cs ts es left) :
    AllAfter before ts es := by
  induction h with
  | stop => exact ⟨nofun, nofun⟩
  | blank _ _ ih => exact ih.of_append
  | comment _ _ _ ih => exact ih.of_append
  | rejected _ _ hs _ ih =>
    exact ⟨ih.of_append.1, List.forall_mem_cons.2 ⟨hs.placeAfter_le, ih.of_append.2⟩⟩
  | lexeme _ hs _ ih =>
    exact ⟨List.forall_mem_cons.2 ⟨hs.placeAfter_le, ih.of_append.1⟩, ih.of_append.2⟩
  | unclosed _ _ _ hs _ ih =>
    exact ⟨List.forall_mem_cons.2 ⟨hs.placeAfter_le, ih.of_append.1⟩,
      List.forall_mem_cons.2 ⟨hs.placeAfter_le, ih.of_append.2⟩⟩

theorem Tiles.row_lt (h : Tiles file Span.Covers before cs ts es left) (hend : AtLineEnd cs) :
    ∀ t ∈ ts, rowAfter before < t.row := by
  cases h with
  | stop => exact nofun
  | blank _ h =>
    obtain rfl := hend _ rfl
    intro t ht
    have hlt := rowAfter_lt_append before (List.mem_singleton_self '\n')
    rcases h.allAfter.1 t ht with hrow | ⟨hrow, -⟩
    · exact Nat.lt_trans hlt hrow
    · exact Nat.lt_of_lt_of_eq hlt hrow
  | comment => exact absurd (hend _ rfl) (by decide)
  | rejected hc =>
    rw [hend _ rfl] at hc
    exact absurd hc (by decide)
  | lexeme ht => exact absurd hend (not_atLineEnd_of_isLexeme ht _)
  | unclosed => exact absurd (hend _ rfl) (by decide)

theorem Tiles.pairwise_errors (h : Tiles file Span.Covers before cs ts es left) :
    es.Pairwise fun e e' => e.span.place < e'.span.place := by
  induction h with
  | stop => exact .nil
  | blank _ _ ih => exact ih
  | comment _ _ _ ih => exact ih
  | lexeme _ _ _ ih => exact ih
  | rejected _ _ hs h ih | unclosed _ _ _ hs h ih =>
    refine List.pairwise_cons.2 ⟨fun e he => ?_, ih⟩
    have hlt := Place.lt_of_lt_of_le (placeAfter_lt_append _ (List.cons_ne_nil _ _))
      (h.allAfter.2 e he)
    rwa [← hs.place] at hlt

/-- Each token ends before those after it begin; behind an unclosed string the line ends, so that
there is room for the missing quote. -/
theorem Tiles.pairwise_tokens (h : Tiles file Span.Covers before cs ts es left) :
    ts.Pairwise Token.EndsBefore := by
  induction h with
  | stop => exact .nil
  | blank _ _ ih => exact ih
  | comment _ _ _ ih => exact ih
  | rejected _ _ _ _ ih => exact ih
  | @lexeme before _ _ _ _ t ht hs h ih =>
    refine List.pairwise_cons.2 ⟨fun u hu => ?_, ih⟩
    have hn := newline_notMem_of_isLexeme ht
    have hle := h.allAfter.1 u hu
    rw [placeAfter, rowAfter_append before hn, colAfter_append before hn, ← hs.row, ← hs.col] at hle
    exact hle
  | @unclosed before _ _ _ _ t _ _ hend hs h ih =>
    refine List.pairwise_cons.2 ⟨fun u hu => .inl ?_, ih⟩
    have hle : rowAfter before ≤ rowAfter (before ++ '"' :: t.text.toList) :=
      rowAfter_le_of_prefix (List.prefix_append _ _)
    calc t.row = rowAfter before := hs.row
      _ ≤ rowAfter (before ++ '"' :: t.text.toList) := hle
      _ < u.row := h.row_lt hend u hu

end Tiles

namespace SourceFile

variable {file : SourceFile}

theorem isLexeme_of_mem_tokens {t : Token} (ht : t ∈ file.lex.tokens) (heof : t.kind ≠ .eof) :
    IsLexeme t.kind t.text.toList := by
  obtain ⟨left, -, htiles, -⟩ := file.tiles_placedPieces
  apply htiles.isLexeme
  rw [← filter_tokens_lex]
  exact List.mem_filter.2 ⟨ht, decide_eq_true heof⟩

variable (h : InRange file.consumed)

include h

theorem pairwise_tokens_lex : (file.lex.tokens.filter (!·.isEof)).Pairwise Token.EndsBefore := by
  obtain ⟨left, htiles⟩ := tiles_covers h
  have hfilter : file.lex.tokens.filter (!·.isEof) =
      file.placedPieces.filterMap Placed.token? := by
    rw [← filter_tokens_lex]
    simp [Token.isEof]
  rw [hfilter]
  exact htiles.pairwise_tokens

theorem pairwise_errors_lex :
    file.lex.errors.errors.Pairwise fun e e' => e.span.place < e'.span.place := by
  obtain ⟨left, htiles⟩ := tiles_covers h
  rw [errors_lex]
  exact htiles.pairwise_errors

end SourceFile

theorem SourceFile.errors_spaced_signs {n : Nat} (hn : 0 < n) :
    (spaced ['@'] n '@').lex.errors.errors =
      [(LexFault.unexpected '@').errorAt (spaced ['@'] n '@') ⟨1, 1, 1, 1⟩,
        (LexFault.unexpected '@').errorAt (spaced ['@'] n '@')
          (spanAfter (['@'] ++ List.replicate n ' ') ['@'])] := by
  have hlast : pieces ['@'] = [.rejected '@'] :=
    (pieces_cons '@' []).trans (congrArg _ pieces_nil)
  have hfront : pieces (['@'] ++ (List.replicate n ' ' ++ ['@'])) =
      [.rejected '@'] ++ pieces (List.replicate n ' ' ++ ['@']) :=
    pieces_before_spaces (fun _ => rfl) hn _
  rw [errors_lex, filterMap_spaced hfront (by rw [hlast]; decide) fun _ _ => rfl, hlast,
    layOut_positionAfter]
  rfl

end ScriptKit
