import ScriptKit.Proofs.Drawing
import ScriptKit.Proofs.ReadingOrder

/-! Where carets stand. The tokens of a row do not overlap, so each is drawn at its own column, and
the carets of a message begin right under it. -/
namespace ScriptKit

namespace Diagnostic

section Row

variable {ts : List Token} {cursor : Nat}

/-- Tokens that begin at the cursor or later and do not overlap are drawn at their columns. -/
theorem written_prefix_layOutFrom (hcursor : ∀ t ∈ ts, cursor ≤ t.col)
    (happart : ts.Pairwise fun t u => t.col + t.written.length ≤ u.col) {t : Token} (ht : t ∈ ts) :
    t.written <+: (layOutFrom cursor ts).drop (t.col - cursor) := by
  induction ts generalizing cursor with
  | nil => cases ht
  | cons u ts ih =>
    obtain ⟨hu, hts⟩ := List.pairwise_cons.1 happart
    have hlength : (blanks (u.col - cursor) ++ u.written).length =
        u.col - cursor + u.written.length := by simp [blanks]
    rw [layOutFrom]
    rcases List.mem_cons.1 ht with rfl | ht
    · rw [List.append_assoc, List.drop_left' (by simp [blanks])]
      exact List.prefix_append _ _
    · have hle := hu t ht
      have hfirst := hcursor u List.mem_cons_self
      have hdrop : t.col - cursor = (blanks (u.col - cursor) ++ u.written).length +
          (t.col - (u.col + u.written.length)) := by omega
      rw [hdrop, List.drop_length_add_append]
      exact ih hu hts ht

theorem newline_notMem_layOutFrom (h : ∀ t ∈ ts, '\n' ∉ t.written) (cursor : Nat) :
    '\n' ∉ layOutFrom cursor ts := by
  induction ts generalizing cursor with
  | nil => exact List.not_mem_nil
  | cons t ts ih =>
    obtain ⟨ht, hts⟩ := List.forall_mem_cons.1 h
    simp only [layOutFrom, blanks, List.mem_append, List.mem_replicate, not_or]
    exact ⟨⟨by simp, ht⟩, ih hts _⟩

end Row

section Lexed

variable (file : SourceFile)

theorem rowTokens_eq (tokens : List Token) (row : Nat) :
    rowTokens tokens row = (tokens.filter (!·.isEof)).filter (·.row = row) := by
  rw [List.filter_filter, rowTokens]
  exact List.filter_congr fun t _ => Bool.and_comm _ _

theorem isLexeme_of_mem_rowTokens (row : Nat) {t : Token}
    (h : t ∈ rowTokens file.lex.tokens row) : IsLexeme t.kind t.text.toList := by
  obtain ⟨hmem, hrow⟩ := List.mem_filter.1 h
  refine file.isLexeme_of_mem_tokens hmem fun heof => ?_
  simp [Token.isEof, heof] at hrow

theorem newline_notMem_rowLine (row : Nat) : '\n' ∉ rowLine file.lex.tokens row := by
  have hdigits : '\n' ∉ digits row := fun hn =>
    absurd (Nat.isDigit_of_mem_toDigits (by decide) (by decide) hn) (by decide)
  have htext : '\n' ∉ rowText (rowTokens file.lex.tokens row) :=
    newline_notMem_layOutFrom
      (fun t ht => newline_notMem_of_isLexeme (isLexeme_of_mem_rowTokens file row ht)) 0
  simp only [rowLine, blanks, List.mem_append, List.mem_replicate, not_or]
  exact ⟨⟨hdigits, by decide⟩, htext⟩

theorem drop_rowLine (tokens : List Token) (row n : Nat) :
    (rowLine tokens row).drop ((digits row).length + gutter + n) =
      (rowText (rowTokens tokens row)).drop n := by
  have hlength : (digits row).length + gutter = (digits row ++ blanks gutter).length := by
    simp [blanks]
  rw [rowLine, hlength, List.drop_length_add_append]

variable {file} (h : InRange file.consumed)

include h

theorem pairwise_rowTokens (row : Nat) :
    (rowTokens file.lex.tokens row).Pairwise fun t u => t.col + t.written.length ≤ u.col := by
  rw [rowTokens_eq]
  refine ((file.pairwise_tokens_lex h).filter _).imp_of_mem fun {t u} ht hu hends => ?_
  have htrow : t.row = row := by simpa using (List.mem_filter.1 ht).2
  have hurow : u.row = row := by simpa using (List.mem_filter.1 hu).2
  rcases hends with hlt | ⟨-, hle⟩
  · exact absurd (htrow.trans hurow.symm) (Nat.ne_of_lt hlt)
  · exact hle

theorem written_prefix_rowLine {t : Token} (ht : t ∈ file.lex.tokens) (heof : t.kind ≠ .eof) :
    t.written <+:
      (rowLine file.lex.tokens t.row).drop ((digits t.row).length + gutter + t.col) := by
  have hmem : t ∈ rowTokens file.lex.tokens t.row :=
    List.mem_filter.2 ⟨ht, by simp [Token.isEof, heof]⟩
  rw [drop_rowLine]
  exact written_prefix_layOutFrom (fun u _ => Nat.zero_le u.col) (pairwise_rowTokens h t.row) hmem

end Lexed

section Carets

variable (t : Token)

theorem caretLine_plain :
    caretLine .plain t =
      blanks ((digits t.row).length + gutter + t.col) ++ List.replicate (max t.width 1) '^' := by
  simp [caretLine, Palette.plain]

theorem idxOf_caretLine :
    (caretLine .plain t).idxOf '^' = (digits t.row).length + gutter + t.col := by
  have hblank : '^' ∉ blanks ((digits t.row).length + gutter + t.col) := by simp [blanks]
  obtain ⟨n, hn⟩ : ∃ n, max t.width 1 = n + 1 := ⟨max t.width 1 - 1, by omega⟩
  rw [caretLine_plain, List.idxOf_append_of_notMem hblank, hn, List.replicate_succ,
    List.idxOf_cons_self]
  simp [blanks]

theorem newline_notMem_caretLine : '\n' ∉ caretLine .plain t := by
  rw [caretLine_plain]
  simp [blanks]

end Carets

section Lines

variable (file : SourceFile)

theorem splitOn_rowLines (rows : List Nat) (rest : List Char) :
    (rows.flatMap (fun row => rowLine file.lex.tokens row ++ ['\n']) ++ rest).splitOn '\n' =
      rows.map (rowLine file.lex.tokens) ++ rest.splitOn '\n' := by
  induction rows with
  | nil => rfl
  | cons row rows ih =>
    rw [List.flatMap_cons, List.map_cons, List.append_assoc, List.append_assoc,
      List.singleton_append,
      List.splitOn_append_cons_self_of_not_mem (newline_notMem_rowLine file row), ih,
      List.cons_append]

/-- The lines of a drawn text: the place, an empty line, the row above if there is one, the row of
the token, the carets, and what follows them. -/
theorem lines_render (name : String) (t : Token) (message : String) :
    (render .plain name file.lex.tokens t message).toList.splitOn '\n' =
      (placeLine .plain name t).splitOn '\n' ++
        [] :: ((rowBefore? file.lex.tokens t.row).toList.map (rowLine file.lex.tokens) ++
          rowLine file.lex.tokens t.row :: caretLine .plain t ::
            ((rowAfter? file.lex.tokens t.row).toList.flatMap (drawRow .plain file.lex.tokens t) ++
              message.toList).splitOn '\n') := by
  have hempty : ∀ cs : List Char, ('\n' :: cs).splitOn '\n' = [] :: cs.splitOn '\n' :=
    List.splitOn_append_cons_self_of_not_mem List.not_mem_nil
  rw [toList_render, heading, flatMap_drawRow]
  simp only [List.append_assoc, List.cons_append, List.nil_append]
  rw [List.splitOn_append_cons_self, hempty, splitOn_rowLines,
    List.splitOn_append_cons_self_of_not_mem (newline_notMem_rowLine file t.row),
    List.splitOn_append_cons_self_of_not_mem (newline_notMem_caretLine t)]

end Lines

/-- In the text drawn for a token, the line of the token's row is followed at once by that of the
carets. These are as many as the token has characters, at least one, behind blanks alone; and if the
source is within range, from the place of the first caret on the row begins with the token, a string
between its quotes. -/
theorem carets_under_token (name : String) (file : SourceFile) {t : Token}
    (ht : t ∈ file.lex.tokens) (heof : t.kind ≠ .eof) (message : String) :
    let c := Collector.new name file.lex.tokens .plain
    let line := rowLine file.lex.tokens t.row
    ∃ carets below,
      (c.render t message).toList.splitOn '\n' =
        (placeLine .plain name t).splitOn '\n' ++
          [] :: ((rowBefore? file.lex.tokens t.row).toList.map (rowLine file.lex.tokens) ++
            line :: carets :: below) ∧
      let k := carets.idxOf '^'
      (InRange file.consumed →
        (if t.kind = .string then '"' :: t.text.toList ++ ['"'] else t.text.toList) <+:
          line.drop k) ∧
      carets = List.replicate k ' ' ++ List.replicate (max 1 t.text.length) '^' := by
  intro c line
  refine ⟨caretLine .plain t, _, lines_render file name t message, ?_⟩
  rw [idxOf_caretLine]
  refine ⟨fun h => written_prefix_rowLine h ht heof, ?_⟩
  rw [caretLine_plain, Nat.max_comm]
  rfl

/-- An unclosed string behind another one: it is drawn in quotes, with the caret under the first. -/
theorem carets_under_token_unclosed :
    let file : SourceFile := ⟨"", "\"a\" \"b"⟩
    let t : Token := ⟨.string, "b", ⟨1, 5, 1, 6⟩⟩
    t ∈ file.lex.tokens ∧ t.kind ≠ .eof ∧ InRange file.consumed ∧
      ∃ carets, ['"', 'b', '"'] <+: (rowLine file.lex.tokens t.row).drop (carets.idxOf '^') ∧
        carets = List.replicate (carets.idxOf '^') ' ' ++ ['^'] := by
  intro file t
  have hpieces : pieces file.text.toList =
      [.lexeme .string ['a'], .blank ' ', .unclosed ['b']] := by
    have hlast : pieces ['"', 'b'] = [.unclosed ['b']] :=
      (pieces_cons '"' ['b']).trans (congrArg _ pieces_nil)
    have hblank : pieces [' ', '"', 'b'] = [.blank ' ', .unclosed ['b']] := by
      rw [pieces_blank (by decide), hlast]
    have hread : Piece.read '"' ['a', '"', ' ', '"', 'b'] =
        (.lexeme .string ['a'], [' ', '"', 'b']) := by decide
    have htext : file.text.toList = ['"', 'a', '"', ' ', '"', 'b'] := by decide
    rw [htext, pieces_cons, hread, hblank]
  have ht : t ∈ file.lex.tokens := by
    rw [SourceFile.lex, SourceFile.placedPieces, SourceFile.readPieces, hpieces]
    decide
  have hrange : InRange file.consumed := by
    rw [SourceFile.consumed, SourceFile.readPieces, hpieces]
    exact inRange_of_length (by decide)
  obtain ⟨carets, below, -, hrow, hcarets⟩ := carets_under_token "" file ht (by decide) ""
  have htext : t.text.toList = ['b'] := by decide
  have hlength : max 1 t.text.length = 1 := by decide
  rw [if_pos rfl, htext] at hrow
  rw [hlength] at hcarets
  exact ⟨ht, by decide, hrange, carets, hrow hrange, hcarets⟩

section Apart

open SourceFile

theorem tokens_spaced_names {n : Nat} (hn : 0 < n) :
    ∃ row col, (spaced ['a'] n 'x').lex.tokens =
      [⟨.identifier, "a", ⟨1, 1, 1, 1⟩⟩,
        ⟨.identifier, "x", spanAfter (['a'] ++ List.replicate n ' ') ['x']⟩, .endAt row col] := by
  have hfront : pieces (['a'] ++ (List.replicate n ' ' ++ ['x'])) =
      [.lexeme .identifier ['a']] ++ pieces (List.replicate n ' ' ++ ['x']) :=
    pieces_before_spaces (fun _ => rfl) hn _
  refine ⟨(spaced ['a'] n 'x').endPosition.row, (spaced ['a'] n 'x').endPosition.col, ?_⟩
  rw [lex, filterMap_spaced hfront (by rw [pieces_letter]; decide) fun _ _ => rfl, pieces_letter,
    layOut_positionAfter]
  rfl

theorem render_endAt (palette : Palette) (name : String) (ts : List Token) (row col : UInt32)
    (t : Token) (message : String) :
    render palette name (ts ++ [.endAt row col]) t message = render palette name ts t message := by
  have hrow (r : Nat) : rowTokens (ts ++ [.endAt row col]) r = rowTokens ts r := by
    simp [rowTokens]
  have hrows : populatedRows (ts ++ [.endAt row col]) = populatedRows ts := by
    simp [populatedRows]
  have hdraw : drawRow palette (ts ++ [.endAt row col]) t = drawRow palette ts t := by
    funext r
    rw [drawRow, drawRow, rowLine, rowLine, hrow]
  simp only [render, contextRows, rowBefore?, rowAfter?, hdraw, hrows]

/-- A name as far behind another as the counter can count says that it stands in the other's place.
It is drawn behind it, and its caret under the other. -/
theorem caret_under_other_name :
    let file := spaced ['a'] 4294967295 'x'
    let t : Token := ⟨.identifier, "x", ⟨1, 1, 1, 1⟩⟩
    t ∈ file.lex.tokens ∧
      (Collector.new "" file.lex.tokens .plain).render t "" = ":1:1:\n\n1     ax\n      ^\n" := by
  intro file t
  obtain ⟨row, col, htokens⟩ := tokens_spaced_names (n := 4294967295) (by decide)
  rw [spanAfter_spaces _ (by decide) (by decide)] at htokens
  rw [show file.lex.tokens = _ from htokens]
  refine ⟨.tail _ (.head _), ?_⟩
  exact (render_endAt .plain "" [_, _] row col t "").trans (by decide)

end Apart

end Diagnostic
end ScriptKit
