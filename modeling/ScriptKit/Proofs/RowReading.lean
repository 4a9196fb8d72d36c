import ScriptKit.Proofs.CaretPlacement
import ScriptKit.Proofs.Lookahead

/-! Reading a drawn row. Between the tokens of a row only blanks are drawn, whatever stood there,
and tokens that touched still touch. So the row is read without an error into the same tokens, on
the first row and a column further on. -/
namespace ScriptKit

open Diagnostic

section Drawn

variable {file : SourceFile} {before cs left : List Char} {ts : List Token} {es : List SourceError}

def onRow (row : Nat) (ts : List Token) : List Token := ts.filter (·.row = row)

theorem onRow_cons_of_eq {row : Nat} {t : Token} (h : t.row = row) :
    onRow row (t :: ts) = t :: onRow row ts := by
  simp [onRow, h]

theorem onRow_cons_of_ne {row : Nat} {t : Token} (h : t.row ≠ row) :
    onRow row (t :: ts) = onRow row ts := by
  simp [onRow, h]

theorem parted_layOutFrom {cursor : Nat} (h : ∀ t ∈ ts, cursor < t.col) :
    Parted (layOutFrom cursor ts) := by
  cases ts with
  | nil => simp [layOutFrom, Parted]
  | cons t ts =>
    obtain ⟨n, hn⟩ : ∃ n, t.col - cursor = n + 1 :=
      Nat.exists_eq_add_one.2 (Nat.sub_pos_of_lt (h t List.mem_cons_self))
    rw [layOutFrom, blanks, hn, List.replicate_succ]
    rintro c ⟨⟩
    exact .inl (by decide)

theorem Tiles.onRow_eq_nil (h : Tiles file Span.Covers before cs ts es left) (hend : AtLineEnd cs) :
    onRow (rowAfter before) ts = [] := by
  refine List.filter_eq_nil_iff.2 fun t ht => ?_
  simpa using Nat.ne_of_gt (h.row_lt hend t ht)

theorem layOutFrom_onRow_cons {t : Token} {chars : List Char}
    (hs : t.span.Covers before chars) :
    layOutFrom (colAfter before) (onRow (rowAfter before) (t :: ts)) =
      t.written ++ layOutFrom (t.col + t.written.length) (onRow (rowAfter before) ts) := by
  rw [onRow_cons_of_eq hs.row, layOutFrom, show t.col = colAfter before from hs.col, Nat.sub_self]
  rfl

/-- A character that yields no token is drawn as a blank, if anything is drawn behind it. -/
theorem Tiles.parted_skipped {c : Char} (h : Tiles file Span.Covers (before ++ [c]) cs ts es left)
    (hc : '\n' ∉ [c]) :
    Parted (layOutFrom (colAfter before) (onRow (rowAfter before) ts)) := by
  refine parted_layOutFrom fun t ht => ?_
  obtain ⟨hmem, hrow⟩ := List.mem_filter.1 ht
  have hle := h.allAfter.1 t hmem
  rw [placeAfter, rowAfter_append before hc, colAfter_append before hc] at hle
  rcases hle with hlt | ⟨-, hcol⟩
  · exact absurd (of_decide_eq_true hrow) (Nat.ne_of_gt hlt)
  · exact hcol

/-- What is drawn of the rest of a row goes on like the rest of the source. -/
theorem Tiles.goesOnLike (h : Tiles file Span.Covers before cs ts es left) :
    GoesOnLike (layOutFrom (colAfter before) (onRow (rowAfter before) ts)) cs := by
  induction h with
  | stop => exact .inl (by simp [onRow, layOutFrom, Parted])
  | @blank before cs left ts es c hc h ih =>
    by_cases hn : c = '\n'
    · have hend : AtLineEnd (c :: cs) := by simp [AtLineEnd, hn]
      rw [(Tiles.blank hc h).onRow_eq_nil hend]
      exact .inl (by simp [layOutFrom, Parted])
    · exact .inl (h.parted_skipped (by simpa using Ne.symm hn))
  | @comment before body cs left ts es hb he h ih =>
    have hn : '\n' ∉ '#' :: body := by simp [hb]
    have hnil := h.onRow_eq_nil he
    rw [rowAfter_append before hn] at hnil
    rw [hnil]
    exact .inl (by simp [layOutFrom, Parted])
  | @rejected before cs left ts es c span hc hsign hs h ih =>
    refine .inl (h.parted_skipped ?_)
    rintro hn
    obtain rfl := List.mem_singleton.1 hn
    exact absurd hc (by decide)
  | @lexeme before cs left ts es t ht hs h ih =>
    have hn := newline_notMem_of_isLexeme ht
    rw [rowAfter_append before hn, colAfter_append before hn, ← hs.col] at ih
    rw [layOutFrom_onRow_cons hs]
    exact .of_append (written_ne_nil_of_isLexeme ht) ih.head?_of_isDigit
  | @unclosed before cs left ts es t hk ht he hs h ih =>
    have hn : '\n' ∉ '"' :: t.text.toList := by simpa using ht.newline_notMem
    have hnil := h.onRow_eq_nil he
    rw [rowAfter_append before hn] at hnil
    rw [layOutFrom_onRow_cons hs, hnil, Token.written, if_pos hk, layOutFrom, List.append_nil]
    refine .of_append (List.cons_ne_nil _ _) ?_
    rintro d ⟨⟩ hdigit
    exact absurd hdigit (by decide)

/-- Each token is read off the drawn row where it stands. -/
def Legible : List Token → Prop
  | [] => True
  | t :: ts =>
    pieces (t.written ++ layOutFrom (t.col + t.written.length) ts) =
        .lexeme t.kind t.text.toList :: pieces (layOutFrom (t.col + t.written.length) ts) ∧
      Legible ts

theorem Legible.onRow_cons {row : Nat} {t : Token} (hts : Legible (onRow row ts))
    (ht : t.row = row → pieces (t.written ++ layOutFrom (t.col + t.written.length) (onRow row ts)) =
      .lexeme t.kind t.text.toList ::
        pieces (layOutFrom (t.col + t.written.length) (onRow row ts))) :
    Legible (onRow row (t :: ts)) := by
  by_cases hrow : t.row = row
  · rw [onRow_cons_of_eq hrow]
    exact ⟨ht hrow, hts⟩
  · rwa [onRow_cons_of_ne hrow]

theorem legible_onRow (file : SourceFile) (before : List Char) {cs : List Char}
    {ps qs : List Piece} (h : pieces cs = ps ++ qs)
    (hrange : InRange (before ++ ps.flatMap Piece.chars)) (row : Nat) :
    Legible (onRow row ((layOut (positionAfter before) ps).filterMap Placed.token?)) := by
  induction ps generalizing cs before with
  | nil => trivial
  | cons p ps ih =>
    cases cs with
    | nil => simp at h
    | cons c cs =>
      rw [pieces_cons, List.cons_append, List.cons.injEq] at h
      obtain ⟨rfl, hrest⟩ := h
      rw [List.flatMap_cons, ← List.append_assoc] at hrange
      have htail := ih _ hrest hrange
      have htiles := tiles_of_inRange file hrest hrange
      have hplace := hrange.place_positionAfter
        ((List.prefix_append before _).trans (List.prefix_append _ _))
      have hfits := Piece.fits_read c cs
      have hreads := Piece.rereads_read c cs
      rw [layOut_positionAfter, filterMap_cons_toList]
      cases hread : (Piece.read c cs).1 with
      | blank d | comment body | rejected d =>
        rw [hread] at htail
        exact htail
      | lexeme kind text =>
        rw [hread] at htail htiles hfits hreads
        have hn := Piece.newline_notMem_chars hfits
        refine htail.onRow_cons (t := ⟨kind, String.ofList text, _⟩) ?_
        rintro rfl
        have hlike := htiles.goesOnLike
        rw [rowAfter_append before hn, colAfter_append before hn,
          ← show _ = rowAfter before from congrArg Place.row hplace,
          ← show _ = colAfter before from congrArg Place.col hplace] at hlike
        rw [Piece.written_token, String.toList_ofList]
        exact hreads _ hlike
      | unclosed text =>
        rw [hread] at htail hfits
        refine htail.onRow_cons (t := ⟨.string, String.ofList text, _⟩) fun _ => ?_
        rw [Piece.written_token, String.toList_ofList]
        exact pieces_string hfits.1

end Drawn

/-- Where a token stands in its drawn row, which begins at column zero. -/
def Token.drawn (t : Token) : Token := { t with span := spanAfter (blanks t.col) t.written }

section Reading

theorem newline_notMem_blanks (n : Nat) : '\n' ∉ blanks n := by simp [blanks]

theorem positionAfter_eq_of_length {before front : List Char} (hb : '\n' ∉ before)
    (hf : '\n' ∉ front) (h : before.length = front.length) :
    positionAfter before = positionAfter front := by
  have hrow (cs : List Char) (hn : '\n' ∉ cs) : rowAfter cs = 1 := rowAfter_append [] hn
  have hcol (cs : List Char) (hn : '\n' ∉ cs) : colAfter cs = 1 + cs.length :=
    colAfter_append [] hn
  rw [positionAfter, positionAfter, hrow _ hb, hrow _ hf, hcol _ hb, hcol _ hf, h]

theorem Placed.chars_of_token? {q : Placed} {t : Token} (h : q.token? = some t)
    (ht : IsLexeme t.kind t.text.toList) : '\n' ∉ q.piece.chars ∧ q.piece.chars ≠ [] := by
  obtain ⟨piece, first, after⟩ := q
  cases piece with
  | blank c | comment body | rejected c => cases h
  | lexeme kind text =>
    obtain rfl := Option.some.inj h
    rw [String.toList_ofList] at ht
    exact ⟨Piece.newline_notMem_chars ht, Piece.chars_lexeme_ne_nil ht⟩
  | unclosed text =>
    obtain rfl := Option.some.inj h
    rw [String.toList_ofList] at ht
    refine ⟨?_, List.cons_ne_nil _ _⟩
    simpa [Piece.chars] using IsLexeme.newline_notMem ht

variable {ts : List Token} {cursor : Nat}

/-- A legible row holds nothing but blanks and its tokens, each at its column. -/
theorem Legible.readBack (h : Legible ts) (hcursor : ∀ t ∈ ts, cursor ≤ t.col)
    (happart : ts.Pairwise fun t u => t.col + t.written.length ≤ u.col)
    (hlex : ∀ t ∈ ts, IsLexeme t.kind t.text.toList) :
    (layOut (positionAfter (blanks cursor)) (pieces (layOutFrom cursor ts))).filterMap
        Placed.token? = ts.map Token.drawn ∧
      (pieces (layOutFrom cursor ts)).countP Piece.isFaulty = 0 := by
  induction ts generalizing cursor with
  | nil => simp [layOutFrom, layOut]
  | cons t ts ih =>
    obtain ⟨hread, hts⟩ := h
    obtain ⟨hu, happart⟩ := List.pairwise_cons.1 happart
    obtain ⟨ht, hlex⟩ := List.forall_mem_cons.1 hlex
    obtain ⟨htokens, hfaults⟩ := ih hts hu happart hlex
    have hcol : blanks cursor ++ List.replicate (t.col - cursor) ' ' = blanks t.col := by
      rw [blanks, List.replicate_append_replicate,
        Nat.add_sub_cancel' (hcursor t List.mem_cons_self)]
      rfl
    have hchars : (Piece.lexeme t.kind t.text.toList).chars = t.written :=
      (Piece.written_token t.kind t.text t.span).symm
    have hafter : positionAfter (blanks t.col ++ t.written) =
        positionAfter (blanks (t.col + t.written.length)) := by
      refine positionAfter_eq_of_length ?_ (newline_notMem_blanks _) (by simp [blanks])
      simp [newline_notMem_blanks, newline_notMem_of_isLexeme ht]
    rw [layOutFrom, List.append_assoc, show blanks (t.col - cursor) = List.replicate _ ' ' from rfl,
      pieces_blanks _ (by decide), hread]
    constructor
    · rw [← hafter] at htokens
      rw [filterMap_layOut_blanks _ (fun _ _ => rfl), hcol, layOut_positionAfter, hchars,
        filterMap_cons_toList, htokens, Piece.placedAfter, hchars]
      simp [Placed.token?, Piece.content?, Token.drawn, Placed.span, spanAfter]
    · rw [List.countP_append, List.countP_cons, hfaults]
      simp [List.countP_replicate, Piece.isFaulty, Piece.fault?]

theorem rowTokens_lex (file : SourceFile) (row : Nat) :
    rowTokens file.lex.tokens row = onRow row (file.placedPieces.filterMap Placed.token?) := by
  rw [← file.filter_tokens_lex, rowTokens_eq]
  simp [onRow, Token.isEof]

variable {file : SourceFile} (h : InRange file.consumed)

include h

theorem legible_rowTokens (row : Nat) : Legible (rowTokens file.lex.tokens row) := by
  obtain ⟨qs, hqs⟩ := prefix_untilFault maxErrors (pieces file.text.toList)
  rw [rowTokens_lex]
  exact legible_onRow file [] hqs.symm h row

theorem col_lt_of_mem_rowTokens {row : Nat} {t : Token}
    (ht : t ∈ rowTokens file.lex.tokens row) : t.col + 1 < UInt32.size := by
  have hlex := isLexeme_of_mem_rowTokens file row ht
  rw [rowTokens_lex] at ht
  obtain ⟨q, hq, htoken⟩ := List.mem_filterMap.1 (List.mem_filter.1 ht).1
  obtain ⟨before, hplaced, hprefix⟩ := exists_placedAfter_of_mem [] hq
  obtain ⟨hn, hne⟩ := Placed.chars_of_token? htoken hlex
  have hplace := h.place_positionAfter ((List.prefix_append _ _).trans hprefix)
  have hcol : t.col = colAfter before := by
    obtain ⟨content, -, rfl⟩ := Option.map_eq_some_iff.1 htoken
    rw [hplaced]
    exact congrArg Place.col hplace
  have hlt := (h _ hprefix).2
  have hlength := List.length_pos_iff.2 hne
  rw [colAfter_append before hn] at hlt
  omega

end Reading

/-- The text drawn for any row of a source within range is read without an error, into the tokens of
that row with their kinds and texts, in order, on the first row and each at its own column plus one;
an end mark follows them. -/
theorem lex_rowText (file : SourceFile) (row : Nat) (name : String) (h : InRange file.consumed) :
    let line : SourceFile := ⟨name, String.ofList (rowText (rowTokens file.lex.tokens row))⟩
    line.lex.errors = .empty ∧
      line.lex.tokens = (rowTokens file.lex.tokens row).map Token.drawn ++
        [.endAt line.endPosition.row line.endPosition.col] ∧
      ∀ t ∈ rowTokens file.lex.tokens row, t.drawn.row = 1 ∧ t.drawn.col = t.col + 1 := by
  intro line
  obtain ⟨htokens, hfaults⟩ := (legible_rowTokens h row).readBack (fun t _ => Nat.zero_le t.col)
    (pairwise_rowTokens h row) fun t => isLexeme_of_mem_rowTokens file row
  have htext : line.text.toList = layOutFrom 0 (rowTokens file.lex.tokens row) :=
    String.toList_ofList
  rw [← htext] at htokens hfaults
  refine ⟨SourceFile.lex_errors_of_faultless hfaults, ?_, fun t ht => ?_⟩
  · rw [SourceFile.lex, SourceFile.placedPieces, SourceFile.readPieces_of_faultless hfaults]
    exact congrArg (· ++ _) htokens
  · have hlt := col_lt_of_mem_rowTokens h ht
    have hn := newline_notMem_of_isLexeme (isLexeme_of_mem_rowTokens file row ht)
    have hcol := colAfter_spaces t.col List.not_mem_nil
    rw [List.length_nil, Nat.zero_add, Nat.add_comm 1] at hcol
    rw [Token.row, Token.col, Token.drawn, spanAfter_eq _ hn]
    exact ⟨congrArg (UInt32.toNat ∘ UInt32.ofNat) (rowAfter_append [] (newline_notMem_blanks _)),
      (congrArg (UInt32.toNat ∘ UInt32.ofNat) hcol).trans (Span.toNat_ofNat_eq_iff.2 hlt)⟩

/-- A row with a tab, a rejected character and an unclosed string. -/
theorem lex_rowText_faulty :
    let file : SourceFile := ⟨"", "\ta @\"b"⟩
    let line : SourceFile := ⟨"", String.ofList (rowText (rowTokens file.lex.tokens 1))⟩
    InRange file.consumed ∧ line.text = "  a  \"b\"" ∧ line.lex.errors = .empty ∧
      line.lex.tokens = [⟨.identifier, "a", ⟨1, 3, 1, 3⟩⟩, ⟨.string, "b", ⟨1, 6, 1, 8⟩⟩,
        .endAt line.endPosition.row line.endPosition.col] := by
  intro file line
  have hpieces : pieces file.text.toList =
      [.blank '\t', .lexeme .identifier ['a'], .blank ' ', .rejected '@', .unclosed ['b']] := by
    have hlast : pieces ['"', 'b'] = [.unclosed ['b']] :=
      (pieces_cons '"' ['b']).trans (congrArg _ pieces_nil)
    have hsign : pieces ['@', '"', 'b'] = [.rejected '@', .unclosed ['b']] :=
      (pieces_cons '@' ['"', 'b']).trans (congrArg _ hlast)
    have hname : pieces ['a', ' ', '@', '"', 'b'] = .lexeme .identifier ['a'] ::
        pieces [' ', '@', '"', 'b'] := pieces_cons 'a' [' ', '@', '"', 'b']
    have htext : file.text.toList = ['\t', 'a', ' ', '@', '"', 'b'] := by decide
    rw [htext, pieces_blank (by decide), hname, pieces_blank (by decide), hsign]
  have hrange : InRange file.consumed := by
    rw [SourceFile.consumed, SourceFile.readPieces, hpieces]
    exact inRange_of_length (by decide)
  have hrow : rowTokens file.lex.tokens 1 =
      [⟨.identifier, "a", ⟨1, 2, 1, 2⟩⟩, ⟨.string, "b", ⟨1, 5, 1, 6⟩⟩] := by
    rw [SourceFile.lex, SourceFile.placedPieces, SourceFile.readPieces, hpieces]
    decide
  have hdrawn : (rowTokens file.lex.tokens 1).map Token.drawn =
      [⟨.identifier, "a", ⟨1, 3, 1, 3⟩⟩, ⟨.string, "b", ⟨1, 6, 1, 8⟩⟩] := by
    rw [hrow]
    decide
  obtain ⟨herrors, htokens, -⟩ := lex_rowText file 1 "" hrange
  rw [hdrawn] at htokens
  refine ⟨hrange, ?_, herrors, htokens⟩
  simp only [line, hrow]
  decide

/-- Two names as far apart as the counter can count are drawn as one. -/
theorem names_drawn_as_one :
    let file := SourceFile.spaced ['a'] 4294967295 'x'
    rowTokens file.lex.tokens 1 =
        [⟨.identifier, "a", ⟨1, 1, 1, 1⟩⟩, ⟨.identifier, "x", ⟨1, 1, 1, 1⟩⟩] ∧
      rowText (rowTokens file.lex.tokens 1) = [' ', 'a', 'x'] ∧
      (SourceFile.mk "" " ax").lex.tokens =
        [⟨.identifier, "ax", ⟨1, 2, 1, 3⟩⟩, .endAt 1 4] := by
  intro file
  obtain ⟨row, col, htokens⟩ := tokens_spaced_names (n := 4294967295) (by decide)
  rw [spanAfter_spaces _ (by decide) (by decide)] at htokens
  have hrow : rowTokens file.lex.tokens 1 =
      [⟨.identifier, "a", ⟨1, 1, 1, 1⟩⟩, ⟨.identifier, "x", ⟨1, 1, 1, 1⟩⟩] := by
    rw [show file.lex.tokens = _ from htokens]
    rfl
  have hpieces : pieces " ax".toList = [.blank ' ', .lexeme .identifier ['a', 'x']] := by
    have hname : pieces ['a', 'x'] = [.lexeme .identifier ['a', 'x']] :=
      (pieces_cons 'a' ['x']).trans (congrArg _ pieces_nil)
    exact (pieces_blank (by decide)).trans (congrArg _ hname)
  refine ⟨hrow, by rw [hrow]; rfl, ?_⟩
  rw [SourceFile.lex, SourceFile.endPosition, SourceFile.consumed, SourceFile.placedPieces,
    SourceFile.readPieces, hpieces]
  decide

end ScriptKit
