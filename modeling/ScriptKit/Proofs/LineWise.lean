import Mathlib.Data.List.Basic
import ScriptKit.Proofs.LongestMatch
import ScriptKit.Proofs.SourceLines

/-! Reading goes line by line. No piece looks past a line feed or takes one in with other
characters, so two texts with a line feed between them are read one after the other, the second
only further down. -/
namespace ScriptKit

section Class

variable {p : Char → Bool}

theorem takeWhile_append_newline (hp : p '\n' = false) (cs rest : List Char) :
    (cs ++ '\n' :: rest).takeWhile p = cs.takeWhile p := by
  induction cs with
  | nil => simp [hp]
  | cons c cs ih => cases hc : p c <;> simp [hc, ih]

theorem dropWhile_append_newline (hp : p '\n' = false) (cs rest : List Char) :
    (cs ++ '\n' :: rest).dropWhile p = cs.dropWhile p ++ '\n' :: rest := by
  induction cs with
  | nil => simp [hp]
  | cons c cs ih => cases hc : p c <;> simp [hc, ih]

end Class

namespace Piece

/-- A line feed ends what is read just as the end of the text does. -/
def EndsAtNewline (read : List Char → Piece × List Char) : Prop :=
  ∀ cs rest, read (cs ++ '\n' :: rest) = ((read cs).1, (read cs).2 ++ '\n' :: rest)

theorem endsAtNewline_readNumber : EndsAtNewline readNumber := by
  intro cs rest
  have hdigit : Char.isDigit '\n' = false := by decide
  simp only [readNumber, takeWhile_append_newline hdigit, dropWhile_append_newline hdigit]
  cases hdrop : cs.dropWhile Char.isDigit with
  | nil => rfl
  | cons c tail =>
    by_cases hc : c = '.'
    · subst hc
      cases tail with
      | nil => simp [hdigit]
      | cons d tail =>
        by_cases hd : d.isDigit = true
        · simp [hd, takeWhile_append_newline hdigit, dropWhile_append_newline hdigit]
        · simp [hd]
    · simp [hc]

theorem endsAtNewline_readName : EndsAtNewline readName := by
  intro cs rest
  have hpart : isNamePart '\n' = false := by decide
  simp only [readName, takeWhile_append_newline hpart, dropWhile_append_newline hpart]

theorem endsAtNewline_readString : EndsAtNewline readString := by
  intro cs rest
  have hpart : isStringPart '\n' = false := by decide
  simp only [readString, takeWhile_append_newline hpart, dropWhile_append_newline hpart]
  cases hdrop : cs.dropWhile isStringPart with
  | nil => rfl
  | cons c tail =>
    by_cases hc : c = '"'
    · subst hc
      rfl
    · simp [hc]

theorem endsAtNewline_readSign (c : Char) : EndsAtNewline (readSign c) := by
  intro cs rest
  unfold readSign
  split <;> rfl

theorem endsAtNewline_readSymbol (c : Char) : EndsAtNewline (readSymbol c) := by
  intro cs rest
  cases cs with
  | nil =>
    have hnone : Symbol.ofChars? [c, '\n'] = none := by
      cases hfound : Symbol.ofChars? [c, '\n'] with
      | none => rfl
      | some sign =>
        have hlex : IsLexeme (.symbol sign) [c, '\n'] := (Symbol.chars_of_ofChars? hfound).symm
        exact absurd (by simp) hlex.newline_notMem
    have hread : readSymbol c ('\n' :: rest) = readSign c ('\n' :: rest) := by
      rw [readSymbol, hnone]
    exact hread.trans (endsAtNewline_readSign c [] rest)
  | cons d tail =>
    rw [List.cons_append, readSymbol, readSymbol]
    split
    · rfl
    · exact endsAtNewline_readSign c (d :: tail) rest

theorem endsAtNewline_read (c : Char) : EndsAtNewline (read c) := by
  intro cs rest
  unfold read
  split
  · rfl
  split
  · have hcomment : (decide ('\n' ≠ '\n')) = false := by decide
    rw [takeWhile_append_newline hcomment, dropWhile_append_newline hcomment]
  split
  · exact endsAtNewline_readString cs rest
  split
  · exact endsAtNewline_readNumber (c :: cs) rest
  split
  · exact endsAtNewline_readName (c :: cs) rest
  · exact endsAtNewline_readSymbol c cs rest

end Piece

theorem pieces_append_newline (cs ds : List Char) :
    pieces (cs ++ '\n' :: ds) = pieces cs ++ .blank '\n' :: pieces ds := by
  fun_induction pieces cs with
  | case1 => exact pieces_blank (by decide)
  | case2 c cs ih => rw [List.cons_append, pieces_cons, Piece.endsAtNewline_read, ih,
      List.cons_append]

/-- The same place some rows and characters further on. -/
def Position.down (rows chars : Nat) (p : Position) : Position :=
  ⟨p.offset + chars, p.row + UInt32.ofNat rows, p.col⟩

def Span.down (rows : Nat) (s : Span) : Span :=
  ⟨s.startLine + UInt32.ofNat rows, s.startCol, s.endLine + UInt32.ofNat rows, s.endCol⟩

def Token.down (rows : Nat) (t : Token) : Token := { t with span := t.span.down rows }

def SourceError.down (rows : Nat) (e : SourceError) : SourceError :=
  { e with span := e.span.down rows }

def Placed.down (rows chars : Nat) (q : Placed) : Placed :=
  ⟨q.piece, q.first.down rows chars, q.after.down rows chars⟩

/-- One stretch is that of another some rows further down. -/
structure Span.IsBelow (s : Span) (rows : Nat) (other : Span) : Prop where
  startLine : s.startLine.toNat = other.startLine.toNat + rows
  startCol : s.startCol = other.startCol
  endLine : s.endLine.toNat = other.endLine.toNat + rows
  endCol : s.endCol = other.endCol

section Down

variable {rows chars : Nat}

theorem toNat_add_ofNat {n : UInt32} (h : n.toNat + rows < UInt32.size) :
    (n + UInt32.ofNat rows).toNat = n.toNat + rows := by
  have hrows : (UInt32.ofNat rows).toNat = rows := Span.toNat_ofNat_eq_iff.2 (by omega)
  rw [UInt32.toNat_add, hrows]
  exact Nat.mod_eq_of_lt h

theorem Span.isBelow_down {s : Span} (hstart : s.startLine.toNat + rows < UInt32.size)
    (hend : s.endLine.toNat + rows < UInt32.size) : (s.down rows).IsBelow rows s :=
  ⟨toNat_add_ofNat hstart, rfl, toNat_add_ofNat hend, rfl⟩

theorem Position.advance_down (p : Position) (cs : List Char) :
    (p.down rows chars).advance cs = (p.advance cs).down rows chars := by
  induction cs generalizing p with
  | nil => rfl
  | cons c cs ih =>
    have hnext : (p.down rows chars).next c = (p.next c).down rows chars := by
      by_cases hc : c = '\n' <;>
        simp [next, down, hc, Nat.add_right_comm, UInt32.add_assoc, UInt32.add_comm 1]
    rw [advance_cons, advance_cons, hnext, ih]

theorem layOut_down (p : Position) (ps : List Piece) :
    layOut (p.down rows chars) ps = (layOut p ps).map (Placed.down rows chars) := by
  induction ps generalizing p with
  | nil => rfl
  | cons piece ps ih =>
    rw [layOut, layOut, Position.advance_down, ih]
    rfl

theorem Placed.token?_down (q : Placed) :
    (q.down rows chars).token? = q.token?.map (Token.down rows) := by
  rw [token?, token?, Option.map_map]
  rfl

theorem Placed.error?_down {file file' : SourceFile} (hname : file.name = file'.name) {q : Placed}
    (hline : file.lineOrEmpty (q.down rows chars).span.row = file'.lineOrEmpty q.span.row) :
    (q.down rows chars).error? file = (q.error? file').map (SourceError.down rows) := by
  rw [error?, error?, Option.map_map, hname, hline]
  rfl

end Down

namespace SourceFile

theorem readPieces_of_totalErrors_lt {file : SourceFile}
    (h : file.lex.errors.totalErrors.toNat < maxErrors) :
    file.readPieces = pieces file.text.toList := by
  rw [totalErrors_lex, errors_lex, placedPieces, length_errors_layOut] at h
  exact (untilFault_spec maxErrors (pieces file.text.toList)).2 h

theorem totalErrors_eq_countP {file : SourceFile}
    (h : file.lex.errors.totalErrors.toNat < maxErrors) :
    file.lex.errors.totalErrors.toNat = (pieces file.text.toList).countP Piece.isFaulty := by
  rw [← readPieces_of_totalErrors_lt h, totalErrors_lex, errors_lex, placedPieces,
    length_errors_layOut]

/-- A piece that is read begins and ends on a row of the text. -/
theorem exists_rows_of_mem {file : SourceFile} {q : Placed} (hq : q ∈ file.placedPieces) :
    ∃ row row', q.span.startLine = UInt32.ofNat row ∧ q.span.endLine = UInt32.ofNat row' ∧
      row ≤ rowAfter file.text.toList ∧ row' ≤ rowAfter file.text.toList := by
  obtain ⟨before, c, rest, htext, rfl⟩ := file.exists_read_of_mem hq
  refine ⟨rowAfter before, rowAfter (before ++ (Piece.read c rest).1.chars), rfl, rfl,
    rowAfter_le_of_prefix ⟨c :: rest, htext.symm⟩,
    rowAfter_le_of_prefix ⟨(Piece.read c rest).2, ?_⟩⟩
  rw [List.append_assoc, Piece.chars_read, htext]

def joined (name text text' : String) : SourceFile := ⟨name, text ++ "\n" ++ text'⟩

section Joined

variable (name text text' : String)

theorem toList_joined :
    (joined name text text').text.toList = text.toList ++ '\n' :: text'.toList := by
  simp [joined]

theorem rowAfter_joined :
    rowAfter (joined name text text').text.toList =
      rowAfter text'.toList + (1 + text.toList.count '\n') := by
  rw [toList_joined, rowAfter, rowAfter, List.count_append, List.count_cons_self]
  omega

theorem lineOrEmpty_joined {row : Nat} (hrow : row ≤ rowAfter text.toList) :
    (joined name text text').lineOrEmpty row = (mk name text).lineOrEmpty row := by
  cases row with
  | zero => rfl
  | succ i =>
    rw [rowAfter] at hrow
    have hlength := length_splitOn_newline text.toList
    rw [lineOrEmpty, lineOrEmpty, line?_succ, line?_succ, toList_joined,
      List.splitOn_append_cons_self, List.getElem?_append_left (by omega)]

theorem lineOrEmpty_joined_down (i : Nat) :
    (joined name text text').lineOrEmpty (1 + i + (1 + text.toList.count '\n')) =
      (mk name text').lineOrEmpty (1 + i) := by
  have hlength := length_splitOn_newline text.toList
  have hrow : 1 + i + (1 + text.toList.count '\n') =
      i + (text.toList.splitOn '\n').length + 1 := by omega
  rw [hrow, Nat.add_comm 1 i, lineOrEmpty, lineOrEmpty, line?_succ, line?_succ, toList_joined,
    List.splitOn_append_cons_self, List.getElem?_append_right (Nat.le_add_left ..),
    Nat.add_sub_cancel]

/-- What follows the line feed stands as at the start of a text, only further on. -/
theorem positionAfter_newline (cs : List Char) :
    positionAfter (cs ++ ['\n']) = Position.start.down (1 + cs.count '\n') (cs.length + 1) := by
  simp [positionAfter, rowAfter, colAfter, Position.start, Position.down, Nat.add_comm,
    UInt32.add_comm]

theorem error?_joined {q : Placed} (hq : q ∈ (mk name text).placedPieces) :
    q.error? (joined name text text') = q.error? (mk name text) := by
  obtain ⟨row, -, hrow, -, hle, -⟩ := exists_rows_of_mem hq
  have hspan : q.span.row ≤ rowAfter text.toList := by
    rw [Span.row, hrow, UInt32.toNat_ofNat']
    exact Nat.le_trans (Nat.mod_le _ _) hle
  rw [Placed.error?, Placed.error?, lineOrEmpty_joined name text text' hspan]
  rfl

theorem error?_joined_down (hrows : rowAfter (joined name text text').text.toList < UInt32.size)
    {q : Placed} (hq : q ∈ (mk name text').placedPieces) (chars : Nat) :
    (q.down (1 + text.toList.count '\n') chars).error? (joined name text text') =
      (q.error? (mk name text')).map (SourceError.down (1 + text.toList.count '\n')) := by
  rw [rowAfter_joined] at hrows
  obtain ⟨before, c, rest, htext, rfl⟩ := exists_read_of_mem _ hq
  have hle : rowAfter before ≤ rowAfter text'.toList := rowAfter_le_of_prefix ⟨_, htext.symm⟩
  have hrow : (UInt32.ofNat (rowAfter before)).toNat = rowAfter before :=
    Span.toNat_ofNat_eq_iff.2 (by omega)
  have hname : (joined name text text').name = (mk name text').name := rfl
  refine Placed.error?_down hname ?_
  have hline := lineOrEmpty_joined_down name text text' (before.count '\n')
  have hdown : (UInt32.ofNat (rowAfter before) + UInt32.ofNat (1 + text.toList.count '\n')).toNat =
      rowAfter before + (1 + text.toList.count '\n') := by
    rw [toNat_add_ofNat (by omega), hrow]
  exact (congrArg _ hdown).trans (hline.trans (congrArg _ hrow.symm))

variable (h : (mk name text).lex.errors.totalErrors.toNat +
  (mk name text').lex.errors.totalErrors.toNat < maxErrors)

include h

/-- The faults of the whole are those of its two parts, too few to end the reading early. -/
theorem readPieces_joined :
    (joined name text text').readPieces =
      pieces text.toList ++ .blank '\n' :: pieces text'.toList := by
  have hlt := Nat.lt_of_le_of_lt (Nat.le_add_right ..) h
  have hlt' := Nat.lt_of_le_of_lt (Nat.le_add_left ..) h
  have hpieces : pieces (joined name text text').text.toList =
      pieces text.toList ++ .blank '\n' :: pieces text'.toList := by
    rw [toList_joined, pieces_append_newline]
  rw [readPieces_eq, hpieces]
  rw [totalErrors_eq_countP hlt, totalErrors_eq_countP hlt'] at h
  rw [hpieces, List.countP_append, List.countP_cons_of_neg (by decide)]
  exact h

theorem totalErrors_joined :
    (joined name text text').lex.errors.totalErrors.toNat =
      (mk name text).lex.errors.totalErrors.toNat +
        (mk name text').lex.errors.totalErrors.toNat := by
  have hlt := Nat.lt_of_le_of_lt (Nat.le_add_right ..) h
  have hlt' := Nat.lt_of_le_of_lt (Nat.le_add_left ..) h
  rw [totalErrors_lex, errors_lex, placedPieces, length_errors_layOut,
    readPieces_joined name text text' h, List.countP_append, List.countP_cons_of_neg (by decide),
    totalErrors_eq_countP hlt, totalErrors_eq_countP hlt']

theorem placedPieces_joined :
    (joined name text text').placedPieces =
      (mk name text).placedPieces ++ (Piece.blank '\n').placedAfter text.toList ::
        (mk name text').placedPieces.map
          (Placed.down (1 + text.toList.count '\n') (text.toList.length + 1)) := by
  have hlt := Nat.lt_of_le_of_lt (Nat.le_add_right ..) h
  have hlt' := Nat.lt_of_le_of_lt (Nat.le_add_left ..) h
  rw [placedPieces, readPieces_joined name text text' h, layOut_append, flatMap_chars_pieces,
    start_advance, layOut_positionAfter, Piece.chars, positionAfter_newline, layOut_down,
    placedPieces, placedPieces, readPieces_of_totalErrors_lt hlt, readPieces_of_totalErrors_lt hlt']

theorem filterMap_token?_joined :
    (joined name text text').placedPieces.filterMap Placed.token? =
      (mk name text).placedPieces.filterMap Placed.token? ++
        ((mk name text').placedPieces.filterMap Placed.token?).map
          (Token.down (1 + text.toList.count '\n')) := by
  rw [placedPieces_joined name text text' h, List.filterMap_append, List.filterMap_cons_none rfl,
    List.filterMap_map, List.map_filterMap]
  congr 1
  exact List.filterMap_congr fun q _ => q.token?_down

theorem filterMap_error?_joined
    (hrows : rowAfter (joined name text text').text.toList < UInt32.size) :
    (joined name text text').placedPieces.filterMap (Placed.error? (joined name text text')) =
      (mk name text).placedPieces.filterMap (Placed.error? (mk name text)) ++
        ((mk name text').placedPieces.filterMap (Placed.error? (mk name text'))).map
          (SourceError.down (1 + text.toList.count '\n')) := by
  rw [placedPieces_joined name text text' h, List.filterMap_append, List.filterMap_cons_none rfl,
    List.filterMap_map, List.map_filterMap]
  congr 1
  · exact List.filterMap_congr fun q hq => error?_joined name text text' hq
  · exact List.filterMap_congr fun q hq => error?_joined_down name text text' hrows hq _

end Joined

/-- While the last row can be counted, everything on a row of the second text is as many rows
further down. -/
theorem isBelow_of_mem {name text text' : String}
    (hrows : rowAfter (joined name text text').text.toList < UInt32.size) {q : Placed}
    (hq : q ∈ (mk name text').placedPieces) :
    (q.span.down (1 + text.toList.count '\n')).IsBelow (1 + text.toList.count '\n') q.span := by
  rw [rowAfter_joined] at hrows
  obtain ⟨row, row', hstart, hend, hle, hle'⟩ := exists_rows_of_mem hq
  have hmod : ∀ n, (UInt32.ofNat n).toNat ≤ n := fun n => by
    rw [UInt32.toNat_ofNat']
    exact Nat.mod_le _ _
  have hrow := hmod row
  have hrow' := hmod row'
  apply Span.isBelow_down
  · rw [hstart]
    exact Nat.lt_of_le_of_lt (Nat.add_le_add_right (Nat.le_trans hrow hle) _) hrows
  · rw [hend]
    exact Nat.lt_of_le_of_lt (Nat.add_le_add_right (Nat.le_trans hrow' hle') _) hrows

/-- Reading goes line by line: while the errors of two texts are fewer than the limit together, the
tokens of the texts with a line feed between them are those of the first, followed by those of the
second, with rows counted on from the line feed. While the last row can be counted, these are as
many rows further down as the first text and the line feed take up, and so are the errors. -/
theorem lex_append_newline (name text text' : String)
    (h : (mk name text).lex.errors.totalErrors.toNat +
      (mk name text').lex.errors.totalErrors.toNat < maxErrors) :
    let lexed := (mk name (text ++ "\n" ++ text')).lex
    let first := (mk name text).lex
    let second := (mk name text').lex
    let rows := 1 + text.toList.count '\n'
    lexed.tokens.filter (·.kind ≠ .eof) =
        first.tokens.filter (·.kind ≠ .eof) ++
          (second.tokens.filter (·.kind ≠ .eof)).map (Token.down rows) ∧
      lexed.errors.totalErrors.toNat =
        first.errors.totalErrors.toNat + second.errors.totalErrors.toNat ∧
      (rowAfter (text ++ "\n" ++ text').toList < UInt32.size →
        (∀ t ∈ second.tokens, t.kind ≠ .eof → (t.down rows).span.IsBelow rows t.span) ∧
        lexed.errors.errors =
          first.errors.errors ++ second.errors.errors.map (SourceError.down rows) ∧
        ∀ e ∈ second.errors.errors, (e.down rows).span.IsBelow rows e.span) := by
  intro lexed first second rows
  refine ⟨?_, totalErrors_joined name text text' h, ?_⟩
  · rw [filter_tokens_lex, filter_tokens_lex, filter_tokens_lex]
    exact filterMap_token?_joined name text text' h
  · intro hrows
    refine ⟨fun t ht heof => ?_, ?_, fun e he => ?_⟩
    · obtain ⟨-, q, hq, -, htoken⟩ := exists_tokenAt ht heof
      obtain ⟨content, -, rfl⟩ := Option.map_eq_some_iff.1 htoken
      exact isBelow_of_mem hrows hq
    · simp only [lexed, first, second, errors_lex]
      exact filterMap_error?_joined name text text' h hrows
    · obtain ⟨-, q, hq, -, herror⟩ := exists_errorAt he
      obtain ⟨fault, -, rfl⟩ := Option.map_eq_some_iff.1 herror
      exact isBelow_of_mem hrows hq

/-- Two texts with an error each: that in the second moves from the first row to the third. -/
theorem lex_append_newline_faulty :
    let first := (mk "" "$\n").lex
    let second := (mk "" "\"b").lex
    first.errors.totalErrors.toNat + second.errors.totalErrors.toNat < maxErrors ∧
      (mk "" "$\n\n\"b").lex.errors.errors =
        first.errors.errors ++ second.errors.errors.map (SourceError.down 2) ∧
      (mk "" "$\n\n\"b").lex.errors.errors.map (·.span) = [.point 1 1, ⟨3, 1, 3, 2⟩] := by
  intro first second
  have hfirst : pieces "$\n".toList = [.rejected '$', .blank '\n'] := by
    have hblank : pieces ['\n'] = [.blank '\n'] := by rw [pieces_blank (by decide), pieces_nil]
    exact (pieces_cons '$' ['\n']).trans (congrArg _ hblank)
  have hsecond : pieces "\"b".toList = [.unclosed ['b']] :=
    (pieces_cons '"' ['b']).trans (congrArg _ pieces_nil)
  have hspans : first.errors.errors.map (·.span) = [.point 1 1] := by
    simp only [first, errors_lex, placedPieces, readPieces, hfirst]
    rfl
  have hspans' : second.errors.errors.map (·.span) = [⟨1, 1, 1, 2⟩] := by
    simp only [second, errors_lex, placedPieces, readPieces, hsecond]
    rfl
  have hlt : first.errors.totalErrors.toNat + second.errors.totalErrors.toNat < maxErrors := by
    simp only [first, second, totalErrors_lex, errors_lex, placedPieces, readPieces,
      length_errors_layOut, hfirst, hsecond]
    decide
  obtain ⟨-, -, hbelow⟩ := lex_append_newline "" "$\n" "\"b" hlt
  obtain ⟨-, herrors, -⟩ := hbelow (by decide)
  refine ⟨hlt, herrors, ?_⟩
  calc (mk "" "$\n\n\"b").lex.errors.errors.map (·.span)
    _ = (first.errors.errors ++ second.errors.errors.map (SourceError.down 2)).map (·.span) :=
      congrArg _ herrors
    _ = first.errors.errors.map (·.span) ++
        (second.errors.errors.map (·.span)).map (Span.down 2) := by simp [SourceError.down]
    _ = [.point 1 1, ⟨3, 1, 3, 2⟩] := by
      rw [hspans, hspans']
      decide

def lineFeeds (n : Nat) : String := String.ofList (List.replicate n '\n')

theorem tokens_lineFeeds (n : Nat) :
    (mk "" (lineFeeds n ++ "\n" ++ "x")).lex.tokens.filter (·.kind ≠ .eof) =
      ((mk "" "x").lex.tokens.filter (·.kind ≠ .eof)).map (Token.down (1 + n)) := by
  have hfeeds : pieces (lineFeeds n).toList = List.replicate n (.blank '\n') := by
    have h := pieces_blanks n (c := '\n') (by decide) []
    rw [List.append_nil, pieces_nil, List.append_nil] at h
    rw [lineFeeds, String.toList_ofList, h]
  have hname : pieces "x".toList = [.lexeme .identifier ['x']] := pieces_letter
  have hfaultless : (pieces (lineFeeds n).toList).countP Piece.isFaulty = 0 := by
    rw [hfeeds, List.countP_replicate]
    rfl
  have herrors : (mk "" (lineFeeds n)).lex.errors = .empty := lex_errors_of_faultless hfaultless
  have herrors' : (mk "" "x").lex.errors = .empty := lex_errors_of_faultless (by rw [hname]; rfl)
  have htokens : (mk "" (lineFeeds n)).placedPieces.filterMap Placed.token? = [] := by
    have hread : (mk "" (lineFeeds n)).readPieces = List.replicate n (.blank '\n') ++ [] := by
      rw [List.append_nil, ← hfeeds]
      exact readPieces_of_faultless hfaultless
    rw [placedPieces, hread]
    exact filterMap_layOut_blanks n (fun _ _ => rfl) [] []
  have hcount : (lineFeeds n).toList.count '\n' = n := by
    rw [lineFeeds, String.toList_ofList, List.count_replicate_self]
  have hjoined := filterMap_token?_joined "" (lineFeeds n) "x" (by rw [herrors, herrors']; decide)
  rw [htokens, List.nil_append, hcount] at hjoined
  rw [filter_tokens_lex, filter_tokens_lex]
  exact hjoined

/-- A name says the first row where it is the whole text, and row zero below as many line feeds as
the counter can count. -/
theorem name_in_row_zero :
    (lineFeeds 4294967294).toList.count '\n' = 4294967294 ∧
      (mk "" "x").lex.tokens.filter (·.kind ≠ .eof) = [⟨.identifier, "x", ⟨1, 1, 1, 1⟩⟩] ∧
      (mk "" (lineFeeds 4294967294 ++ "\n" ++ "x")).lex.tokens.filter (·.kind ≠ .eof) =
        [⟨.identifier, "x", ⟨0, 1, 0, 1⟩⟩] := by
  have hname : (mk "" "x").lex.tokens.filter (·.kind ≠ .eof) =
      [⟨.identifier, "x", ⟨1, 1, 1, 1⟩⟩] := tokens_spaced_name 0
  refine ⟨?_, hname, ?_⟩
  · rw [lineFeeds, String.toList_ofList, List.count_replicate_self]
  · rw [tokens_lineFeeds, hname]
    decide

end SourceFile

end ScriptKit
