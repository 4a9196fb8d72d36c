import ScriptKit.Proofs.LineWise
import ScriptKit.Proofs.ReadingOrder

/-! What reading reports. The tokens end with the only end mark. Every fault is kept and counted up
to the one at which reading ends, after which no token begins; and a rejected character is found
again in the line that its error quotes, under the column that the error gives. -/
namespace ScriptKit

section Lines

/-- The characters since the last line feed. -/
def rowHead (before : List Char) : List Char := (before.reverse.takeWhile (· ≠ '\n')).reverse

theorem colAfter_eq (before : List Char) : colAfter before = 1 + (rowHead before).length := by
  simp [colAfter, rowHead]

theorem takeWhile_append_of_notMem {cs : List Char} (h : '\n' ∉ cs) (rest : List Char) :
    (cs ++ rest).takeWhile (· ≠ '\n') = cs ++ rest.takeWhile (· ≠ '\n') :=
  List.takeWhile_append_of_pos fun _ hc => decide_eq_true fun he => h (he ▸ hc)

theorem takeWhile_eq_self_of_notMem {cs : List Char} (h : '\n' ∉ cs) :
    cs.takeWhile (· ≠ '\n') = cs := by
  simpa using takeWhile_append_of_notMem h []

theorem rowHead_cases (before : List Char) :
    '\n' ∉ before ∧ rowHead before = before ∨
      ∃ front, before = front ++ '\n' :: rowHead before ∧ '\n' ∉ rowHead before := by
  by_cases h : '\n' ∈ before
  · obtain ⟨head, front, hsplit, hhead⟩ := List.eq_append_cons_of_mem (List.mem_reverse.2 h)
    have hrow : rowHead before = head.reverse := by
      rw [rowHead, hsplit, takeWhile_append_of_notMem hhead]
      simp
    refine .inr ⟨front.reverse, ?_, by simpa [hrow] using hhead⟩
    rw [hrow, ← List.reverse_reverse before, hsplit]
    simp
  · have hmem : '\n' ∉ before.reverse := by simpa using h
    exact .inl ⟨h, by rw [rowHead, takeWhile_eq_self_of_notMem hmem, List.reverse_reverse]⟩

theorem head?_splitOn_append {head : List Char} (h : '\n' ∉ head) (rest : List Char) :
    ((head ++ rest).splitOn '\n')[0]? = some (head ++ rest.takeWhile (· ≠ '\n')) := by
  by_cases hmem : '\n' ∈ rest
  · obtain ⟨tail, after, rfl, htail⟩ := List.eq_append_cons_of_mem hmem
    have hline : '\n' ∉ head ++ tail := by simp [h, htail]
    rw [← List.append_assoc, List.splitOn_append_cons_self_of_not_mem hline,
      takeWhile_append_of_notMem htail]
    simp
  · rw [List.splitOn_eq_singleton (by simp [h, hmem]), takeWhile_eq_self_of_notMem hmem]
    rfl

/-- The line around a place: what precedes the place on its row, and what follows up to the next
line feed. -/
theorem getElem?_splitOn_count (before rest : List Char) :
    ((before ++ rest).splitOn '\n')[before.count '\n']? =
      some (rowHead before ++ rest.takeWhile (· ≠ '\n')) := by
  rcases rowHead_cases before with ⟨hmem, hrow⟩ | ⟨front, hsplit, hmem⟩
  · rw [hrow, List.count_eq_zero.2 hmem, head?_splitOn_append hmem]
  · have hcount : before.count '\n' = (front.splitOn '\n').length := by
      rw [hsplit, length_splitOn_newline]
      simp [List.count_eq_zero.2 hmem]
    have happend : before ++ rest = front ++ '\n' :: (rowHead before ++ rest) := by
      nth_rewrite 1 [hsplit]
      simp
    rw [hcount, happend, List.splitOn_append_cons_self, List.getElem?_append_right (Nat.le_refl _),
      Nat.sub_self, head?_splitOn_append hmem]

theorem SourceFile.dropReturns_append_cons {c : Char} (hc : c ≠ '\r') (head tail : List Char) :
    dropReturns (head ++ c :: tail) = head ++ c :: dropReturns tail := by
  have hreverse : (head ++ c :: tail).reverse = tail.reverse ++ c :: head.reverse := by simp
  rw [dropReturns, dropReturns, hreverse, List.dropWhile_append]
  by_cases htail : (tail.reverse.dropWhile (· = '\r')).isEmpty = true
  · rw [if_pos htail, List.dropWhile_cons_of_neg (by simpa using hc), List.isEmpty_iff.1 htail]
    simp
  · rw [if_neg htail]
    simp

/-- The line of a visible character holds it behind as many characters as precede it on its row. -/
theorem SourceFile.line?_rowAfter {file : SourceFile} {before rest : List Char} {c : Char}
    (htext : file.text.toList = before ++ c :: rest) (hn : c ≠ '\n') (hr : c ≠ '\r') :
    file.line? (rowAfter before) = some (String.ofList
      (rowHead before ++ c :: dropReturns (rest.takeWhile (· ≠ '\n')))) := by
  have hline := getElem?_splitOn_count before (c :: rest)
  rw [List.takeWhile_cons_of_pos (by simpa using hn)] at hline
  rw [rowAfter, Nat.add_comm, line?_succ, htext, hline, Option.map_some,
    dropReturns_append_cons hr]

end Lines

section Quoted

/-- An error about one character: its line holds the character at its column, and its message names
it. -/
structure SourceError.Quotes (e : SourceError) (file : SourceFile) (c : Char) : Prop where
  oneRow : e.span.endLine = e.span.startLine
  oneCol : e.span.endCol = e.span.startCol
  line : file.line? e.span.row = some e.sourceLine
  column : ∃ i, e.span.col = i + 1 ∧ e.sourceLine.toList[i]? = some c
  message : e.message = "Unexpected character '" ++ c.toString ++ "'"

theorem ne_of_isSignStart {c d : Char} (hc : isSignStart c = true) (hd : isSignStart d = false) :
    c ≠ d := by
  rintro rfl
  simp [hc] at hd

theorem LexFault.quotes_errorAt {file : SourceFile} {before rest : List Char} {c : Char}
    (htext : file.text.toList = before ++ c :: rest) (hc : isSignStart c = true) {span : Span}
    (hspan : span.Covers before [c]) : ((unexpected c).errorAt file span).Quotes file c := by
  have hline := SourceFile.line?_rowAfter htext (ne_of_isSignStart hc (by decide))
    (ne_of_isSignStart hc (by decide))
  rw [← hspan.row] at hline
  have hsource : ((unexpected c).errorAt file span).sourceLine =
      (file.line? span.row).getD "" := rfl
  rw [hline, Option.getD_some] at hsource
  refine ⟨?_, ?_, ?_, ⟨(rowHead before).length, ?_, ?_⟩, rfl⟩
  · exact UInt32.toNat_inj.1 (hspan.endRow.trans hspan.row.symm)
  · exact UInt32.toNat_inj.1 (hspan.endCol.trans hspan.col.symm)
  · rw [hsource]
    exact hline
  · exact hspan.col.trans ((colAfter_eq before).trans (Nat.add_comm _ _))
  · rw [hsource]
    simp

theorem Tiles.quotes {file : SourceFile} {before cs left : List Char} {ts : List Token}
    {es : List SourceError} (h : Tiles file Span.Covers before cs ts es left)
    (htext : file.text.toList = before ++ cs) :
    ∀ e ∈ es, e.code = .unexpectedToken → ∃ c, e.Quotes file c := by
  induction h with
  | stop => simp
  | blank _ _ ih => exact ih (by simp [htext])
  | comment _ _ _ ih => exact ih (by simp [htext])
  | lexeme _ _ _ ih => exact ih (by simp [htext])
  | @rejected _ _ _ _ _ c _ hc _ hs _ ih =>
    refine List.forall_mem_cons.2 ⟨fun _ => ⟨c, LexFault.quotes_errorAt htext hc hs⟩, ?_⟩
    exact ih (by simp [htext])
  | unclosed _ _ _ _ _ ih =>
    refine List.forall_mem_cons.2 ⟨fun hcode => ?_, ih (by simp [htext])⟩
    exact absurd (show ErrorCode.unterminated = .unexpectedToken from hcode) (by decide)

end Quoted

section LastFault

/-- If reading meets as many faults as it may, only blanks and comments follow the last of them. -/
theorem exists_of_countP_untilFault {n : Nat} {ps : List Piece} (hn : 0 < n)
    (h : (untilFault n ps).countP Piece.isFaulty = n) :
    ∃ qs p trivia, untilFault n ps = qs ++ p :: trivia ∧ p.isFaulty = true ∧
      ∀ q ∈ trivia, q.isTrivia = true := by
  fun_induction untilFault n ps with
  | case1 ps => simp at hn
  | case2 n => simp at h
  | case3 c rest => exact ⟨[], _, _, rfl, rfl, fun q hq => List.mem_takeWhile_imp hq⟩
  | case4 n p rest _ ih =>
    rw [List.countP_cons] at h
    by_cases hp : p.isFaulty = true
    · rw [if_pos hp] at h
      rw [if_pos (show p.fault?.isSome = true from hp)] at h ih ⊢
      by_cases hzero : n = 0
      · exact ⟨[], p, [], by simp [hzero, untilFault], hp, by simp⟩
      · obtain ⟨qs, q, trivia, heq, hq, htrivia⟩ := ih (by omega) (by omega)
        exact ⟨p :: qs, q, trivia, by rw [heq, List.cons_append], hq, htrivia⟩
    · rw [if_neg hp] at h
      rw [if_neg (show ¬ p.fault?.isSome = true from hp)] at h ih ⊢
      obtain ⟨qs, q, trivia, heq, hq, htrivia⟩ := ih (by omega) (by omega)
      exact ⟨p :: qs, q, trivia, by rw [heq, List.cons_append], hq, htrivia⟩

theorem filterMap_layOut_trivia (file : SourceFile) (p : Position) {ps : List Piece}
    (h : ∀ q ∈ ps, q.isTrivia = true) :
    (layOut p ps).filterMap Placed.token? = [] ∧
      (layOut p ps).filterMap (Placed.error? file) = [] := by
  induction ps generalizing p with
  | nil => exact ⟨rfl, rfl⟩
  | cons q ps ih =>
    obtain ⟨hq, hps⟩ := List.forall_mem_cons.1 h
    obtain ⟨htokens, herrors⟩ := ih (p.advance q.chars) hps
    rw [layOut, filterMap_cons_toList, filterMap_cons_toList, htokens, herrors]
    cases q <;> first | exact ⟨rfl, rfl⟩ | cases hq

theorem Placed.place_of_token? {q : Placed} {t : Token} (h : q.token? = some t) :
    t.span.place = q.first.place := by
  obtain ⟨content, -, rfl⟩ := Option.map_eq_some_iff.1 h
  rfl

theorem Placed.place_of_error? {file : SourceFile} {q : Placed} {e : SourceError}
    (h : q.error? file = some e) : e.span.place = q.first.place := by
  obtain ⟨fault, -, rfl⟩ := Option.map_eq_some_iff.1 h
  rfl

/-- When all errors that may be reported are, the last piece that matters is the one at fault. -/
theorem SourceFile.exists_lastFault {file : SourceFile}
    (h : file.lex.errors.errors.length = maxErrors) :
    ∃ (qs : List Placed) (q : Placed) (e : SourceError) (before : List Char),
      file.placedPieces.filterMap Placed.token? = (qs ++ [q]).filterMap Placed.token? ∧
      file.lex.errors.errors = qs.filterMap (Placed.error? file) ++ [e] ∧
      q.error? file = some e ∧ q.first = positionAfter before ∧ before <+: file.consumed ∧
      ∀ r ∈ qs, ∃ front, r.first = positionAfter front ∧ front <+: before := by
  have hcount : file.readPieces.countP Piece.isFaulty = maxErrors := by
    rwa [errors_lex, placedPieces, length_errors_layOut] at h
  obtain ⟨ps, p, trivia, hread, hp, htrivia⟩ := exists_of_countP_untilFault (by decide) hcount
  let before := ps.flatMap Piece.chars
  let after := positionAfter (before ++ p.chars)
  obtain ⟨htokens, herrors⟩ := filterMap_layOut_trivia file after htrivia
  have hplaced : file.placedPieces =
      layOut .start ps ++ (p.placedAfter before :: layOut after trivia) := by
    rw [placedPieces, readPieces, hread, layOut_append, start_advance, layOut_positionAfter]
  obtain ⟨fault, hfault⟩ := Option.isSome_iff_exists.1 (show p.fault?.isSome = true from hp)
  have herror : (p.placedAfter before).error? file =
      some (fault.errorAt file (p.placedAfter before).span) := by
    rw [Placed.error?, Piece.placedAfter, hfault]
    rfl
  refine ⟨layOut .start ps, p.placedAfter before, _, before, ?_, ?_, herror, rfl, ?_, ?_⟩
  · rw [hplaced, List.filterMap_append, List.filterMap_append, filterMap_cons_toList,
      filterMap_cons_toList, htokens]
    rfl
  · rw [errors_lex, hplaced, List.filterMap_append, filterMap_cons_toList, herrors, herror]
    rfl
  · rw [consumed, readPieces, hread, List.flatMap_append]
    exact List.prefix_append _ _
  · intro r hr
    obtain ⟨front, hr, hfront⟩ := exists_placedAfter_of_mem [] hr
    exact ⟨front, by rw [hr]; rfl, (List.prefix_append _ _).trans hfront⟩

theorem SourceFile.place_le_of_full {file : SourceFile} (h : InRange file.consumed)
    {e : SourceError} (he : file.lex.errors.errors[19]? = some e) {t : Token}
    (ht : t ∈ file.lex.tokens) (heof : t.kind ≠ .eof) : t.span.place ≤ e.span.place := by
  have hfull : file.lex.errors.errors.length = maxErrors := by
    obtain ⟨hlt, -⟩ := List.getElem?_eq_some_iff.1 he
    have hle := file.totalErrors_lex_le
    rw [totalErrors_lex] at hle
    exact Nat.le_antisymm hle hlt
  obtain ⟨qs, q, e', before, htokens, herrors, he', hq, hbefore, hqs⟩ := exists_lastFault hfull
  have hlength := congrArg List.length herrors
  rw [hfull, List.length_append, List.length_singleton] at hlength
  have hlast : (qs.filterMap (Placed.error? file)).length = 19 := (Nat.succ.inj hlength).symm
  rw [herrors, ← hlast, List.getElem?_concat_length] at he
  cases he
  have hmem : t ∈ (qs ++ [q]).filterMap Placed.token? := by
    rw [← htokens, ← filter_tokens_lex]
    exact List.mem_filter.2 ⟨ht, decide_eq_true heof⟩
  obtain ⟨r, hr, htoken⟩ := List.mem_filterMap.1 hmem
  rw [Placed.place_of_token? htoken, Placed.place_of_error? he']
  rcases List.mem_append.1 hr with hr | hr
  · obtain ⟨front, hr, hfront⟩ := hqs r hr
    rw [hr, hq, h.place_positionAfter hbefore, h.place_positionAfter (hfront.trans hbefore)]
    obtain ⟨between, rfl⟩ := hfront
    exact placeAfter_le_append front between
  · rw [List.mem_singleton.1 hr]
    exact Place.le_refl _

end LastFault

namespace SourceFile

/-- Reading gives tokens of which the last is the only end mark and has no text. At most twenty
errors are kept, which are all that were met, and no warnings. Within range their places ascend, and
if there are twenty no token begins after the last of them. An error about an unexpected character
then covers one column; in that column of its line, which it quotes, stands the character that its
message names. -/
theorem lex_report (file : SourceFile) :
    (∃ front mark, file.lex.tokens = front ++ [mark] ∧ (∀ t ∈ front, t.kind ≠ .eof) ∧
      mark.kind = .eof ∧ mark.text = "") ∧
    (file.lex.errors.totalErrors.toNat = file.lex.errors.errors.length ∧
      file.lex.errors.totalErrors.toNat ≤ 20 ∧ file.lex.errors.warnings = [] ∧
      file.lex.errors.totalWarnings = 0) ∧
    (InRange file.consumed →
      file.lex.errors.errors.Pairwise (fun e e' => e.span.place < e'.span.place) ∧
      (∀ e, file.lex.errors.errors[19]? = some e →
        ∀ t ∈ file.lex.tokens, t.kind ≠ .eof → t.span.place ≤ e.span.place) ∧
      ∀ e ∈ file.lex.errors.errors, e.code = .unexpectedToken → ∃ c, e.Quotes file c) := by
  refine ⟨?_, ?_, fun h => ⟨pairwise_errors_lex h, ?_, ?_⟩⟩
  · exact ⟨_, .endAt file.endPosition.row file.endPosition.col, rfl,
      fun t ht => file.kind_ne_eof_of_mem ht, rfl, rfl⟩
  · refine ⟨file.totalErrors_lex, file.totalErrors_lex_le, ?_, ?_⟩ <;> rw [lex_errors]
  · exact fun e he t ht heof => place_le_of_full h he ht heof
  · obtain ⟨left, htiles⟩ := tiles_covers h
    rw [errors_lex]
    exact htiles.quotes rfl

/-- Two rejected characters as far apart as the counter can count are reported for one place. -/
theorem errors_in_one_place :
    (spaced ['@'] 4294967295 '@').lex.errors.errors.map (·.span) =
      [⟨1, 1, 1, 1⟩, ⟨1, 1, 1, 1⟩] := by
  rw [errors_spaced_signs (by decide), spanAfter_spaces _ (by decide) (by decide)]
  decide

end SourceFile

end ScriptKit
