import ScriptKit.Proofs.Tiling

/-! Longest match. Each lexeme that is read is as long as any that begins at its place, and a
character is rejected, or a string reported as unclosed, only where no lexeme begins. -/
namespace ScriptKit

/-- The source form of a lexeme of any kind: a string stands between its quotes. -/
def IsLexical (ds : List Char) : Prop :=
  ∃ kind text, IsLexeme kind text ∧ (Piece.lexeme kind text).chars = ds

/-- No lexeme begins the text. -/
def BeginsNoLexeme (cs : List Char) : Prop := ∀ ds, IsLexical ds → ¬ ds <+: cs

/-- Some characters are as long as any lexeme that begins the text. -/
def IsLongest (taken cs : List Char) : Prop :=
  ∀ ds, IsLexical ds → ds <+: cs → ds.length ≤ taken.length

def IsNumber (ds : List Char) : Prop := IsLexeme .int ds ∨ IsLexeme .float ds

/-- The first character of a lexeme tells numbers, names, strings and signs apart. -/
theorem IsLexical.shape {ds : List Char} (h : IsLexical ds) :
    ∃ c tail, ds = c :: tail ∧
      ((c.isDigit = true ∧ IsNumber ds) ∨
        (isNameStart c = true ∧ ∀ x ∈ ds, isNamePart x = true) ∨
        (c = '"' ∧ ∃ body, tail = body ++ ['"'] ∧ ∀ x ∈ body, isStringPart x = true) ∨
        (isSignStart c = true ∧ ∃ sign : Symbol, sign.chars = ds)) := by
  obtain ⟨kind, text, hlex, rfl⟩ := h
  cases kind with
  | int =>
    obtain ⟨c, tail, rfl⟩ := List.exists_cons_of_ne_nil hlex.1
    exact ⟨c, tail, rfl, .inl ⟨hlex.2 c List.mem_cons_self, .inl hlex⟩⟩
  | float =>
    have hnumber : IsNumber text := .inr hlex
    obtain ⟨whole, fraction, hwhole, -, rfl⟩ := hlex
    obtain ⟨c, tail, rfl⟩ := List.exists_cons_of_ne_nil hwhole.1
    exact ⟨c, _, rfl, .inl ⟨hwhole.2 c List.mem_cons_self, hnumber⟩⟩
  | string => exact ⟨'"', _, rfl, .inr (.inr (.inl ⟨rfl, text, rfl, hlex⟩))⟩
  | identifier =>
    have hparts := hlex.1.forall_isNamePart
    obtain ⟨c, tail, rfl, hc, -⟩ := hlex.1
    exact ⟨c, tail, rfl, .inr (.inl ⟨hc, hparts⟩)⟩
  | keyword word =>
    obtain rfl : text = word.text.toList := hlex
    obtain ⟨c, tail, htext, hc, htail⟩ : IsName word.text.toList := by
      cases word <;> exact isName_cons (by decide) (by decide)
    refine ⟨c, tail, htext, .inr (.inl ⟨hc, ?_⟩)⟩
    exact IsName.forall_isNamePart ⟨c, tail, htext, hc, htail⟩
  | symbol sign =>
    obtain rfl : text = sign.chars := hlex
    obtain ⟨c, tail, hchars, hc⟩ := sign.chars_eq_cons
    exact ⟨c, tail, hchars, .inr (.inr (.inr ⟨hc, sign, rfl⟩))⟩
  | eof => exact hlex.elim

section First

variable {c : Char} {cs ds : List Char}

theorem IsLexical.shape_of_isPrefix (h : IsLexical ds) (hp : ds <+: c :: cs) :
    (c.isDigit = true ∧ IsNumber ds) ∨
      (isNameStart c = true ∧ ∀ x ∈ ds, isNamePart x = true) ∨
      (c = '"' ∧ ∃ body, ds = '"' :: body ++ ['"'] ∧ ∀ x ∈ body, isStringPart x = true) ∨
      (isSignStart c = true ∧ ∃ sign : Symbol, sign.chars = ds) := by
  obtain ⟨d, tail, rfl, hshape⟩ := h.shape
  obtain ⟨rfl, -⟩ := List.cons_prefix_cons.1 hp
  rcases hshape with hnumber | hname | ⟨rfl, body, rfl, hbody⟩ | hsign
  · exact .inl hnumber
  · exact .inr (.inl hname)
  · exact .inr (.inr (.inl ⟨rfl, body, rfl, hbody⟩))
  · exact .inr (.inr (.inr hsign))

theorem IsLexical.isNumber (h : IsLexical ds) (hp : ds <+: c :: cs) (hc : c.isDigit = true) :
    IsNumber ds := by
  rcases h.shape_of_isPrefix hp with ⟨-, hnumber⟩ | ⟨hname, -⟩ | ⟨rfl, -⟩ | ⟨hsign, -⟩
  · exact hnumber
  · rw [isDigit_of_isNameStart hname] at hc
    cases hc
  · exact absurd hc (by decide)
  · simp [isSignStart, hc] at hsign

theorem IsLexical.forall_isNamePart (h : IsLexical ds) (hp : ds <+: c :: cs)
    (hc : isNameStart c = true) : ∀ x ∈ ds, isNamePart x = true := by
  rcases h.shape_of_isPrefix hp with ⟨hdigit, -⟩ | ⟨-, hparts⟩ | ⟨rfl, -⟩ | ⟨hsign, -⟩
  · rw [isDigit_of_isNameStart hc] at hdigit
    cases hdigit
  · exact hparts
  · exact absurd hc (by decide)
  · simp [isSignStart, hc] at hsign

theorem IsLexical.exists_body (h : IsLexical ds) (hp : ds <+: '"' :: cs) :
    ∃ body, ds = '"' :: body ++ ['"'] ∧ ∀ x ∈ body, isStringPart x = true := by
  rcases h.shape_of_isPrefix hp with ⟨hdigit, -⟩ | ⟨hname, -⟩ | ⟨-, hbody⟩ | ⟨hsign, -⟩
  · exact absurd hdigit (by decide)
  · exact absurd hname (by decide)
  · exact hbody
  · exact absurd hsign (by decide)

theorem IsLexical.exists_sign (h : IsLexical ds) (hp : ds <+: c :: cs)
    (hc : isSignStart c = true) : ∃ sign : Symbol, sign.chars = ds := by
  rcases h.shape_of_isPrefix hp with ⟨hdigit, -⟩ | ⟨hname, -⟩ | ⟨rfl, -⟩ | ⟨-, hsign⟩
  · simp [isSignStart, hdigit] at hc
  · simp [isSignStart, hname] at hc
  · exact absurd hc (by decide)
  · exact hsign

end First

theorem length_le_takeWhile {p : Char → Bool} {ds cs : List Char} (h : ∀ x ∈ ds, p x = true)
    (hp : ds <+: cs) : ds.length ≤ (cs.takeWhile p).length := by
  obtain ⟨rest, rfl⟩ := hp
  rw [List.takeWhile_append_of_pos h, List.length_append]
  exact Nat.le_add_right _ _

namespace Piece

theorem takeWhile_length_le_readNumber (cs : List Char) :
    (cs.takeWhile Char.isDigit).length ≤ (readNumber cs).1.chars.length := by
  simp only [readNumber]
  split
  · split <;> simp [chars]
  · simp [chars]

theorem readNumber_float {whole fraction rest : List Char} (hwhole : IsDigits whole)
    (hfraction : IsDigits fraction) :
    readNumber (whole ++ '.' :: (fraction ++ rest)) =
      (lexeme .float (whole ++ '.' :: (fraction ++ rest).takeWhile Char.isDigit),
        (fraction ++ rest).dropWhile Char.isDigit) := by
  have hpoint : Stops Char.isDigit ('.' :: (fraction ++ rest)) := stops_cons.2 (by decide)
  rw [readNumber, takeWhile_append_of_stops hwhole.2 hpoint,
    dropWhile_append_of_stops hwhole.2 hpoint]
  obtain ⟨d, tail, rfl⟩ := List.exists_cons_of_ne_nil hfraction.1
  have hd : d.isDigit = true := hfraction.2 d List.mem_cons_self
  simp only [List.cons_append, hd, if_true]

theorem length_le_readNumber {cs ds : List Char} (h : IsNumber ds) (hp : ds <+: cs) :
    ds.length ≤ (readNumber cs).1.chars.length := by
  rcases h with hint | ⟨whole, fraction, hwhole, hfraction, rfl⟩
  · exact (length_le_takeWhile hint.2 hp).trans (takeWhile_length_le_readNumber cs)
  · obtain ⟨rest, rfl⟩ := hp
    have hrun := length_le_takeWhile hfraction.2 (List.prefix_append fraction rest)
    rw [List.append_assoc, List.cons_append, readNumber_float hwhole hfraction]
    simp only [chars, List.length_append, List.length_cons]
    omega

theorem chars_readName_eq (cs : List Char) :
    (readName cs).1.chars = cs.takeWhile isNamePart := by
  simp only [readName, nameKind]
  split <;> rfl

theorem readString_closed {body rest : List Char} (h : ∀ x ∈ body, isStringPart x = true) :
    readString (body ++ '"' :: rest) = (lexeme .string body, rest) := by
  have hquote : Stops isStringPart ('"' :: rest) := stops_cons.2 (by decide)
  simp only [readString, takeWhile_append_of_stops h hquote, dropWhile_append_of_stops h hquote]

theorem length_le_readSign {c : Char} {cs : List Char} {sign : Symbol}
    (htwo : ∀ d ∈ cs.head?, Symbol.ofChars? [c, d] = none) (hp : sign.chars <+: c :: cs) :
    sign.chars.length ≤ (readSign c cs).1.chars.length := by
  have hread : 0 < (readSign c cs).1.chars.length :=
    List.length_pos_iff.2 (chars_readSign_ne_nil c cs)
  rcases sign.chars_eq_one_or_two with ⟨x, hx⟩ | ⟨x, y, hxy⟩
  · rw [hx]
    exact hread
  · have hsome := sign.ofChars?_chars
    rw [hxy] at hp hsome
    obtain ⟨rfl, tail, rfl⟩ := List.cons_prefix_cons.1 hp
    rw [htwo y rfl] at hsome
    cases hsome

theorem length_le_readSymbol {c : Char} {cs : List Char} {sign : Symbol}
    (hp : sign.chars <+: c :: cs) : sign.chars.length ≤ (readSymbol c cs).1.chars.length := by
  cases cs with
  | nil => exact length_le_readSign (by simp) hp
  | cons d rest =>
    rw [readSymbol]
    split
    · rcases sign.chars_eq_one_or_two with ⟨x, hx⟩ | ⟨x, y, hxy⟩
      · simp [hx, chars]
      · simp [hxy, chars]
    · rename_i hnone
      exact length_le_readSign (by simpa using hnone) hp

/-- What a piece says about the lexemes at its place. -/
def Greedy : Piece → List Char → Prop
  | lexeme kind text, cs => IsLongest (lexeme kind text).chars cs
  | rejected _, cs => BeginsNoLexeme cs
  | unclosed _, cs => BeginsNoLexeme cs
  | _, _ => True

theorem greedy_readNumber {c : Char} (hc : c.isDigit = true) (cs : List Char) :
    (readNumber (c :: cs)).1.Greedy (c :: cs) := by
  have hlongest : IsLongest (readNumber (c :: cs)).1.chars (c :: cs) := fun ds hds hp =>
    length_le_readNumber (hds.isNumber hp hc) hp
  revert hlongest
  simp only [readNumber]
  split
  · split <;> exact id
  · exact id

theorem greedy_readName {c : Char} (hc : isNameStart c = true) (cs : List Char) :
    (readName (c :: cs)).1.Greedy (c :: cs) := by
  have hlongest : IsLongest (readName (c :: cs)).1.chars (c :: cs) := by
    intro ds hds hp
    rw [chars_readName_eq]
    exact length_le_takeWhile (hds.forall_isNamePart hp hc) hp
  exact hlongest

theorem greedy_readString (cs : List Char) : (readString cs).1.Greedy ('"' :: cs) := by
  have hfound : ∀ ds, IsLexical ds → ds <+: '"' :: cs →
      ∃ body rest, ds = (lexeme .string body).chars ∧
        readString cs = (lexeme .string body, rest) := by
    intro ds hds hp
    obtain ⟨body, rfl, hbody⟩ := hds.exists_body hp
    obtain ⟨rest, rfl⟩ : body ++ ['"'] <+: cs := (List.cons_prefix_cons.1 hp).2
    rw [List.append_assoc, List.singleton_append]
    exact ⟨body, rest, rfl, readString_closed hbody⟩
  cases hread : (readString cs).1 with
  | lexeme kind text =>
    intro ds hds hp
    obtain ⟨body, rest, rfl, hstring⟩ := hfound ds hds hp
    rw [← hread, hstring]
  | rejected c | unclosed text =>
    intro ds hds hp
    obtain ⟨body, rest, -, hstring⟩ := hfound ds hds hp
    rw [hstring] at hread
    cases hread
  | blank c | comment body => trivial

theorem greedy_readSymbol {c : Char} (hc : isSignStart c = true) (cs : List Char) :
    (readSymbol c cs).1.Greedy (c :: cs) := by
  have hfits := fits_readSymbol hc cs
  have hchars := chars_readSymbol c cs
  cases hread : (readSymbol c cs).1 with
  | lexeme kind text =>
    intro ds hds hp
    obtain ⟨sign, rfl⟩ := hds.exists_sign hp hc
    rw [← hread]
    exact length_le_readSymbol hp
  | rejected d =>
    intro ds hds hp
    obtain ⟨sign, rfl⟩ := hds.exists_sign hp hc
    rw [hread] at hfits hchars
    rw [← hchars] at hp
    exact hfits.2 sign hp
  | unclosed text =>
    rw [hread] at hchars
    obtain ⟨rfl, -⟩ := List.cons.inj hchars
    exact absurd hc (by decide)
  | blank d | comment body => trivial

theorem greedy_read (c : Char) (cs : List Char) : (read c cs).1.Greedy (c :: cs) := by
  unfold read
  split
  · trivial
  split
  · trivial
  split
  · rename_i hquote
    rw [hquote]
    exact greedy_readString cs
  split
  · exact greedy_readNumber ‹_› cs
  split
  · exact greedy_readName ‹_› cs
  · exact greedy_readSymbol (by simp [isSignStart, *]) cs

end Piece

/-- Every piece that is laid out was read where the characters before it end. -/
theorem exists_read_of_mem_layOut (before : List Char) {cs : List Char} {ps qs : List Piece}
    (h : pieces cs = ps ++ qs) {p : Placed} (hp : p ∈ layOut (positionAfter before) ps) :
    ∃ skipped c rest, cs = skipped ++ c :: rest ∧
      p = (Piece.read c rest).1.placedAfter (before ++ skipped) := by
  induction ps generalizing cs before with
  | nil => simp [layOut] at hp
  | cons q ps ih =>
    cases cs with
    | nil => simp at h
    | cons c cs =>
      rw [pieces_cons, List.cons_append, List.cons.injEq] at h
      obtain ⟨rfl, hrest⟩ := h
      rw [layOut_positionAfter] at hp
      rcases List.mem_cons.1 hp with rfl | hp
      · exact ⟨[], c, cs, rfl, by rw [List.append_nil]⟩
      · obtain ⟨skipped, d, rest, hcs, rfl⟩ := ih _ hrest hp
        refine ⟨(Piece.read c cs).1.chars ++ skipped, d, rest, ?_, by rw [List.append_assoc]⟩
        rw [List.append_assoc, ← hcs, Piece.chars_read]

namespace SourceFile

/-- Reading yields the token where so many characters have been read. -/
def TokenAt (file : SourceFile) (offset : Nat) (t : Token) : Prop :=
  ∃ p ∈ file.placedPieces, p.first.offset = offset ∧ p.token? = some t

/-- Reading reports the error where so many characters have been read. -/
def ErrorAt (file : SourceFile) (offset : Nat) (e : SourceError) : Prop :=
  ∃ p ∈ file.placedPieces, p.first.offset = offset ∧ p.error? file = some e

variable {file : SourceFile} {offset : Nat} {t : Token} {e : SourceError}

theorem exists_read_of_mem (file : SourceFile) {p : Placed} (hp : p ∈ file.placedPieces) :
    ∃ before c rest, file.text.toList = before ++ c :: rest ∧
      p = (Piece.read c rest).1.placedAfter before := by
  obtain ⟨qs, hqs⟩ := prefix_untilFault maxErrors (pieces file.text.toList)
  exact exists_read_of_mem_layOut [] hqs.symm hp

theorem exists_drop_of_mem {p : Placed} (hp : p ∈ file.placedPieces) :
    ∃ before c rest, file.text.toList.drop p.first.offset = c :: rest ∧
      p = (Piece.read c rest).1.placedAfter before := by
  obtain ⟨before, c, rest, htext, rfl⟩ := file.exists_read_of_mem hp
  exact ⟨before, c, rest, by rw [htext, Piece.placedAfter]; exact List.drop_left, rfl⟩

theorem exists_tokenAt (ht : t ∈ file.lex.tokens) (heof : t.kind ≠ .eof) :
    ∃ offset, file.TokenAt offset t := by
  have hmem : t ∈ file.placedPieces.filterMap Placed.token? := by
    rw [← filter_tokens_lex]
    exact List.mem_filter.2 ⟨ht, decide_eq_true heof⟩
  obtain ⟨p, hp, htoken⟩ := List.mem_filterMap.1 hmem
  exact ⟨_, p, hp, rfl, htoken⟩

theorem exists_errorAt (he : e ∈ file.lex.errors.errors) : ∃ offset, file.ErrorAt offset e := by
  rw [errors_lex] at he
  obtain ⟨p, hp, herror⟩ := List.mem_filterMap.1 he
  exact ⟨_, p, hp, rfl, herror⟩

/-- A token is a lexeme, the longest where it begins, or else an unclosed string that is reported
there. -/
theorem TokenAt.longest (h : file.TokenAt offset t) :
    (∃ e, file.ErrorAt offset e ∧ e.code = .unterminated) ∨
      IsLexeme t.kind t.text.toList ∧ t.written <+: file.text.toList.drop offset ∧
        IsLongest t.written (file.text.toList.drop offset) := by
  obtain ⟨p, hp, rfl, htoken⟩ := h
  obtain ⟨before, c, rest, hdrop, heq⟩ := exists_drop_of_mem hp
  have hfits := Piece.fits_read c rest
  have hgreedy := Piece.greedy_read c rest
  have hchars := Piece.chars_read c rest
  rw [hdrop]
  cases hread : (Piece.read c rest).1 with
  | blank d | comment body | rejected d =>
    rw [heq, hread] at htoken
    cases htoken
  | lexeme kind text =>
    rw [hread] at hfits hgreedy hchars
    rw [heq, hread] at htoken
    obtain rfl := Option.some.inj htoken
    rw [Piece.written_token, String.toList_ofList]
    exact .inr ⟨hfits, ⟨_, hchars⟩, hgreedy⟩
  | unclosed text =>
    rw [hread] at heq
    refine .inl ⟨LexFault.unterminated.errorAt file p.span, ⟨p, hp, rfl, ?_⟩, rfl⟩
    rw [heq]
    rfl

theorem ErrorAt.beginsNoLexeme (h : file.ErrorAt offset e) :
    BeginsNoLexeme (file.text.toList.drop offset) := by
  obtain ⟨p, hp, rfl, herror⟩ := h
  obtain ⟨before, c, rest, hdrop, heq⟩ := exists_drop_of_mem hp
  have hgreedy := Piece.greedy_read c rest
  rw [hdrop]
  cases hread : (Piece.read c rest).1 with
  | blank d | comment body | lexeme kind text =>
    rw [heq, hread] at herror
    cases herror
  | rejected d | unclosed text =>
    rw [hread] at hgreedy
    exact hgreedy

/-- Every token but an unclosed string belongs to the lexical grammar for its kind and is the
longest lexeme where it begins; every error, about a rejected character or an unclosed string,
stands where no lexeme begins. -/
theorem lex_longest_match (file : SourceFile) :
    (∀ t ∈ file.lex.tokens, t.kind ≠ .eof → ∃ i, file.TokenAt i t) ∧
    (∀ i t, file.TokenAt i t → (∀ e, file.ErrorAt i e → e.code ≠ .unterminated) →
      IsLexeme t.kind t.text.toList ∧ t.written <+: file.text.toList.drop i ∧
        ∀ ds, IsLexical ds → ds <+: file.text.toList.drop i → ds.length ≤ t.written.length) ∧
    (∀ e ∈ file.lex.errors.errors, ∃ i, file.ErrorAt i e) ∧
    ∀ i e, file.ErrorAt i e → ∀ ds, IsLexical ds → ¬ ds <+: file.text.toList.drop i := by
  refine ⟨fun t ht heof => exists_tokenAt ht heof, fun i t ht hclosed => ?_,
    fun e he => exists_errorAt he, fun i e he => he.beginsNoLexeme⟩
  refine ht.longest.resolve_left ?_
  rintro ⟨e, he, hcode⟩
  exact hclosed e he hcode

end SourceFile

end ScriptKit
