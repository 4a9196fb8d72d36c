import Mathlib.Data.List.TakeWhile
import ScriptKit.Proofs.Character

/-! The lexical grammar, and its relation to one step of cutting a text: which pieces a step can
yield, and from which texts it yields a given lexeme. -/
namespace ScriptKit

/-- A letter or an underscore, then letters, numbers and underscores. -/
def IsName (cs : List Char) : Prop :=
  ∃ c rest, cs = c :: rest ∧ isNameStart c = true ∧ ∀ x ∈ rest, isNamePart x = true

def IsDigits (cs : List Char) : Prop := cs ≠ [] ∧ ∀ c ∈ cs, c.isDigit = true

/-- The texts of each kind of token; that of a string leaves its quotes out. -/
def IsLexeme : TokenKind → List Char → Prop
  | .int, cs => IsDigits cs
  | .float, cs =>
    ∃ whole fraction, IsDigits whole ∧ IsDigits fraction ∧ cs = whole ++ '.' :: fraction
  | .string, cs => ∀ c ∈ cs, isStringPart c = true
  | .identifier, cs => IsName cs ∧ ∀ word : Keyword, word.text.toList ≠ cs
  | .keyword word, cs => cs = word.text.toList
  | .symbol sign, cs => cs = sign.chars
  | .eof, _ => False

theorem IsName.forall_isNamePart {cs : List Char} (h : IsName cs) :
    ∀ x ∈ cs, isNamePart x = true := by
  obtain ⟨c, rest, rfl, hc, hrest⟩ := h
  intro x hx
  rcases List.mem_cons.1 hx with rfl | hx
  · exact isNamePart_of_isNameStart hc
  · exact hrest x hx

theorem isName_cons {c : Char} {rest : List Char} (hc : isNameStart c = true)
    (hrest : rest.all isNamePart = true) : IsName (c :: rest) :=
  ⟨c, rest, rfl, hc, List.all_eq_true.1 hrest⟩

theorem IsLexeme.newline_notMem {kind : TokenKind} {cs : List Char} (h : IsLexeme kind cs) :
    '\n' ∉ cs := by
  have hdigits : ∀ {ds}, IsDigits ds → '\n' ∉ ds := by
    intro ds hds hn
    have hd := hds.2 _ hn
    revert hd
    decide
  intro hn
  cases kind with
  | int => exact hdigits h hn
  | float =>
    obtain ⟨whole, fraction, hw, hf, rfl⟩ := h
    rcases List.mem_append.1 hn with hn | hn
    · exact hdigits hw hn
    · rcases List.mem_cons.1 hn with hn | hn
      · revert hn
        decide
      · exact hdigits hf hn
  | string =>
    have hs := h _ hn
    revert hs
    decide
  | identifier =>
    have hp := h.1.forall_isNamePart _ hn
    revert hp
    decide
  | keyword word =>
    rw [show cs = word.text.toList from h] at hn
    revert hn
    cases word <;> decide
  | symbol sign =>
    rw [show cs = sign.chars from h] at hn
    revert hn
    cases sign <;> decide
  | eof => exact h

def Stops (p : Char → Bool) (cs : List Char) : Prop := ∀ c ∈ cs.head?, p c = false

def AtLineEnd (cs : List Char) : Prop := ∀ c ∈ cs.head?, c = '\n'

theorem stops_nil (p : Char → Bool) : Stops p [] := by simp [Stops]

theorem stops_cons {p : Char → Bool} {c : Char} {cs : List Char} :
    Stops p (c :: cs) ↔ p c = false := by simp [Stops]

theorem stops_dropWhile (p : Char → Bool) (cs : List Char) : Stops p (cs.dropWhile p) := by
  intro c hc
  have h := List.head?_dropWhile_not p cs
  rw [Option.mem_def.1 hc] at h
  exact h

theorem atLineEnd_of_stops {cs : List Char} (h : Stops (fun c => decide (c ≠ '\n')) cs) :
    AtLineEnd cs := by
  intro c hc
  simpa using h c hc

section Run

variable {p : Char → Bool} {cs rest : List Char}

theorem takeWhile_append_of_stops (h : ∀ c ∈ cs, p c = true) (hr : Stops p rest) :
    (cs ++ rest).takeWhile p = cs := by
  rw [List.takeWhile_append_of_pos h]
  cases rest with
  | nil => simp
  | cons c rest => simp [stops_cons.1 hr]

theorem dropWhile_append_of_stops (h : ∀ c ∈ cs, p c = true) (hr : Stops p rest) :
    (cs ++ rest).dropWhile p = rest := by
  rw [List.dropWhile_append_of_pos h]
  cases rest with
  | nil => rfl
  | cons c rest => simp [stops_cons.1 hr]

end Run

theorem isDigits_takeWhile {c : Char} (hc : c.isDigit = true) (cs : List Char) :
    IsDigits ((c :: cs).takeWhile Char.isDigit) := by
  refine ⟨by simp [hc], ?_⟩
  intro x hx
  exact List.mem_takeWhile_imp hx

theorem isName_takeWhile {c : Char} (hc : isNameStart c = true) (cs : List Char) :
    IsName ((c :: cs).takeWhile isNamePart) := by
  refine ⟨c, cs.takeWhile isNamePart, by simp [isNamePart_of_isNameStart hc], hc, ?_⟩
  intro x hx
  exact List.mem_takeWhile_imp hx

/-- A character with which only signs begin. -/
def isSignStart (c : Char) : Bool :=
  !Text.isBlank c && c ≠ '#' && c ≠ '"' && !c.isDigit && !isNameStart c

theorem Symbol.chars_eq_cons (sign : Symbol) :
    ∃ c cs, sign.chars = c :: cs ∧ isSignStart c = true := by
  cases sign <;> exact ⟨_, _, rfl, by decide⟩

theorem Symbol.chars_eq_one_or_two (sign : Symbol) :
    (∃ c, sign.chars = [c]) ∨ ∃ c d, sign.chars = [c, d] := by
  cases sign <;> first | exact .inl ⟨_, rfl⟩ | exact .inr ⟨_, _, rfl⟩

/-- Looking for a sign of one character and for one of two finds every sign. -/
theorem Symbol.not_chars_prefix_cons {c : Char} {cs : List Char} (hone : ofChars? [c] = none)
    (htwo : ∀ d ∈ cs.head?, ofChars? [c, d] = none) (sign : Symbol) :
    ¬ sign.chars <+: c :: cs := by
  have hsome := sign.ofChars?_chars
  rcases sign.chars_eq_one_or_two with ⟨x, hx⟩ | ⟨x, y, hxy⟩
  · rw [hx] at hsome ⊢
    intro h
    obtain ⟨rfl, -⟩ := List.cons_prefix_cons.1 h
    rw [hone] at hsome
    cases hsome
  · rw [hxy] at hsome ⊢
    intro h
    obtain ⟨rfl, htail⟩ := List.cons_prefix_cons.1 h
    obtain ⟨rest, rfl⟩ := htail
    rw [htwo y rfl] at hsome
    cases hsome

namespace Piece

/-- What a piece consists of, and what the text goes on with after it. -/
def Fits : Piece → List Char → Prop
  | blank c, _ => Text.isBlank c = true
  | comment body, rest => '\n' ∉ body ∧ AtLineEnd rest
  | rejected c, rest => isSignStart c = true ∧ ∀ sign : Symbol, ¬ sign.chars <+: c :: rest
  | lexeme kind text, _ => IsLexeme kind text
  | unclosed text, rest => IsLexeme .string text ∧ AtLineEnd rest

theorem isLexeme_nameKind {name : List Char} (h : IsName name) :
    IsLexeme (nameKind name) name := by
  unfold nameKind
  split
  · rename_i word hword
    have ht := Keyword.text_of_ofText? hword
    change name = word.text.toList
    rw [ht, String.toList_ofList]
  · rename_i hnone
    refine ⟨h, ?_⟩
    rintro word rfl
    rw [String.ofList_toList, Keyword.ofText?_text] at hnone
    cases hnone

theorem fits_readNumber {c : Char} (hc : c.isDigit = true) (cs : List Char) :
    (readNumber (c :: cs)).1.Fits (readNumber (c :: cs)).2 := by
  have hwhole := isDigits_takeWhile hc cs
  simp only [readNumber]
  split
  · split
    · rename_i d rest _ hd
      exact ⟨_, _, hwhole, isDigits_takeWhile hd rest, rfl⟩
    · exact hwhole
  · exact hwhole

theorem fits_readName {c : Char} (hc : isNameStart c = true) (cs : List Char) :
    (readName (c :: cs)).1.Fits (readName (c :: cs)).2 :=
  isLexeme_nameKind (isName_takeWhile hc cs)

theorem fits_readString (cs : List Char) : (readString cs).1.Fits (readString cs).2 := by
  have hbody : IsLexeme .string (cs.takeWhile isStringPart) := fun x hx =>
    List.mem_takeWhile_imp hx
  have hstop := stops_dropWhile isStringPart cs
  simp only [readString]
  split
  · exact hbody
  · rename_i hquote
    refine ⟨hbody, ?_⟩
    intro c hc
    obtain ⟨rest, hrest⟩ := List.head?_eq_some_iff.1 hc
    have hne : c ≠ '"' := by
      rintro rfl
      exact hquote rest hrest
    have hpart := hstop c hc
    simpa [isStringPart, hne] using hpart

theorem fits_readSign {c : Char} {cs : List Char} (hc : isSignStart c = true)
    (htwo : ∀ d ∈ cs.head?, Symbol.ofChars? [c, d] = none) :
    (readSign c cs).1.Fits (readSign c cs).2 := by
  unfold readSign
  split
  · rename_i sign hsign
    exact (Symbol.chars_of_ofChars? hsign).symm
  · rename_i hone
    exact ⟨hc, Symbol.not_chars_prefix_cons hone htwo⟩

theorem fits_readSymbol {c : Char} (hc : isSignStart c = true) (cs : List Char) :
    (readSymbol c cs).1.Fits (readSymbol c cs).2 := by
  cases cs with
  | nil => exact fits_readSign hc (by simp)
  | cons d rest =>
    rw [readSymbol]
    split
    · rename_i sign hsign
      exact (Symbol.chars_of_ofChars? hsign).symm
    · rename_i hnone
      exact fits_readSign hc (by simpa using hnone)

theorem fits_read (c : Char) (cs : List Char) : (read c cs).1.Fits (read c cs).2 := by
  unfold read
  split
  · assumption
  split
  · refine ⟨?_, atLineEnd_of_stops (stops_dropWhile _ cs)⟩
    intro hn
    simpa using List.mem_takeWhile_imp hn
  split
  · exact fits_readString cs
  split
  · exact fits_readNumber ‹_› cs
  split
  · exact fits_readName ‹_› cs
  · exact fits_readSymbol (by simp [isSignStart, *]) cs

end Piece

/-- No sign continues this one. -/
def Symbol.Lone (sign : Symbol) : Prop :=
  ∀ (longer : Symbol) (c : Char), longer.chars ≠ sign.chars ++ [c]

section Pieces

variable {rest : List Char}

theorem pieces_blank {c : Char} (h : Text.isBlank c = true) :
    pieces (c :: rest) = .blank c :: pieces rest := by
  rw [pieces_cons, Piece.read, if_pos h]

theorem pieces_name {name : List Char} (h : IsName name) (hrest : Stops isNamePart rest) :
    pieces (name ++ rest) = .lexeme (Piece.nameKind name) name :: pieces rest := by
  have hparts := h.forall_isNamePart
  obtain ⟨c, tail, rfl, hc, -⟩ := h
  have hpart := isNamePart_of_isNameStart hc
  have hread : Piece.read c (tail ++ rest) = Piece.readName (c :: (tail ++ rest)) := by
    rw [Piece.read, if_neg (by simp [isBlank_of_isNamePart hpart]),
      if_neg (ne_of_class hpart (by decide)), if_neg (ne_of_class hpart (by decide)),
      if_neg (by simp [isDigit_of_isNameStart hc]), if_pos hc]
  rw [List.cons_append, pieces_cons, hread, ← List.cons_append, Piece.readName,
    takeWhile_append_of_stops hparts hrest, dropWhile_append_of_stops hparts hrest]

theorem read_eq_readNumber {c : Char} (h : c.isDigit = true) (cs : List Char) :
    Piece.read c cs = Piece.readNumber (c :: cs) := by
  rw [Piece.read, if_neg (by simp [Text.isBlank_of_isDigit h]),
    if_neg (ne_of_class h (by decide)), if_neg (ne_of_class h (by decide)), if_pos h]

/-- The text does not go on with a point and a digit. -/
def NoFraction (cs : List Char) : Prop := ∀ d tail, cs = '.' :: d :: tail → d.isDigit = false

theorem noFraction_of_head?_ne {cs : List Char} (h : cs.head? ≠ some '.') : NoFraction cs := by
  rintro d tail rfl
  exact absurd rfl h

theorem pieces_int {ds : List Char} (h : IsDigits ds) (hrest : Stops Char.isDigit rest)
    (hpoint : NoFraction rest) : pieces (ds ++ rest) = .lexeme .int ds :: pieces rest := by
  have htake := takeWhile_append_of_stops h.2 hrest
  have hdrop := dropWhile_append_of_stops h.2 hrest
  have hnumber : Piece.readNumber (ds ++ rest) = (.lexeme .int ds, rest) := by
    simp only [Piece.readNumber, htake, hdrop]
    split
    · next d tail => rw [if_neg (by simp [hpoint d tail rfl])]
    · rfl
  obtain ⟨c, tail, rfl⟩ := List.exists_cons_of_ne_nil h.1
  have hc : c.isDigit = true := h.2 c List.mem_cons_self
  rw [List.cons_append, pieces_cons, read_eq_readNumber hc, ← List.cons_append, hnumber]

theorem read_eq_readSymbol {c : Char} (h : isSignStart c = true) (cs : List Char) :
    Piece.read c cs = Piece.readSymbol c cs := by
  simp only [isSignStart, Bool.and_eq_true, Bool.not_eq_true', decide_eq_true_eq] at h
  obtain ⟨⟨⟨⟨hblank, hcomment⟩, hquote⟩, hdigit⟩, hname⟩ := h
  rw [Piece.read, if_neg (by simp [hblank]), if_neg hcomment, if_neg hquote,
    if_neg (by simp [hdigit]), if_neg (by simp [hname])]

theorem pieces_sign {sign : Symbol} {c : Char} (hc : sign.chars = [c])
    (hrest : ∀ d ∈ rest.head?, Symbol.ofChars? [c, d] = none) :
    pieces (c :: rest) = .lexeme (.symbol sign) [c] :: pieces rest := by
  obtain ⟨c', cs, hcs, hstart⟩ := sign.chars_eq_cons
  rw [hc] at hcs
  cases hcs
  have hsign : Symbol.ofChars? [c] = some sign := by rw [← hc, Symbol.ofChars?_chars]
  have hread : Piece.readSymbol c rest = (.lexeme (.symbol sign) [c], rest) := by
    cases rest with
    | nil => simp [Piece.readSymbol, Piece.readSign, hsign]
    | cons d rest =>
      have hnone : Symbol.ofChars? [c, d] = none := hrest d rfl
      simp [Piece.readSymbol, Piece.readSign, hsign, hnone]
  rw [pieces_cons, read_eq_readSymbol hstart, hread]

theorem pieces_lone {sign : Symbol} {c : Char} (hc : sign.chars = [c]) (hlone : sign.Lone) :
    pieces (c :: rest) = .lexeme (.symbol sign) [c] :: pieces rest := by
  refine pieces_sign hc fun d _ => ?_
  cases hlonger : Symbol.ofChars? [c, d] with
  | none => rfl
  | some longer =>
    have hne := hlone longer d
    rw [hc, Symbol.chars_of_ofChars? hlonger] at hne
    exact absurd rfl hne

end Pieces

end ScriptKit
