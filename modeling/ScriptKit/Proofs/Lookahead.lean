import ScriptKit.Proofs.Spacing

/-! How far reading looks ahead. Where a lexeme ends is settled by the character after it, and after
a number by one more behind a point. So a lexeme that was read is read again in any text that goes
on like its own, or goes on with a blank or not at all. -/
namespace ScriptKit

/-- One text goes on like another: with a blank or a comment, or not at all, or with the same
character, and a digit after that only if it is there in the other text too. -/
def GoesOnLike (rest other : List Char) : Prop :=
  Parted rest ∨ ∃ c tail tail', rest = c :: tail ∧ other = c :: tail' ∧
    ∀ d ∈ tail.head?, d.isDigit = true → tail'.head? = some d

namespace GoesOnLike

variable {rest other : List Char}

/-- A run of one class that ends in the one text ends in the other. -/
theorem stops (h : GoesOnLike rest other) {p : Char → Bool}
    (hblank : ∀ c, p c = true → Text.isBlank c = false) (hsign : p '#' = false)
    (hother : Stops p other) : Stops p rest := by
  rcases h with hparted | ⟨c, tail, tail', rfl, rfl, -⟩
  · exact hparted.stops hblank hsign
  · exact stops_cons.2 (stops_cons.1 hother)

theorem ofChars?_eq_none (h : GoesOnLike rest other) {c : Char}
    (hother : ∀ d ∈ other.head?, Symbol.ofChars? [c, d] = none) :
    ∀ d ∈ rest.head?, Symbol.ofChars? [c, d] = none := by
  rcases h with hparted | ⟨x, tail, tail', rfl, rfl, -⟩
  · exact hparted.ofChars?_eq_none c
  · exact hother

theorem noFraction (h : GoesOnLike rest other) (hother : NoFraction other) : NoFraction rest := by
  rintro d tail rfl
  rcases h with hparted | ⟨c, _, tail', ⟨⟩, rfl, hdigit⟩
  · exact absurd rfl (hparted.head?_ne (by decide) (by decide))
  · cases hd : d.isDigit with
    | false => rfl
    | true =>
      obtain ⟨ds, rfl⟩ := List.head?_eq_some_iff.1 (hdigit d rfl hd)
      rw [hother d ds rfl] at hd
      cases hd

theorem head?_of_isDigit (h : GoesOnLike rest other) :
    ∀ d ∈ rest.head?, d.isDigit = true → other.head? = some d := by
  intro d hd hdigit
  rcases h with hparted | ⟨c, tail, tail', rfl, rfl, -⟩
  · have hstop := hparted.stops_isDigit d hd
    rw [hdigit] at hstop
    cases hstop
  · exact hd

/-- Behind equal characters only a digit makes a difference. -/
theorem of_append {cs : List Char} (hne : cs ≠ [])
    (h : ∀ d ∈ rest.head?, d.isDigit = true → other.head? = some d) :
    GoesOnLike (cs ++ rest) (cs ++ other) := by
  obtain ⟨c, cs, rfl⟩ := List.exists_cons_of_ne_nil hne
  refine .inr ⟨c, cs ++ rest, cs ++ other, rfl, rfl, ?_⟩
  cases cs with
  | nil => exact h
  | cons x cs =>
    rintro d ⟨⟩ -
    rfl

end GoesOnLike

namespace Piece

/-- A lexeme that was read before some text is read before any text that goes on like it. -/
def Rereads : Piece → List Char → Prop
  | lexeme kind text, other => ∀ rest, GoesOnLike rest other →
      pieces ((lexeme kind text).chars ++ rest) = lexeme kind text :: pieces rest
  | _, _ => True

theorem rereads_readNumber {c : Char} (hc : c.isDigit = true) (cs : List Char) :
    (readNumber (c :: cs)).1.Rereads (readNumber (c :: cs)).2 := by
  have hwhole := isDigits_takeWhile hc cs
  have hstop := stops_dropWhile Char.isDigit (c :: cs)
  have hdigits : ∀ {rest other}, GoesOnLike rest other → Stops Char.isDigit other →
      Stops Char.isDigit rest := fun h =>
    h.stops (fun _ => Text.isBlank_of_isDigit) (by decide)
  simp only [readNumber]
  split
  · next d tail hdrop =>
    split
    · next hd =>
      intro rest h
      exact pieces_float hwhole (isDigits_takeWhile hd tail) (hdigits h (stops_dropWhile _ _))
    · next hd =>
      intro rest h
      have hpoint : NoFraction ('.' :: d :: tail) := by
        rintro _ _ ⟨⟩
        simpa using hd
      exact pieces_int hwhole (hdigits h (hdrop ▸ hstop)) (h.noFraction hpoint)
  · next hpoint =>
    intro rest h
    refine pieces_int hwhole (hdigits h hstop) (h.noFraction fun d tail hdrop => ?_)
    exact (hpoint d tail hdrop).elim

theorem rereads_readName {c : Char} (hc : isNameStart c = true) (cs : List Char) :
    (readName (c :: cs)).1.Rereads (readName (c :: cs)).2 := by
  intro rest h
  have hstop : Stops isNamePart rest :=
    h.stops (fun _ => isBlank_of_isNamePart) (by decide) (stops_dropWhile isNamePart (c :: cs))
  have hchars := chars_readName_eq (c :: cs)
  rw [readName] at hchars
  rw [hchars]
  exact pieces_name (isName_takeWhile hc cs) hstop

theorem rereads_readString (cs : List Char) : (readString cs).1.Rereads (readString cs).2 := by
  simp only [readString]
  split
  · exact fun rest _ => pieces_string fun x hx => List.mem_takeWhile_imp hx
  · trivial

theorem rereads_readSign {c : Char} {cs : List Char}
    (htwo : ∀ d ∈ cs.head?, Symbol.ofChars? [c, d] = none) :
    (readSign c cs).1.Rereads (readSign c cs).2 := by
  unfold readSign
  split
  · next sign hsign =>
    exact fun rest h => pieces_sign (Symbol.chars_of_ofChars? hsign) (h.ofChars?_eq_none htwo)
  · trivial

theorem rereads_readSymbol (c : Char) (cs : List Char) :
    (readSymbol c cs).1.Rereads (readSymbol c cs).2 := by
  cases cs with
  | nil => exact rereads_readSign (by simp)
  | cons d tail =>
    rw [readSymbol]
    split
    · next sign hsign => exact fun rest _ => pieces_twoSign (Symbol.chars_of_ofChars? hsign)
    · next hnone => exact rereads_readSign (by simpa using hnone)

theorem rereads_read (c : Char) (cs : List Char) : (read c cs).1.Rereads (read c cs).2 := by
  unfold read
  split
  · trivial
  split
  · trivial
  split
  · exact rereads_readString cs
  split
  · exact rereads_readNumber ‹_› cs
  split
  · exact rereads_readName ‹_› cs
  · exact rereads_readSymbol c cs

end Piece

end ScriptKit
