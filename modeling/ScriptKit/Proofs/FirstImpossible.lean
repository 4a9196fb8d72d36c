import Mathlib.Algebra.Order.Kleene
import Mathlib.Data.List.TakeWhile
import ScriptKit.Proofs.LimitFaults
import ScriptKit.Proofs.TypeLanguage

/-! Where reading a type goes wrong. The reader blames the first token with which the tokens begin
no sentence, the end mark standing for the end of the sentence. Only faults about limits that the
grammar does not know are blamed elsewhere: where the tokens meet the limit. -/
namespace ScriptKit
namespace Descriptor

open Computability

def unmarked : Language Token := (one (·.isEof = false))∗

theorem isEof_of_mem_unmarked {w : List Token} (h : w ∈ unmarked) {t : Token} (ht : t ∈ w) :
    t.isEof = false := by
  obtain ⟨parts, rfl, hparts⟩ := Language.mem_kstar.1 h
  obtain ⟨part, hpart, htpart⟩ := List.mem_flatten.1 ht
  obtain ⟨u, hu, rfl⟩ := hparts part hpart
  rwa [List.mem_singleton.1 htpart]

section Unmarked

variable {L M : Language Token}

theorem one_le_unmarked {p : Token → Prop} (h : ∀ t, p t → t.isEof = false) :
    one p ≤ unmarked := by
  refine le_trans ?_ le_kstar
  rintro w ⟨t, ht, rfl⟩
  exact ⟨t, h t ht, rfl⟩

theorem sign_le_unmarked (s : Symbol) : sign s ≤ unmarked :=
  one_le_unmarked fun t ht => by simp [Token.isEof, ht]

theorem mul_le_unmarked (hL : L ≤ unmarked) (hM : M ≤ unmarked) : L * M ≤ unmarked :=
  (mul_le_mul' hL hM).trans (kstar_mul_kstar _).le

theorem maybe_le_unmarked (hL : L ≤ unmarked) : maybe L ≤ unmarked := add_le one_le_kstar hL

theorem typeForms_le_unmarked (hL : L ≤ unmarked) : typeForms L ≤ unmarked := by
  have hint : integer ≤ unmarked := one_le_unmarked fun t ht => by simp [Token.isEof, ht]
  have hmap : mapWord ≤ unmarked := one_le_unmarked fun t ht => by simp [Token.isEof, ht.1]
  have hname : typeName ≤ unmarked := one_le_unmarked fun t ht => by simp [Token.isEof, ht.1]
  refine add_le (add_le ?_ (mul_le_unmarked hmap (maybe_le_unmarked ?_)))
    (mul_le_unmarked hname (maybe_le_unmarked ?_))
  · exact mul_le_unmarked (mul_le_unmarked (mul_le_unmarked (sign_le_unmarked _)
      (maybe_le_unmarked hint)) (sign_le_unmarked _)) hL
  · exact mul_le_unmarked (mul_le_unmarked (mul_le_unmarked (mul_le_unmarked (sign_le_unmarked _)
      (maybe_le_unmarked hL)) (sign_le_unmarked _)) (maybe_le_unmarked hL)) (sign_le_unmarked _)
  · exact mul_le_unmarked (mul_le_unmarked (sign_le_unmarked _) hL) (sign_le_unmarked _)

end Unmarked

theorem isEof_of_mem_sentence {w : List Token} (h : w ∈ sentences) {t : Token} (ht : t ∈ w) :
    t.isEof = false :=
  isEof_of_mem_unmarked (sentences_le (typeForms_le_unmarked le_rfl) h) ht

/-- The tokens can be continued to a sentence with an end mark after it. -/
def Viable (ts : List Token) : Prop := ∃ more, ts ++ more ∈ sentences * one (·.isEof = true)

theorem viable_of_mem {ts w : List Token} (hw : w ∈ sentences) (h : ts <+: w) : Viable ts := by
  obtain ⟨more, rfl⟩ := h
  refine ⟨more ++ [⟨.eof, "", .point 1 1⟩], ?_⟩
  rw [← List.append_assoc]
  exact Language.append_mem_mul hw ⟨_, rfl, rfl⟩

/-- The last token of a viable list stands within a sentence or ends one. -/
theorem Viable.cases {before : List Token} {t : Token} (h : Viable (before ++ [t])) :
    (∃ more, before ++ t :: more ∈ sentences) ∨ before ∈ sentences ∧ t.isEof = true := by
  obtain ⟨more, hmore⟩ := h
  obtain ⟨w, hw, _, ⟨mark, hmark, rfl⟩, heq⟩ := Language.mem_mul.1 hmore
  rcases List.eq_nil_or_concat more with rfl | ⟨more, last, rfl⟩
  · rw [List.append_nil] at heq
    obtain ⟨rfl, hlast⟩ := List.append_inj' heq rfl
    cases hlast
    exact .inr ⟨hw, hmark⟩
  · rw [List.concat_eq_append, ← List.append_assoc] at heq
    obtain ⟨rfl, -⟩ := List.append_inj' heq rfl
    exact .inl ⟨more, by simpa using hw⟩

/-- The first token with which the tokens begin no sentence, and the tokens before it. -/
structure FirstImpossible (ts before : List Token) (t : Token) : Prop where
  found : before ++ [t] <+: ts
  possible : Viable before
  impossible : ¬ Viable (before ++ [t])

section Readings

variable {stop : Span} {levels : Nat} {ts : List Token}

/-- A sentence is read to its end unless a limit is in the way. -/
theorem readType_sentence (stop : Span) (levels : Nat) {w : List Token} (hw : w ∈ sentences) :
    (∃ d, readType stop levels w = .ok (d, [])) ∨
      ∃ fault, readType stop levels w = .error fault ∧ fault.1.isLimit = true := by
  have h := (reads_readType stop levels).accepted hw (not_next_nil _)
  rwa [List.append_nil] at h

theorem firstImpossible_of_error {fault : Fault} (h : readType stop levels ts = .error fault)
    (hfault : fault.1.isLimit = false) (hts : ∀ t ∈ ts, t.isEof = false) {mark : Token}
    (hmark : mark.isEof = true) (hstop : mark.span = stop) (after : List Token) :
    ∃ before t, FirstImpossible (ts ++ mark :: after) before t ∧ fault.2 = t.span := by
  obtain ⟨before, rest, rfl, hspan, hbegins, hsame⟩ := (reads_readType stop levels).blamed h hfault
  have hpossible : Viable before := by
    rcases hbegins with rfl | ⟨more, hmore⟩
    · obtain ⟨w, hw⟩ := exists_mem_sentences
      exact viable_of_mem hw ⟨w, rfl⟩
    · exact viable_of_mem hmore ⟨more, rfl⟩
  -- No sentence goes on as these tokens do: the reader would blame the same token in it.
  have hnone : ∀ rest', rest'.head? = rest.head? → before ++ rest' ∉ sentences := by
    intro rest' hrest hw
    rcases readType_sentence stop levels hw with ⟨d, hread⟩ | ⟨fault', hread, hlimit⟩
    · cases (hsame rest' hrest).symm.trans hread
    · cases (hsame rest' hrest).symm.trans hread
      simp [hlimit] at hfault
  cases rest with
  | nil =>
    refine ⟨before, mark, ⟨⟨after, by simp⟩, hpossible, fun hviable => ?_⟩, hspan.trans hstop.symm⟩
    rcases hviable.cases with ⟨more, hmore⟩ | ⟨hbefore, -⟩
    · have hunmarked := isEof_of_mem_sentence hmore (t := mark) (by simp)
      simp [hmark] at hunmarked
    · exact hnone [] rfl (by simpa using hbefore)
  | cons t rest =>
    refine ⟨before, t, ⟨⟨rest ++ mark :: after, by simp⟩, hpossible, fun hviable => ?_⟩, hspan⟩
    rcases hviable.cases with ⟨more, hmore⟩ | ⟨-, heof⟩
    · exact hnone (t :: more) rfl hmore
    · simp [hts t (by simp)] at heof

theorem firstImpossible_of_trailing {d : Descriptor} {t : Token} {rest : List Token}
    (h : readType stop levels ts = .ok (d, t :: rest)) (hts : ∀ u ∈ ts, u.isEof = false)
    (after : List Token) :
    ∃ used, Derives levels used d ∧ FirstImpossible (ts ++ after) used t := by
  obtain ⟨used, hused, rfl, hsame⟩ := (reads_readType stop levels).taken h
  obtain ⟨used', heq, hderives⟩ := readType_sound stop levels h
  obtain rfl := List.append_cancel_right heq
  refine ⟨used, hderives, ⟨rest ++ after, by simp⟩, viable_of_mem hused List.prefix_rfl, ?_⟩
  intro hviable
  rcases hviable.cases with ⟨more, hmore⟩ | ⟨-, heof⟩
  · have hread := hsame (t :: more) rfl
    rcases readType_sentence stop levels hmore with ⟨d', hread'⟩ | ⟨fault, hread', -⟩
    · cases hread.symm.trans hread'
    · cases hread.symm.trans hread'
  · simp [hts t (by simp)] at heof

end Readings

def addedMark (tokens : List Token) : Token :=
  ⟨.eof, "", (tokens.getLast?.map Token.span).getD (.point 1 1)⟩

/-- The tokens as they are read: an end mark is added unless they end with one. -/
def withEnd (tokens : List Token) : List Token :=
  if tokens.getLast?.any Token.isEof then tokens else tokens ++ [addedMark tokens]

theorem withEnd_eq (tokens : List Token) : ∃ mark after,
    withEnd tokens = content tokens ++ mark :: after ∧ mark.isEof = true ∧
      mark.span = endSpan tokens := by
  cases hfind : tokens.find? Token.isEof with
  | none =>
    have hnone : ∀ t ∈ tokens, ¬ t.isEof = true := List.find?_eq_none.1 hfind
    have hcontent : content tokens = tokens :=
      List.takeWhile_eq_self_iff.2 fun t ht => by simpa using hnone t ht
    have hlast : ¬ tokens.getLast?.any Token.isEof = true := by
      cases hget : tokens.getLast? with
      | none => simp
      | some t => exact hnone t (List.mem_of_getLast? hget)
    refine ⟨addedMark tokens, [], ?_, rfl, ?_⟩
    · rw [withEnd, if_neg hlast, hcontent]
    · rw [endSpan, hfind, addedMark]
  | some mark =>
    have hspan : endSpan tokens = mark.span := by
      rw [endSpan, hfind]
    obtain ⟨hmark, before, rest, rfl, hbefore⟩ := List.find?_eq_some_iff_append.1 hfind
    have hcontent : content (before ++ mark :: rest) = before := by
      rw [content, List.takeWhile_append_of_pos hbefore]
      simp [hmark]
    rw [hcontent, withEnd]
    split
    · exact ⟨mark, rest, rfl, hmark, hspan.symm⟩
    · exact ⟨mark, rest ++ [addedMark _], List.append_assoc _ _ _, hmark, hspan.symm⟩

/-- The log holds one error, about that fault at that place, and nothing else. -/
structure OneError (log : ErrorLog) (fault : TypeFault) (span : Span) : Prop where
  error : ∃ e, log.errors = [e] ∧ e.code = fault.code ∧ e.message = fault.message ∧ e.span = span
  totalErrors : log.totalErrors = 1
  warnings : log.warnings = [] ∧ log.totalWarnings = 0

theorem oneError_faultLog (file : SourceFile) (fault : Fault) :
    OneError (faultLog file fault) fault.1 fault.2 :=
  ⟨⟨_, rfl, rfl, rfl, rfl⟩, rfl, rfl, rfl⟩

theorem parse_of_meetsLimit (file : SourceFile) {tokens : List Token} {fault : Fault}
    (h : MeetsLimit (endSpan tokens) maxTypeDepth (content tokens) fault) :
    parse file tokens = ⟨none, faultLog file fault⟩ := by
  obtain ⟨hread, -⟩ := readType_eq_error_iff_meetsLimit.2 h
  rw [parse, hread]

/-- Reading ends in one of three ways: with a type of all tokens and no error; with a type of the
first tokens and one error at the token after it; or with no type and one error. An error that is
not about a limit stands at the first token with which the tokens begin no sentence; one about a
limit is reported exactly if the tokens meet that limit, and where they meet it. -/
theorem parse_blames_first_impossible (file : SourceFile) (tokens : List Token) :
    ((∃ d, (parse file tokens).type? = some d ∧ Derives maxTypeDepth (content tokens) d ∧
      (parse file tokens).errors = .empty) ∨
    (∃ d used t, (parse file tokens).type? = some d ∧ Derives maxTypeDepth used d ∧
      OneError (parse file tokens).errors (.trailing t.text) t.span ∧
      FirstImpossible (withEnd tokens) used t) ∨
    ∃ fault span, (parse file tokens).type? = none ∧
      OneError (parse file tokens).errors fault span ∧
      (fault.isLimit = false →
        ∃ before t, FirstImpossible (withEnd tokens) before t ∧ span = t.span) ∧
      (fault.isLimit = true →
        MeetsLimit (endSpan tokens) maxTypeDepth (content tokens) (fault, span))) ∧
    ∀ fault span, MeetsLimit (endSpan tokens) maxTypeDepth (content tokens) (fault, span) →
      (parse file tokens).type? = none ∧ OneError (parse file tokens).errors fault span := by
  constructor
  · obtain ⟨mark, after, hend, hmark, hspan⟩ := withEnd_eq tokens
    have hcontent : ∀ t ∈ content tokens, t.isEof = false := fun t ht => by
      simpa using List.mem_takeWhile_imp ht
    rw [parse, hend]
    split
    next fault hread =>
      refine .inr (.inr ⟨fault.1, fault.2, rfl, oneError_faultLog file fault, fun hfault => ?_,
        fun hfault => readType_eq_error_iff_meetsLimit.1 ⟨hread, hfault⟩⟩)
      exact firstImpossible_of_error hread hfault hcontent hmark hspan after
    next d hread => exact .inl ⟨d, rfl, (readType_eq_ok_iff_derives _).1 hread, rfl⟩
    next d t rest hread =>
      obtain ⟨used, hused, hfirst⟩ := firstImpossible_of_trailing hread hcontent (mark :: after)
      exact .inr (.inl ⟨d, used, t, rfl, hused, oneError_faultLog file _, hfirst⟩)
  · intro fault span h
    rw [parse_of_meetsLimit file h]
    exact ⟨rfl, oneError_faultLog file (fault, span)⟩

end Descriptor
end ScriptKit
