import ScriptKit.Proofs.Drawing
import ScriptKit.Proofs.ReadingOrder
import ScriptKit.Proofs.TypeText

/-! Taking the errors of both stages of reading into a collector. Errors of the first stage stand at
different places and those of the second have other messages, so no two are drawn alike: each is
recorded once, and none a second time. -/
namespace ScriptKit

theorem head?_toList_append {s t : String} {c : Char} (h : s.toList.head? = some c) :
    (s ++ t).toList.head? = some c := by
  rw [String.toList_append, List.head?_append, h, Option.some_or]

theorem LexFault.head?_message (fault : LexFault) : fault.message.toList.head? = some 'U' := by
  cases fault with
  | unexpected c => exact head?_toList_append (head?_toList_append (by decide))
  | unterminated => decide

/-- No message about a type is one about a piece of the text: none begins with a capital. -/
theorem TypeFault.message_ne (fault : TypeFault) (other : LexFault) :
    fault.message ≠ other.message := by
  obtain ⟨c, hc, hhead⟩ : ∃ c, c ≠ 'U' ∧ fault.message.toList.head? = some c := by
    cases fault with
    | tooDeep =>
      exact ⟨'t', by decide, head?_toList_append (head?_toList_append (by decide))⟩
    | noType found =>
      exact ⟨'e', by decide, head?_toList_append (head?_toList_append (by decide))⟩
    | mapElement map =>
      exact ⟨'\x60', by decide, head?_toList_append (head?_toList_append (by decide))⟩
    | missing expected found =>
      exact ⟨'e', by decide, head?_toList_append (head?_toList_append (head?_toList_append
        (head?_toList_append (by decide))))⟩
    | trailing found =>
      exact ⟨'u', by decide, head?_toList_append (head?_toList_append (by decide))⟩
  intro h
  rw [h, other.head?_message] at hhead
  exact hc (Option.some.inj hhead).symm

namespace SourceFile

theorem exists_fault_of_mem_errors (file : SourceFile) {e : SourceError}
    (he : e ∈ file.lex.errors.errors) : ∃ fault : LexFault, e.message = fault.message := by
  rw [lex_errors] at he
  obtain ⟨p, -, herror⟩ := List.mem_filterMap.1 he
  obtain ⟨fault, -, rfl⟩ := Option.map_eq_some_iff.1 herror
  exact ⟨fault, rfl⟩

end SourceFile

theorem Descriptor.errors_parse_cases (file : SourceFile) (tokens : List Token) :
    (parse file tokens).errors = .empty ∨
      ∃ fault : Fault, (parse file tokens).errors = faultLog file fault := by
  rw [parse]
  split
  · exact .inr ⟨_, rfl⟩
  · exact .inl rfl
  · exact .inr ⟨_, rfl⟩

namespace Collector

variable {c : Collector} {ds : List Diagnostic}

theorem place_anchor (c : Collector) (span : Span) :
    (c.anchor span).row = span.row ∧ (c.anchor span).col = span.col := by
  rw [anchor]
  cases hfind : c.tokens.find? fun t => t.row = span.row && t.col = span.col with
  | none => exact ⟨rfl, rfl⟩
  | some t =>
    have ht := List.find?_some hfind
    simpa using ht

theorem rendered_ofError_eq {e e' : SourceError}
    (h : (c.ofError e).rendered = (c.ofError e').rendered) :
    e.span.place = e'.span.place ∧ e.message = e'.message := by
  obtain ⟨hmark, hmessage⟩ := Diagnostic.render_eq_iff.1 h
  obtain ⟨hrow, hcol, -⟩ := Token.mark_eq_iff.1 hmark
  rw [(c.place_anchor _).1, (c.place_anchor _).1] at hrow
  rw [(c.place_anchor _).2, (c.place_anchor _).2] at hcol
  exact ⟨by rw [Span.place, Span.place, hrow, hcol], hmessage⟩

theorem ofError_addAll (c : Collector) (es : List Diagnostic) (e : SourceError) :
    (c.addAll es).ofError e = c.ofError e := by
  induction es generalizing c with
  | nil => rfl
  | cons d es ih => exact (ih (c.add d).1).trans (c.ofError_add d e)

theorem ofError_absorb (c : Collector) (log : ErrorLog) : (c.absorb log).1.ofError = c.ofError := by
  funext e
  rw [absorb_eq_addAll, ofError_addAll]

theorem Holds.size_eq_length (h : c.Holds ds) (hnodup : (ds.map Diagnostic.rendered).Nodup) :
    c.size = ds.length := by
  rw [h.size_eq, List.toFinset_card_of_nodup hnodup, List.length_map]

theorem Holds.absorb (h : c.Holds ds) (log : ErrorLog) :
    (c.absorb log).1.Holds (ds ++ log.errors.map c.ofError) := by
  rw [absorb_eq_addAll]
  exact h.addAll _

/-- If no text is offered twice, taking in a log counts all errors that the log keeps. -/
theorem Holds.count_absorb (h : c.Holds ds) {log : ErrorLog}
    (hnodup : ((ds ++ log.errors.map c.ofError).map Diagnostic.rendered).Nodup) :
    (c.absorb log).2 = log.errors.length := by
  have hbefore : (ds.map Diagnostic.rendered).Nodup := by
    rw [List.map_append] at hnodup
    exact hnodup.of_append_left
  have hsize := c.size_absorb log
  rw [(h.absorb log).size_eq_length hnodup, h.size_eq_length hbefore, List.length_append,
    List.length_map] at hsize
  exact (Nat.add_left_cancel hsize).symm

theorem Holds.absorb_again (h : c.Holds ds) {log : ErrorLog}
    (hlog : ∀ e ∈ log.errors, c.ofError e ∈ ds) : c.absorb log = (c, 0) := by
  have hadd : ∀ d ∈ ds, c.add d = (c, false) := by
    intro d hd
    rw [Collector.add, if_pos ((h.contains_iff d.rendered).2 ⟨d, hd, rfl⟩)]
  have hfold : ∀ es : List SourceError, (∀ e ∈ es, c.ofError e ∈ ds) →
      es.foldl takeIn (c, 0) = (c, 0) := by
    intro es hes
    induction es with
    | nil => rfl
    | cons e es ih =>
      obtain ⟨he, hrest⟩ := List.forall_mem_cons.1 hes
      have hstep : takeIn (c, 0) e = (c, 0) := by
        rw [takeIn, hadd _ he]
        rfl
      rw [List.foldl_cons, hstep, ih hrest]
  rw [absorb_eq_foldl]
  exact hfold log.errors hlog

/-- No two errors of the two stages are drawn alike, as long as the counters tell the places of the
first stage apart. -/
theorem nodup_rendered (c : Collector) {file : SourceFile} (h : InRange file.consumed)
    (tokens : List Token) :
    ((file.lex.errors.errors.map c.ofError ++
      (Descriptor.parse file tokens).errors.errors.map c.ofError).map
        Diagnostic.rendered).Nodup := by
  have hfirst : ((file.lex.errors.errors.map c.ofError).map Diagnostic.rendered).Nodup := by
    rw [List.map_map]
    refine List.pairwise_map.2 ((SourceFile.pairwise_errors_lex h).imp fun {e e'} hlt heq => ?_)
    rw [(rendered_ofError_eq heq).1] at hlt
    exact Place.lt_irrefl _ hlt
  rcases Descriptor.errors_parse_cases file tokens with hparse | ⟨fault, hparse⟩
  · rw [hparse]
    simpa [ErrorLog.empty] using hfirst
  · rw [hparse, List.map_append]
    refine List.nodup_append.2 ⟨hfirst, List.nodup_singleton _, ?_⟩
    intro x hx y hy hxy
    rw [List.map_map] at hx
    obtain ⟨e, he, rfl⟩ := List.mem_map.1 hx
    obtain ⟨lexFault, hmessage⟩ := file.exists_fault_of_mem_errors he
    rw [List.mem_singleton.1 hy] at hxy
    exact fault.1.message_ne lexFault ((rendered_ofError_eq hxy).2.symm.trans hmessage)

/-- A collector over the tokens of a text within range takes in every error of reading the text, and
every error of reading the tokens as a type, exactly once. Taking either in again changes nothing,
whatever the text. -/
theorem absorb_all_errors (name : String) (palette : Diagnostic.Palette) (file : SourceFile) :
    let lexed := file.lex
    let parsed := Descriptor.parse file lexed.tokens
    let c := new name lexed.tokens palette
    let c₁ := (c.absorb lexed.errors).1
    let c₂ := (c₁.absorb parsed.errors).1
    (InRange file.consumed →
      (c.absorb lexed.errors).2 = lexed.errors.totalErrors.toNat ∧
      (c₁.absorb parsed.errors).2 = parsed.errors.totalErrors.toNat ∧
      c₂.size = lexed.errors.totalErrors.toNat + parsed.errors.totalErrors.toNat) ∧
    c₂.absorb lexed.errors = (c₂, 0) ∧ c₂.absorb parsed.errors = (c₂, 0) := by
  intro lexed parsed c c₁ c₂
  have hc₁ : c₁.ofError = c.ofError := c.ofError_absorb lexed.errors
  have hc₂ : c₂.ofError = c.ofError := (c₁.ofError_absorb parsed.errors).trans hc₁
  have hnew : c.Holds [] := holds_new name lexed.tokens palette
  have h₁ : c₁.Holds (lexed.errors.errors.map c.ofError) := hnew.absorb lexed.errors
  have h₂ : c₂.Holds (lexed.errors.errors.map c.ofError ++ parsed.errors.errors.map c₁.ofError) :=
    h₁.absorb parsed.errors
  refine ⟨fun hrange => ?_, ?_, ?_⟩
  · have hnodup : ((lexed.errors.errors.map c.ofError ++
        parsed.errors.errors.map c₁.ofError).map Diagnostic.rendered).Nodup := by
      rw [hc₁]
      exact nodup_rendered c hrange lexed.tokens
    have hnodup₁ : ((lexed.errors.errors.map c.ofError).map Diagnostic.rendered).Nodup := by
      rw [List.map_append] at hnodup
      exact hnodup.of_append_left
    rw [file.keepsAll_lex.counted, (Descriptor.keepsAll_parse file lexed.tokens).counted]
    refine ⟨hnew.count_absorb hnodup₁, h₁.count_absorb hnodup, ?_⟩
    rw [h₂.size_eq_length hnodup, List.length_append, List.length_map, List.length_map]
  · refine h₂.absorb_again fun e he => List.mem_append_left _ ?_
    rw [hc₂]
    exact List.mem_map_of_mem he
  · refine h₂.absorb_again fun e he => List.mem_append_right _ ?_
    rw [hc₂, hc₁]
    exact List.mem_map_of_mem he

theorem Holds.count_absorb_twice (h : c.Holds []) {log : ErrorLog} {e : SourceError}
    (hlog : log.errors = [e, e]) : (c.absorb log).2 = 1 := by
  have hsize := c.size_absorb log
  rw [(h.absorb log).size_eq, h.size_eq, hlog] at hsize
  simpa using hsize.symm

/-- Of two rejected characters as far apart as the counter can count, one is lost. -/
theorem absorb_loses_error :
    let file := SourceFile.spaced ['@'] 4294967295 '@'
    file.lex.errors.totalErrors = 2 ∧
      ((new "" file.lex.tokens .plain).absorb file.lex.errors).2 = 1 := by
  intro file
  have herrors := SourceFile.errors_spaced_signs (n := 4294967295) (by decide)
  rw [spanAfter_spaces _ (by decide) (by decide)] at herrors
  constructor
  · apply UInt64.toNat_inj.1
    rw [file.totalErrors_lex, show file.lex.errors.errors = _ from herrors]
    rfl
  · exact (holds_new "" file.lex.tokens .plain).count_absorb_twice herrors

end Collector
end ScriptKit
