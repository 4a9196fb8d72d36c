import Mathlib.Order.FixedPoints
import Mathlib.Order.CompletePartialOrder
import ScriptKit.Proofs.TokenLanguage

/-! The language of types. The grammar is an equation between languages, whose least solution holds
its sentences; the reader of types reads that language. -/
namespace ScriptKit
namespace Descriptor

def sign (s : Symbol) : Language Token := one (·.kind = .symbol s)

def integer : Language Token := one (·.kind = .int)

def mapWord : Language Token := one fun t => t.kind = .identifier ∧ t.text = mapKind

def typeName : Language Token := one fun t => t.kind = .identifier ∧ t.text ≠ mapKind

/-- The forms of a type, from those of the types within it. -/
def typeForms (type : Language Token) : Language Token :=
  sign .bracketOpen * maybe integer * sign .bracketClose * type +
  mapWord * maybe (sign .parenOpen * maybe type * sign .comma * maybe type * sign .parenClose) +
  typeName * maybe (sign .parenOpen * type * sign .parenClose)

theorem monotone_typeForms : Monotone typeForms := by
  intro L M h
  simp only [typeForms, maybe]
  gcongr

/-- The sentences of the grammar: the least language that has all forms of its own types. -/
def sentences : Language Token := OrderHom.lfp ⟨typeForms, monotone_typeForms⟩

theorem typeForms_sentences : typeForms sentences = sentences :=
  OrderHom.map_lfp ⟨typeForms, monotone_typeForms⟩

theorem sentences_le {L : Language Token} (h : typeForms L ≤ L) : sentences ≤ L :=
  OrderHom.lfp_le ⟨typeForms, monotone_typeForms⟩ h

theorem next_of_mem_sentences {w : List Token} (h : w ∈ sentences) (rest : List Token) :
    Next (fun t => t.kind = .symbol .bracketOpen ∨ t.kind = .identifier) (w ++ rest) := by
  rw [← typeForms_sentences, typeForms, mul_assoc, mul_assoc] at h
  rcases h with (h | h) | h
  · obtain ⟨t, ht, hk⟩ := next_of_mem h rest
    exact ⟨t, ht, .inl hk⟩
  · obtain ⟨t, ht, hk, -⟩ := next_of_mem h rest
    exact ⟨t, ht, .inr hk⟩
  · obtain ⟨t, ht, hk, -⟩ := next_of_mem h rest
    exact ⟨t, ht, .inr hk⟩

theorem exists_mem_sentences : ∃ w, w ∈ sentences := by
  refine ⟨[⟨.identifier, "int", .point 1 1⟩], ?_⟩
  rw [← typeForms_sentences, ← List.append_nil [_]]
  exact .inr (Language.append_mem_mul ⟨_, ⟨rfl, by decide⟩, rfl⟩ (.inl rfl))

section Readers

variable {stop : Span} {read : Reader}

def takeSign (stop : Span) (s : Symbol) : Reading Token :=
  takeIf stop (·.kind = .symbol s) fun t => .missing (.symbol s) ((t.map Token.kind).getD .eof)

theorem expect_bind {β : Type} (s : Symbol) (ts : List Token)
    (f : List Token → Except Fault (β × List Token)) :
    (expect stop (.symbol s) ts >>= f) = andThen (takeSign stop s) (fun _ => f) ts := by
  cases ts with
  | nil => rfl
  | cons t ts =>
    by_cases ht : t.kind = .symbol s
    · rw [expect, andThen, takeSign, takeIf, if_pos ht, if_pos ht]
      rfl
    · rw [expect, andThen, takeSign, takeIf, if_neg ht, if_neg ht]
      rfl

theorem reads_takeSign (follow : List Token → Prop) (s : Symbol) :
    Reads stop (sign s) follow (takeSign stop s) := reads_takeIf follow

theorem exists_mem_sign (s : Symbol) : ∃ w, w ∈ sign s :=
  ⟨[⟨.symbol s, "", .point 1 1⟩], _, rfl, rfl⟩

def Unopened (ts : List Token) : Prop := ¬ Next (·.kind = .symbol .parenOpen) ts

theorem reads_readSize : Reads stop (maybe integer) (fun ts => ¬ Next (·.kind = .int) ts)
    fun ts => .ok (readSize ts) := by
  have hfirst : Reads stop (one (·.kind = .int) * 1) (fun _ => True)
      (andThen (takeIf stop (·.kind = .int) fun _ => .noType "") fun t => done (some t.text)) :=
    reads_takeIf_andThen (fun t => reads_done _ _) ⟨[], rfl⟩
  rw [integer, ← mul_one (one _)]
  refine hfirst.optional (a := none) ?_ ?_ fun rest hrest => ⟨hrest, trivial⟩
  · intro ts hts
    cases ts with
    | nil => exact absurd hts (not_next_nil _)
    | cons t ts =>
      rw [next_cons] at hts
      simp [readSize, andThen, takeIf, hts, done, bind, Except.bind]
  · intro ts hts
    cases ts with
    | nil => rfl
    | cons t ts =>
      rw [next_cons] at hts
      simp [readSize, hts]

/-- Refusing a map is about no rule of the grammar. -/
theorem Reads.readElement (h : Reads stop sentences Unopened read) :
    Reads stop sentences Unopened (readElement stop read) where
  taken {ts n rest} hread := by
    rw [readElement_eq_ok] at hread
    obtain ⟨used, hused, hts, hsame⟩ := h.taken hread
    exact ⟨used, hused, hts, fun rest' hrest => readElement_eq_ok.2 (hsame rest' hrest)⟩
  blamed {ts fault} hread hfault := by
    rw [Descriptor.readElement] at hread
    rcases Outcome.bind_eq_error.1 hread with herror | ⟨⟨d, rest⟩, -, hmap⟩
    · obtain ⟨before, rest, hts, hspan, hbegins, hsame⟩ := h.blamed herror hfault
      refine ⟨before, rest, hts, hspan, hbegins, fun rest' hrest => ?_⟩
      rw [Descriptor.readElement, hsame rest' hrest]
      rfl
    · cases d with
      | node n => cases hmap
      | map key value =>
        cases hmap
        cases hfault
  accepted {w rest} hw hrest := by
    rcases h.accepted hw hrest with ⟨d, hd⟩ | ⟨fault, herror, hlimit⟩
    · cases d with
      | node n => exact .inl ⟨n, readElement_eq_ok.2 hd⟩
      | map key value =>
        refine .inr ⟨(.mapElement (.map key value), nextSpan stop (w ++ rest)), ?_, rfl⟩
        rw [Descriptor.readElement, hd]
        rfl
    · refine .inr ⟨fault, ?_, hlimit⟩
      rw [Descriptor.readElement, herror]
      rfl

theorem Reads.readSide (h : Reads stop sentences Unopened read) {closing : Symbol}
    (hparen : closing ≠ .parenOpen) (hbracket : closing ≠ .bracketOpen) :
    Reads stop (maybe sentences) (Next (·.kind = .symbol closing)) (readSide closing read) := by
  refine (reads_done (fun _ => True) none).choice (p := (·.kind = .symbol closing))
    (h.mapTo some) ?_ ?_ ?_ ?_
  · intro ts hts
    cases ts with
    | nil => exact absurd hts (not_next_nil _)
    | cons t ts => simp [Descriptor.readSide, next_cons.1 hts, done]
  · intro ts hts
    have hmap : Descriptor.readSide closing read ts =
        (read ts).map fun p => (some p.1, p.2) := by
      cases ts with
      | nil => rfl
      | cons t ts => rw [Descriptor.readSide, if_neg (mt next_cons.2 hts)]
    rw [hmap, Descriptor.andThen]
    cases read ts <;> rfl
  · intro w hw rest hrest
    rw [(Language.mem_one w).1 hw]
    exact ⟨hrest, trivial⟩
  · intro w hw rest hrest
    refine ⟨not_next_of_next (next_of_mem_sentences hw rest) fun t ht hclosing => ?_,
      not_next_of_next hrest fun t ht => by simpa [ht] using hparen⟩
    rw [hclosing] at ht
    simp [hbracket] at ht

theorem readArray_eq (stop : Span) (read : Reader) : readArray stop read =
    andThen (fun ts => .ok (readSize ts)) fun size => andThen (takeSign stop .bracketClose) fun _ =>
      andThen (readElement stop read) fun child => done (node (.array size child)) := by
  funext ts
  exact expect_bind .bracketClose (readSize ts).2 _

theorem Reads.readArray (h : Reads stop sentences Unopened read) :
    Reads stop (maybe integer * (sign .bracketClose * sentences)) Unopened
      (readArray stop read) := by
  rw [readArray_eq]
  refine reads_readSize.andThen (fun size => ?_) ?_ ?_
  · exact reads_takeIf_andThen
      (fun _ => h.readElement.mapTo fun child => node (.array size child)) exists_mem_sentences
  · exact exists_mem_mul (exists_mem_sign _) exists_mem_sentences
  · intro w hw rest _
    exact not_next_of_next (next_of_mem hw rest) fun t ht => by simp [ht]

def readSides (stop : Span) (read : Reader) : Reading Descriptor :=
  andThen (takeSign stop .parenOpen) fun _ => andThen (readSide .comma read) fun key =>
    andThen (takeSign stop .comma) fun _ => andThen (readSide .parenClose read) fun value =>
      andThen (takeSign stop .parenClose) fun _ => done (map key value)

theorem readMap_of_next {ts : List Token} (h : Next (·.kind = .symbol .parenOpen) ts) :
    readMap stop read ts = readSides stop read ts := by
  cases ts with
  | nil => exact absurd h (not_next_nil _)
  | cons t ts =>
    rw [next_cons] at h
    have htake : takeSign stop .parenOpen (t :: ts) = .ok (t, ts) := if_pos h
    rw [readSides, andThen_of_ok htake, readMap, if_pos h]
    simp only [expect_bind]
    rfl

theorem Reads.readSides (h : Reads stop sentences Unopened read) :
    Reads stop (sign .parenOpen *
      (maybe sentences * (sign .comma * (maybe sentences * sign .parenClose)))) (fun _ => True)
      (readSides stop read) := by
  have hvalue := exists_mem_mul (exists_mem_maybe sentences) (exists_mem_sign .parenClose)
  have hcomma := exists_mem_mul (exists_mem_sign .comma) hvalue
  refine reads_takeIf_andThen (fun _ => ?_) (exists_mem_mul (exists_mem_maybe _) hcomma)
  refine (h.readSide (by decide) (by decide)).andThen (fun key => ?_) hcomma
    fun w hw rest _ => next_of_mem hw rest
  refine reads_takeIf_andThen (fun _ => ?_) hvalue
  refine (h.readSide (by decide) (by decide)).andThen (fun value => ?_) (exists_mem_sign _) ?_
  · exact (reads_takeSign _ .parenClose).mapTo fun _ => map key value
  · rintro w ⟨t, ht, rfl⟩ rest _
    exact next_cons.2 ht

theorem Reads.readMap (h : Reads stop sentences Unopened read) :
    Reads stop (maybe (sign .parenOpen *
      (maybe sentences * (sign .comma * (maybe sentences * sign .parenClose))))) Unopened
      (readMap stop read) := by
  refine h.readSides.optional readMap_of_next (a := map none none) ?_
    fun rest hrest => ⟨hrest, trivial⟩
  intro ts hts
  cases ts with
  | nil => rfl
  | cons t ts => rw [Descriptor.readMap, if_neg (mt next_cons.2 hts)]

def readChild (stop : Span) (read : Reader) (kind : String) : Reading Descriptor :=
  andThen (takeSign stop .parenOpen) fun _ => andThen (readElement stop read) fun child =>
    andThen (takeSign stop .parenClose) fun _ => done (node (.container kind none child))

theorem readNamed_of_next {kind : String} {ts : List Token}
    (h : Next (·.kind = .symbol .parenOpen) ts) :
    readNamed stop read kind ts = readChild stop read kind ts := by
  cases ts with
  | nil => exact absurd h (not_next_nil _)
  | cons t ts =>
    rw [next_cons] at h
    have htake : takeSign stop .parenOpen (t :: ts) = .ok (t, ts) := if_pos h
    rw [readChild, andThen_of_ok htake, readNamed, if_pos h]
    simp only [expect_bind]
    rfl

theorem Reads.readChild (h : Reads stop sentences Unopened read) (kind : String) :
    Reads stop (sign .parenOpen * (sentences * sign .parenClose)) (fun _ => True)
      (readChild stop read kind) := by
  refine reads_takeIf_andThen (fun _ => ?_)
    (exists_mem_mul exists_mem_sentences (exists_mem_sign _))
  refine h.readElement.andThen (fun child => ?_) (exists_mem_sign _) ?_
  · exact (reads_takeSign _ .parenClose).mapTo fun _ => node (.container kind none child)
  · rintro w ⟨t, ht, rfl⟩ rest _
    exact not_next_of_next (p := (·.kind = .symbol .parenClose)) (next_cons.2 ht)
      fun u hu => by simp [hu]

theorem Reads.readNamed (h : Reads stop sentences Unopened read) (kind : String) :
    Reads stop (maybe (sign .parenOpen * (sentences * sign .parenClose))) Unopened
      (readNamed stop read kind) := by
  refine (h.readChild kind).optional readNamed_of_next (a := node (.scalar kind)) ?_
    fun rest hrest => ⟨hrest, trivial⟩
  intro ts hts
  cases ts with
  | nil => rfl
  | cons t ts => rw [Descriptor.readNamed, if_neg (mt next_cons.2 hts)]

def noTypeFault (t? : Option Token) : TypeFault :=
  .noType ((t?.map Token.text).getD TokenKind.eof.text)

theorem readType_succ (stop : Span) (levels : Nat) : readType stop (levels + 1) =
    branch (·.kind = .symbol .bracketOpen)
      (andThen (takeSign stop .bracketOpen) fun _ => readArray stop (readType stop levels))
      (branch (fun t => t.kind = .identifier ∧ t.text = mapKind)
        (andThen (takeIf stop (fun t => t.kind = .identifier ∧ t.text = mapKind) noTypeFault)
          fun _ => readMap stop (readType stop levels))
        (andThen (takeIf stop (fun t => t.kind = .identifier ∧ t.text ≠ mapKind) noTypeFault)
          fun t => readNamed stop (readType stop levels) t.text)) := by
  funext ts
  cases ts with
  | nil => rfl
  | cons t ts =>
    rw [readType]
    split
    next hk => simp [branch, andThen, takeSign, takeIf, hk, bind, Except.bind]
    next hk =>
      by_cases hmap : t.text = mapKind
      · simp [branch, andThen, takeIf, hk, hmap, bind, Except.bind]
      · simp [branch, andThen, takeIf, hk, hmap, bind, Except.bind]
    next hbracket hname =>
      rw [branch, if_neg (mt next_cons.1 hbracket), branch,
        if_neg (mt next_cons.1 fun h => hname h.1), andThen, takeIf, if_neg fun h => hname h.1]
      rfl

/-- The reader of types reads the sentences of the grammar. -/
theorem reads_readType (stop : Span) (levels : Nat) :
    Reads stop sentences Unopened (readType stop levels) := by
  induction levels with
  | zero =>
    constructor
    · intro ts d rest h
      cases h
    · intro ts fault h hfault
      cases h
      cases hfault
    · intro w rest _ _
      exact .inr ⟨(.tooDeep, nextSpan stop (w ++ rest)), rfl, rfl⟩
  | succ levels ih =>
    have hafter := exists_mem_mul (exists_mem_sign .bracketClose) exists_mem_sentences
    rw [readType_succ, ← typeForms_sentences, typeForms]
    simp only [mul_assoc, add_assoc]
    refine (reads_takeIf_andThen (fun _ => ih.readArray)
      (exists_mem_mul (exists_mem_maybe _) hafter)).branch ?_ ?_
    · refine (reads_takeIf_andThen (fun _ => ih.readMap) (exists_mem_maybe _)).branch
        (reads_takeIf_andThen (fun t => ih.readNamed t.text) (exists_mem_maybe _)) ?_
      intro w hw rest
      exact not_next_of_next (next_of_mem hw rest) fun t ht => by simp [ht]
    · rintro w (hw | hw) rest
      · exact not_next_of_next (next_of_mem hw rest) fun t ht => by simp [ht]
      · exact not_next_of_next (next_of_mem hw rest) fun t ht => by simp [ht]

end Readers

end Descriptor
end ScriptKit
