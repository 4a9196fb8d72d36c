import Mathlib.Computability.Language
import ScriptKit.Proofs.TypeGrammar

/-! Readers of tokens and the languages that they read. A reader takes a word of its language from
the front of the tokens and looks no further than one token ahead; where it fails, the tokens before
the one that it blames begin a word. What holds of two readers holds of one after the other and of a
choice between them. -/
namespace ScriptKit

/-- Whether a fault is about a limit that the grammar does not know: how deep types nest, and which
types can be elements. -/
def TypeFault.isLimit : TypeFault → Bool
  | tooDeep | mapElement _ => true
  | noType _ | missing _ _ | trailing _ => false

namespace Descriptor

/-- A step of reading: from some tokens a result and the tokens after it. -/
abbrev Reading (α : Type) := List Token → Except Fault (α × List Token)

def one (p : Token → Prop) : Language Token := {w | ∃ t, p t ∧ w = [t]}

def maybe (L : Language Token) : Language Token := 1 + L

def Next (p : Token → Prop) (ts : List Token) : Prop := ∃ t ∈ ts.head?, p t

theorem head?_append_congr {rest rest' : List Token} (w : List Token)
    (h : rest'.head? = rest.head?) : (w ++ rest').head? = (w ++ rest).head? := by
  cases w with
  | nil => exact h
  | cons t w => rfl

theorem next_congr {p : Token → Prop} {ts ts' : List Token} (h : ts'.head? = ts.head?) :
    Next p ts' ↔ Next p ts := by rw [Next, Next, h]

@[simp] theorem next_cons {p : Token → Prop} {t : Token} {ts : List Token} :
    Next p (t :: ts) ↔ p t := by simp [Next]

@[simp] theorem not_next_nil (p : Token → Prop) : ¬ Next p [] := by simp [Next]

instance {p : Token → Prop} [DecidablePred p] (ts : List Token) : Decidable (Next p ts) :=
  inferInstanceAs (Decidable (∃ t ∈ ts.head?, p t))

theorem not_next_of_next {p q : Token → Prop} {ts : List Token} (h : Next p ts)
    (hpq : ∀ t, p t → ¬ q t) : ¬ Next q ts := by
  obtain ⟨t, ht, hp⟩ := h
  rintro ⟨u, hu, hq⟩
  rw [Option.mem_unique hu ht] at hq
  exact hpq t hp hq

theorem exists_mem_mul {L M : Language Token} (hL : ∃ w, w ∈ L) (hM : ∃ w, w ∈ M) :
    ∃ w, w ∈ L * M := by
  obtain ⟨v, hv⟩ := hL
  obtain ⟨w, hw⟩ := hM
  exact ⟨v ++ w, Language.append_mem_mul hv hw⟩

theorem exists_mem_maybe (L : Language Token) : ∃ w, w ∈ maybe L := ⟨[], .inl rfl⟩

theorem next_of_mem {p : Token → Prop} {L : Language Token} {w : List Token} (h : w ∈ one p * L)
    (rest : List Token) : Next p (w ++ rest) := by
  obtain ⟨_, ⟨t, ht, rfl⟩, v, -, rfl⟩ := Language.mem_mul.1 h
  exact ⟨t, rfl, ht⟩

/-- How a reader answers to a language. What it takes is a word, and the next token settles that it
takes no more. What it blames, other than a limit, is the next token after the beginning of a word,
and that token settles the blame. And it takes every word before tokens that may follow, or finds
fault with a limit. -/
structure Reads {α : Type} (stop : Span) (L : Language Token) (follow : List Token → Prop)
    (read : Reading α) : Prop where
  taken : ∀ {ts a rest}, read ts = .ok (a, rest) → ∃ used ∈ L, ts = used ++ rest ∧
    ∀ rest', rest'.head? = rest.head? → read (used ++ rest') = .ok (a, rest')
  blamed : ∀ {ts fault}, read ts = .error fault → fault.1.isLimit = false →
    ∃ before rest, ts = before ++ rest ∧ fault.2 = nextSpan stop rest ∧
      (before = [] ∨ ∃ more, before ++ more ∈ L) ∧
      ∀ rest', rest'.head? = rest.head? → read (before ++ rest') = .error fault
  accepted : ∀ {w rest}, w ∈ L → follow rest →
    (∃ a, read (w ++ rest) = .ok (a, rest)) ∨
      ∃ fault, read (w ++ rest) = .error fault ∧ fault.1.isLimit = true

section Steps

variable {α β : Type} {stop : Span} {L M : Language Token} {follow later : List Token → Prop}

def done (a : α) : Reading α := fun ts => .ok (a, ts)

def takeIf (stop : Span) (p : Token → Prop) [DecidablePred p] (fault : Option Token → TypeFault) :
    Reading Token
  | [] => .error (fault none, stop)
  | t :: rest => if p t then .ok (t, rest) else .error (fault (some t), t.span)

def branch (p : Token → Prop) [DecidablePred p] (first second : Reading α) : Reading α :=
  fun ts => if Next p ts then first ts else second ts

def andThen (read : Reading α) (next : α → Reading β) : Reading β :=
  fun ts => read ts >>= fun p => next p.1 p.2

theorem reads_done (follow : List Token → Prop) (a : α) : Reads stop 1 follow (done a) where
  taken h := by
    cases h
    exact ⟨[], rfl, rfl, fun _ _ => rfl⟩
  blamed h := by cases h
  accepted hw _ := by
    rw [Language.mem_one] at hw
    subst hw
    exact .inl ⟨a, rfl⟩

theorem reads_takeIf (follow : List Token → Prop) {p : Token → Prop} [DecidablePred p]
    {fault : Option Token → TypeFault} : Reads stop (one p) follow (takeIf stop p fault) where
  taken {ts t rest} h := by
    cases ts with
    | nil => cases h
    | cons u ts =>
      by_cases hp : p u
      · rw [takeIf, if_pos hp] at h
        cases h
        refine ⟨[t], ⟨t, hp, rfl⟩, rfl, fun rest' _ => ?_⟩
        rw [List.singleton_append, takeIf, if_pos hp]
      · rw [takeIf, if_neg hp] at h
        cases h
  blamed {ts f} h _ := by
    refine ⟨[], ts, rfl, ?_, .inl rfl, fun rest' hrest => ?_⟩
    · cases ts with
      | nil =>
        cases h
        rfl
      | cons u ts =>
        rw [takeIf] at h
        split at h <;> cases h
        rfl
    · cases ts <;> cases rest' <;> simp_all [takeIf]
      split at h <;> simp_all
  accepted {w rest} hw _ := by
    obtain ⟨t, ht, rfl⟩ := hw
    refine .inl ⟨t, ?_⟩
    rw [List.singleton_append, takeIf, if_pos ht]

section Sequence

variable {read : Reading α} {next : α → Reading β}

theorem andThen_of_ok {ts rest : List Token} {a : α} (h : read ts = .ok (a, rest)) :
    andThen read next ts = next a rest := by
  rw [andThen, h]
  rfl

theorem andThen_of_error {ts : List Token} {fault : Fault} (h : read ts = .error fault) :
    andThen read next ts = .error fault := by
  rw [andThen, h]
  rfl

/-- One reader after the other reads the words of both, one after the other. The second may read
what follows the first. -/
theorem Reads.andThen (h : Reads stop L follow read) (hnext : ∀ a, Reads stop M later (next a))
    (hM : ∃ w, w ∈ M) (hfollow : ∀ w ∈ M, ∀ rest, later rest → follow (w ++ rest)) :
    Reads stop (L * M) later (andThen read next) where
  taken {ts b rest} hread := by
    obtain ⟨⟨a, middle⟩, ha, hb⟩ := Outcome.bind_eq_ok.1 hread
    obtain ⟨used, hused, rfl, hsame⟩ := h.taken ha
    obtain ⟨used', hused', rfl, hsame'⟩ := (hnext a).taken hb
    refine ⟨used ++ used', Language.append_mem_mul hused hused', by simp, fun rest' hrest => ?_⟩
    rw [List.append_assoc, andThen_of_ok (hsame _ (head?_append_congr used' hrest)),
      hsame' rest' hrest]
  blamed {ts fault} hread hfault := by
    rcases Outcome.bind_eq_error.1 hread with ha | ⟨⟨a, middle⟩, ha, hb⟩
    · obtain ⟨before, rest, rfl, hspan, hbegins, hsame⟩ := h.blamed ha hfault
      refine ⟨before, rest, rfl, hspan, hbegins.imp_right ?_, fun rest' hrest => ?_⟩
      · rintro ⟨more, hmore⟩
        obtain ⟨w, hw⟩ := hM
        exact ⟨more ++ w, by rw [← List.append_assoc]; exact Language.append_mem_mul hmore hw⟩
      · exact andThen_of_error (hsame rest' hrest)
    · obtain ⟨used, hused, rfl, hsame⟩ := h.taken ha
      obtain ⟨before, rest, rfl, hspan, hbegins, hsame'⟩ := (hnext a).blamed hb hfault
      have hmore : ∃ more, before ++ more ∈ M := by
        rcases hbegins with rfl | hmore
        · exact hM
        · exact hmore
      obtain ⟨more, hmore⟩ := hmore
      refine ⟨used ++ before, rest, by simp, hspan, .inr ⟨more, ?_⟩, fun rest' hrest => ?_⟩
      · rw [List.append_assoc]
        exact Language.append_mem_mul hused hmore
      · rw [List.append_assoc, andThen_of_ok (hsame _ (head?_append_congr before hrest)),
          hsame' rest' hrest]
  accepted {w rest} hw hrest := by
    obtain ⟨v, hv, v', hv', rfl⟩ := Language.mem_mul.1 hw
    rw [List.append_assoc]
    rcases h.accepted hv (hfollow v' hv' rest hrest) with ⟨a, ha⟩ | ⟨fault, hfault, hlimit⟩
    · rw [andThen_of_ok ha]
      exact (hnext a).accepted hv' hrest
    · exact .inr ⟨fault, andThen_of_error hfault, hlimit⟩

theorem reads_takeIf_andThen {p : Token → Prop} [DecidablePred p]
    {fault : Option Token → TypeFault} {next : Token → Reading β}
    (hnext : ∀ t, Reads stop M later (next t)) (hM : ∃ w, w ∈ M) :
    Reads stop (one p * M) later (andThen (takeIf stop p fault) next) :=
  (reads_takeIf fun _ => True).andThen hnext hM fun _ _ _ _ => trivial

theorem Reads.mapTo (h : Reads stop L follow read) (f : α → β) :
    Reads stop L follow (Descriptor.andThen read fun a => done (f a)) := by
  rw [← mul_one L]
  refine h.andThen (fun a => reads_done follow (f a)) ⟨[], Language.nil_mem_one⟩ ?_
  intro w hw rest hrest
  rwa [(Language.mem_one w).1 hw, List.nil_append]

end Sequence

section Choice

variable {read first second : Reading α} {P : List Token → Prop}

/-- Where the next token makes a reader do as another does, it takes the same words. -/
theorem Reads.taken_of_agree (h : Reads stop L follow first)
    (hP : ∀ {ts ts' : List Token}, ts'.head? = ts.head? → P ts → P ts')
    (hagree : ∀ {ts}, P ts → read ts = first ts) {ts rest : List Token} {a : α} (hts : P ts)
    (hread : read ts = .ok (a, rest)) : ∃ used ∈ L, ts = used ++ rest ∧
      ∀ rest', rest'.head? = rest.head? → read (used ++ rest') = .ok (a, rest') := by
  rw [hagree hts] at hread
  obtain ⟨used, hused, rfl, hsame⟩ := h.taken hread
  refine ⟨used, hused, rfl, fun rest' hrest => ?_⟩
  rw [hagree (hP (head?_append_congr used hrest) hts), hsame rest' hrest]

theorem Reads.blamed_of_agree (h : Reads stop L follow first)
    (hP : ∀ {ts ts' : List Token}, ts'.head? = ts.head? → P ts → P ts')
    (hagree : ∀ {ts}, P ts → read ts = first ts) {ts : List Token} {fault : Fault} (hts : P ts)
    (hread : read ts = .error fault) (hfault : fault.1.isLimit = false) :
    ∃ before rest, ts = before ++ rest ∧ fault.2 = nextSpan stop rest ∧
      (before = [] ∨ ∃ more, before ++ more ∈ L) ∧
      ∀ rest', rest'.head? = rest.head? → read (before ++ rest') = .error fault := by
  rw [hagree hts] at hread
  obtain ⟨before, rest, rfl, hspan, hbegins, hsame⟩ := h.blamed hread hfault
  refine ⟨before, rest, rfl, hspan, hbegins, fun rest' hrest => ?_⟩
  rw [hagree (hP (head?_append_congr before hrest) hts), hsame rest' hrest]

/-- A choice by the next token reads the words of both readers, if that token tells them apart. -/
theorem Reads.choice {p : Token → Prop} {follow₁ follow₂ : List Token → Prop}
    (h₁ : Reads stop L follow₁ first) (h₂ : Reads stop M follow₂ second)
    (hfirst : ∀ {ts}, Next p ts → read ts = first ts)
    (hsecond : ∀ {ts}, ¬ Next p ts → read ts = second ts)
    (hL : ∀ w ∈ L, ∀ rest, follow rest → Next p (w ++ rest) ∧ follow₁ rest)
    (hM : ∀ w ∈ M, ∀ rest, follow rest → ¬ Next p (w ++ rest) ∧ follow₂ rest) :
    Reads stop (L + M) follow read where
  taken {ts a rest} hread := by
    by_cases hnext : Next p ts
    · obtain ⟨used, hused, h⟩ := h₁.taken_of_agree (fun h => (next_congr h).2) hfirst hnext hread
      exact ⟨used, .inl hused, h⟩
    · obtain ⟨used, hused, h⟩ :=
        h₂.taken_of_agree (fun h => mt (next_congr h).1) hsecond hnext hread
      exact ⟨used, .inr hused, h⟩
  blamed {ts fault} hread hfault := by
    by_cases hnext : Next p ts
    · obtain ⟨before, rest, hts, hspan, hbegins, h⟩ :=
        h₁.blamed_of_agree (fun h => (next_congr h).2) hfirst hnext hread hfault
      exact ⟨before, rest, hts, hspan, hbegins.imp_right (Exists.imp fun _ => .inl), h⟩
    · obtain ⟨before, rest, hts, hspan, hbegins, h⟩ :=
        h₂.blamed_of_agree (fun h => mt (next_congr h).1) hsecond hnext hread hfault
      exact ⟨before, rest, hts, hspan, hbegins.imp_right (Exists.imp fun _ => .inr), h⟩
  accepted {w rest} hw hrest := by
    rcases hw with hw | hw
    · obtain ⟨hnext, hlater⟩ := hL w hw rest hrest
      rw [hfirst hnext]
      exact h₁.accepted hw hlater
    · obtain ⟨hnext, hlater⟩ := hM w hw rest hrest
      rw [hsecond hnext]
      exact h₂.accepted hw hlater

/-- A reader that goes on only if the next token begins a word takes that word or nothing. -/
theorem Reads.optional {p : Token → Prop} {K : Language Token} {follow₁ : List Token → Prop} {a : α}
    (h : Reads stop (one p * K) follow₁ first) (hfirst : ∀ {ts}, Next p ts → read ts = first ts)
    (hnone : ∀ {ts}, ¬ Next p ts → read ts = .ok (a, ts))
    (hfollow : ∀ rest, follow rest → ¬ Next p rest ∧ follow₁ rest) :
    Reads stop (maybe (one p * K)) follow read := by
  rw [maybe, add_comm]
  refine h.choice (reads_done (fun _ => True) a) hfirst hnone ?_ ?_
  · intro w hw rest hrest
    exact ⟨next_of_mem hw rest, (hfollow rest hrest).2⟩
  · intro w hw rest hrest
    rw [(Language.mem_one w).1 hw]
    exact ⟨(hfollow rest hrest).1, trivial⟩

theorem Reads.branch {p : Token → Prop} [DecidablePred p] (h₁ : Reads stop (one p * L) follow first)
    (h₂ : Reads stop M follow second) (hM : ∀ w ∈ M, ∀ rest, ¬ Next p (w ++ rest)) :
    Reads stop (one p * L + M) follow (branch p first second) := by
  refine h₁.choice h₂ (fun h => if_pos h) (fun h => if_neg h) ?_ ?_
  · exact fun w hw rest hrest => ⟨next_of_mem hw rest, hrest⟩
  · exact fun w hw rest hrest => ⟨hM w hw rest, hrest⟩

end Choice

end Steps

end Descriptor
end ScriptKit
