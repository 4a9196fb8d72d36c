import Mathlib.Data.Finset.Card
import ScriptKit.Proofs.Collection
import ScriptKit.Proofs.LineWise

/-! What a drawn text tells. Place and carets can be read off its beginning, whatever message
follows, so only messages that are the same at the same marks are drawn alike. -/
namespace ScriptKit

/-- Where the carets under a token stand, and how many they are. -/
def Token.mark (t : Token) : Nat × Nat × Nat := (t.row, t.col, max t.width 1)

theorem Token.mark_eq_iff {t u : Token} :
    t.mark = u.mark ↔ t.row = u.row ∧ t.col = u.col ∧ max t.width 1 = max u.width 1 := by
  simp [mark]

namespace Diagnostic

variable {palette : Palette} {file : String} {tokens : List Token} {t u : Token}

theorem digits_injective {m n : Nat} (h : digits m = digits n) : m = n := by
  have hread : ∀ k, Nat.ofDigitChars 10 (digits k) 0 = k := by
    intro k
    exact Nat.ofDigitChars_toDigits (by decide) (by decide)
  rw [← hread m, h, hread]

theorem digits_append_colon_inj {m n : Nat} {xs ys : List Char}
    (h : digits m ++ ':' :: xs = digits n ++ ':' :: ys) : m = n ∧ xs = ys := by
  have htake : ∀ k zs, (digits k ++ ':' :: zs).takeWhile Char.isDigit = digits k := by
    intro k zs
    have hdigits : ∀ c ∈ digits k, c.isDigit = true := by
      intro c hc
      exact Nat.isDigit_of_mem_toDigits (by decide) (by decide) hc
    rw [List.takeWhile_append_of_pos hdigits, List.takeWhile_cons_of_neg (by decide),
      List.append_nil]
  have hmn : m = n := by
    apply digits_injective
    rw [← htake m xs, h, htake]
  subst hmn
  exact ⟨rfl, (List.cons.inj (List.append_cancel_left h)).2⟩

theorem placeLine_append_inj {xs ys : List Char}
    (h : placeLine palette file t ++ xs = placeLine palette file u ++ ys) :
    t.row = u.row ∧ t.col = u.col ∧ xs = ys := by
  simp only [placeLine, List.append_assoc, List.cons_append] at h
  have hrow := List.append_cancel_left (List.append_cancel_left h)
  obtain ⟨hrow, hcol⟩ := digits_append_colon_inj (List.cons.inj hrow).2
  obtain ⟨hcol, hrest⟩ := digits_append_colon_inj hcol
  exact ⟨hrow, hcol, List.append_cancel_left hrest⟩

/-- The carets end before what stands between them and the line feed. -/
theorem carets_append_inj {m n : Nat} {close xs ys : List Char}
    (h : List.replicate m '^' ++ (close ++ '\n' :: xs) =
      List.replicate n '^' ++ (close ++ '\n' :: ys)) : m = n := by
  have htake : ∀ k zs, (List.replicate k '^' ++ (close ++ '\n' :: zs)).takeWhile (· = '^') =
      List.replicate k '^' ++ close.takeWhile (· = '^') := by
    intro k zs
    rw [List.takeWhile_append_of_pos (by simp), takeWhile_append_newline (by decide)]
  have hlength := congrArg List.length (htake m xs)
  rw [h, htake] at hlength
  simp only [List.length_append, List.length_replicate] at hlength
  omega

theorem lt_of_mem_rowBefore? {row r : Nat} (h : r ∈ rowBefore? tokens row) : r < row := by
  simpa using (List.mem_filter.1 (List.max?_mem h)).2

theorem flatMap_drawRow (palette : Palette) (tokens : List Token) (t : Token) :
    (contextRows tokens t.row).flatMap (drawRow palette tokens t) =
      (rowBefore? tokens t.row).toList.flatMap (fun row => rowLine tokens row ++ ['\n']) ++
        (rowLine tokens t.row ++ '\n' :: (caretLine palette t ++
          '\n' :: (rowAfter? tokens t.row).toList.flatMap (drawRow palette tokens t))) := by
  have habove : (rowBefore? tokens t.row).toList.flatMap (drawRow palette tokens t) =
      (rowBefore? tokens t.row).toList.flatMap fun row => rowLine tokens row ++ ['\n'] := by
    apply List.flatMap_congr
    intro row hrow
    have hlt : row < t.row := lt_of_mem_rowBefore? (Option.mem_toList.1 hrow)
    simp [drawRow, Nat.ne_of_lt hlt]
  rw [contextRows, List.flatMap_append, List.flatMap_cons, habove]
  simp [drawRow]

def heading (palette : Palette) (file : String) (tokens : List Token) (t : Token) : List Char :=
  placeLine palette file t ++ ['\n', '\n'] ++
    (contextRows tokens t.row).flatMap (drawRow palette tokens t)

theorem toList_render (message : String) :
    (render palette file tokens t message).toList =
      heading palette file tokens t ++ message.toList := by
  simp [render, heading]

theorem heading_congr (h : t.mark = u.mark) :
    heading palette file tokens t = heading palette file tokens u := by
  obtain ⟨hrow, hcol, hwidth⟩ := Token.mark_eq_iff.1 h
  have hcarets : caretLine palette t = caretLine palette u := by
    simp only [caretLine, hrow, hcol, hwidth]
  have hdraw : drawRow palette tokens t = drawRow palette tokens u := by
    funext row
    simp only [drawRow, hrow, hcarets]
  simp only [heading, placeLine, hrow, hcol, hdraw]

/-- The mark can be read off, whatever follows. -/
theorem mark_eq_of_heading_append {xs ys : List Char}
    (h : heading palette file tokens t ++ xs = heading palette file tokens u ++ ys) :
    t.mark = u.mark := by
  simp only [heading, List.append_assoc] at h
  obtain ⟨hrow, hcol, hrest⟩ := placeLine_append_inj h
  have hrows := List.append_cancel_left hrest
  rw [flatMap_drawRow, flatMap_drawRow, ← hrow] at hrows
  simp only [List.append_assoc, List.cons_append] at hrows
  have hcarets := List.append_cancel_left (List.append_cancel_left hrows)
  simp only [caretLine, ← hrow, ← hcol, List.append_assoc, List.cons.injEq, true_and] at hcarets
  have hwidth := List.append_cancel_left (List.append_cancel_left hcarets)
  exact Token.mark_eq_iff.2 ⟨hrow, hcol, carets_append_inj hwidth⟩

theorem render_eq_iff {message message' : String} :
    render palette file tokens t message = render palette file tokens u message' ↔
      t.mark = u.mark ∧ message = message' := by
  rw [← String.toList_inj, toList_render, toList_render]
  constructor
  · intro h
    have hmark := mark_eq_of_heading_append h
    rw [heading_congr hmark] at h
    exact ⟨hmark, String.toList_inj.1 (List.append_cancel_left h)⟩
  · rintro ⟨hmark, rfl⟩
    rw [heading_congr hmark]

end Diagnostic

theorem card_map_eq {α β γ : Type} [DecidableEq β] [DecidableEq γ] {f : α → β} {g : α → γ}
    (h : ∀ x y, f x = f y ↔ g x = g y) (xs : List α) :
    (xs.map f).toFinset.card = (xs.map g).toFinset.card := by
  induction xs with
  | nil => rfl
  | cons x xs ih =>
    have hmem : f x ∈ (xs.map f).toFinset ↔ g x ∈ (xs.map g).toFinset := by
      simp only [List.mem_toFinset, List.mem_map]
      exact exists_congr fun y => and_congr_right fun _ => h y x
    simp only [List.map_cons, List.toFinset_cons]
    by_cases hx : f x ∈ (xs.map f).toFinset
    · rw [Finset.insert_eq_of_mem hx, Finset.insert_eq_of_mem (hmem.1 hx), ih]
    · rw [Finset.card_insert_of_notMem hx, Finset.card_insert_of_notMem (mt hmem.2 hx), ih]

namespace Collector

theorem Holds.size_eq {c : Collector} {ds : List Diagnostic} (h : c.Holds ds) :
    c.size = (ds.map Diagnostic.rendered).toFinset.card := by
  have hnodup : c.found.keys.Nodup := h.keys_sorted.imp fun hlt => ne_of_lt hlt
  have hsame : c.found.keys.toFinset = (ds.map Diagnostic.rendered).toFinset := by
    ext text
    rw [List.mem_toFinset, List.mem_toFinset, h.mem_keys]
  rw [← hsame, List.toFinset_card_of_nodup hnodup, Table.keys, List.length_map]
  rfl

/-- A message about a token, with or without a code. -/
structure Report where
  code : Option ErrorCode
  token : Token
  message : String

def Report.call (x : Report) : Call := .report x.code x.token x.message

theorem map_rendered_offered (c : Collector) (reports : List Report) :
    (c.offered (reports.map Report.call)).map Diagnostic.rendered =
      reports.map fun x => c.render x.token x.message := by
  induction reports with
  | nil => rfl
  | cons x reports ih => exact congrArg (c.render x.token x.message :: ·) ih

/-- Two messages are drawn alike, in any file and in any colours, exactly if they are the same and
stand at the same row and column with equally many carets. So after any reports a collector holds
one entry for each message at each mark that was reported. -/
theorem reports_told_apart (c : Collector) :
    (∀ t u message message', c.render t message = c.render u message' ↔
      (t.row = u.row ∧ t.col = u.col ∧ max t.width 1 = max u.width 1) ∧ message = message') ∧
    ∀ reports : List Report,
      ((new c.file c.tokens c.palette).performAll (reports.map Report.call)).size =
        (reports.map fun x =>
          (x.token.row, x.token.col, max x.token.width 1, x.message)).toFinset.card := by
  have hrender : ∀ t u message message', c.render t message = c.render u message' ↔
      (t.row = u.row ∧ t.col = u.col ∧ max t.width 1 = max u.width 1) ∧ message = message' := by
    intro t u message message'
    rw [← Token.mark_eq_iff]
    exact Diagnostic.render_eq_iff
  refine ⟨hrender, fun reports => ?_⟩
  rw [(holds_performAll c.file c.tokens c.palette (reports.map Report.call)).size_eq,
    map_rendered_offered]
  apply card_map_eq
  intro x y
  have hkey := hrender x.token y.token x.message y.message
  simp only [and_assoc] at hkey
  simp only [Prod.mk.injEq]
  exact hkey

end Collector
end ScriptKit
