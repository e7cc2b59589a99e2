import Mathlib.Data.List.Induction
import SignalBridge.Proofs.Member.Signature
import SignalBridge.Proofs.Text.Pieces

/-!
Brackets counted and brackets seen: the count that the readers of a signature keep is positive just
where a stretch of the text right before has more opening than closing brackets (`inside_iff`). So
the pieces of any text, balanced or not, and the end of any parameter list are known without
counting (`pieces_eq_iff`, `hasList_of_ofType?`, `ofType?_of_hasList`).
-/

namespace SignalBridge.Signature

open Text (AllBlank)

variable {before text piece rest list after : List Char} {c sep : Char} {ps : List (List Char)}

/-- What follows is inside brackets: some stretch right before it has more opening than closing
ones. -/
def Inside (before : List Char) : Prop :=
  ∃ stretch, stretch <:+ before ∧ stretch.countP closes < stretch.countP opens

/-- How many brackets are open after a text. -/
def depthOf (text : List Char) : Nat :=
  text.foldl depthAfter 0

section Depth

theorem depthOf_concat (text : List Char) (c : Char) :
    depthOf (text ++ [c]) = depthAfter (depthOf text) c := by
  rw [depthOf, List.foldl_append]
  rfl

theorem closes_of_opens (h : opens c) : closes c = false := by
  simp only [opens, Bool.or_eq_true, decide_eq_true_eq] at h
  rcases h with (rfl | rfl) | rfl <;> rfl

/-- One more character changes the count by what it is, unless it closes a bracket while none is
open; then none is open after it either. -/
theorem depthAfter_balance (depth : Nat) (c : Char) :
    [c].countP opens + depth = [c].countP closes + depthAfter depth c ∨
      ([c].countP opens = 0 ∧ depth = 0 ∧ depthAfter depth c = 0) := by
  simp only [List.countP_singleton]
  cases ho : opens c with
  | true =>
    have hd : depthAfter depth c = depth + 1 := by simp [depthAfter, ho]
    simp [closes_of_opens ho, hd, Nat.add_comm]
  | false =>
    cases hc : closes c with
    | true =>
      have hd : depthAfter depth c = depth - 1 := by simp [depthAfter, ho, hc]
      simp [hd]
      omega
    | false => simp [depthAfter_plain ho hc]

/-- No stretch at the end has more brackets to close than are open. -/
theorem countP_opens_le (text : List Char) : ∀ stretch, stretch <:+ text →
    stretch.countP opens ≤ stretch.countP closes + depthOf text := by
  induction text using List.reverseRecOn with
  | nil =>
    intro stretch h
    rw [List.suffix_nil.mp h]
    exact Nat.zero_le _
  | append_singleton text c ih =>
    intro stretch h
    rcases List.suffix_concat_iff.mp h with rfl | ⟨shorter, rfl, hs⟩
    · exact Nat.zero_le _
    · have hle := ih shorter hs
      have hbalance := depthAfter_balance (depthOf text) c
      rw [depthOf_concat, List.countP_append, List.countP_append]
      omega

/-- Some stretch at the end has just those to close that are open. -/
theorem exists_countP_opens (text : List Char) : ∃ stretch, stretch <:+ text ∧
    stretch.countP opens = stretch.countP closes + depthOf text := by
  induction text using List.reverseRecOn with
  | nil => exact ⟨[], List.suffix_refl _, rfl⟩
  | append_singleton text c ih =>
    obtain ⟨stretch, hs, hcount⟩ := ih
    rw [depthOf_concat]
    rcases depthAfter_balance (depthOf text) c with hbalance | ⟨-, -, hd⟩
    · refine ⟨stretch ++ [c], List.suffix_concat_iff.mpr (.inr ⟨_, rfl, hs⟩), ?_⟩
      rw [List.countP_append, List.countP_append]
      omega
    · -- A bracket that closes nothing leaves nothing open: the empty stretch will do.
      exact ⟨[], List.nil_suffix, by simp [hd]⟩

theorem inside_iff : Inside before ↔ 0 < depthOf before := by
  constructor
  · rintro ⟨stretch, hs, hmore⟩
    have := countP_opens_le before stretch hs
    omega
  · intro h
    obtain ⟨stretch, hs, hcount⟩ := exists_countP_opens before
    exact ⟨stretch, hs, by omega⟩

theorem depthOf_outside (h : ¬Inside before) : depthOf before = 0 := by
  rw [inside_iff] at h
  omega

end Depth

/-- Every `sep` of the text is inside brackets, which may have been opened before the text. -/
def AllInside (sep : Char) (before text : List Char) : Prop :=
  ∀ start rest, text = start ++ sep :: rest → Inside (before ++ start)

/-- The pieces of a text between the commas that are inside no brackets. -/
inductive Pieces : (before text : List Char) → List (List Char) → Prop where
  | last {before piece : List Char} (inside : AllInside ',' before piece) :
      Pieces before piece [piece]
  | cons {before piece rest : List Char} {ps : List (List Char)}
      (inside : AllInside ',' before piece) (outside : ¬Inside (before ++ piece))
      (tail : Pieces (before ++ (piece ++ [','])) rest ps) :
      Pieces before (piece ++ ',' :: rest) (piece :: ps)

/-- A parameter list behind its opening parenthesis, and what follows it: it ends at the first
closing parenthesis that closes nothing inside it, or with the text. -/
inductive ListEnds : (text list after : List Char) → Prop where
  | closed {list after : List Char} (inside : AllInside ')' [] list) (outside : ¬Inside list) :
      ListEnds (list ++ ')' :: after) list after
  | unclosed {list : List Char} (inside : AllInside ')' [] list) : ListEnds list list []

section Outside

theorem allInside_cons : AllInside sep before (c :: text) ↔
    (c = sep → Inside before) ∧ AllInside sep (before ++ [c]) text := by
  constructor
  · intro h
    refine ⟨?_, ?_⟩
    · rintro rfl
      simpa using h [] text rfl
    · rintro start rest rfl
      simpa using h (c :: start) rest rfl
  · rintro ⟨hc, h⟩ start rest ht
    cases start with
    | nil =>
      obtain ⟨rfl, -⟩ := List.cons.inj ht
      simpa using hc rfl
    | cons d start =>
      obtain ⟨rfl, rfl⟩ := List.cons.inj ht
      simpa using h start rest rfl

/-- All separators are inside brackets, or there is a first one that is not. -/
theorem allInside_or_split (sep : Char) (before text : List Char) : AllInside sep before text ∨
    ∃ piece rest, text = piece ++ sep :: rest ∧ AllInside sep before piece ∧
      ¬Inside (before ++ piece) := by
  induction text generalizing before with
  | nil =>
    refine .inl fun start rest h => ?_
    simp at h
  | cons c cs ih =>
    by_cases hc : c = sep → Inside before
    · rcases ih (before ++ [c]) with h | ⟨piece, rest, rfl, h, ho⟩
      · exact .inl (allInside_cons.mpr ⟨hc, h⟩)
      · exact .inr ⟨c :: piece, rest, rfl, allInside_cons.mpr ⟨hc, h⟩, by simpa using ho⟩
    · obtain ⟨rfl, ho⟩ := Classical.not_imp.mp hc
      exact .inr ⟨[], cs, rfl, fun start rest h => by simp at h, by simpa using ho⟩

theorem exists_pieces (before text : List Char) : ∃ ps, Pieces before text ps := by
  rcases allInside_or_split ',' before text with h | ⟨piece, rest, ht, h, ho⟩
  · exact ⟨[text], .last h⟩
  · have : rest.length < text.length := by simp [ht]; omega
    obtain ⟨ps, hps⟩ := exists_pieces (before ++ (piece ++ [','])) rest
    exact ⟨piece :: ps, ht ▸ .cons h ho hps⟩
termination_by text.length

theorem exists_listEnds (text : List Char) : ∃ list after, ListEnds text list after := by
  rcases allInside_or_split ')' [] text with h | ⟨list, after, rfl, h, ho⟩
  · exact ⟨text, [], .unclosed h⟩
  · exact ⟨list, after, .closed h ho⟩

end Outside

section Readers

/-- No piece ends where all commas are inside brackets. -/
theorem pieces_allInside (h : AllInside ',' before piece) (rest : List Char) :
    pieces (· = ',') (depthOf before) (piece ++ rest) =
      prefixFirst piece (pieces (· = ',') (depthOf (before ++ piece)) rest) := by
  induction piece generalizing before with
  | nil => simpa using prefixFirst_nil.symm
  | cons c cs ih =>
    obtain ⟨hc, hcs⟩ := allInside_cons.mp h
    have hcomma : decide (c = ',') = false ∨ 0 < depthOf before := by
      by_cases hsep : c = ','
      · exact .inr (inside_iff.mp (hc hsep))
      · exact .inl (decide_eq_false hsep)
    rw [List.cons_append, pieces_cons hcomma, ← depthOf_concat, ih hcs, prefixFirst_append]
    simp

theorem pieces_outside (h : ¬Inside before) (rest : List Char) :
    pieces (· = ',') (depthOf before) (',' :: rest) =
      [] :: pieces (· = ',') (depthOf (before ++ [','])) rest := by
  rw [depthOf_concat, depthOf_outside h]
  rfl

theorem Pieces.pieces_eq (h : Pieces before text ps) :
    pieces (· = ',') (depthOf before) text = ps := by
  induction h with
  | @last before piece inside =>
    simpa [pieces, prefixFirst] using pieces_allInside inside []
  | @cons before piece rest ps inside outside _ ih =>
    rw [pieces_allInside inside, pieces_outside outside, List.append_assoc, ih]
    simp [prefixFirst]

theorem pieces_eq_iff : pieces (· = ',') (depthOf before) text = ps ↔ Pieces before text ps := by
  constructor
  · rintro rfl
    obtain ⟨ps, h⟩ := exists_pieces before text
    rwa [h.pieces_eq]
  · exact Pieces.pieces_eq

theorem Pieces.readList_eq (h : Pieces [] list ps) : Entry.readList list =
    (ps.filter (¬AllBlank ·)).map fun piece => Entry.ofText (Text.trim piece) := by
  have hps : pieces (· = ',') 0 list = ps := h.pieces_eq
  have hempty : (fun text : List Char => !text.isEmpty) ∘ Text.trim = (¬AllBlank ·) := by
    funext piece
    rw [Function.comp_apply, Bool.eq_iff_iff]
    simp [← Text.trim_eq_nil]
  rw [Entry.readList, hps, List.filter_map, hempty, List.map_map]
  rfl

/-- The list does not end where all closing parentheses are inside brackets. -/
theorem splitList_allInside (h : AllInside ')' before list) (rest : List Char) :
    splitList (depthOf before) (list ++ rest) =
      (list ++ (splitList (depthOf (before ++ list)) rest).1,
        (splitList (depthOf (before ++ list)) rest).2) := by
  induction list generalizing before with
  | nil => simp
  | cons c cs ih =>
    obtain ⟨hc, hcs⟩ := allInside_cons.mp h
    have hclose : c ≠ ')' ∨ 0 < depthOf before := by
      by_cases hsep : c = ')'
      · exact .inr (inside_iff.mp (hc hsep))
      · exact .inl hsep
    rw [List.cons_append, splitList_cons hclose, ← depthOf_concat, ih hcs]
    simp

theorem ListEnds.splitList_eq (h : ListEnds text list after) :
    (splitList 0 text).1 = list ∧ (splitList 0 text).2.getD [] = after := by
  cases h with
  | closed inside outside =>
    have hread : splitList 0 (list ++ ')' :: after) = _ := splitList_allInside inside _
    rw [hread, List.nil_append, depthOf_outside outside]
    simp [splitList]
  | unclosed inside =>
    have hread : splitList 0 (text ++ []) = _ := splitList_allInside inside []
    rw [← List.append_nil text, hread]
    simp [splitList]

end Readers

/-- A type's text without white space around it is a parameter list, maybe with `func` before it,
and what follows the list. -/
def HasList (text list after : List Char) : Prop :=
  ∃ keyword gap inner, Text.trim text = keyword ++ (gap ++ '(' :: inner) ∧
    (keyword = "func".toList ∨ keyword = []) ∧ AllBlank gap ∧ ListEnds inner list after

section Types

variable {keyword gap inner : List Char} {t : String}

theorem dropFunc_keyword (hk : keyword = "func".toList ∨ keyword = []) (hg : AllBlank gap) :
    dropFunc (keyword ++ (gap ++ '(' :: inner)) = gap ++ '(' :: inner := by
  rcases hk with rfl | rfl
  · rw [dropFunc, Text.dropWord?_append]
    rfl
  · -- Without the keyword the text begins with a blank or with the parenthesis.
    cases gap with
    | nil => rfl
    | cons c cs =>
      have hc : 'f' ≠ c := by
        rintro rfl
        exact absurd (hg 'f' List.mem_cons_self) (by decide)
      simp [dropFunc, Text.dropWord?, hc]

theorem dropFunc_cases (text : List Char) : ∃ keyword,
    (keyword = "func".toList ∨ keyword = []) ∧ text = keyword ++ dropFunc text := by
  rw [dropFunc]
  cases h : Text.dropWord? "func".toList text with
  | none => exact ⟨[], .inr rfl, rfl⟩
  | some rest => exact ⟨_, .inl rfl, Text.eq_append_of_dropWord? h⟩

/-- What follows a list, if it is more than white space. -/
def resultText (after : List Char) : Option String :=
  if Text.trim after = [] then none else some (String.ofList (Text.trim after))

theorem ofType?_of_hasList (h : HasList t.toList list after) :
    ofType? t = some ⟨Entry.readList list, resultText after⟩ := by
  obtain ⟨keyword, gap, inner, ht, hk, hg, hends⟩ := h
  have hstart : Text.trimStart (dropFunc (Text.trim t.toList)) = '(' :: inner := by
    rw [ht, dropFunc_keyword hk hg, Text.trimStart_append hg, Text.trimStart_cons rfl]
  obtain ⟨hlist, hafter⟩ := hends.splitList_eq
  rw [ofType?, hstart]
  simp only [hlist, hafter, resultText, List.isEmpty_iff]

theorem hasList_of_ofType? {s : Signature} (h : ofType? t = some s) :
    ∃ list after, HasList t.toList list after := by
  rw [ofType?] at h
  split at h
  case h_1 inner hstart =>
    obtain ⟨keyword, hk, ht⟩ := dropFunc_cases (Text.trim t.toList)
    obtain ⟨list, after, hends⟩ := exists_listEnds inner
    have hg : AllBlank ((dropFunc (Text.trim t.toList)).takeWhile Text.isBlank) :=
      fun c hc => List.mem_takeWhile_imp hc
    refine ⟨list, after, keyword, _, inner, ?_, hk, hg, hends⟩
    rw [← hstart, Text.trimStart, List.takeWhile_append_dropWhile, ← ht]
  case h_2 => cases h

end Types

end SignalBridge.Signature
