import Mathlib.Data.List.Forall2
import SignalBridge.Proofs.Source.Tokenization
import SignalBridge.Source.File

namespace SignalBridge.Source

open List (Forall₂)

/-- From one byte offset to another, both between characters, the source says this text. -/
def HasText (source : List Char) (span : Span) (text : List Char) : Prop :=
  ∃ before after, source = before ++ (text ++ after) ∧ byteLength before = span.start ∧
    byteLength (before ++ text) = span.stop

/-- The same token of a source, whatever counts as blank text before it. -/
structure Token.Same (t u : Token) : Prop where
  kind : t.kind = u.kind
  start : t.start = u.start
  text : t.text = u.text

def Token.isWord (t : Token) : Bool :=
  t.kind ≠ .newline

/-- From the first of the tokens to the last. -/
def Spans (span : Span) (ts : List Token) : Prop :=
  ∃ first ∈ ts.head?, ∃ last ∈ ts.getLast?, span = ⟨first.start, last.stop⟩

/-- The tokens stand one after the other, each behind its blank text, from byte `base` on. -/
def WrittenFrom (base : Nat) : List Token → Prop
  | [] => True
  | t :: ts => t.start = base + byteLength t.leading ∧ WrittenFrom t.stop ts

/-- Somewhere in the source the tokens are written, one after the other. -/
def WrittenAt (source : List Char) (ts : List Token) : Prop :=
  ∃ before after, source = before ++ (ts.flatMap Token.written ++ after) ∧
    WrittenFrom (byteLength before) ts

section Runs

variable {base : Nat} {t u v : Token} {ts us : List Token} {pending : List Char}

theorem Token.Same.trans (h : t.Same u) (h' : u.Same v) : t.Same v :=
  ⟨h.kind.trans h'.kind, h.start.trans h'.start, h.text.trans h'.text⟩

theorem Token.Same.stop (h : t.Same u) : t.stop = u.stop := by
  rw [Token.stop, Token.stop, h.start, h.text]

/-- Joined lines keep the words. -/
theorem same_joinLines (ts : List Token) :
    Forall₂ Token.Same (Token.joinLines ts) (ts.filter Token.isWord) := by
  unfold Token.joinLines
  generalize ([] : List Char) = pending
  induction ts generalizing pending with
  | nil => exact .nil
  | cons t ts ih =>
    rw [Token.joinLines.go]
    split
    · rename_i ht
      rw [List.filter_cons_of_neg (by simp [Token.isWord, ht])]
      exact ih _
    · rename_i ht
      rw [List.filter_cons_of_pos (by simp [Token.isWord, ht])]
      exact .cons ⟨rfl, rfl, rfl⟩ (ih _)

/-- Related tokens stay related when lines are joined, if their blank text does not count. -/
theorem forall₂_joinLines {R : Token → Token → Prop} (hkind : ∀ {t u}, R t u → t.kind = u.kind)
    (hsame : ∀ {t u t' u'}, R t u → t'.Same t → u'.Same u → R t' u') (h : Forall₂ R ts us) :
    Forall₂ R (Token.joinLines ts) (Token.joinLines us) := by
  have hgo : ∀ pending pending', Forall₂ R (Token.joinLines.go pending ts)
      (Token.joinLines.go pending' us) := by
    induction h with
    | nil => exact fun _ _ => .nil
    | cons h _ ih =>
      intro pending pending'
      have hk := hkind h
      rw [Token.joinLines.go, Token.joinLines.go, ← hk]
      split
      · exact ih _ _
      · exact .cons (hsame h ⟨rfl, rfl, rfl⟩ ⟨hk, rfl, rfl⟩) (ih [] [])
  exact hgo [] []

theorem exists_same_of_mem_joinLines (h : t ∈ Token.joinLines ts) : ∃ u ∈ ts, t.Same u := by
  obtain ⟨i, hi, rfl⟩ := List.mem_iff_getElem.mp h
  have hsame := same_joinLines ts
  have hj : i < (ts.filter Token.isWord).length := hsame.length_eq ▸ hi
  exact ⟨_, List.mem_of_mem_filter (List.getElem_mem hj), hsame.get hi hj⟩

theorem writtenFrom_append : WrittenFrom base (ts ++ us) ↔
    WrittenFrom base ts ∧ WrittenFrom (base + byteLength (ts.flatMap Token.written)) us := by
  induction ts generalizing base with
  | nil => simp [WrittenFrom]
  | cons t ts ih =>
    rw [List.cons_append, WrittenFrom, WrittenFrom, ih, and_assoc]
    refine and_congr_right fun ht => ?_
    rw [List.flatMap_cons, Token.written, byteLength_append, byteLength_append, Token.stop, ht]
    simp only [Nat.add_assoc]

theorem WrittenFrom.go (h : WrittenFrom (base + byteLength pending) ts) :
    WrittenFrom base (Token.joinLines.go pending ts) := by
  induction ts generalizing base pending with
  | nil => trivial
  | cons t ts ih =>
    obtain ⟨hstart, hs⟩ := h
    rw [Token.joinLines.go]
    split
    · refine ih ?_
      rw [Token.stop, hstart] at hs
      simpa only [byteLength_append, Nat.add_assoc] using hs
    · refine ⟨?_, ih (by simpa [Token.stop] using hs)⟩
      simpa only [byteLength_append, Nat.add_assoc] using hstart

theorem flatMap_go (pending : List Char) (ts : List Token) :
    ∃ gap, (Token.joinLines.go pending ts).flatMap Token.written ++ gap =
      pending ++ ts.flatMap Token.written := by
  induction ts generalizing pending with
  | nil => exact ⟨pending, by simp [Token.joinLines.go]⟩
  | cons t ts ih =>
    rw [Token.joinLines.go]
    split
    · obtain ⟨gap, hgap⟩ := ih (pending ++ t.leading ++ t.text)
      exact ⟨gap, by simpa [Token.written] using hgap⟩
    · obtain ⟨gap, hgap⟩ := ih []
      rw [List.nil_append] at hgap
      exact ⟨gap, by simp [Token.written, hgap]⟩

theorem stopOf_cons (base : Nat) (t : Token) (ts : List Token) :
    stopOf base (t :: ts) = stopOf t.stop ts := by
  rw [stopOf, stopOf, List.getLast?_cons]
  cases ts.getLast? <;> rfl

theorem stopOf_concat (base : Nat) (ts : List Token) (t : Token) :
    stopOf base (ts ++ [t]) = t.stop := by
  simp [stopOf]

theorem stopOf_writtenFrom (h : WrittenFrom base ts) :
    stopOf base ts = base + byteLength (ts.flatMap Token.written) := by
  induction ts generalizing base with
  | nil => rfl
  | cons t ts ih =>
    rw [stopOf_cons, ih h.2, List.flatMap_cons, Token.written, byteLength_append,
      byteLength_append, Token.stop, h.1]
    simp only [Nat.add_assoc]

theorem spans_cons_iff {span : Span} :
    Spans span (t :: ts) ↔ span = ⟨t.start, stopOf t.stop ts⟩ := by
  have hlast : ∀ last ∈ (t :: ts).getLast?, last.stop = stopOf t.stop ts := by
    intro last hl
    rw [← stopOf_cons 0, stopOf, Option.mem_def.mp hl]
    rfl
  constructor
  · rintro ⟨_, ⟨⟩, last, hl, rfl⟩
    rw [hlast last hl]
  · rintro rfl
    have hl := List.getLast?_eq_some_getLast (List.cons_ne_nil t ts)
    exact ⟨t, rfl, _, hl, by rw [hlast _ hl]⟩

end Runs

namespace WrittenAt

variable {source : List Char} {span : Span} {ts us : List Token}

theorem left (h : WrittenAt source (ts ++ us)) : WrittenAt source ts := by
  obtain ⟨before, after, rfl, hw⟩ := h
  exact ⟨before, us.flatMap Token.written ++ after, by simp, (writtenFrom_append.mp hw).1⟩

theorem right (h : WrittenAt source (ts ++ us)) : WrittenAt source us := by
  obtain ⟨before, after, rfl, hw⟩ := h
  refine ⟨before ++ ts.flatMap Token.written, after, by simp, ?_⟩
  rw [byteLength_append]
  exact (writtenFrom_append.mp hw).2

theorem joinLines (h : WrittenAt source ts) : WrittenAt source (Token.joinLines ts) := by
  obtain ⟨before, after, rfl, hw⟩ := h
  obtain ⟨gap, hgap⟩ := flatMap_go [] ts
  refine ⟨before, gap ++ after, ?_, WrittenFrom.go (by simpa using hw)⟩
  rw [List.nil_append] at hgap
  rw [← hgap, List.append_assoc]
  rfl

/-- What the tokens write stands in the source from the first to the last. -/
theorem hasText (h : WrittenAt source ts) (hs : Spans span ts) :
    HasText source span (Token.sourceText ts) := by
  cases ts with
  | nil =>
    obtain ⟨first, hfirst, -⟩ := hs
    cases hfirst
  | cons t ts =>
    obtain ⟨before, after, rfl, hstart, hw⟩ := h
    obtain rfl := spans_cons_iff.mp hs
    refine ⟨before ++ t.leading, after, ?_, by rw [byteLength_append, hstart], ?_⟩
    · simp only [List.flatMap_cons, Token.written, Token.sourceText, List.append_assoc]
      rfl
    · rw [stopOf_writtenFrom hw, Token.stop, hstart, Token.sourceText]
      simp only [byteLength_append, Nat.add_assoc]
      rfl

end WrittenAt

section Sources

variable {source : String} {ts : List Token}

theorem scan_of_tokenize (h : tokenize source = .ok ts) :
    scan source = (SourceFile.ofTokens ts).mapError (.ofSyntaxFault source.toList) := by
  rw [scan, h]
  rfl

theorem tokenized_of_tokenize (h : tokenize source = .ok ts) :
    ∃ pieces, Tokenized source.toList pieces ts := by
  unfold tokenize tokens at h
  cases hl : lexemes 0 source.toList with
  | error fault =>
    rw [hl] at h
    cases h
  | ok ls =>
    rw [hl] at h
    cases h
    obtain ⟨pieces, hp, rfl⟩ := lexemes_of_ok hl
    exact ⟨pieces, tokenized_of_reads hp⟩

theorem writtenAt_of_tokenize (h : tokenize source = .ok ts) : WrittenAt source.toList ts := by
  obtain ⟨pieces, ht⟩ := tokenized_of_tokenize h
  obtain ⟨gap, -, hcovers⟩ := ht.covers
  refine ⟨[], gap, by simpa using hcovers.symm, ?_⟩
  have hfrom : ∀ before after, ts = before ++ after →
      WrittenFrom (byteLength (before.flatMap Token.written)) after := by
    intro before after he
    induction after generalizing before with
    | nil => trivial
    | cons t after ih =>
      have hstart := ht.placed before t after he
      rw [byteLength_append] at hstart
      refine ⟨hstart, ?_⟩
      have hrest := ih (before ++ [t]) (by rw [he, List.append_assoc, List.singleton_append])
      rw [List.flatMap_append, List.flatMap_singleton, Token.written, byteLength_append,
        byteLength_append, ← Nat.add_assoc, ← hstart] at hrest
      exact hrest
  exact hfrom [] ts rfl

end Sources

end SignalBridge.Source
