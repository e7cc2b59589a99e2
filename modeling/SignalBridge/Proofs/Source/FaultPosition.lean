import SignalBridge.Proofs.Source.Alike
import SignalBridge.Proofs.Source.Placement

namespace SignalBridge.Source

open List (Forall₂)

namespace Position

/-- Earlier in a text: on a line before, or on the same line in a column before. -/
def Before (p q : Position) : Prop :=
  p.line < q.line ∨ p.line = q.line ∧ p.column < q.column

variable {p q r : Position}

theorem before_step (p : Position) (c : Char) : p.Before (p.step c) := by
  unfold step Before
  split
  · exact .inl (Nat.lt_succ_self _)
  · exact .inr ⟨rfl, Nat.lt_succ_self _⟩

theorem Before.trans (h : p.Before q) (h' : q.Before r) : p.Before r := by
  unfold Before at *
  omega

theorem Before.asymm (h : p.Before q) : ¬ q.Before p := by
  unfold Before at *
  omega

/-- More text, a later position. -/
theorem after_before_append (a : List Char) {b : List Char} (h : b ≠ []) :
    (after a).Before (after (a ++ b)) := by
  induction b generalizing a with
  | nil => exact absurd rfl h
  | cons c cs ih =>
    have hstep : (after a).Before (after (a ++ [c])) := by
      rw [after_append_singleton]
      exact before_step _ c
    cases cs with
    | nil => exact hstep
    | cons d ds =>
      rw [← List.singleton_append, ← List.append_assoc]
      exact hstep.trans (ih (a ++ [c]) (List.cons_ne_nil d ds))

end Position

/-- The byte offset lies between two characters of the source, or at an end of it, and a reader
sees the position there: the line breaks before it and the characters after the last of them, both
counted from 1. -/
def HasPosition (source : List Char) (offset : Nat) (p : Position) : Prop :=
  ∃ before after, source = before ++ after ∧ byteLength before = offset ∧
    p = ⟨before.count '\n' + 1, (before.reverse.takeWhile (· ≠ '\n')).length + 1⟩

section Positions

variable {source a b : List Char} {n m : Nat} {p q : Position}

theorem hasPosition_iff : HasPosition source n p ↔
    ∃ before after, source = before ++ after ∧ byteLength before = n ∧
      p = Position.after before := by
  simp only [HasPosition, Position.after_eq]

theorem byteLength_lt_append (a : List Char) (h : b ≠ []) :
    byteLength a < byteLength (a ++ b) := by
  rw [byteLength_append]
  exact Nat.lt_add_of_pos_right (byteLength_pos h)

/-- Of two places in a source the earlier one has the earlier position. -/
theorem HasPosition.lt_iff (h : HasPosition source n p) (h' : HasPosition source m q) :
    n < m ↔ p.Before q := by
  obtain ⟨a, a', rfl, rfl, rfl⟩ := hasPosition_iff.mp h
  obtain ⟨b, b', hab, rfl, rfl⟩ := hasPosition_iff.mp h'
  rcases List.append_eq_append_iff.mp hab with ⟨c, rfl, -⟩ | ⟨c, rfl, -⟩
  · by_cases hc : c = []
    · subst hc
      rw [List.append_nil]
      exact iff_of_false (Nat.lt_irrefl _) fun hp => hp.asymm hp
    · exact iff_of_true (byteLength_lt_append a hc) (Position.after_before_append a hc)
  · refine iff_of_false ?_ ?_
    · rw [byteLength_append]
      omega
    · intro hp
      by_cases hc : c = []
      · subst hc
        rw [List.append_nil] at hp
        exact hp.asymm hp
      · exact hp.asymm (Position.after_before_append b hc)

/-- No other place in the source has this position. -/
theorem HasPosition.unique (h : HasPosition source n p) :
    ∀ m, HasPosition source m p ↔ m = n := by
  intro m
  constructor
  · intro h'
    have hlt := h.lt_iff h'
    have hgt := h'.lt_iff h
    have hirrefl : ¬ p.Before p := fun hp => hp.asymm hp
    have hle : ¬ n < m := mt hlt.mp hirrefl
    have hge : ¬ m < n := mt hgt.mp hirrefl
    omega
  · rintro rfl
    exact h

theorem hasPosition_ofOffset (h : source = a ++ b) :
    HasPosition source (byteLength a) (Position.ofOffset source (byteLength a)) := by
  refine hasPosition_iff.mpr ⟨a, b, h, rfl, ?_⟩
  rw [Position.ofOffset, h, takeBytes_byteLength]

theorem hasPosition_end (source : List Char) :
    HasPosition source (byteLength source) (Position.after source) :=
  hasPosition_iff.mpr ⟨source, [], (List.append_nil _).symm, rfl, rfl⟩

end Positions

section Faults

variable {all ts us : List Token} {fault : SyntaxFault} {source : String} {e : ScanError}

/-- The same token, and it is one of `all`. -/
def OneOf (all : List Token) (t u : Token) : Prop :=
  t = u ∧ ∃ v ∈ all, t.Same v

theorem forall₂_oneOf_iff :
    Forall₂ (OneOf all) ts us ↔ ts = us ∧ ∀ t ∈ ts, ∃ v ∈ all, t.Same v := by
  constructor
  · intro h
    induction h with
    | nil => simp
    | cons h _ ih =>
      obtain ⟨rfl, hs⟩ := ih
      obtain ⟨rfl, ht⟩ := h
      exact ⟨rfl, List.forall_mem_cons.mpr ⟨ht, hs⟩⟩
  · rintro ⟨rfl, h⟩
    exact List.forall₂_same.mpr fun t ht => ⟨rfl, h t ht⟩

theorem indistinct_oneOf (all : List Token) : Indistinct (OneOf all) where
  kind h := congrArg Token.kind h.1
  text h _ := congrArg Token.text h.1
  joinLines := by
    intro ts us h
    obtain ⟨rfl, hall⟩ := forall₂_oneOf_iff.mp h
    refine forall₂_oneOf_iff.mpr ⟨rfl, fun t ht => ?_⟩
    obtain ⟨u, hu, htu⟩ := exists_same_of_mem_joinLines ht
    obtain ⟨v, hv, huv⟩ := hall u hu
    exact ⟨v, hv, htu.trans huv⟩

/-- The token that a fault found is one of those read. -/
theorem found_of_declarations {package : Option String} {nesting : Nesting}
    (h : declarations package nesting ts = .error fault) :
    ∀ t ∈ fault.found, ∃ u ∈ ts, t.Same u := by
  -- The reader cannot tell tokens apart that are the same, so it keeps what holds of each of them.
  have hself : Forall₂ (OneOf ts) ts ts :=
    forall₂_oneOf_iff.mpr ⟨rfl, fun t ht => ⟨t, ht, rfl, rfl, rfl⟩⟩
  have hfits := alike_declarations (indistinct_oneOf ts) package nesting hself
  rw [h] at hfits
  cases hfits with
  | error halike =>
    intro t ht
    have hfound := halike.found
    rw [Option.mem_def.mp ht] at hfound
    cases hfound with
    | some hone => exact hone.2

theorem scan_eq_error (h : tokenize source = .ok ts) (he : scan source = .error e) :
    ∃ fault, SourceFile.ofTokens ts = .error fault ∧
      e = .ofSyntaxFault source.toList fault := by
  rw [scan_of_tokenize h] at he
  cases hr : SourceFile.ofTokens ts with
  | ok file =>
    rw [hr] at he
    cases he
  | error fault =>
    rw [hr] at he
    exact ⟨fault, rfl, (Except.error.inj he).symm⟩

end Faults

/-- A source that tokenizes and still fails has a fault in its declarations. One place in the source
has the position that the fault reports: a token starts there and the fault tells which, or the
source ends there and the fault tells so. And of two places the earlier one has the earlier
position. -/
theorem scan_fault_located (source : String) :
    (∀ ts e, tokenize source = .ok ts → scan source = .error e →
      ∃ position fault offset, e = .syntactic position fault ∧
        (∀ n, HasPosition source.toList n position ↔ n = offset) ∧
        ((∃ t ∈ ts, t.start = offset ∧
            (t.kind = .newline ∧ fault.foundText = "newline" ∨
              t.kind ≠ .newline ∧ fault.foundText = "'" ++ String.ofList t.text ++ "'")) ∨
          offset = byteLength source.toList ∧ fault.foundText = "end of file")) ∧
    ∀ n m p q, HasPosition source.toList n p → HasPosition source.toList m q →
      (n < m ↔ p.Before q) := by
  refine ⟨?_, fun n m p q hp hq => hp.lt_iff hq⟩
  intro ts e ht he
  obtain ⟨⟨expected, found⟩, hfault, rfl⟩ := scan_eq_error ht he
  cases found with
  | none =>
    exact ⟨_, _, _, rfl, (hasPosition_end source.toList).unique, .inr ⟨rfl, rfl⟩⟩
  | some t =>
    obtain ⟨u, hu, hsame⟩ := found_of_declarations hfault t rfl
    obtain ⟨pieces, htokenized⟩ := tokenized_of_tokenize ht
    obtain ⟨_, before, after, hsource, hstart, -⟩ := htokenized.longest u hu
    rw [List.append_assoc] at hsource
    have hposition := (hasPosition_ofOffset hsource).unique
    rw [← hstart, ← hsame.start] at hposition
    refine ⟨_, _, _, rfl, hposition, .inl ⟨u, hu, hsame.start.symm, ?_⟩⟩
    simp only [SyntaxFault.foundText, Token.describe, hsame.kind, hsame.text]
    by_cases hk : u.kind = .newline
    · exact .inl ⟨hk, if_pos hk⟩
    · exact .inr ⟨hk, if_neg hk⟩

/-- A number where a second name belongs, behind a line break inside a comment. -/
def numberedSource : String :=
  "package grid\n/* é\n */ type T struct \x7b a, 1 int \x7d\n"

def numberedError : ScanError :=
  .syntactic ⟨3, 24⟩ ⟨.fieldName, some ⟨.number, 42, [' '], ['1']⟩⟩

theorem scan_fault_located_number : ∃ ts, tokenize numberedSource = .ok ts ∧
    scan numberedSource = .error numberedError ∧ ∃ offset,
      (∀ n, HasPosition numberedSource.toList n ⟨3, 24⟩ ↔ n = offset) ∧
        ∃ t ∈ ts, t.start = offset ∧ "'1'" = "'" ++ String.ofList t.text ++ "'" := by
  have hscan : scan numberedSource = .error numberedError := by decide +kernel
  have htokenizes : (tokenize numberedSource).toOption.any fun _ => true := by decide +kernel
  obtain ⟨ts, ht, -⟩ := exists_ok_of_any htokenizes
  obtain ⟨_, _, offset, ⟨⟩, hplace, hfound⟩ := (scan_fault_located numberedSource).1 ts _ ht hscan
  refine ⟨ts, ht, hscan, offset, hplace, ?_⟩
  rcases hfound with ⟨t, hmem, hstart, ⟨-, htext⟩ | ⟨-, htext⟩⟩ | ⟨-, htext⟩
  · exact absurd htext (by decide)
  · exact ⟨t, hmem, hstart, htext⟩
  · exact absurd htext (by decide)

end SignalBridge.Source
