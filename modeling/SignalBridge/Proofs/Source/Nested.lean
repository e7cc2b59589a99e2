import SignalBridge.Member.Signature
import SignalBridge.Proofs.Source.Spelling
import SignalBridge.Source.File

/-!
Matching brackets, told from the outside in: by the kinds of tokens (`Enclosed`) for the reader of
declarations, and by lexemes (`Nested`) for the reader of signatures as well, which follows the
brackets by characters. Neither reader stops inside.
-/

namespace SignalBridge.Source

/-- Kinds of tokens whose delimiters match; outside all of them stand separators only if they are
allowed. -/
inductive Enclosed : (separators : Bool) → List Token.Kind → Prop where
  | nil {separators : Bool} : Enclosed separators []
  | plain {separators : Bool} {k : Token.Kind} {ks : List Token.Kind}
      (hs : k.isSeparator → separators) (hd : ∀ d, k ≠ .opener d ∧ k ≠ .closer d)
      (h : Enclosed separators ks) : Enclosed separators (k :: ks)
  | group {separators : Bool} {d : Delimiter} {inner ks : List Token.Kind}
      (hi : Enclosed true inner) (h : Enclosed separators ks) :
      Enclosed separators (.opener d :: (inner ++ .closer d :: ks))

/-- A lexeme that opens, closes and separates nothing. -/
structure Lexeme.IsPlain (l : Lexeme) : Prop where
  text : ∀ c ∈ l.text, Signature.opens c = false ∧ Signature.closes c = false ∧ c ≠ ','
  kind : ∀ k ∈ l.kind, k.isSeparator = false ∧ ∀ d, k ≠ .opener d ∧ k ≠ .closer d

/-- Lexemes whose brackets match; outside all brackets stand commas only if they are allowed. -/
inductive Nested : (commas : Bool) → List Lexeme → Prop where
  | nil {commas : Bool} : Nested commas []
  | plain {commas : Bool} {l : Lexeme} {ls : List Lexeme} (hl : l.IsPlain)
      (h : Nested commas ls) : Nested commas (l :: ls)
  | comma {ls : List Lexeme} (h : Nested true ls) : Nested true (.comma :: ls)
  | group {commas : Bool} {d : Delimiter} {inner ls : List Lexeme} (hi : Nested true inner)
      (h : Nested commas ls) : Nested commas (.opener d :: (inner ++ .closer d :: ls))

section Kinds

variable {separators : Bool} {ks ks' : List Token.Kind}

theorem Enclosed.append (h : Enclosed separators ks) (h' : Enclosed separators ks') :
    Enclosed separators (ks ++ ks') := by
  induction h with
  | nil => exact h'
  | plain hs hd _ ih => exact .plain hs hd (ih h')
  | group hi _ _ ih =>
    rw [List.cons_append, List.append_assoc]
    exact .group hi (ih h')

theorem Enclosed.allow (h : Enclosed separators ks) : Enclosed true ks := by
  induction h with
  | nil => exact .nil
  | plain _ hd _ ih => exact .plain (fun _ => rfl) hd ih
  | group hi _ _ ih => exact .group hi ih

theorem kinds_group (d : Delimiter) (inner ls : List Lexeme) :
    (Lexeme.opener d :: (inner ++ .closer d :: ls)).filterMap Lexeme.kind =
      .opener d :: (inner.filterMap Lexeme.kind ++ .closer d :: ls.filterMap Lexeme.kind) := by
  simp [Lexeme.opener, Lexeme.closer]

end Kinds

namespace Nested

variable {commas : Bool} {ls ls' : List Lexeme}

theorem append (h : Nested commas ls) (h' : Nested commas ls') : Nested commas (ls ++ ls') := by
  induction h with
  | nil => exact h'
  | plain hl _ ih => exact .plain hl (ih h')
  | comma _ ih => exact .comma (ih h')
  | group hi _ _ ih =>
    rw [List.cons_append, List.append_assoc]
    exact .group hi (ih h')

theorem allow (h : Nested commas ls) : Nested true ls := by
  induction h with
  | nil => exact .nil
  | plain hl _ ih => exact .plain hl ih
  | comma _ ih => exact .comma ih
  | group hi _ _ ih => exact .group hi ih

/-- Brackets with nothing inside. -/
theorem pair {d : Delimiter} (h : Nested commas ls) :
    Nested commas (.opener d :: .closer d :: ls) :=
  @group _ _ [] _ .nil h

theorem enclosed (h : Nested commas ls) : Enclosed false (ls.filterMap Lexeme.kind) := by
  induction h with
  | nil => exact .nil
  | @plain _ l ls hl _ ih =>
    cases hk : l.kind with
    | none => rwa [List.filterMap_cons_none hk]
    | some k =>
      obtain ⟨hs, hd⟩ := hl.kind k hk
      rw [List.filterMap_cons_some hk]
      exact .plain (fun h => absurd h (by simp [hs])) hd ih
  | comma _ ih => exact .plain (by simp [Token.Kind.isSeparator]) (by simp) ih
  | group _ _ ihi ih =>
    rw [kinds_group]
    exact .group ihi.allow ih

end Nested

section Tokens

variable {stop : Token.Kind → Bool} {nesting nesting' : Nesting} {t : Token}
  {ts rest : List Token} {separators : Bool} {ks : List Token.Kind}

theorem takeUntil_cons (hs : nesting ≠ [] ∨ stop t.kind = false)
    (ht : nesting.step t = .ok nesting') :
    takeUntil stop nesting (t :: ts) =
      (takeUntil stop nesting' ts).map fun p => (t :: p.1, p.2) := by
  have hstop : (nesting.isEmpty && stop t.kind) = false := by
    rcases hs with hs | hs
    · simp [hs]
    · simp [hs]
  rw [takeUntil, hstop, ht]
  cases hr : takeUntil stop nesting' ts with
  | error fault => simp [bind, Except.bind, Except.map, hr]
  | ok p => simp [bind, Except.bind, Except.map, hr, pure, Except.pure]

theorem step_of_plain (h : ∀ d, t.kind ≠ .opener d ∧ t.kind ≠ .closer d) :
    nesting.step t = .ok nesting := by
  unfold Nesting.step
  split
  · exact absurd ‹_› (h _).1
  · exact absurd ‹_› (h _).2
  · rfl

/-- A reader that stops at separators and closing delimiters passes over what is enclosed. Inside
delimiters any reader does. -/
theorem takeUntil_enclosed (h : Enclosed separators ks) (hk : ts.map Token.kind = ks)
    (hn : nesting ≠ [] ∨
      separators = false ∧ ∀ k, stop k → k.isSeparator ∨ ∃ d, k = .closer d) :
    takeUntil stop nesting (ts ++ rest) =
      (takeUntil stop nesting rest).map fun p => (ts ++ p.1, p.2) := by
  have hgo (hs : ∀ k, stop k → k.isSeparator ∨ ∃ d, k = .closer d) (k : Token.Kind)
      (hsep : k.isSeparator = false) (hc : ∀ d, k ≠ .closer d) : stop k = false := by
    cases hst : stop k with
    | false => rfl
    | true =>
      rcases hs k hst with h | ⟨d, h⟩
      · simp [hsep] at h
      · exact absurd h (hc d)
  induction h generalizing ts nesting rest with
  | nil =>
    obtain rfl := List.map_eq_nil_iff.mp hk
    rw [List.nil_append]
    cases takeUntil stop nesting rest <;> rfl
  | @plain separators k ks hsep hd _ ih =>
    obtain ⟨t, ts, rfl, rfl, hts⟩ := List.map_eq_cons_iff.mp hk
    have hstop : nesting ≠ [] ∨ stop t.kind = false := by
      refine hn.imp_right fun ⟨hn, hs⟩ => hgo hs _ ?_ fun d => (hd d).2
      cases hsk : t.kind.isSeparator with
      | false => rfl
      | true => simpa [hn] using hsep hsk
    rw [List.cons_append, takeUntil_cons hstop (step_of_plain hd), ih hts hn]
    cases takeUntil stop nesting rest <;> rfl
  | @group separators d inner ks _ _ ihi ih =>
    obtain ⟨t, ts, rfl, ht, hts⟩ := List.map_eq_cons_iff.mp hk
    obtain ⟨ti, ts, rfl, hti, hts⟩ := List.map_eq_append_iff.mp hts
    obtain ⟨t', ts, rfl, ht', hts⟩ := List.map_eq_cons_iff.mp hts
    have hopen : nesting.step t = .ok (d :: nesting) := by simp [Nesting.step, ht]
    have hclose : Nesting.step (d :: nesting) t' = .ok nesting := by simp [Nesting.step, ht']
    have hstop : nesting ≠ [] ∨ stop t.kind = false :=
      hn.imp_right fun ⟨_, hs⟩ => hgo hs _ (by rw [ht]; rfl) (by simp [ht])
    rw [List.cons_append, takeUntil_cons hstop hopen, List.append_assoc,
      ihi hti (.inl (List.cons_ne_nil _ _)), List.cons_append,
      takeUntil_cons (.inl (List.cons_ne_nil _ _)) hclose, ih hts hn]
    cases takeUntil stop nesting rest <;> simp [Except.map]

end Tokens

section Lists

variable {items : List (List Lexeme)} {rest : List Char}

/-- Lexemes of items with commas between them. -/
def listed (items : List (List Lexeme)) : List Lexeme :=
  [Lexeme.comma, Lexeme.space].intercalate items

theorem listed_cons_cons (item item' : List Lexeme) (items : List (List Lexeme)) :
    listed (item :: item' :: items) =
      item ++ Lexeme.comma :: Lexeme.space :: listed (item' :: items) := by
  simp [listed]

theorem listed_cons (item : List Lexeme) (items : List (List Lexeme)) :
    ∃ more, listed (item :: items) = item ++ more := by
  cases items with
  | nil => exact ⟨[], by simp [listed]⟩
  | cons item' items => exact ⟨_, listed_cons_cons item item' items⟩

theorem written_listed (items : List (List Lexeme)) :
    written (listed items) = [',', ' '].intercalate (items.map written) := by
  induction items with
  | nil => rfl
  | cons item items ih =>
    cases items with
    | nil => simp [listed]
    | cons item' items =>
      rw [listed_cons_cons, written_append, written_cons, written_cons, ih]
      simp [Lexeme.comma, Lexeme.space]

theorem space_isPlain : Lexeme.space.IsPlain where
  text := by simp [Lexeme.space, Signature.opens, Signature.closes]
  kind := by simp [Lexeme.space]

theorem nested_listed (h : ∀ item ∈ items, Nested true item) : Nested true (listed items) := by
  induction items with
  | nil => exact .nil
  | cons item items ih =>
    have hitem := h item List.mem_cons_self
    cases items with
    | nil => simpa [listed] using hitem
    | cons item' items =>
      rw [listed_cons_cons]
      exact hitem.append
        (.comma (.plain space_isPlain (ih fun i hi => h i (List.mem_cons_of_mem _ hi))))

end Lists

end SignalBridge.Source
