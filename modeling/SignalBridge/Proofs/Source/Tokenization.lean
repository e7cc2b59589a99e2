import SignalBridge.Outcome
import SignalBridge.Proofs.Source.LongestLexeme
import SignalBridge.Proofs.Source.Position

namespace SignalBridge.Source

open Pattern

def Piece.lexeme (piece : Piece) : Lexeme :=
  ⟨piece.1.kind? piece.2, piece.2⟩

/-- Blank runs and comments, in any number. -/
def IsGapText (text : List Char) : Prop :=
  ∃ pieces : List Piece, text = pieces.flatMap Prod.snd ∧
    ∀ piece ∈ pieces, piece.1.Matches piece.2 ∧ piece.1.IsGap piece.2

theorem IsGapText.nil : IsGapText [] := ⟨[], rfl, by simp⟩

theorem IsGapText.append_piece {text : List Char} {piece : Piece} (h : IsGapText text)
    (hm : piece.1.Matches piece.2) (hg : piece.1.IsGap piece.2) :
    IsGapText (text ++ piece.2) := by
  obtain ⟨pieces, rfl, hp⟩ := h
  refine ⟨pieces ++ [piece], by simp, ?_⟩
  intro q hq
  rcases List.mem_append.mp hq with hq | hq
  · exact hp q hq
  · obtain rfl := List.mem_singleton.mp hq
    exact ⟨hm, hg⟩

/-- A token with what stands before it. -/
def Token.written (t : Token) : List Char :=
  t.leading ++ t.text

section Pieces

variable {offset : Nat} {leading : List Char} {pieces : List Piece}

theorem covers_ofLexemes (hl : IsGapText leading)
    (hm : ∀ piece ∈ pieces, piece.1.Matches piece.2) :
    (∃ gap, IsGapText gap ∧
      (Token.ofLexemes offset leading (pieces.map Piece.lexeme)).flatMap Token.written ++ gap =
        leading ++ pieces.flatMap Prod.snd) ∧
      ∀ t ∈ Token.ofLexemes offset leading (pieces.map Piece.lexeme), IsGapText t.leading := by
  induction pieces generalizing offset leading with
  | nil => exact ⟨⟨leading, hl, by simp [Token.ofLexemes]⟩, by simp [Token.ofLexemes]⟩
  | cons piece pieces ih =>
    have hm' : ∀ q ∈ pieces, q.1.Matches q.2 := fun q hq => hm q (List.mem_cons_of_mem _ hq)
    rw [List.map_cons, Token.ofLexemes]
    cases hk : piece.1.kind? piece.2 with
    | none =>
      have hg := hl.append_piece (hm piece List.mem_cons_self) (isGap_of_kind_none hk)
      obtain ⟨⟨gap, hgap, hc⟩, ht⟩ := @ih (offset + byteLength piece.2) _ hg hm'
      simp only [Piece.lexeme, hk]
      exact ⟨⟨gap, hgap, by rw [hc, List.flatMap_cons, List.append_assoc]⟩, ht⟩
    | some kind =>
      obtain ⟨⟨gap, hgap, hc⟩, ht⟩ := @ih (offset + byteLength piece.2) _ .nil hm'
      simp only [Piece.lexeme, hk]
      refine ⟨⟨gap, hgap, ?_⟩, ?_⟩
      · rw [List.flatMap_cons, List.append_assoc, hc]
        simp [Token.written]
      · intro t hmem
        rcases List.mem_cons.mp hmem with rfl | hmem
        · exact hl
        · exact ht t hmem

/-- A token starts where what was written before it ends. -/
theorem start_ofLexemes {before after : List Token} {t : Token}
    (h : Token.ofLexemes offset leading (pieces.map Piece.lexeme) = before ++ t :: after) :
    t.start + byteLength leading =
      offset + byteLength (before.flatMap Token.written ++ t.leading) := by
  induction pieces generalizing offset leading before with
  | nil => simp [Token.ofLexemes] at h
  | cons piece pieces ih =>
    rw [List.map_cons, Token.ofLexemes] at h
    cases hk : piece.1.kind? piece.2 with
    | none =>
      simp only [Piece.lexeme, hk] at h
      have := ih h
      simp only [byteLength_append] at this ⊢
      omega
    | some kind =>
      simp only [Piece.lexeme, hk] at h
      cases before with
      | nil =>
        obtain ⟨rfl, -⟩ := List.cons.inj h
        simp
      | cons u before =>
        obtain ⟨rfl, ht⟩ := List.cons.inj h
        have := ih ht
        simp only [List.flatMap_cons, Token.written, byteLength_append, byteLength_nil] at this ⊢
        omega

/-- Where a piece becomes a token. -/
def BecomesAt (offset : Nat) (pieces : List Piece) (kind : Token.Kind) (start : Nat)
    (text : List Char) : Prop :=
  ∃ before p after, pieces = before ++ (p, text) :: after ∧ p.kind? text = some kind ∧
    start = offset + byteLength (before.flatMap Prod.snd)

theorem becomesAt_cons {piece : Piece} {kind : Token.Kind} {start : Nat} {text : List Char} :
    BecomesAt offset (piece :: pieces) kind start text ↔
      (piece.1.kind? piece.2 = some kind ∧ piece.2 = text ∧ start = offset) ∨
        BecomesAt (offset + byteLength piece.2) pieces kind start text := by
  constructor
  · rintro ⟨before, p, after, he, hk, hs⟩
    cases before with
    | nil =>
      obtain ⟨rfl, -⟩ := List.cons.inj he
      exact .inl ⟨hk, rfl, by simpa using hs⟩
    | cons q before =>
      obtain ⟨rfl, rfl⟩ := List.cons.inj he
      refine .inr ⟨before, p, after, rfl, hk, ?_⟩
      simp only [List.flatMap_cons, byteLength_append] at hs
      omega
  · rintro (⟨hk, rfl, rfl⟩ | ⟨before, p, after, rfl, hk, hs⟩)
    · exact ⟨[], piece.1, pieces, rfl, hk, rfl⟩
    · refine ⟨piece :: before, p, after, rfl, hk, ?_⟩
      simp only [List.flatMap_cons, byteLength_append]
      omega

/-- The tokens are the pieces that become tokens, each at its place. -/
theorem mem_ofLexemes {kind : Token.Kind} {start : Nat} {text : List Char} :
    (∃ t ∈ Token.ofLexemes offset leading (pieces.map Piece.lexeme),
      t.kind = kind ∧ t.start = start ∧ t.text = text) ↔
    BecomesAt offset pieces kind start text := by
  induction pieces generalizing offset leading with
  | nil => simp [Token.ofLexemes, BecomesAt]
  | cons piece pieces ih =>
    rw [becomesAt_cons, List.map_cons, Token.ofLexemes]
    cases hk : piece.1.kind? piece.2 with
    | none => simp [Piece.lexeme, hk, ← @ih _ (leading ++ piece.2)]
    | some k =>
      simp only [Piece.lexeme, hk, List.mem_cons, exists_eq_or_imp, Option.some.injEq]
      refine or_congr ?_ ih
      constructor
      · rintro ⟨hk, hs, ht⟩
        exact ⟨hk, ht, hs.symm⟩
      · rintro ⟨hk, ht, hs⟩
        exact ⟨hk, hs.symm, ht⟩

theorem le_start_ofLexemes {t : Token}
    (h : t ∈ Token.ofLexemes offset leading (pieces.map Piece.lexeme)) : offset ≤ t.start := by
  obtain ⟨before, p, after, -, -, he⟩ := mem_ofLexemes.mp ⟨t, h, rfl, rfl, rfl⟩
  omega

theorem ordered_ofLexemes :
    (Token.ofLexemes offset leading (pieces.map Piece.lexeme)).Pairwise
      fun t u => t.stop ≤ u.start := by
  induction pieces generalizing offset leading with
  | nil => simp [Token.ofLexemes]
  | cons piece pieces ih =>
    rw [List.map_cons, Token.ofLexemes]
    cases hk : piece.1.kind? piece.2 with
    | none =>
      simp only [Piece.lexeme, hk]
      exact ih
    | some kind =>
      simp only [Piece.lexeme, hk]
      exact List.pairwise_cons.mpr ⟨fun u hu => le_start_ofLexemes hu, ih⟩

end Pieces

/-- How the tokens of a source lie in it, where `pieces` is its reading as longest lexemes. -/
structure Tokenized (source : List Char) (pieces : List Piece) (ts : List Token) : Prop where
  /-- Gaps and tokens in turn make up the source. -/
  covers : ∃ gap, IsGapText gap ∧ ts.flatMap Token.written ++ gap = source
  gaps : ∀ t ∈ ts, IsGapText t.leading
  placed : ∀ before t after, ts = before ++ t :: after →
    t.start = byteLength (before.flatMap Token.written ++ t.leading)
  /-- Each token is the longest lexeme at its place and has the kind of its pattern. -/
  longest : ∀ t ∈ ts, ∃ p before after, source = before ++ t.text ++ after ∧
    t.start = byteLength before ∧ IsLongest p t.text after ∧ p.kind? t.text = some t.kind
  keywords : ∀ t ∈ ts, ∀ word : Keyword, t.text = word.text.toList → t.kind = .keyword word
  nonempty : ∀ t ∈ ts, t.start < t.stop
  ordered : ts.Pairwise fun t u => t.stop ≤ u.start
  /-- A block comment over a line break is one token over its whole span. -/
  lineBreaks : ∀ before text after, pieces = before ++ (.blockComment, text) :: after →
    '\n' ∈ text → ∃ t ∈ ts, t.kind = .newline ∧
      t.start = byteLength (before.flatMap Prod.snd) ∧ t.text = text

theorem tokenized_of_reads {source : List Char} {pieces : List Piece}
    (h : Reads source pieces []) :
    Tokenized source pieces (Token.ofLexemes 0 [] (pieces.map Piece.lexeme)) := by
  have hs : source = pieces.flatMap Prod.snd := by simpa using h.text_eq
  obtain ⟨hc, hg⟩ := @covers_ofLexemes 0 _ _ .nil h.matches_of_mem
  have hlongest : ∀ t ∈ Token.ofLexemes 0 [] (pieces.map Piece.lexeme),
      ∃ p before after, source = before ++ t.text ++ after ∧ t.start = byteLength before ∧
        IsLongest p t.text after ∧ p.kind? t.text = some t.kind := by
    intro t ht
    obtain ⟨before, p, after, rfl, hk, hst⟩ := mem_ofLexemes.mp ⟨t, ht, rfl, rfl, rfl⟩
    refine ⟨p, before.flatMap Prod.snd, after.flatMap Prod.snd, by simp [hs], by simpa using hst,
      by simpa using h.isLongest_of_append, hk⟩
  refine ⟨by simpa [hs] using hc, hg, ?_, hlongest, ?_, ?_, ordered_ofLexemes, ?_⟩
  · intro before t after he
    simpa using start_ofLexemes he
  · intro t ht word hw
    obtain ⟨p, _, _, -, -, hl, hk⟩ := hlongest t ht
    obtain rfl := hl.keyword word hw
    exact (Option.some.inj hk).symm
  · intro t ht
    obtain ⟨p, _, _, -, -, hl, -⟩ := hlongest t ht
    have := byteLength_pos hl.ne_nil
    simp only [Token.stop]
    omega
  · intro before text after he hb
    exact mem_ofLexemes.mpr ⟨before, .blockComment, after, he, by simp [kind?, hb], by simp⟩

/-- The reader of lexemes and the reading by longest lexemes agree. -/
theorem lexemes_of_ok {offset : Nat} {text : List Char} {ls : List Lexeme}
    (h : lexemes offset text = .ok ls) :
    ∃ pieces, Reads text pieces [] ∧ ls = pieces.map Piece.lexeme := by
  fun_induction lexemes offset text generalizing ls with
  | case1 =>
    obtain rfl := Except.ok.inj h
    exact ⟨[], .done, rfl⟩
  | case2 => simp at h
  | case3 offset c cs kind taken after hn ih =>
    obtain ⟨rest, hr, h⟩ := bind_eq_ok_iff.mp h
    obtain ⟨pieces, hp, rfl⟩ := ih hr
    obtain ⟨p, hl, hk⟩ := next_isLongest hn
    obtain rfl := Except.ok.inj h
    refine ⟨(p, c :: taken) :: pieces, ?_, by simp [Piece.lexeme, hk]⟩
    rw [← Lexeme.next_append hn, ← List.cons_append]
    exact .step hl hp

/-- The reader of lexemes stops at the first place where none starts. -/
theorem lexemes_of_error {offset : Nat} {text : List Char} {fault : LexFault}
    (h : lexemes offset text = .error fault) :
    ∃ pieces after, Reads text pieces after ∧
      fault.offset = offset + byteLength (pieces.flatMap Prod.snd) ∧
      (after ≠ [] ∧ ∀ p s t, s ++ t = after → ¬ Pattern.Starts p s t) ∧
      fault.cause.message = refusal after := by
  fun_induction lexemes offset text with
  | case1 => simp at h
  | case2 offset c cs cause hn =>
    obtain rfl := Except.error.inj h
    obtain ⟨hs, hm⟩ := next_refuses hn
    exact ⟨[], c :: cs, .done, rfl, ⟨List.cons_ne_nil _ _, hs⟩, hm⟩
  | case3 offset c cs kind taken after hn ih =>
    rcases bind_eq_error_iff.mp h with hr | ⟨_, -, he⟩
    · obtain ⟨pieces, rest, hp, ho, hs⟩ := ih hr
      obtain ⟨p, hl, -⟩ := next_isLongest hn
      refine ⟨(p, c :: taken) :: pieces, rest, ?_, ?_, hs⟩
      · rw [← Lexeme.next_append hn, ← List.cons_append]
        exact .step hl hp
      · simp only [List.flatMap_cons, byteLength_append]
        omega
    · simp at he

/-- The longest lexeme stays the longest when what follows is cut off. -/
theorem Pattern.IsLongest.truncate {p : Pattern} {text rest after : List Char}
    (h : p.IsLongest text (rest ++ after)) : p.IsLongest text rest := by
  refine ⟨⟨h.starts.1, fun hc => h.starts.2 ?_⟩, ?_, h.keyword⟩
  · rw [← List.append_assoc]
    exact hc.trans (List.prefix_append _ _)
  · intro q s t he hq
    refine h.longest q s (t ++ after) (by rw [← List.append_assoc, he, List.append_assoc]) ?_
    refine ⟨hq.1, fun hc => ?_⟩
    -- A `/*` on the border would start a block comment, and that is read whole.
    have he' : s ++ (t ++ after) = text ++ (rest ++ after) := by
      rw [← List.append_assoc, he, List.append_assoc]
    obtain rfl := h.starts.2 (he' ▸ hc)
    obtain ⟨body, rfl, -⟩ := h.starts.1
    exact hq.2 (he ▸ ⟨_, rfl⟩)

theorem Reads.truncate {text rest after : List Char} {pieces : List Piece}
    (h : Reads (text ++ after) pieces (rest ++ after)) : Reads text pieces rest := by
  induction pieces generalizing text with
  | nil =>
    have he := h.text_eq
    rw [List.flatMap_nil, List.nil_append, List.append_cancel_right_eq] at he
    exact he ▸ .done
  | cons piece pieces ih =>
    have he := h.text_eq
    rw [← List.append_assoc, List.append_cancel_right_eq, List.flatMap_cons,
      List.append_assoc] at he
    subst he
    rw [List.append_assoc] at h
    have ht := (@Reads.of_append _ _ [piece] pieces h).2
    rw [← List.append_assoc] at ht
    have hl := @Reads.isLongest_of_append _ _ [] pieces piece h
    rw [← List.append_assoc] at hl
    exact .step hl.truncate (ih ht)

/-- A source that is refused at `after`, the first place where no lexeme starts. -/
structure RefusedAt (source before after : List Char) (e : ScanError) : Prop where
  splits : source = before ++ after
  /-- Up to there the source is read as longest lexemes. -/
  reading : ∃ pieces, Reads source pieces after
  stuck : after ≠ [] ∧ ∀ p s t, s ++ t = after → ¬ Pattern.Starts p s t
  accepted : ∃ ts, tokenize (String.ofList before) = .ok ts
  lexical : ∃ cause, cause.message = refusal after ∧ e = .lexical
    ⟨before.count '\n' + 1, (before.reverse.takeWhile (· ≠ '\n')).length + 1⟩ cause

theorem tokens_of_reads {text : List Char} {pieces : List Piece} (h : Reads text pieces []) :
    ∃ ts, tokens text = .ok ts := by
  cases hl : lexemes 0 text with
  | ok ls => exact ⟨Token.ofLexemes 0 [] ls, by rw [tokens, hl]; rfl⟩
  | error fault =>
    obtain ⟨_, _, hr, -, hs, -⟩ := lexemes_of_error hl
    exact absurd h (hr.not_stuck hs)

/-- A source tokenizes if and only if it can be read from left to right as longest lexemes, and the
tokens are those of that reading. Any other source is refused at the first place where no lexeme
starts, with the message for what stands there; what comes before it tokenizes. -/
theorem tokenize_maximal_munch (source : String) :
    match tokenize source with
    | .ok ts => ∃ pieces, Reads source.toList pieces [] ∧ Tokenized source.toList pieces ts
    | .error e =>
      (¬ ∃ pieces, Reads source.toList pieces []) ∧
        ∃ before after, RefusedAt source.toList before after e := by
  unfold tokenize tokens
  cases h : lexemes 0 source.toList with
  | ok ls =>
    obtain ⟨pieces, hp, rfl⟩ := lexemes_of_ok h
    exact ⟨pieces, hp, tokenized_of_reads hp⟩
  | error fault =>
    obtain ⟨pieces, after, hp, ho, hs, hm⟩ := lexemes_of_error h
    have he := hp.text_eq
    refine ⟨fun ⟨_, hall⟩ => hp.not_stuck hs hall, pieces.flatMap Prod.snd, after, he,
      ⟨pieces, hp⟩, hs, ?_, fault.cause, hm, ?_⟩
    · have ht : Reads (pieces.flatMap Prod.snd) pieces [] := Reads.truncate (he ▸ hp)
      obtain ⟨ts, ht⟩ := tokens_of_reads ht
      exact ⟨ts, by rw [tokenize, String.toList_ofList, ht]; rfl⟩
    · rw [Nat.zero_add] at ho
      change ScanError.lexical (.ofOffset source.toList fault.offset) fault.cause = _
      rw [Position.ofOffset, he, ho, takeBytes_byteLength, Position.after_eq]

end SignalBridge.Source
