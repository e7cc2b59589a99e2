import Mathlib.Data.List.TakeWhile
import SignalBridge.Proofs.Source.NextLexeme

namespace SignalBridge.Source

open Pattern

variable {c : Char} {cs s t taken after : List Char}

theorem length_le_takeWhile {p : Char → Bool} (hs : ∀ x ∈ s, p x) (he : s ++ t = cs) :
    s.length ≤ (cs.takeWhile p).length := by
  rw [← he, List.takeWhile_append_of_pos hs, List.length_append]
  exact Nat.le_add_right _ _

theorem lead_of_keyword {word : Keyword} (h : c :: taken = word.text.toList) :
    Lead.of c = .word := by
  obtain ⟨d, ds, he, hd, -⟩ := keyword_matches_ident h
  obtain ⟨rfl, -⟩ := List.cons.inj he
  exact lead_of_identStart hd

/-- A match is the longest lexeme if no match that begins as it does is longer. -/
theorem isLongest_of_lead {p : Pattern} (hm : p.Matches (c :: taken)) (hs : Lead.of c ≠ .slash)
    (hl : ∀ q : Pattern, q.hasLead (Lead.of c) → ∀ s t, s ++ t = taken ++ after →
      q.Matches (c :: s) → s.length ≤ taken.length)
    (hk : Lead.of c = .word → ∀ word : Keyword, c :: taken = word.text.toList → p = .keyword word) :
    p.IsLongest (c :: taken) after := by
  refine ⟨⟨hm, ?_⟩, ?_, fun word hw => hk (lead_of_keyword hw) word hw⟩
  · rintro ⟨u, hu⟩
    obtain ⟨rfl, -⟩ := List.cons.inj hu
    exact absurd rfl hs
  · intro q s t he hq
    cases s with
    | nil => exact absurd rfl hq.1.ne_nil
    | cons d s =>
      obtain ⟨rfl, hst⟩ := List.cons.inj he
      exact Nat.succ_le_succ (hl q hq.1.hasLead s t hst hq.1)

theorem newline_isLongest : IsLongest .newline ['\n'] after := by
  refine isLongest_of_lead rfl (by decide) ?_ (fun h => absurd h (by decide))
  intro q hq s t _ hm
  cases q with
  | newline => exact Nat.le_of_eq (congrArg List.length (List.cons.inj hm).2)
  | _ => exact absurd hq Bool.false_ne_true

theorem blank_isLongest (hc : Lexeme.isInlineBlank c) :
    IsLongest .blank (c :: cs.takeWhile Lexeme.isInlineBlank)
      (cs.dropWhile Lexeme.isInlineBlank) := by
  have hlead := lead_of_isInlineBlank hc
  have hm : Pattern.Matches .blank (c :: cs.takeWhile Lexeme.isInlineBlank) := by
    refine ⟨List.cons_ne_nil _ _, ?_⟩
    intro d hd
    rcases List.mem_cons.mp hd with rfl | hd
    · exact hc
    · exact List.mem_takeWhile_imp hd
  refine isLongest_of_lead hm (by simp [hlead]) ?_ (by simp [hlead])
  rw [hlead]
  intro q hq s t he hm
  cases q with
  | blank =>
    rw [List.takeWhile_append_dropWhile] at he
    exact length_le_takeWhile (fun d hd => hm.2 d (List.mem_cons_of_mem _ hd)) he
  | _ => exact absurd hq Bool.false_ne_true

theorem digit_isLongest (hc : c.isDigit) :
    IsLongest .number (c :: cs.takeWhile Lexeme.isNumberPart)
      (cs.dropWhile Lexeme.isNumberPart) := by
  have hlead := lead_of_isDigit hc
  have hm : Pattern.Matches .number (c :: cs.takeWhile Lexeme.isNumberPart) :=
    ⟨_, _, rfl, hc, fun d hd => List.mem_takeWhile_imp hd⟩
  refine isLongest_of_lead hm (by simp [hlead]) ?_ (by simp [hlead])
  rw [hlead]
  intro q hq s t he hm
  cases q with
  | number =>
    obtain ⟨d, ds, hd, -, hds⟩ := hm
    obtain ⟨rfl, rfl⟩ := List.cons.inj hd
    rw [List.takeWhile_append_dropWhile] at he
    exact length_le_takeWhile hds he
  | _ => exact absurd hq Bool.false_ne_true

/-- The pattern of a word: its keyword, or an identifier. -/
def wordPattern (word : List Char) : Pattern :=
  match Keyword.ofText? word with
  | some k => .keyword k
  | none => .ident

theorem text_of_ofText? {word : List Char} {k : Keyword} (h : Keyword.ofText? word = some k) :
    k.text.toList = word := by
  simpa using List.find?_some h

theorem ofText?_text (k : Keyword) : Keyword.ofText? k.text.toList = some k := by
  cases k <;> decide

theorem kind_wordPattern (word : List Char) :
    (wordPattern word).kind? word = some (Token.Kind.ofWord word) := by
  unfold wordPattern Token.Kind.ofWord
  cases Keyword.ofText? word <;> rfl

theorem word_isLongest (hc : Lexeme.isIdentStart c) :
    IsLongest (wordPattern (c :: cs.takeWhile Lexeme.isIdentPart))
      (c :: cs.takeWhile Lexeme.isIdentPart) (cs.dropWhile Lexeme.isIdentPart) := by
  have hlead := lead_of_identStart hc
  have hm : (wordPattern (c :: cs.takeWhile Lexeme.isIdentPart)).Matches
      (c :: cs.takeWhile Lexeme.isIdentPart) := by
    unfold wordPattern
    split
    · exact (text_of_ofText? ‹_›).symm
    · exact ⟨_, _, rfl, hc, fun d hd => List.mem_takeWhile_imp hd⟩
  refine isLongest_of_lead hm (by simp [hlead]) ?_ ?_
  · rw [hlead]
    intro q hq s t he hm
    have hm : Pattern.ident.Matches (c :: s) := by
      cases q with
      | ident => exact hm
      | keyword word => exact keyword_matches_ident hm
      | _ => exact absurd hq Bool.false_ne_true
    obtain ⟨d, ds, hd, -, hds⟩ := hm
    obtain ⟨rfl, rfl⟩ := List.cons.inj hd
    rw [List.takeWhile_append_dropWhile] at he
    exact length_le_takeWhile hds he
  · intro _ word hw
    rw [wordPattern, hw, ofText?_text]

theorem quoted_longest {quote : Char} (hq : quote ≠ '\\')
    (h : Lexeme.quoted? quote cs = some (taken, after)) (he : s ++ t = taken ++ after)
    (hm : ∃ body, quote :: s = quote :: (body ++ [quote]) ∧ QuotedBody quote body) :
    s.length ≤ taken.length := by
  obtain ⟨body, hs, hb⟩ := hm
  obtain ⟨-, rfl⟩ := List.cons.inj hs
  have hcs : cs = body ++ quote :: t := by
    rw [← Lexeme.quoted?_append h, ← he, List.append_assoc, List.singleton_append]
  rw [hcs, Lexeme.quoted?_complete hq hb] at h
  simp only [Option.some.injEq, Prod.mk.injEq] at h
  exact Nat.le_of_eq (congrArg List.length h.1)

theorem string_isLongest (h : Lexeme.quoted? '"' cs = some (taken, after)) :
    IsLongest .string ('"' :: taken) after := by
  obtain ⟨body, rfl, hb⟩ := Lexeme.quoted?_body h
  refine isLongest_of_lead ⟨body, rfl, hb⟩ (by decide) ?_ (fun h => absurd h (by decide))
  intro q hq s t he hm
  cases q with
  | string => exact quoted_longest (by decide) h he hm
  | _ => exact absurd hq Bool.false_ne_true

theorem rune_isLongest (h : Lexeme.quoted? '\'' cs = some (taken, after)) :
    IsLongest .rune ('\'' :: taken) after := by
  obtain ⟨body, rfl, hb⟩ := Lexeme.quoted?_body h
  refine isLongest_of_lead ⟨body, rfl, hb⟩ (by decide) ?_ (fun h => absurd h (by decide))
  intro q hq s t he hm
  cases q with
  | rune => exact quoted_longest (by decide) h he hm
  | _ => exact absurd hq Bool.false_ne_true

theorem rawString_isLongest (h : Lexeme.raw? cs = some (taken, after)) :
    IsLongest .rawString (Lexeme.rawQuote :: taken) after := by
  obtain ⟨body, rfl, hb⟩ := Lexeme.raw?_body h
  refine isLongest_of_lead ⟨body, rfl, hb⟩ (by decide) ?_ (fun h => absurd h (by decide))
  intro q hq s t he hm
  cases q with
  | rawString =>
    obtain ⟨body', hs, hb'⟩ := hm
    obtain ⟨-, rfl⟩ := List.cons.inj hs
    have hcs : cs = body' ++ Lexeme.rawQuote :: t := by
      rw [← Lexeme.raw?_append h, ← he, List.append_assoc, List.singleton_append]
    rw [hcs, Lexeme.raw?_complete hb'] at h
    simp only [Option.some.injEq, Prod.mk.injEq] at h
    exact Nat.le_of_eq (congrArg List.length h.1)
  | _ => exact absurd hq Bool.false_ne_true

theorem mark_isLongest {kind : Token.Kind} (hlead : Lead.of c = .mark kind)
    (h : Lexeme.punctuation? c = some kind) :
    ∃ p, IsLongest p [c] after ∧ p.kind? [c] = some kind := by
  have hp : ∃ p : Pattern, p.Matches [c] ∧ p.kind? [c] = some kind := by
    unfold Lexeme.punctuation? at h
    split at h
    case h_11 =>
      split at h
      · rename_i hc
        exact ⟨.op, ⟨c, hc, rfl⟩, h⟩
      · simp at h
    all_goals obtain rfl := Option.some.inj h
    · exact ⟨.opener .round, rfl, rfl⟩
    · exact ⟨.closer .round, rfl, rfl⟩
    · exact ⟨.opener .curly, rfl, rfl⟩
    · exact ⟨.closer .curly, rfl, rfl⟩
    · exact ⟨.opener .square, rfl, rfl⟩
    · exact ⟨.closer .square, rfl, rfl⟩
    · exact ⟨.comma, rfl, rfl⟩
    · exact ⟨.semicolon, rfl, rfl⟩
    · exact ⟨.dot, rfl, rfl⟩
    · exact ⟨.star, rfl, rfl⟩
  obtain ⟨p, hm, hk⟩ := hp
  refine ⟨p, isLongest_of_lead hm (by simp [hlead]) ?_ (by simp [hlead]), hk⟩
  rw [hlead]
  intro q hq s t _ hm
  exact Nat.le_of_succ_le_succ (Nat.le_of_eq (length_of_mark hq hm))

theorem hasLead_slash {q : Pattern} (h : q.hasLead .slash) :
    q = .lineComment ∨ q = .blockComment ∨ q = .op := by
  cases q with
  | lineComment => exact .inl rfl
  | blockComment => exact .inr (.inl rfl)
  | op => exact .inr (.inr rfl)
  | _ => exact absurd h Bool.false_ne_true

theorem length_of_op (h : Pattern.op.Matches s) : s.length = 1 := by
  obtain ⟨d, -, rfl⟩ := h
  rfl

theorem lineComment_isLongest (h : cs.head? = some '/') :
    IsLongest .lineComment ('/' :: cs.takeWhile (· ≠ '\n')) (cs.dropWhile (· ≠ '\n')) := by
  obtain ⟨cs, rfl⟩ : ∃ us, cs = '/' :: us := by
    cases cs with
    | nil => simp at h
    | cons d us => exact ⟨us, by simpa using h⟩
  refine ⟨⟨⟨cs.takeWhile (· ≠ '\n'), by simp, ?_⟩, ?_⟩, ?_, ?_⟩
  · intro hm
    simpa using List.mem_takeWhile_imp hm
  · rintro ⟨u, hu⟩
    simp at hu
  · intro q s t he hq
    rw [List.cons_append, List.takeWhile_append_dropWhile] at he
    cases s with
    | nil => exact absurd rfl hq.1.ne_nil
    | cons d s =>
      obtain ⟨rfl, hst⟩ := List.cons.inj he
      change s ++ t = _ at hst
      refine Nat.succ_le_succ ?_
      rcases hasLead_slash hq.1.hasLead with rfl | rfl | rfl
      · obtain ⟨body, hs, hb⟩ := hq.1
        obtain ⟨-, rfl⟩ := List.cons.inj hs
        refine length_le_takeWhile ?_ hst
        intro x hx
        rcases List.mem_cons.mp hx with rfl | hx
        · rfl
        · simp only [decide_eq_true_eq]
          rintro rfl
          exact hb hx
      · obtain ⟨body, hs, -⟩ := hq.1
        obtain ⟨-, rfl⟩ := List.cons.inj hs
        simp at hst
      · have := length_of_op hq.1
        simp only [List.length_cons] at this
        omega
  · intro word hw
    exact absurd (lead_of_keyword hw) (by decide)

theorem blockComment_isLongest (h : Lexeme.blockComment? cs = some (taken, after)) :
    IsLongest .blockComment ('/' :: '*' :: taken) after := by
  obtain ⟨body, rfl, hb⟩ := Lexeme.blockComment?_body h
  refine ⟨⟨⟨body, rfl, hb⟩, fun _ => rfl⟩, ?_, ?_⟩
  · intro q s t he hq
    obtain rfl := hq.2 ⟨body ++ ['*', '/'] ++ after, by rw [he]; simp⟩
    obtain ⟨body', rfl, hb'⟩ := hq.1
    have hcs : cs = body' ++ '*' :: '/' :: t := by
      simpa [← Lexeme.blockComment?_append h] using he.symm
    rw [hcs, Lexeme.blockComment?_complete hb'] at h
    simp only [Option.some.injEq, Prod.mk.injEq] at h
    simp [congrArg List.length h.1]
  · intro word hw
    exact absurd (lead_of_keyword hw) (by decide)

theorem slash_isLongest (hl : cs.head? ≠ some '/') (hb : cs.head? ≠ some '*') :
    IsLongest .op ['/'] cs := by
  refine ⟨⟨⟨'/', by decide, rfl⟩, ?_⟩, ?_, ?_⟩
  · rintro ⟨u, hu⟩
    obtain rfl : '*' :: u = cs := (List.cons.inj hu).2
    exact absurd rfl hb
  · intro q s t he hq
    cases s with
    | nil => exact absurd rfl hq.1.ne_nil
    | cons d s =>
      obtain ⟨rfl, hst⟩ := List.cons.inj he
      change s ++ t = cs at hst
      rcases hasLead_slash hq.1.hasLead with rfl | rfl | rfl
      · obtain ⟨body, hs, -⟩ := hq.1
        rw [← hst, (List.cons.inj hs).2] at hl
        exact absurd rfl hl
      · obtain ⟨body, hs, -⟩ := hq.1
        rw [← hst, (List.cons.inj hs).2] at hb
        exact absurd rfl hb
      · exact Nat.le_of_eq (length_of_op hq.1)
  · intro word hw
    exact absurd (lead_of_keyword hw) (by decide)

theorem literal_eq_ok {k : Token.Kind} {kind : Option Token.Kind} {missing : LexCause}
    {tail : Option (List Char × List Char)}
    (h : Lexeme.literal k missing tail = .ok (kind, taken, after)) :
    kind = some k ∧ tail = some (taken, after) := by
  cases tail with
  | none => simp [Lexeme.literal] at h
  | some pair =>
    simp only [Lexeme.literal, Except.ok.injEq, Prod.mk.injEq] at h
    obtain ⟨rfl, rfl, rfl⟩ := h
    exact ⟨rfl, rfl⟩

theorem slash_read_isLongest {kind : Option Token.Kind}
    (h : Lead.read .slash '/' cs = .ok (kind, taken, after)) :
    ∃ p, IsLongest p ('/' :: taken) after ∧ p.kind? ('/' :: taken) = kind := by
  by_cases hd : ∃ us, cs = '/' :: us
  · obtain ⟨us, rfl⟩ := hd
    simp only [Lead.read, Except.ok.injEq, Prod.mk.injEq] at h
    obtain ⟨rfl, rfl, rfl⟩ := h
    exact ⟨.lineComment, @lineComment_isLongest ('/' :: us) rfl, rfl⟩
  by_cases hb : ∃ us, cs = '*' :: us
  · obtain ⟨us, rfl⟩ := hb
    simp only [Lead.read] at h
    cases hc : Lexeme.blockComment? us with
    | none => simp [hc] at h
    | some pair =>
      simp only [hc, Except.ok.injEq, Prod.mk.injEq] at h
      obtain ⟨rfl, rfl, rfl⟩ := h
      exact ⟨.blockComment, blockComment_isLongest hc, by simp [kind?]⟩
  rw [Lead.read.eq_5 _ _ (fun us hu => hd ⟨us, hu⟩) (fun us hu => hb ⟨us, hu⟩)] at h
  simp only [Except.ok.injEq, Prod.mk.injEq] at h
  obtain ⟨rfl, rfl, rfl⟩ := h
  refine ⟨.op, slash_isLongest ?_ ?_, rfl⟩
  · exact fun hh => hd (List.head?_eq_some_iff.mp hh)
  · exact fun hh => hb (List.head?_eq_some_iff.mp hh)

/-- What the reader takes is the longest lexeme of a pattern, and has the token of that pattern. -/
theorem next_isLongest {kind : Option Token.Kind}
    (h : Lexeme.next c cs = .ok (kind, taken, after)) :
    ∃ p, IsLongest p (c :: taken) after ∧ p.kind? (c :: taken) = kind := by
  rw [Lexeme.next_eq_read] at h
  have hm := Lead.means_of c
  cases hl : Lead.of c with
  | slash =>
    rw [hl] at h hm
    obtain rfl : c = '/' := hm
    exact slash_read_isLongest h
  | quote =>
    rw [hl] at h hm
    obtain rfl : c = '"' := hm
    obtain ⟨rfl, hq⟩ := literal_eq_ok h
    exact ⟨.string, string_isLongest hq, rfl⟩
  | tick =>
    rw [hl] at h hm
    obtain rfl : c = '\'' := hm
    obtain ⟨rfl, hq⟩ := literal_eq_ok h
    exact ⟨.rune, rune_isLongest hq, rfl⟩
  | rawQuote =>
    rw [hl] at h hm
    obtain rfl : c = Lexeme.rawQuote := hm
    obtain ⟨rfl, hq⟩ := literal_eq_ok h
    exact ⟨.rawString, rawString_isLongest hq, rfl⟩
  | nothing => simp [hl, Lead.read] at h
  | mark k =>
    rw [hl] at h hm
    cases h
    exact mark_isLongest hl hm
  | newline =>
    rw [hl] at h hm
    cases h
    obtain rfl : c = '\n' := hm
    exact ⟨.newline, newline_isLongest, rfl⟩
  | blank =>
    rw [hl] at h hm
    cases h
    exact ⟨.blank, blank_isLongest hm, rfl⟩
  | digit =>
    rw [hl] at h hm
    cases h
    exact ⟨.number, digit_isLongest hm, rfl⟩
  | word =>
    rw [hl] at h hm
    cases h
    exact ⟨_, word_isLongest hm, kind_wordPattern _⟩

/-- The message for a place where no lexeme starts. -/
def refusal : List Char → String
  | '/' :: '*' :: _ => "unterminated block comment"
  | '"' :: _ => "unterminated string literal"
  | '\x60' :: _ => "unterminated raw string literal"
  | '\'' :: _ => "malformed rune literal"
  | c :: _ => "unexpected character " ++ Text.quoteChar c
  | [] => ""

/-- The tail of a literal is missing, so no text closes it. -/
theorem not_quoted {quote : Char} (hq : quote ≠ '\\') (h : Lexeme.quoted? quote cs = none)
    (he : s ++ t = cs) :
    ¬ ∃ body, quote :: s = quote :: (body ++ [quote]) ∧ QuotedBody quote body := by
  rintro ⟨body, hs, hb⟩
  obtain ⟨-, rfl⟩ := List.cons.inj hs
  rw [← he, List.append_assoc, List.singleton_append, Lexeme.quoted?_complete hq hb] at h
  cases h

theorem not_raw (h : Lexeme.raw? cs = none) (he : s ++ t = cs) :
    ¬ Pattern.rawString.Matches (Lexeme.rawQuote :: s) := by
  rintro ⟨body, hs, hb⟩
  obtain ⟨-, rfl⟩ := List.cons.inj hs
  rw [← he, List.append_assoc, List.singleton_append, Lexeme.raw?_complete hb] at h
  cases h

theorem not_blockComment (h : Lexeme.blockComment? cs = none) (he : s ++ t = '*' :: cs) :
    ¬ Pattern.blockComment.Matches ('/' :: s) := by
  rintro ⟨body, hs, hb⟩
  obtain ⟨-, rfl⟩ := List.cons.inj hs
  obtain ⟨-, he⟩ := List.cons.inj he
  have hcs : cs = body ++ '*' :: '/' :: t := by simp [← he]
  rw [hcs, Lexeme.blockComment?_complete hb] at h
  cases h

theorem literal_eq_error {k : Token.Kind} {cause missing : LexCause}
    {tail : Option (List Char × List Char)}
    (h : Lexeme.literal k missing tail = .error cause) : cause = missing ∧ tail = none := by
  cases tail with
  | none => exact ⟨(Except.error.inj h).symm, rfl⟩
  | some pair => simp [Lexeme.literal] at h

theorem slash_read_refuses {cause : LexCause} (h : Lead.read .slash '/' cs = .error cause) :
    ∃ us, cs = '*' :: us ∧ Lexeme.blockComment? us = none ∧ cause = .unterminatedComment := by
  by_cases hd : ∃ us, cs = '/' :: us
  · obtain ⟨us, rfl⟩ := hd
    simp [Lead.read] at h
  by_cases hb : ∃ us, cs = '*' :: us
  · obtain ⟨us, rfl⟩ := hb
    simp only [Lead.read] at h
    cases hc : Lexeme.blockComment? us with
    | some pair => simp [hc] at h
    | none =>
      simp only [hc, Except.error.injEq] at h
      exact ⟨us, rfl, hc, h.symm⟩
  rw [Lead.read.eq_5 _ _ (fun us hu => hd ⟨us, hu⟩) (fun us hu => hb ⟨us, hu⟩)] at h
  cases h

/-- Only a pattern with the lead of the first character starts there. -/
theorem not_starts_of_lead (h : ∀ q : Pattern, q.hasLead (Lead.of c) → ∀ s t, s ++ t = cs →
    ¬ Pattern.Starts q (c :: s) t) :
    ∀ p s t, s ++ t = c :: cs → ¬ Pattern.Starts p s t := by
  intro p s t he hp
  cases s with
  | nil => exact hp.1.ne_nil rfl
  | cons d s =>
    obtain ⟨rfl, hst⟩ := List.cons.inj he
    exact h p hp.1.hasLead s t hst hp

theorem refusal_of_nothing (h : Lead.of c = .nothing) :
    refusal (c :: cs) = "unexpected character " ++ Text.quoteChar c := by
  have hn : ∀ d, Lead.of d ≠ .nothing → c ≠ d := by
    rintro d hd rfl
    exact hd h
  rw [refusal.eq_5]
  · rintro us rfl
    exact absurd rfl (hn '/' (by decide))
  · exact hn '"' (by decide)
  · exact hn '\x60' (by decide)
  · exact hn '\'' (by decide)

/-- Where the reader fails no lexeme starts, and the message is the one for what stands there. -/
theorem next_refuses {cause : LexCause} (h : Lexeme.next c cs = .error cause) :
    (∀ p s t, s ++ t = c :: cs → ¬ Pattern.Starts p s t) ∧ cause.message = refusal (c :: cs) := by
  rw [Lexeme.next_eq_read] at h
  have hm := Lead.means_of c
  refine ⟨not_starts_of_lead ?_, ?_⟩
  · intro q hlead s t he hs
    cases hl : Lead.of c with
    | slash =>
      rw [hl] at h hm
      obtain rfl : c = '/' := hm
      obtain ⟨us, rfl, hc, -⟩ := slash_read_refuses h
      obtain rfl := hs.2 ⟨us, (congrArg (List.cons '/') he).symm⟩
      exact not_blockComment hc he hs.1
    | quote =>
      rw [hl] at h hm hlead
      obtain rfl : c = '"' := hm
      cases q with
      | string => exact not_quoted (by decide) (literal_eq_error h).2 he hs.1
      | _ => exact Bool.false_ne_true hlead
    | tick =>
      rw [hl] at h hm hlead
      obtain rfl : c = '\'' := hm
      cases q with
      | rune => exact not_quoted (by decide) (literal_eq_error h).2 he hs.1
      | _ => exact Bool.false_ne_true hlead
    | rawQuote =>
      rw [hl] at h hm hlead
      obtain rfl : c = Lexeme.rawQuote := hm
      cases q with
      | rawString => exact not_raw (literal_eq_error h).2 he hs.1
      | _ => exact Bool.false_ne_true hlead
    | nothing =>
      rw [hl] at hlead
      cases q <;> exact Bool.false_ne_true hlead
    | newline | blank | word | digit | mark k => simp [hl, Lead.read] at h
  · cases hl : Lead.of c with
    | slash =>
      rw [hl] at h hm
      obtain rfl : c = '/' := hm
      obtain ⟨us, rfl, -, rfl⟩ := slash_read_refuses h
      rfl
    | quote | tick | rawQuote =>
      rw [hl] at h hm
      rw [(literal_eq_error h).1, show c = _ from hm]
      rfl
    | nothing =>
      rw [hl] at h
      obtain rfl := Except.error.inj h
      exact (refusal_of_nothing hl).symm
    | newline | blank | word | digit | mark k => simp [hl, Lead.read] at h

end SignalBridge.Source
