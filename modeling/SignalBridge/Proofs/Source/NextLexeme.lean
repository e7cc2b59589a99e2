import SignalBridge.Proofs.Source.Pattern

/-!
What `Lexeme.next` reads is the longest lexeme of the token grammar, and where it fails no lexeme
starts. Each reader of one literal is compared with its pattern first; then the first character
tells which patterns are left.
-/

namespace SignalBridge.Source

variable {c : Char} {cs s t taken body after : List Char}

namespace Lexeme

theorem blockComment?_body (h : blockComment? cs = some (taken, after)) :
    ∃ body, taken = body ++ ['*', '/'] ∧ ¬ ['*', '/'] <:+: body := by
  fun_induction blockComment? cs generalizing taken with
  | case1 cs =>
    simp only [Option.some.injEq, Prod.mk.injEq] at h
    exact ⟨[], h.1.symm, by simp⟩
  | case2 c cs hn ih =>
    obtain ⟨⟨b, a⟩, hb, he⟩ := Option.map_eq_some_iff.1 h
    simp only [Prod.mk.injEq] at he
    obtain ⟨rfl, rfl⟩ := he
    obtain ⟨body, rfl, hi⟩ := ih hb
    refine ⟨c :: body, rfl, ?_⟩
    intro hc
    rcases List.infix_cons_iff.mp hc with ⟨u, hu⟩ | hc
    · obtain ⟨rfl, rfl⟩ := List.cons.inj hu
      exact hn _ rfl (blockComment?_append hb).symm
    · exact hi hc
  | case3 => simp at h

/-- The reader stops at the first end of the comment. -/
theorem blockComment?_complete (h : ¬ ['*', '/'] <:+: body) :
    blockComment? (body ++ '*' :: '/' :: after) = some (body ++ ['*', '/'], after) := by
  induction body with
  | nil => rfl
  | cons c body ih =>
    have hb := ih fun hi => h (List.infix_cons hi)
    have hn : ∀ u, c = '*' → body ++ '*' :: '/' :: after = '/' :: u → False := by
      rintro u rfl hu
      cases body with
      | nil => simp at hu
      | cons d body =>
        obtain ⟨rfl, -⟩ := List.cons.inj hu
        exact h (List.prefix_append ['*', '/'] body).isInfix
    rw [List.cons_append, blockComment?.eq_2 _ _ hn, hb]
    rfl

theorem quoted?_body {quote : Char} (h : quoted? quote cs = some (taken, after)) :
    ∃ body, taken = body ++ [quote] ∧ QuotedBody quote body := by
  fun_induction quoted? quote cs generalizing taken with
  | case1 => simp at h
  | case2 => simp at h
  | case3 c cs hc ih =>
    obtain ⟨⟨b, a⟩, hb, he⟩ := Option.map_eq_some_iff.1 h
    simp only [Prod.mk.injEq] at he
    obtain ⟨rfl, rfl⟩ := he
    obtain ⟨body, rfl, hbody⟩ := ih hb
    exact ⟨'\\' :: c :: body, rfl, .escape hc hbody⟩
  | case4 =>
    simp only [Option.some.injEq, Prod.mk.injEq] at h
    exact ⟨[], h.1.symm, .nil⟩
  | case5 => simp at h
  | case6 c cs _ hc hn ih =>
    obtain ⟨⟨b, a⟩, hb, he⟩ := Option.map_eq_some_iff.1 h
    simp only [Prod.mk.injEq] at he
    obtain ⟨rfl, rfl⟩ := he
    obtain ⟨body, rfl, hbody⟩ := ih hb
    simp only [Bool.or_eq_true, decide_eq_true_eq, not_or] at hn
    exact ⟨c :: body, rfl, .plain hc hn.2 hn.1 hbody⟩

theorem quoted?_complete {quote : Char} (hq : quote ≠ '\\') (h : QuotedBody quote body) :
    quoted? quote (body ++ quote :: after) = some (body ++ [quote], after) := by
  induction h with
  | nil =>
    rw [List.nil_append, quoted?.eq_3 _ _ _ (by intro c cs he; exact absurd he hq)]
    simp
  | @plain c cs hc hs hn _ ih =>
    rw [List.cons_append, quoted?.eq_3 _ _ _ (by intro c' cs' he; exact absurd he hs)]
    simp [hc, hs, hn, ih]
  | @escape c cs hn _ ih =>
    rw [List.cons_append, List.cons_append, quoted?.eq_2]
    simp [hn, ih]

theorem raw?_body (h : raw? cs = some (taken, after)) :
    ∃ body, taken = body ++ [rawQuote] ∧ rawQuote ∉ body := by
  fun_induction raw? cs generalizing taken with
  | case1 => simp at h
  | case2 =>
    simp only [Option.some.injEq, Prod.mk.injEq] at h
    exact ⟨[], h.1.symm, by simp⟩
  | case3 c cs hc ih =>
    obtain ⟨⟨b, a⟩, hb, he⟩ := Option.map_eq_some_iff.1 h
    simp only [Prod.mk.injEq] at he
    obtain ⟨rfl, rfl⟩ := he
    obtain ⟨body, rfl, hbody⟩ := ih hb
    exact ⟨c :: body, rfl, by simp [Ne.symm hc, hbody]⟩

theorem raw?_complete (h : rawQuote ∉ body) :
    raw? (body ++ rawQuote :: after) = some (body ++ [rawQuote], after) := by
  induction body with
  | nil => simp [raw?]
  | cons c body ih =>
    simp only [List.mem_cons, not_or] at h
    simp [raw?, Ne.symm h.1, ih h.2]

end Lexeme

/-- What the first character of a lexeme tells of its pattern. -/
inductive Lead where
  | newline
  | blank
  | slash
  | quote
  | tick
  | rawQuote
  | word
  | digit
  /-- A token of one character. -/
  | mark (kind : Token.Kind)
  | nothing
deriving DecidableEq

def Lead.of (c : Char) : Lead :=
  if c = '\n' then newline
  else if Lexeme.isInlineBlank c then blank
  else if c = '/' then slash
  else if c = '"' then quote
  else if c = '\'' then tick
  else if c = Lexeme.rawQuote then rawQuote
  else if Lexeme.isIdentStart c then word
  else if c.isDigit then digit
  else
    match Lexeme.punctuation? c with
    | some kind => mark kind
    | none => nothing

namespace Lead

/-- The characters with a lead. -/
def Means (c : Char) : Lead → Prop
  | newline => c = '\n'
  | blank => Lexeme.isInlineBlank c
  | slash => c = '/'
  | quote => c = '"'
  | tick => c = '\''
  | rawQuote => c = Lexeme.rawQuote
  | word => Lexeme.isIdentStart c
  | digit => c.isDigit
  | mark kind => Lexeme.punctuation? c = some kind
  | nothing => Lexeme.punctuation? c = none

theorem means_of (c : Char) : (Lead.of c).Means c := by
  unfold Lead.of
  repeat' split
  all_goals assumption

/-- The lexeme that starts with `c`, where `c` has the lead. -/
def read : Lead → Char → List Char → Except LexCause (Option Token.Kind × List Char × List Char)
  | newline, _, cs => .ok (some .newline, [], cs)
  | blank, _, cs =>
    .ok (none, cs.takeWhile Lexeme.isInlineBlank, cs.dropWhile Lexeme.isInlineBlank)
  | slash, _, '/' :: cs => .ok (none, '/' :: cs.takeWhile (· ≠ '\n'), cs.dropWhile (· ≠ '\n'))
  | slash, _, '*' :: cs =>
    match Lexeme.blockComment? cs with
    | some (body, after) =>
      .ok (if '\n' ∈ body then some .newline else none, '*' :: body, after)
    | none => .error .unterminatedComment
  | slash, _, cs => .ok (some .op, [], cs)
  | quote, _, cs => Lexeme.literal .string .unterminatedString (Lexeme.quoted? '"' cs)
  | tick, _, cs => Lexeme.literal .rune .malformedRune (Lexeme.quoted? '\'' cs)
  | rawQuote, _, cs => Lexeme.literal .rawString .unterminatedRawString (Lexeme.raw? cs)
  | word, c, cs =>
    .ok (some (.ofWord (c :: cs.takeWhile Lexeme.isIdentPart)), cs.takeWhile Lexeme.isIdentPart,
      cs.dropWhile Lexeme.isIdentPart)
  | digit, _, cs =>
    .ok (some .number, cs.takeWhile Lexeme.isNumberPart, cs.dropWhile Lexeme.isNumberPart)
  | mark kind, _, cs => .ok (some kind, [], cs)
  | nothing, c, _ => .error (.unexpected c)

end Lead

/-- The first character settles which way the reader goes. -/
theorem Lexeme.next_eq_read (c : Char) (cs : List Char) :
    Lexeme.next c cs = (Lead.of c).read c cs := by
  by_cases hs : c = '/'
  · subst hs
    unfold Lexeme.next
    cases cs with
    | nil => rfl
    | cons d cs =>
      by_cases hd : d = '/'
      · subst hd
        simp [Lead.of, Lead.read, isInlineBlank]
      · by_cases hb : d = '*'
        · subst hb
          rfl
        · simp [Lead.of, Lead.read, isInlineBlank, hd, hb]
          rfl
  · unfold Lexeme.next Lead.of
    simp only [hs, false_and, ↓reduceIte]
    repeat' split
    all_goals first | rfl | simp_all [Lead.read]

namespace Pattern

def hasLead : Pattern → Lead → Bool
  | blank, .blank => true
  | lineComment, .slash => true
  | blockComment, .slash => true
  | newline, .newline => true
  | keyword _, .word => true
  | ident, .word => true
  | number, .digit => true
  | string, .quote => true
  | rune, .tick => true
  | rawString, .rawQuote => true
  | opener d, .mark kind => kind = .opener d
  | closer d, .mark kind => kind = .closer d
  | comma, .mark kind => kind = .comma
  | semicolon, .mark kind => kind = .semicolon
  | dot, .mark kind => kind = .dot
  | star, .mark kind => kind = .star
  | op, .mark kind => kind = .op
  | op, .slash => true
  | _, _ => false

theorem keyword_matches_ident {word : Keyword} {text : List Char}
    (h : (keyword word).Matches text) : ident.Matches text := by
  subst h
  cases word <;> exact ⟨_, _, rfl, rfl, List.all_eq_true.mp rfl⟩

theorem lead_of_isInlineBlank (h : Lexeme.isInlineBlank c) : Lead.of c = .blank := by
  have hc : c ≠ '\n' := by
    rintro rfl
    simp [Lexeme.isInlineBlank] at h
  simp [Lead.of, hc, h]

/-- No letter or underscore is read as anything but the start of a word. -/
theorem lead_of_identStart (h : Lexeme.isIdentStart c) : Lead.of c = .word := by
  have hn : ∀ d, Lexeme.isIdentStart d = false → c ≠ d := by
    rintro d hd rfl
    simp [hd] at h
  have hb : Lexeme.isInlineBlank c = false := by
    simp [Lexeme.isInlineBlank, hn ' ' rfl, hn '\t' rfl, hn '\r' rfl, hn '\x0c' rfl]
  simp [Lead.of, hn '\n' rfl, hb, hn '/' rfl, hn '"' rfl, hn '\'' rfl, hn Lexeme.rawQuote rfl, h]

theorem isAlpha_iff : c.isAlpha ↔
    65 ≤ c.toNat ∧ c.toNat ≤ 90 ∨ 97 ≤ c.toNat ∧ c.toNat ≤ 122 := by
  change (decide ('A'.val ≤ c.val ∧ c.val ≤ 'Z'.val) ||
    (decide ('a'.val ≤ c.val) && decide (c.val ≤ 'z'.val))) = true ↔ _
  simp only [Bool.or_eq_true, Bool.and_eq_true, decide_eq_true_eq, UInt32.le_iff_toNat_le]
  rfl

theorem not_identStart_of_isDigit (h : c.isDigit) : Lexeme.isIdentStart c = false := by
  have hd : 48 ≤ c.toNat ∧ c.toNat ≤ 57 := Char.isDigit_iff_toNat.mp h
  have ha : c.isAlpha = false := by
    rw [Bool.eq_false_iff, Ne, isAlpha_iff]
    omega
  have hl : c.toNat < 0x80 := by omega
  have hc : c ≠ '_' := by
    rintro rfl
    simp at h
  simp [Lexeme.isIdentStart, Text.isLetter, hl, ha, hc]

theorem lead_of_isDigit (h : c.isDigit) : Lead.of c = .digit := by
  have hn : ∀ d, d.isDigit = false → c ≠ d := by
    rintro d hd rfl
    simp [hd] at h
  have hb : Lexeme.isInlineBlank c = false := by
    simp [Lexeme.isInlineBlank, hn ' ' rfl, hn '\t' rfl, hn '\r' rfl, hn '\x0c' rfl]
  simp [Lead.of, hn '\n' rfl, hb, hn '/' rfl, hn '"' rfl, hn '\'' rfl, hn Lexeme.rawQuote rfl,
    not_identStart_of_isDigit h, h]

theorem Matches.hasLead {p : Pattern} (h : p.Matches (c :: s)) : p.hasLead (Lead.of c) := by
  cases p with
  | blank =>
    rw [lead_of_isInlineBlank (h.2 c List.mem_cons_self)]
    rfl
  | keyword word =>
    obtain ⟨d, ds, he, hd, -⟩ := keyword_matches_ident h
    obtain ⟨rfl, -⟩ := List.cons.inj he
    rw [lead_of_identStart hd]
    rfl
  | ident =>
    obtain ⟨d, ds, he, hd, -⟩ := h
    obtain ⟨rfl, -⟩ := List.cons.inj he
    rw [lead_of_identStart hd]
    rfl
  | number =>
    obtain ⟨d, ds, he, hd, -⟩ := h
    obtain ⟨rfl, -⟩ := List.cons.inj he
    rw [lead_of_isDigit hd]
    rfl
  | opener d =>
    obtain ⟨rfl, -⟩ := List.cons.inj h
    cases d <;> rfl
  | closer d =>
    obtain ⟨rfl, -⟩ := List.cons.inj h
    cases d <;> rfl
  | op =>
    obtain ⟨d, hd, he⟩ := h
    obtain ⟨rfl, -⟩ := List.cons.inj he
    exact List.all_eq_true.mp (by decide : opChars.all (op.hasLead <| Lead.of ·) = true) c hd
  | lineComment | blockComment | string | rune | rawString =>
    obtain ⟨body, he, -⟩ := h
    obtain ⟨rfl, -⟩ := List.cons.inj he
    rfl
  | newline | comma | semicolon | dot | star =>
    obtain ⟨rfl, -⟩ := List.cons.inj h
    rfl

/-- A token that its first character settles is that character. -/
theorem length_of_mark {p : Pattern} {kind : Token.Kind} (hp : p.hasLead (.mark kind))
    (h : p.Matches s) : s.length = 1 := by
  cases p with
  | op =>
    obtain ⟨d, -, rfl⟩ := h
    rfl
  | opener d | closer d | comma | semicolon | dot | star =>
    obtain rfl := h
    rfl
  | _ => exact absurd hp (by simp [hasLead])

end Pattern

end SignalBridge.Source
