import SignalBridge.Json.Printer
import SignalBridge.Proofs.Json.Tokens

namespace SignalBridge.Json

namespace Token

variable {cs ds tail rest : List Char} {ps : List Piece}

/-! Strings. -/

theorem pieces?_plain {c : Char} (hq : c ≠ '"') (hb : c ≠ '\\') (hc : ¬ c.toNat < 0x20)
    (h : pieces? cs = some (ps, rest)) : pieces? (c :: cs) = some (.char c :: ps, rest) := by
  rw [pieces?]
  · simp [hq, hb, hc, h]
  · rintro _ _ _ _ _ rfl
    exact absurd rfl hb
  · rintro _ _ rfl
    exact absurd rfl hb

theorem hexNumber?_control : ∀ n < 0x20,
    hexNumber? ['0', '0', Nat.digitChar (n / 16), Nat.digitChar (n % 16)] = some n := by
  decide

theorem pieces?_control {c : Char} (hc : c.toNat < 0x20) (h : pieces? cs = some (ps, rest)) :
    pieces? ('\\' :: 'u' :: '0' :: '0' :: Nat.digitChar (c.toNat / 16) ::
      Nat.digitChar (c.toNat % 16) :: cs) = some (.char c :: ps, rest) := by
  have hunit : Piece.ofUnit c.toNat = .char c := by
    rw [Piece.ofUnit, if_neg (by omega), Char.ofNat_toNat]
  simp [pieces?, hexNumber?_control c.toNat hc, h, hunit]

theorem pieces?_escapeChar (c : Char) (h : pieces? cs = some (ps, rest)) :
    pieces? (escapeChar c ++ cs) = some (.char c :: ps, rest) := by
  unfold escapeChar
  split
  case h_8 hq hb _ _ _ _ _ =>
    split
    · exact pieces?_control ‹_› h
    · exact pieces?_plain hq hb ‹_› h
  all_goals simp [pieces?, shortEscape?, h]

theorem pieces?_escaped (cs rest : List Char) :
    pieces? (cs.flatMap escapeChar ++ '"' :: rest) = some (cs.map .char, rest) := by
  induction cs with
  | nil => simp [pieces?]
  | cons c cs ih =>
    rw [List.flatMap_cons, List.append_assoc]
    exact pieces?_escapeChar c ih

theorem joinPieces?_chars (cs : List Char) : joinPieces? (cs.map .char) = some cs := by
  induction cs with
  | nil => rfl
  | cons c cs ih => simp [joinPieces?, ih]

theorem next?_quote (cs : List Char) : next? ('"' :: cs) =
    (pieces? cs).map fun (ps, rest) => (string ((joinPieces? ps).map String.ofList), rest) := rfl

theorem next?_quoted (content : Option String) (rest : List Char) :
    next? (quoted content ++ rest) = some (string content, rest) := by
  cases content with
  | none => rfl
  | some s =>
    have hq : quoted (some s) ++ rest = '"' :: (s.toList.flatMap escapeChar ++ '"' :: rest) := by
      change '"' :: (s.toList.flatMap escapeChar ++ ['"'] ++ rest) = _
      rw [List.append_assoc, List.singleton_append]
    rw [hq, next?_quote, pieces?_escaped]
    simp only [Option.map_some, joinPieces?_chars, String.ofList_toList]

/-! Numbers. -/

/-- What goes on with some number. -/
def isNumberPart (c : Char) : Bool :=
  c.isDigit || c = '.' || c = 'e' || c = 'E'

/-- A number may end before this text. -/
def EndsNumber (rest : List Char) : Prop :=
  ∀ c ∈ rest.head?, isNumberPart c = false

theorem EndsNumber.head (h : EndsNumber rest) {c : Char} (hc : isNumberPart c) :
    rest.head? ≠ some c := by
  intro hr
  rw [h c hr] at hc
  cases hc

/-- No digit comes next. -/
def NoDigit (rest : List Char) : Prop :=
  ∀ c ∈ rest.head?, c.isDigit = false

theorem NoDigit.takeWhile (h : NoDigit rest) : rest.takeWhile Char.isDigit = [] := by
  cases rest with
  | nil => rfl
  | cons c cs => rw [List.takeWhile_cons_of_neg (by simp [h c rfl])]

theorem EndsNumber.takeWhile (h : EndsNumber rest) : rest.takeWhile Char.isDigit = [] := by
  have hdigit : NoDigit rest := by
    intro c hc
    have hpart := h c hc
    simp only [isNumberPart, Bool.or_eq_false_iff] at hpart
    exact hpart.1.1.1
  exact hdigit.takeWhile

theorem EndsNumber.dropWhile (h : EndsNumber rest) : rest.dropWhile Char.isDigit = rest := by
  have := List.takeWhile_append_dropWhile (p := Char.isDigit) (l := rest)
  rwa [h.takeWhile, List.nil_append] at this

theorem digits?_append (hr : EndsNumber rest) (h : digits? cs = some (ds, tail)) :
    digits? (cs ++ rest) = some (ds, tail ++ rest) := by
  have htake : (cs ++ rest).takeWhile Char.isDigit = cs.takeWhile Char.isDigit := by
    rw [List.takeWhile_append, hr.takeWhile, List.append_nil]
    split
    · exact (List.takeWhile_prefix _).eq_of_length ‹_› |>.symm
    · rfl
  have hdrop : (cs ++ rest).dropWhile Char.isDigit = cs.dropWhile Char.isDigit ++ rest := by
    rw [List.dropWhile_append, hr.dropWhile]
    split
    · rename_i hd
      rw [List.isEmpty_iff.mp hd, List.nil_append]
    · rfl
  unfold digits? at h ⊢
  rw [htake, hdrop]
  split at h
  · cases h
  · cases h
    rw [if_neg ‹_›]

theorem integer?_append (hr : EndsNumber rest) (h : integer? cs = some (ds, tail)) :
    integer? (cs ++ rest) = some (ds, tail ++ rest) := by
  cases cs with
  | nil => cases h
  | cons c cs =>
    by_cases hc : c = '0'
    · subst hc
      cases h
      rfl
    · rw [integer?.eq_2 _ (by simp [hc])] at h
      rw [List.cons_append, integer?.eq_2 _ (by simp [hc])]
      exact digits?_append hr h

theorem fraction?_append (hr : EndsNumber rest) (h : fraction? cs = some (ds, tail)) :
    fraction? (cs ++ rest) = some (ds, tail ++ rest) := by
  cases cs with
  | nil =>
    cases h
    exact fraction?.eq_2 rest fun _ he => @EndsNumber.head rest hr '.' rfl (congrArg List.head? he)
  | cons c cs =>
    by_cases hc : c = '.'
    · subst hc
      obtain ⟨⟨ds', tail'⟩, hd, he⟩ := Option.map_eq_some_iff.mp h
      cases he
      rw [List.cons_append, fraction?, digits?_append hr hd]
      rfl
    · rw [fraction?.eq_2 _ (by simp [hc])] at h
      cases h
      rw [List.cons_append, fraction?.eq_2 _ (by simp [hc])]

theorem exponentSign_append (h : digits? (exponentSign cs).2 = some (ds, tail)) :
    exponentSign (cs ++ rest) = ((exponentSign cs).1, (exponentSign cs).2 ++ rest) := by
  cases cs with
  | nil => cases h
  | cons c cs =>
    by_cases hp : c = '+'
    · subst hp
      rfl
    by_cases hm : c = '-'
    · subst hm
      rfl
    rw [List.cons_append, exponentSign.eq_3 _ (by simp [hp]) (by simp [hm]),
      exponentSign.eq_3 _ (by simp [hp]) (by simp [hm])]
    rfl

theorem exponent?_append (hr : EndsNumber rest) (h : exponent? cs = some (ds, tail)) :
    exponent? (cs ++ rest) = some (ds, tail ++ rest) := by
  cases cs with
  | nil =>
    cases h
    cases rest with
    | nil => rfl
    | cons c rest =>
      have hc := hr c rfl
      simp only [isNumberPart, Bool.or_eq_false_iff, decide_eq_false_iff_not] at hc
      rw [List.nil_append, exponent?, if_neg (by simp [hc])]
  | cons c cs =>
    rw [exponent?] at h
    rw [List.cons_append, exponent?]
    split at h
    · rename_i hc
      obtain ⟨⟨ds', tail'⟩, hd, he⟩ := Option.map_eq_some_iff.mp h
      cases he
      rw [if_pos hc, exponentSign_append hd, digits?_append hr hd]
      rfl
    · rename_i hc
      cases h
      rw [if_neg hc, List.cons_append]

/-- The parts of a number behind its sign, and what follows. -/
def unsigned? (sign cs : List Char) : Option (List Char × List Char) := do
  let (whole, cs) ← integer? cs
  let (fraction, cs) ← fraction? cs
  let (exponent, cs) ← exponent? cs
  return (sign ++ whole ++ fraction ++ exponent, cs)

theorem number?_of_head (h : cs.head? ≠ some '-') : number? cs = unsigned? [] cs := by
  rw [number?]
  · rfl
  · rintro cs rfl
    exact h rfl

theorem unsigned?_append {sign : List Char} (hr : EndsNumber rest)
    (h : unsigned? sign cs = some (ds, tail)) :
    unsigned? sign (cs ++ rest) = some (ds, tail ++ rest) := by
  simp only [unsigned?, Option.bind_eq_bind, Option.bind_eq_some_iff, Option.pure_def,
    Option.some.injEq, Prod.mk.injEq] at h ⊢
  obtain ⟨⟨whole, cs₁⟩, h₁, ⟨fraction, cs₂⟩, h₂, ⟨exponent, cs₃⟩, h₃, rfl, rfl⟩ := h
  exact ⟨_, integer?_append hr h₁, _, fraction?_append hr h₂, _, exponent?_append hr h₃, rfl, rfl⟩

/-- A number is read the same whatever follows, if it may end there. -/
theorem number?_append (hr : EndsNumber rest) (h : number? cs = some (ds, tail)) :
    number? (cs ++ rest) = some (ds, tail ++ rest) := by
  cases cs with
  | nil => cases h
  | cons c cs =>
    by_cases hc : c = '-'
    · subst hc
      have hd : unsigned? ['-'] cs = some (ds, tail) := h
      exact unsigned?_append hr hd
    · rw [number?_of_head (by simp [hc])] at h
      rw [number?_of_head (by simp [hc])]
      exact unsigned?_append hr h

/-- A text that is a number and nothing else. -/
def IsNumber (literal : String) : Prop :=
  number? literal.toList = some (literal.toList, [])

/-- A number starts with a digit or its sign. -/
theorem IsNumber.head {literal : String} (h : IsNumber literal) :
    ∃ c cs, literal.toList = c :: cs ∧ (c = '-' ∨ c.isDigit) := by
  unfold IsNumber at h
  generalize literal.toList = cs at h
  cases cs with
  | nil => cases h
  | cons c cs =>
    refine ⟨c, cs, rfl, ?_⟩
    by_cases hm : c = '-'
    · exact .inl hm
    rw [number?_of_head (by simp [hm])] at h
    simp only [unsigned?, Option.bind_eq_bind, Option.bind_eq_some_iff] at h
    obtain ⟨_, hw, -⟩ := h
    by_cases hz : c = '0'
    · exact .inr (hz ▸ rfl)
    rw [integer?.eq_2 _ (by simp [hz]), digits?] at hw
    cases hd : c.isDigit with
    | true => exact .inr rfl
    | false => simp [hd] at hw

theorem next?_of_head {c : Char} (h : c = '-' ∨ c.isDigit) : next? (c :: cs) =
    (number? (c :: cs)).map fun (literal, rest) => (number (String.ofList literal), rest) := by
  have hne : ∀ d : Char, (d = '-' ∨ d.isDigit) = false → c ≠ d := by
    rintro d hd rfl
    simp [h] at hd
  rw [next?.eq_11] <;> simp [hne]

theorem next?_number {literal : String} (h : IsNumber literal) (hr : EndsNumber rest) :
    next? (literal.toList ++ rest) = some (number literal, rest) := by
  have hn := number?_append hr h
  obtain ⟨c, cs, hl, hc⟩ := h.head
  rw [hl, List.cons_append] at hn ⊢
  rw [next?_of_head hc, hn, ← hl]
  simp only [Option.map_some, String.ofList_toList, List.nil_append]

end Token

/-- Every number in the value is written as one. -/
inductive WellWritten : Json → Prop where
  | null : WellWritten .null
  | bool (b : Bool) : WellWritten (.bool b)
  | number {literal : String} (h : Token.IsNumber literal) : WellWritten (.number literal)
  | string (content : Option String) : WellWritten (.string content)
  | array {items : List Json} (h : ∀ v ∈ items, WellWritten v) : WellWritten (.array items)
  | object {entries : List (Option String × Json)} (h : ∀ e ∈ entries, WellWritten e.2) :
      WellWritten (.object entries)

section Texts

variable {text text' : List Char} {ts ts' : List Token} {t : Token} {c : Char} {level : Nat}

open Token (EndsNumber isBlank next? isNumberPart)

theorem endsNumber_cons (h : isNumberPart c = false) (cs : List Char) : EndsNumber (c :: cs) := by
  intro d hd
  cases hd
  exact h

theorem tokens?_blank (h : isBlank c) (cs : List Char) : tokens? (c :: cs) = tokens? cs := by
  rw [tokens?, if_pos h]

theorem tokens?_next {cs rest : List Char} (hc : isBlank c = false)
    (h : next? (c :: cs) = some (t, rest)) :
    tokens? (c :: cs) = (tokens? rest).map (t :: ·) := by
  rw [tokens?, if_neg (by simp [hc])]
  split
  · rename_i hn
    rw [h] at hn
    cases hn
  · rename_i hn
    rw [h] at hn
    cases hn
    rfl

/-- Before anything that may follow, the text is read as these tokens. -/
def Writes (ts : List Token) (text : List Char) : Prop :=
  ∀ rest, EndsNumber rest → tokens? (text ++ rest) = (tokens? rest).map (ts ++ ·)

theorem writes_nil : Writes [] [] := by
  intro rest _
  simp

theorem Writes.append (h : Writes ts text) (h' : Writes ts' text')
    (he : ∀ rest, EndsNumber rest → EndsNumber (text' ++ rest)) :
    Writes (ts ++ ts') (text ++ text') := by
  intro rest hr
  rw [List.append_assoc, h _ (he rest hr), h' rest hr, Option.map_map]
  simp [Function.comp_def]

theorem Writes.mark (hc : isBlank c = false) (hn : ∀ cs, next? (c :: cs) = some (t, cs))
    (h : Writes ts text) : Writes (t :: ts) (c :: text) := by
  intro rest hr
  rw [List.cons_append, tokens?_next hc (hn _), h rest hr, Option.map_map]
  rfl

theorem Writes.blank (hc : isBlank c) (h : Writes ts text) : Writes ts (c :: text) := by
  intro rest hr
  rw [List.cons_append, tokens?_blank hc, h rest hr]

theorem Writes.breakLine (h : Writes ts text) (level : Nat) :
    Writes ts (breakLine level ++ text) := by
  have hspaces : ∀ n, Writes ts (List.replicate n ' ' ++ text) := by
    intro n
    induction n with
    | zero => exact h
    | succ n ih => exact ih.blank rfl
  exact (hspaces (2 * level)).blank rfl

theorem writes_quoted (content : Option String) : Writes [.string content] (quoted content) := by
  intro rest _
  have hq : ∃ cs, quoted content = '"' :: cs := by
    cases content with
    | none => exact ⟨_, rfl⟩
    | some s => exact ⟨_, rfl⟩
  have hn := Token.next?_quoted content rest
  obtain ⟨cs, hq⟩ := hq
  rw [hq, List.cons_append] at hn ⊢
  exact tokens?_next rfl hn

theorem writes_number {literal : String} (h : Token.IsNumber literal) :
    Writes [.number literal] literal.toList := by
  intro rest hr
  have hn := Token.next?_number h hr
  obtain ⟨c, cs, hl, hc⟩ := h.head
  rw [hl, List.cons_append] at hn ⊢
  refine tokens?_next ?_ hn
  have hne : ∀ d : Char, (d = '-' ∨ d.isDigit) = false → c ≠ d := by
    rintro d hd rfl
    simp [hc] at hd
  simp [isBlank, hne]

theorem endsNumber_items (vs : List Json) {rest : List Char} (hr : EndsNumber rest) :
    EndsNumber (prettyItems level vs ++ rest) := by
  cases vs with
  | nil => exact hr
  | cons v vs => exact endsNumber_cons rfl _

theorem endsNumber_entries (es : List (Option String × Json)) {rest : List Char}
    (hr : EndsNumber rest) : EndsNumber (prettyEntries level es ++ rest) := by
  cases es with
  | nil => exact hr
  | cons e es => exact endsNumber_cons rfl _

theorem writes_items {vs : List Json} (h : ∀ v ∈ vs, Writes v.tokens (pretty level v)) :
    Writes (itemTokens vs) (prettyItems level vs) := by
  induction vs with
  | nil => exact writes_nil
  | cons v vs ih =>
    obtain ⟨hv, hvs⟩ := List.forall_mem_cons.mp h
    have htail := (hv.append (ih hvs) fun _ => endsNumber_items vs).breakLine level
    rw [prettyItems, itemTokens, List.cons_append, List.cons_append, List.append_assoc]
    exact htail.mark rfl fun _ => rfl

/-- A key, the colon behind it, and the value. -/
theorem writes_entry {v : Json} {text : List Char} (k : Option String)
    (h : Writes ts (pretty level v ++ text)) :
    Writes (.string k :: .colon :: ts) (quoted k ++ [':', ' '] ++ pretty level v ++ text) := by
  have hcolon : Writes (.colon :: ts) (':' :: ' ' :: (pretty level v ++ text)) :=
    (h.blank rfl).mark rfl fun _ => rfl
  have hkey := (writes_quoted k).append hcolon fun _ _ => endsNumber_cons rfl _
  simpa using hkey

theorem writes_entries {es : List (Option String × Json)}
    (h : ∀ e ∈ es, Writes e.2.tokens (pretty level e.2)) :
    Writes (entryTokens es) (prettyEntries level es) := by
  induction es with
  | nil => exact writes_nil
  | cons e es ih =>
    obtain ⟨k, v⟩ := e
    obtain ⟨hv, hes⟩ := List.forall_mem_cons.mp h
    have hentry := writes_entry k (hv.append (ih hes) fun _ => endsNumber_entries es)
    have htail := hentry.breakLine level
    simp only [List.append_assoc] at htail
    rw [prettyEntries, entryTokens]
    simp only [List.cons_append, List.append_assoc]
    exact htail.mark rfl fun _ => rfl

/-- What is printed for a value holds its tokens. -/
theorem writes_pretty {v : Json} (h : v.WellWritten) (level : Nat) :
    Writes v.tokens (pretty level v) := by
  have hbracket : ∀ level, Writes [.endArray] (Json.breakLine level ++ [']']) := fun level =>
    (writes_nil.mark rfl fun _ => rfl).breakLine level
  have hbrace : ∀ level, Writes [.endObject] (Json.breakLine level ++ ['\x7d']) := fun level =>
    (writes_nil.mark rfl fun _ => rfl).breakLine level
  have hline : ∀ level text rest, EndsNumber (Json.breakLine level ++ text ++ rest) :=
    fun _ _ _ => endsNumber_cons rfl _
  induction h generalizing level with
  | null => exact fun rest _ => tokens?_next (c := 'n') rfl rfl
  | bool b =>
    cases b with
    | false => exact fun rest _ => tokens?_next (c := 'f') rfl rfl
    | true => exact fun rest _ => tokens?_next (c := 't') rfl rfl
  | number h => exact writes_number h
  | string content => exact writes_quoted content
  | @array items _ ih =>
    cases items with
    | nil => exact (writes_nil.mark rfl fun _ => rfl).mark rfl fun _ => rfl
    | cons v vs =>
      obtain ⟨hv, hvs⟩ := List.forall_mem_cons.mp ih
      have hitems := (writes_items fun w hw => hvs w hw (level + 1)).append (hbracket level)
        fun rest _ => hline level _ rest
      have hinner := (hv (level + 1)).append hitems fun rest hr => by
        rw [List.append_assoc]
        exact endsNumber_items vs (hline level _ rest)
      have hopen := (hinner.breakLine (level + 1)).mark (c := '[') rfl fun _ => rfl
      simpa only [pretty, tokens, List.cons_append, List.append_assoc] using hopen
  | @object entries _ ih =>
    cases entries with
    | nil => exact (writes_nil.mark rfl fun _ => rfl).mark rfl fun _ => rfl
    | cons e es =>
      obtain ⟨k, v⟩ := e
      obtain ⟨hv, hes⟩ := List.forall_mem_cons.mp ih
      have hentries := (writes_entries fun e he => hes e he (level + 1)).append (hbrace level)
        fun rest _ => hline level _ rest
      have hinner := (hv (level + 1)).append hentries fun rest hr => by
        rw [List.append_assoc]
        exact endsNumber_entries es (hline level _ rest)
      have hopen := ((writes_entry k hinner).breakLine (level + 1)).mark (c := '\x7b') rfl
        fun _ => rfl
      simpa only [pretty, tokens, List.cons_append, List.append_assoc] using hopen

end Texts

/-- A value is read back from what is printed for it. -/
theorem ofText?_of_wellWritten {v : Json} (h : v.WellWritten) : ofText? v.toText = some v := by
  have hread := writes_pretty h 0 [] (by simp [Token.EndsNumber])
  rw [List.append_nil] at hread
  rw [ofText?, toText, String.toList_ofList, hread, tokens?]
  simp [ofTokens?_tokens]

end SignalBridge.Json
