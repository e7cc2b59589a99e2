import SignalBridge.Proofs.Source.Inked
import SignalBridge.Proofs.Source.StructBody

namespace SignalBridge.Source

variable {ls type : List Lexeme} {ts us : List Token} {t u tag : Token} {next : Option Token}
  {commas separators : Bool} {names : List (List Char)} {ks : List Token.Kind}

/-! Line breaks inside a type are joined to what follows them. -/

section JoinLines

variable {pending : List Char}

theorem kinds_joinLines (ts : List Token) :
    (Token.joinLines ts).map Token.kind = (ts.map Token.kind).filter (· ≠ .newline) := by
  unfold Token.joinLines
  generalize ([] : List Char) = pending
  induction ts generalizing pending with
  | nil => rfl
  | cons t ts ih =>
    rw [Token.joinLines.go]
    by_cases ht : t.kind = .newline
    · rw [if_pos ht, ih, List.map_cons, List.filter_cons_of_neg (by simp [ht])]
    · rw [if_neg ht, List.map_cons, ih, List.map_cons, List.filter_cons_of_pos (by simp [ht])]

/-- Where the last token is no line break, none is pending behind it. -/
theorem joinLines_go_append (hp : ts ≠ [] ∨ pending = [])
    (h : ∀ t ∈ ts.getLast?, t.kind ≠ .newline) :
    Token.joinLines.go pending (ts ++ us) =
      Token.joinLines.go pending ts ++ Token.joinLines us := by
  induction ts generalizing pending with
  | nil =>
    obtain rfl : pending = [] := by simpa using hp
    rfl
  | cons t ts ih =>
    rw [List.cons_append, Token.joinLines.go, Token.joinLines.go]
    cases ts with
    | nil =>
      have ht : t.kind ≠ .newline := h t rfl
      rw [if_neg ht, if_neg ht]
      rfl
    | cons u ts =>
      rw [List.getLast?_cons_cons] at h
      rw [ih (.inl (List.cons_ne_nil u ts)) h, ih (.inl (List.cons_ne_nil u ts)) h]
      split <;> rfl

theorem joinLines_append (h : ∀ t ∈ ts.getLast?, t.kind ≠ .newline) :
    Token.joinLines (ts ++ us) = Token.joinLines ts ++ Token.joinLines us :=
  joinLines_go_append (.inr rfl) h

theorem flatMap_joinLines_go (hp : ts ≠ [] ∨ pending = [])
    (h : ∀ t ∈ ts.getLast?, t.kind ≠ .newline) :
    (Token.joinLines.go pending ts).flatMap (fun t => t.leading ++ t.text) =
      pending ++ ts.flatMap fun t => t.leading ++ t.text := by
  induction ts generalizing pending with
  | nil =>
    obtain rfl : pending = [] := by simpa using hp
    rfl
  | cons t ts ih =>
    rw [Token.joinLines.go]
    cases ts with
    | nil =>
      rw [if_neg (h t rfl)]
      simp [Token.joinLines.go]
    | cons u ts =>
      rw [List.getLast?_cons_cons] at h
      have hjoin (pending : List Char) := @ih pending (.inl (List.cons_ne_nil u ts)) h
      split
      · simp [hjoin]
      · simp [hjoin]

/-- Joining lines loses nothing of what is written between the first token and the last. -/
theorem sourceText_joinLines (hhead : ∀ t ∈ ts.head?, t.kind ≠ .newline)
    (hlast : ∀ t ∈ ts.getLast?, t.kind ≠ .newline) :
    Token.sourceText (Token.joinLines ts) = Token.sourceText ts := by
  cases ts with
  | nil => rfl
  | cons t ts =>
    rw [Token.joinLines, Token.joinLines.go, if_neg (hhead t rfl), Token.sourceText,
      Token.sourceText]
    congr 1
    refine flatMap_joinLines_go (.inr rfl) ?_
    intro u hu
    apply hlast u
    rw [List.getLast?_cons, Option.mem_def.mp hu]
    rfl

theorem joinLines_eq (h : ∀ t ∈ ts, t.kind ≠ .newline) : Token.joinLines ts = ts := by
  unfold Token.joinLines
  induction ts with
  | nil => rfl
  | cons t ts ih =>
    rw [Token.joinLines.go, if_neg (h t List.mem_cons_self),
      ih fun u hu => h u (List.mem_cons_of_mem _ hu)]
    rfl

end JoinLines

/-! What is enclosed begins and ends with no separator. -/

theorem Enclosed.head_ne (h : Enclosed false ks) : ∀ k ∈ ks.head?, k.isSeparator = false := by
  cases h with
  | nil => simp
  | plain hs _ _ => simpa using hs
  | group _ _ => simp [Token.Kind.isSeparator]

theorem Enclosed.last_ne (h : Enclosed separators ks) (hs : separators = false) :
    ∀ k ∈ ks.getLast?, k.isSeparator = false := by
  induction h with
  | nil => simp
  | @plain separators k ks hk _ _ ih =>
    subst hs
    cases ks with
    | nil => simpa using hk
    | cons k' ks => simpa using ih rfl
  | @group separators d inner ks _ _ _ ih =>
    intro k hk
    rw [← List.cons_append, List.getLast?_append, List.getLast?_cons] at hk
    cases hl : ks.getLast? with
    | none =>
      obtain rfl : Token.Kind.closer d = k := by simpa [hl] using hk
      rfl
    | some k' =>
      obtain rfl : k' = k := by simpa [hl] using hk
      exact ih hs k' hl

/-! Names with commas between them are split from the type. -/

section Names

theorem moreNames_of_type (h : t.kind ≠ .comma) :
    Field.moreNames next (t :: ts) = .ok ([], t :: ts) := by
  cases ts <;> simp [Field.moreNames, h]

/-- The names as they are written before a type. -/
def nameLexemes (names : List (List Char)) : List Lexeme :=
  listed (names.map fun n => [.word n])

theorem nameLexemes_cons (n : List Char) (names : List (List Char)) :
    nameLexemes (n :: names) = .word n :: names.flatMap fun n => [.comma, .space, .word n] := by
  induction names generalizing n with
  | nil => simp [nameLexemes, listed]
  | cons n' names ih =>
    calc nameLexemes (n :: n' :: names)
        = .word n :: .comma :: .space :: nameLexemes (n' :: names) :=
          listed_cons_cons [.word n] [.word n'] _
      _ = _ := by rw [ih n', List.flatMap_cons]; rfl

theorem moreNames_spelled (next : Option Token) (us : List Token)
    (hn : ∀ n ∈ names, Token.Kind.ofWord n = .ident) (ht : t.kind ≠ .comma)
    (hs : Spelled (names.flatMap fun n => [.comma, .space, .word n]) ts) :
    ∃ xs, Field.moreNames next (ts ++ t :: us) = .ok (xs, t :: us) ∧
      (xs.map fun t => String.ofList t.text) = names.map String.ofList := by
  induction names generalizing ts with
  | nil =>
    obtain rfl := hs.nil
    exact ⟨[], moreNames_of_type ht, rfl⟩
  | cons n names ih =>
    obtain ⟨c, ts, rfl, hc, -, hs⟩ := hs.token rfl
    obtain ⟨x, ts, rfl, hx, htext, hs⟩ := (hs.blank rfl).token rfl
    have hword : x.kind = .ident := hx.trans (hn n List.mem_cons_self)
    have hcomma : c.kind = .comma := hc
    obtain ⟨xs, hxs, hmap⟩ := ih (fun n hm => hn n (List.mem_cons_of_mem _ hm)) hs
    refine ⟨x :: xs, ?_, by rw [List.map_cons, htext, hmap]; rfl⟩
    rw [List.cons_append, List.cons_append, Field.moreNames, if_pos hcomma, if_pos hword, hxs]
    rfl

theorem splitNames_spelled {n : List Char} (hn : ∀ m ∈ n :: names, Token.Kind.ofWord m = .ident)
    (hd : t.kind ≠ .dot) (hc : t.kind ≠ .comma) (hs : Spelled (nameLexemes (n :: names)) ts) :
    ∃ xs, Field.splitNames next (ts ++ t :: us) = .ok (xs, t :: us) ∧
      (xs.map fun t => String.ofList t.text) = (n :: names).map String.ofList := by
  rw [nameLexemes_cons] at hs
  obtain ⟨x, ts, rfl, hx, htext, hs⟩ := hs.token rfl
  have hword : x.kind = .ident := hx.trans (hn n List.mem_cons_self)
  obtain ⟨xs, hxs, hmap⟩ :=
    moreNames_spelled next us (fun m hm => hn m (List.mem_cons_of_mem _ hm)) hc hs
  obtain ⟨u, rest, hu, hdot⟩ : ∃ u rest, ts ++ t :: us = u :: rest ∧ u.kind ≠ .dot := by
    cases names with
    | nil =>
      obtain rfl := hs.nil
      exact ⟨t, us, rfl, hd⟩
    | cons m names =>
      obtain ⟨c, ts, rfl, hcomma, -, -⟩ := hs.token rfl
      exact ⟨c, ts ++ t :: us, rfl, by rw [hcomma]; simp⟩
  refine ⟨x :: xs, ?_, by rw [List.map_cons, htext, hmap]; rfl⟩
  rw [List.cons_append, hu, Field.splitNames, ← hu, hxs]
  simp [hword, hdot, bind, Except.bind, pure, Except.pure]

/-- A type that stands alone is not taken for names. -/
theorem splitNames_embedded (hk : ts.map Token.kind = ks)
    (h : ks.head? ≠ some .ident ∨ ks.tail = [] ∨ ks.tail.head? = some .dot) :
    Field.splitNames next ts = .ok ([], ts) := by
  subst hk
  rcases ts with _ | ⟨t, _ | ⟨u, us⟩⟩
  · rfl
  · rfl
  · have : ¬ (t.kind = .ident ∧ u.kind ≠ .dot) := by
      rintro ⟨ht, hu⟩
      simp [ht, hu] at h
    rw [Field.splitNames, if_neg (by simpa using this)]

end Names

section Tags

theorem splitTag_literal (hts : ts ≠ []) (h : tag.kind.isStringLiteral) :
    Field.splitTag (ts ++ [tag]) = (ts, some tag) := by
  have := List.length_pos_iff.mpr hts
  simp [Field.splitTag, h, this]

theorem splitTag_none (h : ∀ t ∈ ts.getLast?, t.kind.isStringLiteral = false) :
    Field.splitTag ts = (ts, none) := by
  unfold Field.splitTag
  cases hl : ts.getLast? with
  | none => rfl
  | some t => simp [h t hl]

end Tags

/-- The field of joined tokens, once its tag, its names and its type are found. -/
theorem ofTokens_eq (next : Option Token) {names type rest : List Token} {tag : Option Token}
    (hj : Token.joinLines us = ts) (ht : Field.splitTag ts = (rest, tag))
    (hn : Field.splitNames next rest = .ok (names, type)) (hne : type ≠ []) :
    ∃ f, Field.ofTokens us next = .ok f ∧ f.unplaced =
      ⟨names.map fun t => String.ofList t.text, String.ofList (Token.sourceText type),
        tag.map fun t => String.ofList t.text, ⟨0, 0⟩⟩ := by
  have hts : ts ≠ [] := by
    rintro rfl
    cases ht
    cases hn
    exact hne rfl
  obtain ⟨first, hfirst⟩ : ∃ t, ts.head? = some t :=
    Option.ne_none_iff_exists'.mp (by simpa using hts)
  obtain ⟨last, hlast⟩ : ∃ t, ts.getLast? = some t :=
    Option.ne_none_iff_exists'.mp (by simpa using hts)
  have hempty : type.isEmpty = false := by simpa using hne
  unfold Field.ofTokens
  rw [hj]
  simp only [hfirst, hlast, ht, hn, bind, Except.bind, hempty, Bool.false_eq_true, ↓reduceIte]
  exact ⟨_, rfl, rfl⟩

/-- What the kinds of a type's tokens are, where it can be told from the names before it and the tag
behind it. -/
structure TypeKinds (isEmbedded isTagged : Bool) (ks : List Token.Kind) : Prop where
  enclosed : Enclosed false ks
  ne_nil : ks ≠ []
  untagged : isTagged = false → ∀ k ∈ ks.getLast?, k.isStringLiteral = false
  named : isEmbedded = false → ∀ k ∈ ks.head?, k ≠ .dot ∧ k ≠ .comma
  embedded : isEmbedded = true → ks.head? ≠ some .ident ∨ ks.tail = [] ∨ ks.tail.head? = some .dot

theorem Enclosed.filter_newline (h : Enclosed separators ks) :
    Enclosed separators (ks.filter (· ≠ .newline)) := by
  induction h with
  | nil => exact .nil
  | @plain separators k ks hs hd _ ih =>
    rw [List.filter_cons]
    split
    · exact .plain hs hd ih
    · exact ih
  | group _ _ ihi ih =>
    rw [List.filter_cons_of_pos (by simp), List.filter_append, List.filter_cons_of_pos (by simp)]
    exact .group ihi ih

namespace TypeKinds

variable {isEmbedded isTagged : Bool}

theorem head_ne_newline (h : TypeKinds isEmbedded isTagged ks) :
    ∀ k ∈ ks.head?, k ≠ .newline := by
  intro k hk he
  have := h.enclosed.head_ne k hk
  simp [he, Token.Kind.isSeparator] at this

theorem last_ne_newline (h : TypeKinds isEmbedded isTagged ks) :
    ∀ k ∈ ks.getLast?, k ≠ .newline := by
  intro k hk he
  have := h.enclosed.last_ne rfl k hk
  simp [he, Token.Kind.isSeparator] at this

/-- Joining the lines of a type changes none of it. -/
theorem joined (h : TypeKinds isEmbedded isTagged ks) :
    TypeKinds isEmbedded isTagged (ks.filter (· ≠ .newline)) := by
  obtain ⟨k, ks, rfl⟩ := List.exists_cons_of_ne_nil h.ne_nil
  have hk := h.head_ne_newline k rfl
  have hhead : (k :: ks).filter (· ≠ .newline) = k :: ks.filter (· ≠ .newline) :=
    List.filter_cons_of_pos (by simpa using hk)
  have hlast : ((k :: ks).filter (· ≠ .newline)).getLast? = (k :: ks).getLast? := by
    have hne := h.last_ne_newline
    rcases List.eq_nil_or_concat (k :: ks) with he | ⟨init, l, he⟩
    · cases he
    · rw [he, List.concat_eq_append] at hne ⊢
      rw [List.filter_append, List.filter_cons_of_pos (by simpa using hne l (by simp))]
      simp
  refine ⟨h.enclosed.filter_newline, ?_, ?_, ?_, ?_⟩
  · rw [hhead]
    exact List.cons_ne_nil _ _
  · rw [hlast]
    exact h.untagged
  · rw [hhead]
    exact h.named
  · intro he
    rw [hhead]
    rcases h.embedded he with hi | ht | hd
    · exact .inl hi
    · obtain rfl : ks = [] := ht
      exact .inr (.inl rfl)
    · obtain ⟨ks, rfl⟩ := List.head?_eq_some_iff.mp hd
      exact .inr (.inr rfl)

end TypeKinds

/-! A line is the names, the type and the tag, one behind the other. -/

section Line

variable {literal : Option Lexeme} {isEmbedded isTagged : Bool}

/-- The names, and the blank behind them. -/
def namesPart (names : List (List Char)) : List Lexeme :=
  if names.isEmpty then [] else nameLexemes names ++ [.space]

/-- The blank before the tag, and the tag. -/
def tagPart (literal : Option Lexeme) : List Lexeme :=
  literal.elim [] fun l => [.space, l]

/-- A field on a line of its own. -/
def fieldLexemes (names : List (List Char)) (type : List Lexeme) (literal : Option Lexeme) :
    List Lexeme :=
  .tab :: (namesPart names ++ (type ++ tagPart literal))

theorem kinds_namesPart (hn : ∀ n ∈ names, Token.Kind.ofWord n = .ident) :
    ∀ k ∈ (namesPart names).filterMap Lexeme.kind, k = .ident ∨ k = .comma := by
  intro k hk
  obtain ⟨l, hl, hkind⟩ := List.mem_filterMap.mp hk
  cases names with
  | nil => simp [namesPart] at hl
  | cons n names =>
    have hword : ∀ m ∈ n :: names, l = .word m → k = .ident := by
      intro m hm he
      rw [he, Lexeme.word, hn m hm] at hkind
      exact (Option.some.inj hkind).symm
    simp only [namesPart, List.isEmpty_cons, Bool.false_eq_true, ↓reduceIte, nameLexemes_cons,
      List.mem_append, List.mem_cons, List.mem_flatMap, List.not_mem_nil, or_false] at hl
    rcases hl with (hl | ⟨m, hm, rfl | rfl | hl⟩) | rfl
    · exact .inl (hword n List.mem_cons_self hl)
    · exact .inr (Option.some.inj hkind).symm
    · cases hkind
    · exact .inl (hword m (List.mem_cons_of_mem _ hm) hl)
    · cases hkind

theorem kinds_tagPart (h : ∀ l ∈ literal, ∃ k, l.kind = some k ∧ k.isStringLiteral) :
    ∀ k ∈ (tagPart literal).filterMap Lexeme.kind, k.isStringLiteral := by
  cases literal with
  | none => simp [tagPart]
  | some l =>
    obtain ⟨k, hl, hk⟩ := h l rfl
    simpa [tagPart, Lexeme.space, hl] using hk

theorem enclosed_of_plain
    (h : ∀ k ∈ ks, k.isSeparator = false ∧ ∀ d, k ≠ .opener d ∧ k ≠ .closer d) :
    Enclosed separators ks := by
  induction ks with
  | nil => exact .nil
  | cons k ks ih =>
    obtain ⟨⟨hs, hd⟩, h⟩ := List.forall_mem_cons.mp h
    exact .plain (by simp [hs]) hd (ih h)

theorem plain_of_name {k : Token.Kind} (h : k = .ident ∨ k = .comma) :
    k.isSeparator = false ∧ ∀ d, k ≠ .opener d ∧ k ≠ .closer d := by
  rcases h with rfl | rfl
  · exact ⟨rfl, by simp⟩
  · exact ⟨rfl, by simp⟩

theorem plain_of_literal {k : Token.Kind} (h : k.isStringLiteral) :
    k.isSeparator = false ∧ ∀ d, k ≠ .opener d ∧ k ≠ .closer d := by
  simp only [Token.Kind.isStringLiteral, Bool.or_eq_true, decide_eq_true_eq] at h
  rcases h with rfl | rfl
  · exact ⟨rfl, by simp⟩
  · exact ⟨rfl, by simp⟩

theorem splitNames_line (next : Option Token) (hn : ∀ n ∈ names, Token.Kind.ofWord n = .ident)
    (hs : Spelled (namesPart names) ts)
    (hk : TypeKinds names.isEmpty isTagged (us.map Token.kind)) :
    ∃ xs, Field.splitNames next (ts ++ us) = .ok (xs, us) ∧
      (xs.map fun t => String.ofList t.text) = names.map String.ofList := by
  cases names with
  | nil =>
    obtain rfl := hs.nil
    exact ⟨[], splitNames_embedded rfl (hk.embedded rfl), rfl⟩
  | cons n names =>
    obtain ⟨ts, blank, rfl, hnames, hblank⟩ := hs.append
    obtain rfl := (hblank.blank rfl).nil
    cases us with
    | nil => exact absurd rfl hk.ne_nil
    | cons t us =>
      obtain ⟨hd, hc⟩ := hk.named rfl t.kind rfl
      rw [List.append_nil]
      exact splitNames_spelled hn hd hc hnames

theorem splitTag_line (hl : ∀ l ∈ literal, ∃ k, l.kind = some k ∧ k.isStringLiteral)
    (hs : Spelled (tagPart literal) us) (ts : List Token) (hne : ts ≠ [])
    (hk : literal.isSome = false → ∀ t ∈ ts.getLast?, t.kind.isStringLiteral = false) :
    ∃ tag, Field.splitTag (ts ++ us) = (ts, tag) ∧ (tag.map fun t => String.ofList t.text) =
      literal.map fun l => String.ofList l.text := by
  cases literal with
  | none =>
    obtain rfl := hs.nil
    rw [List.append_nil]
    exact ⟨none, splitTag_none (hk rfl), rfl⟩
  | some l =>
    obtain ⟨k, hkind, hlit⟩ := hl l rfl
    obtain ⟨tag, us, rfl, htag, htext, hs⟩ := (hs.blank rfl).token hkind
    obtain rfl := hs.nil
    refine ⟨some tag, splitTag_literal hne (htag ▸ hlit), ?_⟩
    rw [Option.map_some, htext, Option.map_some]

theorem Spelled.ne_newline (hs : Spelled ls ts)
    (h : ∀ k ∈ ls.filterMap Lexeme.kind, k.isSeparator = false ∧
      ∀ d, k ≠ .opener d ∧ k ≠ .closer d) : ∀ t ∈ ts, t.kind ≠ .newline := by
  intro t ht he
  have := (h t.kind (hs.kinds ▸ List.mem_map_of_mem ht)).1
  simp [he, Token.Kind.isSeparator] at this

/-- Joining the lines of a field joins those of its type. -/
theorem joinLines_between {ns gs : List Token} (hns : ∀ t ∈ ns, t.kind ≠ .newline)
    (hus : ∀ t ∈ us.getLast?, t.kind ≠ .newline) (hgs : ∀ t ∈ gs, t.kind ≠ .newline) :
    Token.joinLines (ns ++ (us ++ gs)) = ns ++ Token.joinLines us ++ gs := by
  rw [joinLines_append fun t ht => hns t (List.mem_of_getLast? ht), joinLines_append hus,
    joinLines_eq hns, joinLines_eq hgs, List.append_assoc]

/-- A line that writes names, a type and a tag declares that field. -/
theorem fieldLine (names : List (List Char)) (literal : Option Lexeme)
    (hn : ∀ n ∈ names, Token.Kind.ofWord n = .ident) (hb : Bounded type)
    (hl : ∀ l ∈ literal, ∃ k, l.kind = some k ∧ k.isStringLiteral)
    (hk : TypeKinds names.isEmpty literal.isSome (type.filterMap Lexeme.kind)) :
    FieldLine (fieldLexemes names type literal) ⟨names.map String.ofList,
      String.ofList (written type), literal.map fun l => String.ofList l.text, ⟨0, 0⟩⟩ := by
  have hplain := fun k hm => plain_of_name (kinds_namesPart hn k hm)
  have hplain' := fun k hm => plain_of_literal (kinds_tagPart hl k hm)
  refine ⟨?_, ?_, ?_⟩
  · rw [fieldLexemes, List.filterMap_cons_none rfl, List.filterMap_append, List.filterMap_append]
    exact (enclosed_of_plain hplain).append (hk.enclosed.append (enclosed_of_plain hplain'))
  · obtain ⟨k, hmem⟩ := List.exists_mem_of_ne_nil _ hk.ne_nil
    obtain ⟨l, hl, hkind⟩ := List.mem_filterMap.mp hmem
    exact ⟨l, by simp [fieldLexemes, hl], by simp [hkind]⟩
  · intro ts next hs
    obtain ⟨ns, ts, rfl, hns, hs⟩ := (hs.blank rfl).append
    obtain ⟨us, gs, rfl, hus, hgs⟩ := hs.append
    rw [← hus.kinds] at hk
    have hhead : ∀ t ∈ us.head?, t.kind ≠ .newline := fun t ht =>
      hk.head_ne_newline t.kind (by rw [List.head?_map, Option.mem_def.mp ht]; rfl)
    have hlast : ∀ t ∈ us.getLast?, t.kind ≠ .newline := fun t ht =>
      hk.last_ne_newline t.kind (by rw [List.getLast?_map, Option.mem_def.mp ht]; rfl)
    have hjoin := joinLines_between (hns.ne_newline hplain) hlast (hgs.ne_newline hplain')
    have hsource := (sourceText_joinLines hhead hlast).trans (hus.sourceText hb)
    have hkinds := hk.joined
    rw [← kinds_joinLines] at hkinds
    generalize Token.joinLines us = js at hjoin hsource hkinds
    have hne : js ≠ [] := by
      rintro rfl
      exact hkinds.ne_nil rfl
    obtain ⟨xs, hsplit, hxs⟩ := splitNames_line next hn hns hkinds
    obtain ⟨tag, htag, htext⟩ := splitTag_line hl hgs (ns ++ js) (by simp [hne]) (by
      intro he t ht
      rw [List.getLast?_append_of_ne_nil _ hne] at ht
      exact hkinds.untagged he t.kind (by rw [List.getLast?_map, Option.mem_def.mp ht]; rfl))
    obtain ⟨f, hf, hunplaced⟩ := ofTokens_eq next hjoin htag hsplit hne
    exact ⟨f, hf, by rw [hunplaced, hxs, hsource, htext]⟩

end Line

/-- A field with one name, a type and a raw string as tag. -/
theorem fieldLine_named {name body : List Char} {first : Lexeme} {kind : Token.Kind}
    (hword : Token.Kind.ofWord name = .ident) (hn : Nested true (first :: type))
    (hi : Inked (first :: type)) (hk : first.kind = some kind) (hd : kind ≠ .dot)
    (hc : kind ≠ .comma) :
    FieldLine (.tab :: .word name :: .space :: (first :: type ++ [.space, .raw body]))
      ⟨[String.ofList name], String.ofList (written (first :: type)),
        some (String.ofList (Lexeme.raw body).text), ⟨0, 0⟩⟩ := by
  have hkinds : (first :: type).filterMap Lexeme.kind = kind :: type.filterMap Lexeme.kind :=
    List.filterMap_cons_some hk
  refine fieldLine [name] (some (.raw body)) ?_ hi.bounded ?_ ⟨hn.enclosed, ?_, ?_, ?_, ?_⟩
  · simpa using hword
  · simp [Lexeme.raw, Token.Kind.isStringLiteral]
  · rw [hkinds]
    exact List.cons_ne_nil _ _
  · simp
  · rw [hkinds]
    simp [hd, hc]
  · simp

/-- An embedded type: its first token is no name, or it is a name alone or before a point. -/
theorem fieldLine_embedded (hn : Nested true type) (hi : Inked type)
    (hl : ∀ k ∈ (type.filterMap Lexeme.kind).getLast?, k.isStringLiteral = false)
    (he : (type.filterMap Lexeme.kind).head? ≠ some .ident ∨
      (type.filterMap Lexeme.kind).tail = [] ∨
      (type.filterMap Lexeme.kind).tail.head? = some .dot) :
    FieldLine (.tab :: type) ⟨[], String.ofList (written type), none, ⟨0, 0⟩⟩ := by
  have hne : type.filterMap Lexeme.kind ≠ [] := by
    obtain ⟨l, hl, hink⟩ := hi.head
    obtain ⟨k, hk⟩ := Option.isSome_iff_exists.mp hink.token
    exact List.ne_nil_of_mem (List.mem_filterMap.mpr ⟨l, List.mem_of_head? hl, hk⟩)
  have hline := fieldLine [] none (by simp) hi.bounded (by simp)
    ⟨hn.enclosed, hne, fun _ => hl, by simp, fun _ => he⟩
  simpa [fieldLexemes, namesPart, tagPart] using hline

end SignalBridge.Source
