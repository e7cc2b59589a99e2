import SignalBridge.Proofs.Source.Alike

/-!
Tokens that go on behind a line break or a semicolon. No reader of declarations looks past one of
these outside all delimiters, so what is read up to it is read all the same when more follows
(`declarations_separated`).
-/

namespace SignalBridge.Source

/-- `us` are the tokens `ts`, the last of which is `line`, with `more` behind them. -/
inductive Continued (line : Token) (more : List Token) : List Token → List Token → Prop where
  | line : Continued line more [line] (line :: more)
  | cons (t : Token) {ts us : List Token} (h : Continued line more ts us) :
      Continued line more (t :: ts) (t :: us)

/-- Where `x` succeeds, so does `y`, in a related way. -/
def Carries {ε α β : Type} (P : α → β → Prop) (x : Except ε α) (y : Except ε β) : Prop :=
  ∀ a, x = .ok a → ∃ b, y = .ok b ∧ P a b

section Outcomes

variable {ε α β γ δ : Type} {P : α → β → Prop} {Q : γ → δ → Prop}

theorem Carries.ok {a : α} {b : β} (h : P a b) :
    Carries P (.ok a : Except ε α) (.ok b) := by
  intro a' ha
  cases ha
  exact ⟨b, rfl, h⟩

theorem Carries.error {e : ε} {y : Except ε β} : Carries P (.error e) y := by
  intro a ha
  cases ha

theorem Carries.bind {x : Except ε α} {y : Except ε β} {f : α → Except ε γ} {g : β → Except ε δ}
    (h : Carries P x y) (hf : ∀ a b, x = .ok a → P a b → Carries Q (f a) (g b)) :
    Carries Q (x >>= f) (y >>= g) := by
  intro c hc
  obtain ⟨a, rfl, hc⟩ := bind_eq_ok_iff.mp hc
  obtain ⟨b, rfl, hab⟩ := h a rfl
  exact hf a b rfl hab c hc

end Outcomes

section Readers

variable {line t : Token} {more ts us : List Token} {nesting : Nesting}

theorem continued_append (init : List Token) :
    Continued line more (init ++ [line]) (init ++ line :: more) := by
  induction init with
  | nil => exact .line
  | cons t init ih => exact ih.cons t

theorem Continued.head?_eq (h : Continued line more ts us) : ts.head? = us.head? := by
  cases h with
  | line => rfl
  | cons t _ => rfl

/-- The readers that return what they read and the tokens they leave. -/
def CarriesOn {α : Type} (line : Token) (more : List Token)
    (x y : Except SyntaxFault (α × List Token)) : Prop :=
  Carries (fun p q => p.1 = q.1 ∧ Continued line more p.2 q.2) x y

theorem continued_expect {kind : Token.Kind} {expected : Expected} (hl : line.kind ≠ kind)
    (h : Continued line more ts us) :
    CarriesOn line more (expect kind expected ts) (expect kind expected us) := by
  cases h with
  | line =>
    rw [expect, if_neg hl]
    exact .error
  | cons t h =>
    rw [expect, expect]
    split
    · exact .ok ⟨rfl, h⟩
    · exact .error

variable (hl : line.kind.isSeparator)

include hl

theorem kind_ne_of_isSeparator {k : Token.Kind} (hk : k.isSeparator = false) :
    line.kind ≠ k := by
  intro h
  rw [h, hk] at hl
  cases hl

theorem Continued.uncons (h : Continued line more ts us) : ∃ t ts' us', ts = t :: ts' ∧
    us = t :: us' ∧ (t.kind.isSeparator = false → Continued line more ts' us') := by
  cases h with
  | line => exact ⟨line, [], more, rfl, rfl, fun ht => absurd hl (by simp [ht])⟩
  | @cons t ts us h => exact ⟨t, ts, us, rfl, rfl, fun _ => h⟩

theorem step_line (nesting : Nesting) : nesting.step line = .ok nesting :=
  step_of_plain (plain_of_isSeparator hl)

omit hl in
/-- Separators end every field and every type, and declare nothing. -/
theorem isSeparator_ends {k : Token.Kind} (hk : k.isSeparator) :
    k.endsField ∧ k.endsType ∧ k.declares = false := by
  simp only [Token.Kind.isSeparator, Bool.or_eq_true, decide_eq_true_eq] at hk
  rcases hk with rfl | rfl <;> decide

/-- A separator closes nothing. -/
theorem takeUntil_line {stop : Token.Kind → Bool} (hn : nesting ≠ []) :
    takeUntil stop nesting [line] = .error ⟨.closingDelimiter, none⟩ := by
  cases nesting with
  | nil => exact absurd rfl hn
  | cons d outer => simp [takeUntil, step_line hl, bind, Except.bind]

theorem continued_takeUntil {stop : Token.Kind → Bool} (hs : stop line.kind)
    (h : Continued line more ts us) :
    CarriesOn line more (takeUntil stop nesting ts) (takeUntil stop nesting us) := by
  induction h generalizing nesting with
  | line =>
    by_cases hn : nesting = []
    · subst hn
      simp only [takeUntil, hs, List.isEmpty_nil, Bool.and_self, ↓reduceIte]
      exact .ok ⟨rfl, .line⟩
    · rw [takeUntil_line hl hn]
      exact .error
  | cons t h ih =>
    rw [takeUntil, takeUntil]
    split
    · exact .ok ⟨rfl, h.cons t⟩
    · refine Carries.bind (P := Eq) (fun a ha => ⟨a, ha, rfl⟩) ?_
      rintro nesting' _ - rfl
      refine Carries.bind ih ?_
      rintro ⟨taken, rest⟩ ⟨_, rest'⟩ - ⟨rfl, hr⟩
      exact .ok ⟨rfl, hr⟩

theorem continued_takeField (h : Continued line more ts us) :
    CarriesOn line more (takeField t ts) (takeField t us) := by
  refine Carries.bind (P := Eq) (fun a ha => ⟨a, ha, rfl⟩) ?_
  rintro nesting _ - rfl
  refine Carries.bind (continued_takeUntil hl (isSeparator_ends hl).1 h) ?_
  rintro ⟨taken, rest⟩ ⟨_, rest'⟩ - ⟨rfl, hr⟩
  exact .ok ⟨rfl, hr⟩

/-- Either only separators are left, or what follows them goes on as before. -/
theorem continued_dropSeparators (h : Continued line more ts us) :
    dropSeparators ts = [] ∨ ∃ t ts' us', dropSeparators ts = t :: ts' ∧
      dropSeparators us = t :: us' ∧ Continued line more ts' us' := by
  induction h with
  | line => exact .inl (by simp [dropSeparators, hl])
  | @cons t ts us h ih =>
    rw [dropSeparators, dropSeparators, List.dropWhile_cons, List.dropWhile_cons]
    split
    · exact ih
    · exact .inr ⟨t, ts, us, rfl, rfl, h⟩

theorem continued_structBody {ts us : List Token} (h : Continued line more ts us) :
    Carries (fun p q => p.1 = q.1 ∧ p.2.1 = q.2.1 ∧ Continued line more p.2.2 q.2.2)
      (structBody ts) (structBody us) := by
  rw [structBody_eq ts, structBody_eq us]
  rcases continued_dropSeparators hl h with hd | ⟨t, ts', us', hd, hd', h'⟩
  · rw [hd]
    exact .error
  simp only [hd, hd']
  split
  · exact .ok ⟨rfl, rfl, h'⟩
  · refine Carries.bind (continued_takeField hl h') ?_
    rintro ⟨taken, after⟩ ⟨_, after'⟩ htake ⟨rfl, ha⟩
    have hlt : after.length < ts.length := by
      have hdrop := length_dropSeparators_le ts
      have hleft := length_le_of_takeField htake
      rw [hd, List.length_cons] at hdrop
      omega
    simp only at ha ⊢
    rw [ha.head?_eq]
    refine Carries.bind (P := Eq) (fun a ha => ⟨a, ha, rfl⟩) ?_
    rintro field _ - rfl
    refine (continued_structBody ha).bind ?_
    rintro ⟨fields, brace, left⟩ ⟨_, _, left'⟩ - ⟨rfl, rfl, hleft⟩
    exact .ok ⟨rfl, rfl, hleft⟩
termination_by ts.length

/-- The lookahead for type parameters stops at a separator. -/
theorem continued_opensTypeParameters (h : Continued line more ts us) :
    opensTypeParameters ts = opensTypeParameters us := by
  have hbracket := kind_ne_of_isSeparator hl (k := .opener .square) rfl
  have hident := kind_ne_of_isSeparator hl (k := .ident) rfl
  rcases h with _ | ⟨t, _ | ⟨u, h⟩⟩
  · cases more <;> simp [opensTypeParameters, hbracket]
  · cases more <;> simp [opensTypeParameters, hident]
  · rw [opensTypeParameters, opensTypeParameters, h.head?_eq]

theorem continued_typeParameters (h : Continued line more ts us) :
    CarriesOn line more (typeParameters ts) (typeParameters us) := by
  have hopens := continued_opensTypeParameters hl h
  cases h with
  | line =>
    simp only [typeParameters, ← hopens]
    exact .ok ⟨rfl, .line⟩
  | cons t h =>
    rw [typeParameters, typeParameters, ← hopens]
    split
    · rw [takeGroup_eq_takeUntil, takeGroup_eq_takeUntil]
      refine Carries.bind (continued_takeUntil hl rfl h) ?_
      rintro ⟨taken, rest⟩ ⟨_, rest'⟩ - ⟨rfl, hr⟩
      exact .ok ⟨rfl, hr⟩
    · exact .ok ⟨rfl, h.cons t⟩

theorem continued_aliasSign (h : Continued line more ts us) :
    (aliasSign ts).1 = (aliasSign us).1 ∧
      Continued line more (aliasSign ts).2 (aliasSign us).2 := by
  cases h with
  | line => simpa [aliasSign, kind_ne_of_isSeparator hl (k := .op) rfl] using Continued.line
  | cons t h =>
    rw [aliasSign, aliasSign]
    split
    · exact ⟨rfl, h⟩
    · exact ⟨rfl, h.cons t⟩

theorem continued_typeSpec (h : Continued line more ts us) :
    CarriesOn line more (typeSpec ts) (typeSpec us) := by
  refine Carries.bind (continued_expect (kind_ne_of_isSeparator hl rfl) h) ?_
  rintro ⟨name, ts₁⟩ ⟨_, us₁⟩ - ⟨rfl, h₁⟩
  refine Carries.bind (continued_typeParameters hl h₁) ?_
  rintro ⟨parameters, ts₂⟩ ⟨_, us₂⟩ - ⟨rfl, h₂⟩
  obtain ⟨hsign, h₃⟩ := continued_aliasSign hl h₂
  simp only at hsign h₃ ⊢
  rw [← hsign]
  generalize (aliasSign ts₂).1 = sign
  generalize (aliasSign ts₂).2 = ts₃ at h₃
  generalize (aliasSign us₂).2 = us₃ at h₃
  obtain ⟨t, ts₄, us₄, rfl, rfl, h₄⟩ := h₃.uncons hl
  simp only
  split
  · rename_i ht
    have hstruct : t.kind.isSeparator = false := by rw [ht]; rfl
    refine Carries.bind (continued_expect (kind_ne_of_isSeparator hl rfl) (h₄ hstruct)) ?_
    rintro ⟨_, ts₅⟩ ⟨_, us₅⟩ - ⟨-, h₅⟩
    refine Carries.bind (continued_structBody hl h₅) ?_
    rintro ⟨fields, brace, ts₆⟩ ⟨_, _, us₆⟩ - ⟨rfl, rfl, h₆⟩
    exact .ok ⟨rfl, h₆⟩
  · refine Carries.bind (continued_takeUntil hl (isSeparator_ends hl).2.1 h₃) ?_
    rintro ⟨taken, ts₅⟩ ⟨_, us₅⟩ - ⟨rfl, h₅⟩
    exact .ok ⟨rfl, h₅⟩

theorem continued_typeGroup {ts us : List Token} (h : Continued line more ts us) :
    CarriesOn line more (typeGroup ts) (typeGroup us) := by
  rw [typeGroup_eq ts, typeGroup_eq us]
  rcases continued_dropSeparators hl h with hd | ⟨t, ts', us', hd, hd', h'⟩
  · rw [hd]
    exact .error
  simp only [hd, hd']
  split
  · exact .ok ⟨rfl, h'⟩
  · refine Carries.bind (continued_typeSpec hl (h'.cons t)) ?_
    rintro ⟨decl, after⟩ ⟨_, after'⟩ hspec ⟨rfl, ha⟩
    have hlt : after.length < ts.length := by
      have hdrop := length_dropSeparators_le ts
      have hleft := length_lt_of_typeSpec hspec
      rw [hd] at hdrop
      omega
    refine Carries.bind (continued_typeGroup ha) ?_
    rintro ⟨decls, left⟩ ⟨_, left'⟩ - ⟨rfl, hleft⟩
    exact .ok ⟨rfl, hleft⟩
termination_by ts.length

theorem continued_typeDecls (h : Continued line more ts us) :
    CarriesOn line more (typeDecls ts) (typeDecls us) := by
  cases h with
  | line =>
    rw [typeDecls, if_neg (kind_ne_of_isSeparator hl rfl), typeSpec, expect,
      if_neg (kind_ne_of_isSeparator hl rfl)]
    exact .error
  | cons t h =>
    rw [typeDecls, typeDecls]
    split
    · exact continued_typeGroup hl h
    · refine Carries.bind (continued_typeSpec hl (h.cons t)) ?_
      rintro ⟨decl, left⟩ ⟨_, left'⟩ - ⟨rfl, hleft⟩
      exact .ok ⟨rfl, hleft⟩

/-- What is declared before a separator is declared whatever follows, and what follows is read as if
it stood alone behind the same package clause. -/
theorem declarations_separated {package : Option String} {file file' : SourceFile}
    (h : Continued line more ts us) (hfile : declarations package nesting ts = .ok file)
    (hmore : declarations file.package [] more = .ok file') :
    declarations package nesting us = .ok ⟨file'.package, file.types ++ file'.types⟩ := by
  fun_induction declarations package nesting ts generalizing us file with
  | case1 => cases h
  | case2 => cases h
  | case3 => cases hfile
  | case4 package nesting t rest ht name left he ih =>
    have hk : t.kind.isSeparator = false := by
      simp only [Bool.and_eq_true, decide_eq_true_eq] at ht
      rw [ht.2]
      rfl
    obtain ⟨_, _, us', ⟨⟩, rfl, hrest⟩ := h.uncons hl
    obtain ⟨⟨_, left'⟩, he', rfl, hleft⟩ :=
      continued_expect (kind_ne_of_isSeparator hl rfl) (hrest hk) _ he
    rw [declarations_cons, if_pos ht, he']
    exact ih hleft hfile hmore
  | case5 => cases hfile
  | case6 package nesting t rest hp ht decls left hd ih =>
    have hk : t.kind.isSeparator = false := by
      simp only [Bool.and_eq_true, decide_eq_true_eq] at ht
      rw [ht.2]
      rfl
    obtain ⟨after, hafter, hfile⟩ := bind_eq_ok_iff.mp hfile
    cases hfile
    obtain ⟨_, _, us', ⟨⟩, rfl, hrest⟩ := h.uncons hl
    obtain ⟨⟨_, left'⟩, hd', rfl, hleft⟩ := continued_typeDecls hl (hrest hk) _ hd
    have hus := ih hleft hafter hmore
    simp only at hus
    rw [declarations_cons, if_neg hp, if_pos ht, hd', List.append_assoc]
    simp only [bind, Except.bind, hus]
    rfl
  | case7 package nesting t rest hp ht ih =>
    obtain ⟨nesting', hstep, hfile⟩ := bind_eq_ok_iff.mp hfile
    cases h with
    | line =>
      rw [declarations_step (.inr (isSeparator_ends hl).2.2) hstep]
      rw [step_line hl] at hstep
      obtain rfl := Except.ok.inj hstep
      cases nesting with
      | nil =>
        rw [declarations] at hfile
        cases hfile
        exact hmore
      | cons d outer => simp [declarations] at hfile
    | cons _ h =>
      rw [declarations_cons, if_neg hp, if_neg ht, hstep]
      exact ih nesting' h hfile hmore

omit hl in
theorem declarations_continued {package : Option String} {file file' : SourceFile}
    (hline : line.kind = .newline) (h : Continued line more ts us)
    (hfile : declarations package nesting ts = .ok file)
    (hmore : declarations file.package [] more = .ok file') :
    declarations package nesting us = .ok ⟨file'.package, file.types ++ file'.types⟩ :=
  declarations_separated (by rw [hline]; rfl) h hfile hmore

end Readers

end SignalBridge.Source
