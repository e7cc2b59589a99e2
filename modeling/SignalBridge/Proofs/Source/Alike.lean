import Mathlib.Data.List.Forall2
import SignalBridge.Proofs.Source.Matched

/-!
Token lists that are alike: they agree token by token in kind and, but for line breaks, in text.
The reader of declarations has the same outcome for both, up to how the tokens differ
(`alike_declarations`): it fails at corresponding tokens for the same reason, or it finds
corresponding declarations.
-/

namespace SignalBridge.Source

open List (Forall₂)

/-- A relation between tokens that the reader of declarations cannot tell apart. -/
structure Indistinct (R : Token → Token → Prop) : Prop where
  kind : ∀ {t u}, R t u → t.kind = u.kind
  text : ∀ {t u}, R t u → t.kind ≠ .newline → t.text = u.text
  joinLines : ∀ {ts us}, Forall₂ R ts us → Forall₂ R (Token.joinLines ts) (Token.joinLines us)

/-- Two outcomes that fit: both fail, or both succeed, in related ways. -/
inductive Fits {ε α β : Type} (E : ε → ε → Prop) (P : α → β → Prop) :
    Except ε α → Except ε β → Prop where
  | ok {a : α} {b : β} (h : P a b) : Fits E P (.ok a) (.ok b)
  | error {e e' : ε} (h : E e e') : Fits E P (.error e) (.error e')

theorem Fits.bind {ε α β γ δ : Type} {E : ε → ε → Prop} {P : α → β → Prop} {Q : γ → δ → Prop}
    {x : Except ε α} {y : Except ε β} {f : α → Except ε γ} {g : β → Except ε δ}
    (h : Fits E P x y) (hf : ∀ a b, x = .ok a → P a b → Fits E Q (f a) (g b)) :
    Fits E Q (x >>= f) (y >>= g) := by
  cases h with
  | ok h => exact hf _ _ rfl h
  | error h => exact .error h

theorem Fits.mapM {ε α β γ : Type} {E : ε → ε → Prop} {Q : β → γ → Prop} {f : α → Except ε β}
    {g : α → Except ε γ} (hf : ∀ a, Fits E Q (f a) (g a)) (xs : List α) :
    Fits E (Forall₂ Q) (xs.mapM f) (xs.mapM g) := by
  induction xs with
  | nil => exact .ok .nil
  | cons x xs ih =>
    rw [List.mapM_cons, List.mapM_cons]
    refine (hf x).bind fun b c _ hbc => ?_
    exact ih.bind fun bs cs _ hbcs => .ok (.cons hbc hbcs)

section Tokens

variable (R : Token → Token → Prop)

/-- The same is expected, in place of related tokens. -/
structure AlikeFaults (e e' : SyntaxFault) : Prop where
  expected : e.expected = e'.expected
  found : Option.Rel R e.found e'.found

/-- Spans from and to related tokens. -/
def AlikeSpans (s s' : Span) : Prop :=
  ∃ t t' u u', R t t' ∧ R u u' ∧ s = ⟨t.start, u.stop⟩ ∧ s' = ⟨t'.start, u'.stop⟩

/-- Fields with the same names and tags; their types are written by related tokens. -/
structure AlikeFields (f f' : Field) : Prop where
  names : f.names = f'.names
  tag : f.tag = f'.tag
  typeText : ∃ ts us, Forall₂ R ts us ∧ f.typeText = String.ofList (Token.sourceText ts) ∧
    f'.typeText = String.ofList (Token.sourceText us)
  span : AlikeSpans R f.span f'.span

inductive AlikeBodies : TypeBody → TypeBody → Prop where
  | struct {fs fs' : List Field} (h : Forall₂ (AlikeFields R) fs fs') :
      AlikeBodies (.struct fs) (.struct fs')
  | other : AlikeBodies .other .other

structure AlikeDecls (d d' : TypeDecl) : Prop where
  name : d.name = d'.name
  body : AlikeBodies R d.body d'.body
  span : AlikeSpans R d.span d'.span

structure AlikeFiles (file file' : SourceFile) : Prop where
  package : file.package = file'.package
  types : Forall₂ (AlikeDecls R) file.types file'.types

/-- Both pairs of lists are related, as what a reader takes and what it leaves. -/
def AlikePairs (p q : List Token × List Token) : Prop :=
  Forall₂ R p.1 q.1 ∧ Forall₂ R p.2 q.2

end Tokens

section Lists

variable {α β : Type} {R : α → β → Prop} {xs : List α} {ys : List β}

theorem rel_head? (h : Forall₂ R xs ys) : Option.Rel R xs.head? ys.head? := by
  cases h with
  | nil => exact .none
  | cons h _ => exact .some h

theorem rel_getLast? (h : Forall₂ R xs ys) : Option.Rel R xs.getLast? ys.getLast? := by
  rw [List.getLast?_eq_head?_reverse, List.getLast?_eq_head?_reverse]
  exact rel_head? (List.rel_reverse h)

theorem forall₂_dropLast (h : Forall₂ R xs ys) : Forall₂ R xs.dropLast ys.dropLast := by
  rw [List.dropLast_eq_take, List.dropLast_eq_take, h.length_eq]
  exact List.forall₂_take _ h

end Lists

section Fields

variable {R : Token → Token → Prop} (hR : Indistinct R) {t u : Token} {ts us : List Token}
  {next next' : Option Token}

include hR

theorem alike_step (nesting : Nesting) (h : R t u) :
    Fits (AlikeFaults R) Eq (nesting.step t) (nesting.step u) := by
  unfold Nesting.step
  rw [← hR.kind h]
  split
  · exact .ok rfl
  · split
    · exact .error ⟨rfl, .some h⟩
    · split
      · exact .ok rfl
      · exact .error ⟨rfl, .some h⟩
  · exact .ok rfl

theorem alike_takeUntil (stop : Token.Kind → Bool) (nesting : Nesting) (h : Forall₂ R ts us) :
    Fits (AlikeFaults R) (AlikePairs R) (takeUntil stop nesting ts)
      (takeUntil stop nesting us) := by
  induction h generalizing nesting with
  | nil =>
    cases nesting with
    | nil => exact .ok ⟨.nil, .nil⟩
    | cons d outer => exact .error ⟨rfl, .none⟩
  | cons h hs ih =>
    rw [takeUntil, takeUntil, ← hR.kind h]
    split
    · exact .ok ⟨.nil, .cons h hs⟩
    · refine (alike_step hR nesting h).bind ?_
      rintro nesting' _ - rfl
      refine (ih nesting').bind ?_
      rintro ⟨taken, rest⟩ ⟨taken', rest'⟩ - ⟨ht, hr⟩
      exact .ok ⟨.cons h ht, hr⟩

end Fields

/-- The names have the same texts, and what is left is related. -/
def AlikeNames (R : Token → Token → Prop) (p q : List Token × List Token) : Prop :=
  (p.1.map fun t => String.ofList t.text) = (q.1.map fun t => String.ofList t.text) ∧
    Forall₂ R p.2 q.2

section Fields

variable {R : Token → Token → Prop} (hR : Indistinct R) {t u : Token} {ts us : List Token}
  {next next' : Option Token}

include hR

theorem alike_cons_names (h : R t u) (hk : t.kind = .ident)
    {x y : Except SyntaxFault (List Token × List Token)}
    (hxy : Fits (AlikeFaults R) (AlikeNames R) x y) :
    Fits (AlikeFaults R) (AlikeNames R)
      (do let (names, type) ← x; return (t :: names, type))
      (do let (names, type) ← y; return (u :: names, type)) := by
  refine hxy.bind ?_
  rintro ⟨names, type⟩ ⟨names', type'⟩ - ⟨hnames, htype⟩
  refine .ok ⟨?_, htype⟩
  simp only at hnames
  rw [List.map_cons, List.map_cons, hnames, hR.text h (by simp [hk])]

theorem alike_moreNames (hn : Option.Rel R next next') (h : Forall₂ R ts us) :
    Fits (AlikeFaults R) (AlikeNames R) (Field.moreNames next ts) (Field.moreNames next' us) := by
  induction ts using Field.moreNames.induct generalizing us with
  | case1 =>
    cases h
    exact .ok ⟨rfl, .nil⟩
  | case2 t ht =>
    rcases h with _ | ⟨htu, ⟨⟩⟩
    rw [Field.moreNames, Field.moreNames, ← hR.kind htu, if_pos ht, if_pos ht]
    exact .error ⟨rfl, hn⟩
  | case3 t ht =>
    rcases h with _ | ⟨htu, ⟨⟩⟩
    rw [Field.moreNames, Field.moreNames, ← hR.kind htu, if_neg ht, if_neg ht]
    exact .ok ⟨rfl, .cons htu .nil⟩
  | case4 t u ts ht hu ih =>
    rcases h with _ | ⟨htt, _ | ⟨huu, h⟩⟩
    simp only [Field.moreNames, ← hR.kind htt, ← hR.kind huu, ht, hu, ↓reduceIte]
    exact alike_cons_names hR huu hu (ih h)
  | case5 t u ts ht hu =>
    rcases h with _ | ⟨htt, _ | ⟨huu, h⟩⟩
    simp only [Field.moreNames, ← hR.kind htt, ← hR.kind huu, ht, hu, ↓reduceIte]
    exact .error ⟨rfl, .some huu⟩
  | case6 t u ts ht =>
    rcases h with _ | ⟨htt, _ | ⟨huu, h⟩⟩
    simp only [Field.moreNames, ← hR.kind htt, ht, ↓reduceIte]
    exact .ok ⟨rfl, .cons htt (.cons huu h)⟩

theorem alike_splitNames (hn : Option.Rel R next next') (h : Forall₂ R ts us) :
    Fits (AlikeFaults R) (AlikeNames R) (Field.splitNames next ts) (Field.splitNames next' us) := by
  rcases h with _ | ⟨htt, _ | ⟨huu, h⟩⟩
  · exact .ok ⟨rfl, .nil⟩
  · exact .ok ⟨rfl, .cons htt .nil⟩
  · rw [Field.splitNames, Field.splitNames, ← hR.kind htt, ← hR.kind huu]
    split
    · rename_i ht
      simp only [Bool.and_eq_true, decide_eq_true_eq] at ht
      exact alike_cons_names hR htt ht.1 (alike_moreNames hR hn (.cons huu h))
    · exact .ok ⟨rfl, .cons htt (.cons huu h)⟩

theorem alike_splitTag (h : Forall₂ R ts us) :
    Forall₂ R (Field.splitTag ts).1 (Field.splitTag us).1 ∧
      ((Field.splitTag ts).2.map fun t => String.ofList t.text) =
        ((Field.splitTag us).2.map fun t => String.ofList t.text) := by
  have hlast := rel_getLast? h
  unfold Field.splitTag
  generalize ts.getLast? = last at hlast
  generalize us.getLast? = last' at hlast
  cases hlast with
  | none => exact ⟨h, rfl⟩
  | some htu =>
    simp only [h.length_eq, hR.kind htu]
    split
    · rename_i htag
      refine ⟨forall₂_dropLast h, ?_⟩
      rw [Option.map_some, Option.map_some, hR.text htu]
      rw [hR.kind htu]
      rintro hk
      simp [hk, Token.Kind.isStringLiteral] at htag
    · exact ⟨h, rfl⟩

theorem alike_ofTokens (hn : Option.Rel R next next') (h : Forall₂ R ts us) :
    Fits (AlikeFaults R) (AlikeFields R) (Field.ofTokens ts next) (Field.ofTokens us next') := by
  have hj := hR.joinLines h
  unfold Field.ofTokens
  generalize Token.joinLines ts = ts at hj
  generalize Token.joinLines us = us at hj
  have hhead := rel_head? hj
  have hlast := rel_getLast? hj
  obtain ⟨hrest, htag⟩ := alike_splitTag hR hj
  simp only
  generalize ts.head? = first at hhead
  generalize us.head? = first' at hhead
  generalize ts.getLast? = last at hlast
  generalize us.getLast? = last' at hlast
  cases hhead with
  | none => exact .error ⟨rfl, hn⟩
  | some hfirst =>
    cases hlast with
    | none => exact .error ⟨rfl, hn⟩
    | some hlast =>
      simp only
      refine (alike_splitNames hR hn hrest).bind ?_
      rintro ⟨names, type⟩ ⟨names', type'⟩ - ⟨hnames, htype⟩
      have hempty : type.isEmpty = type'.isEmpty := by
        cases htype <;> rfl
      simp only [hempty]
      split
      · exact .error ⟨rfl, hn⟩
      · exact .ok ⟨hnames, htag, ⟨type, type', htype, rfl, rfl⟩,
          ⟨_, _, _, _, hfirst, hlast, rfl, rfl⟩⟩

theorem alike_takeField (h : R t u) (hs : Forall₂ R ts us) :
    Fits (AlikeFaults R) (AlikePairs R) (takeField t ts) (takeField u us) := by
  refine (alike_step hR [] h).bind ?_
  rintro nesting _ - rfl
  refine (alike_takeUntil hR _ nesting hs).bind ?_
  rintro ⟨taken, rest⟩ ⟨taken', rest'⟩ - ⟨ht, hr⟩
  exact .ok ⟨.cons h ht, hr⟩

theorem alike_dropSeparators (h : Forall₂ R ts us) :
    Forall₂ R (dropSeparators ts) (dropSeparators us) := by
  induction h with
  | nil => exact .nil
  | cons h hs ih =>
    rw [dropSeparators, dropSeparators, List.dropWhile_cons, List.dropWhile_cons, ← hR.kind h]
    split
    · exact ih
    · exact .cons h hs

end Fields

theorem typeGroup_eq (ts : List Token) : typeGroup ts =
    match dropSeparators ts with
    | [] => .error ⟨.closer .round, none⟩
    | t :: rest =>
      if t.kind = .closer .round then .ok ([], rest)
      else do
        let (decl, after) ← typeSpec (t :: rest)
        let (decls, after) ← typeGroup after
        return (decl :: decls, after) := by
  rw [typeGroup]
  split
  · rename_i hd
    rw [hd]
  · rename_i t rest hd
    simp only [hd]
    split
    · rfl
    · split
      · rename_i hs
        rw [hs]
        rfl
      · rename_i hs
        rw [hs]
        rfl

section Declarations

variable {R : Token → Token → Prop} (hR : Indistinct R) {t u : Token} {ts us : List Token}

include hR

/-- Fields and closing brace are alike, and what is left is related. -/
theorem alike_structBody {ts us : List Token} (h : Forall₂ R ts us) : Fits (AlikeFaults R)
    (fun p q => Forall₂ (AlikeFields R) p.1 q.1 ∧ R p.2.1 q.2.1 ∧ Forall₂ R p.2.2 q.2.2)
    (structBody ts) (structBody us) := by
  rw [structBody_eq ts, structBody_eq us]
  have hlen := length_dropSeparators_le ts
  have hdrop := alike_dropSeparators hR h
  generalize dropSeparators ts = ts' at hlen hdrop
  generalize dropSeparators us = us' at hdrop
  cases hdrop with
  | nil => exact .error ⟨rfl, .none⟩
  | @cons t u rest _ htu hrest =>
    simp only [← hR.kind htu]
    split
    · exact .ok ⟨.nil, htu, hrest⟩
    · refine (alike_takeField hR htu hrest).bind ?_
      rintro ⟨taken, after⟩ ⟨taken', after'⟩ htake ⟨ht, ha⟩
      have hlt : after.length < ts.length := by
        have := length_le_of_takeField htake
        rw [List.length_cons] at hlen
        omega
      refine (alike_ofTokens hR (rel_head? ha) ht).bind ?_
      rintro field field' - hfield
      refine (alike_structBody ha).bind ?_
      rintro ⟨fields, brace, left⟩ ⟨fields', brace', left'⟩ - ⟨hfields, hbrace, hleft⟩
      exact .ok ⟨.cons hfield hfields, hbrace, hleft⟩
termination_by ts.length

theorem alike_expect (kind : Token.Kind) (expected : Expected) (h : Forall₂ R ts us) :
    Fits (AlikeFaults R) (fun p q => p.1.kind = kind ∧ R p.1 q.1 ∧ Forall₂ R p.2 q.2)
      (expect kind expected ts) (expect kind expected us) := by
  cases h with
  | nil => exact .error ⟨rfl, .none⟩
  | cons htu h =>
    rw [expect, expect, ← hR.kind htu]
    split
    · exact .ok ⟨‹_›, htu, h⟩
    · exact .error ⟨rfl, .some htu⟩

theorem alike_opensTypeParameters (h : Forall₂ R ts us) :
    opensTypeParameters ts = opensTypeParameters us := by
  rcases h with _ | ⟨htt, _ | ⟨huu, h⟩⟩
  · rfl
  · rfl
  · rw [opensTypeParameters, opensTypeParameters, ← hR.kind htt, ← hR.kind huu]
    cases h with
    | nil => rfl
    | cons h _ => simp [hR.kind h]

theorem alike_typeParameters (h : Forall₂ R ts us) :
    Fits (AlikeFaults R) (AlikePairs R) (typeParameters ts) (typeParameters us) := by
  cases h with
  | nil => exact .ok ⟨.nil, .nil⟩
  | cons htu h =>
    rw [typeParameters, typeParameters, ← alike_opensTypeParameters hR (.cons htu h)]
    split
    · rw [takeGroup_eq_takeUntil, takeGroup_eq_takeUntil]
      refine (alike_takeUntil hR _ _ h).bind ?_
      rintro ⟨taken, rest⟩ ⟨taken', rest'⟩ - ⟨ht, hr⟩
      exact .ok ⟨.cons htu ht, hr⟩
    · exact .ok ⟨.nil, .cons htu h⟩

theorem alike_aliasSign (h : Forall₂ R ts us) : AlikePairs R (aliasSign ts) (aliasSign us) := by
  cases h with
  | nil => exact ⟨.nil, .nil⟩
  | @cons t u _ _ htu h =>
    have hsame : (t.kind = .op && t.text = ['=']) = (u.kind = .op && u.text = ['=']) := by
      rw [← hR.kind htu]
      by_cases hk : t.kind = .op
      · rw [hR.text htu (by simp [hk])]
      · simp [hk]
    rw [aliasSign, aliasSign, ← hsame]
    split
    · exact ⟨.cons htu .nil, h⟩
    · exact ⟨.nil, .cons htu h⟩

omit hR in
theorem alike_stopOf (h : R t u) (hs : Forall₂ R ts us) :
    AlikeSpans R ⟨t.start, stopOf t.stop ts⟩ ⟨u.start, stopOf u.stop us⟩ := by
  have hlast := rel_getLast? hs
  unfold stopOf
  generalize ts.getLast? = last at hlast
  generalize us.getLast? = last' at hlast
  cases hlast with
  | none => exact ⟨t, u, t, u, h, h, rfl, rfl⟩
  | some hl => exact ⟨t, u, _, _, h, hl, rfl, rfl⟩

theorem alike_typeSpec (h : Forall₂ R ts us) :
    Fits (AlikeFaults R) (fun p q => AlikeDecls R p.1 q.1 ∧ Forall₂ R p.2 q.2)
      (typeSpec ts) (typeSpec us) := by
  refine (alike_expect hR _ _ h).bind ?_
  rintro ⟨name, ts₁⟩ ⟨name', us₁⟩ - ⟨hkind, hname, h₁⟩
  refine (alike_typeParameters hR h₁).bind ?_
  rintro ⟨parameters, ts₂⟩ ⟨parameters', us₂⟩ - ⟨hparameters, h₂⟩
  simp only at hkind hname hparameters h₂
  have htext : String.ofList name.text = String.ofList name'.text := by
    rw [hR.text hname (by simp [hkind])]
  obtain ⟨hsign, h₃⟩ := alike_aliasSign hR h₂
  have hhead := List.rel_append hparameters hsign
  simp only
  generalize (aliasSign ts₂).2 = ts₃ at h₃
  generalize (aliasSign us₂).2 = us₃ at h₃
  cases h₃ with
  | nil => exact .ok ⟨⟨htext, .other, alike_stopOf hname hhead⟩, .nil⟩
  | cons htu h₄ =>
    simp only [← hR.kind htu]
    split
    · refine (alike_expect hR _ _ h₄).bind ?_
      rintro ⟨_, ts₅⟩ ⟨_, us₅⟩ - ⟨-, -, h₅⟩
      refine (alike_structBody hR h₅).bind ?_
      rintro ⟨fields, brace, ts₆⟩ ⟨fields', brace', us₆⟩ - ⟨hfields, hbrace, h₆⟩
      exact .ok ⟨⟨htext, .struct hfields, ⟨_, _, _, _, hname, hbrace, rfl, rfl⟩⟩, h₆⟩
    · refine (alike_takeUntil hR _ _ (.cons htu h₄)).bind ?_
      rintro ⟨taken, ts₅⟩ ⟨taken', us₅⟩ - ⟨htaken, h₅⟩
      exact .ok ⟨⟨htext, .other, alike_stopOf hname (List.rel_append hhead htaken)⟩, h₅⟩

theorem alike_typeGroup {ts us : List Token} (h : Forall₂ R ts us) :
    Fits (AlikeFaults R) (fun p q => Forall₂ (AlikeDecls R) p.1 q.1 ∧ Forall₂ R p.2 q.2)
      (typeGroup ts) (typeGroup us) := by
  rw [typeGroup_eq ts, typeGroup_eq us]
  have hlen := length_dropSeparators_le ts
  have hdrop := alike_dropSeparators hR h
  generalize dropSeparators ts = ts' at hlen hdrop
  generalize dropSeparators us = us' at hdrop
  cases hdrop with
  | nil => exact .error ⟨rfl, .none⟩
  | @cons t u rest _ htu hrest =>
    simp only [← hR.kind htu]
    split
    · exact .ok ⟨.nil, hrest⟩
    · refine (alike_typeSpec hR (.cons htu hrest)).bind ?_
      rintro ⟨decl, after⟩ ⟨decl', after'⟩ hspec ⟨hdecl, ha⟩
      have hlt := length_lt_of_typeSpec hspec
      refine (alike_typeGroup ha).bind ?_
      rintro ⟨decls, left⟩ ⟨decls', left'⟩ - ⟨hdecls, hleft⟩
      exact .ok ⟨.cons hdecl hdecls, hleft⟩
termination_by ts.length

theorem alike_typeDecls (h : Forall₂ R ts us) :
    Fits (AlikeFaults R) (fun p q => Forall₂ (AlikeDecls R) p.1 q.1 ∧ Forall₂ R p.2 q.2)
      (typeDecls ts) (typeDecls us) := by
  cases h with
  | nil => exact .error ⟨rfl, .none⟩
  | cons htu h =>
    rw [typeDecls, typeDecls, ← hR.kind htu]
    split
    · exact alike_typeGroup hR h
    · refine (alike_typeSpec hR (.cons htu h)).bind ?_
      rintro ⟨decl, left⟩ ⟨decl', left'⟩ - ⟨hdecl, hleft⟩
      exact .ok ⟨.cons hdecl .nil, hleft⟩

/-- Alike tokens declare the same, up to the tokens themselves, or fail in the same way. -/
theorem alike_declarations {ts us : List Token} (package : Option String) (nesting : Nesting)
    (h : Forall₂ R ts us) : Fits (AlikeFaults R) (AlikeFiles R)
      (declarations package nesting ts) (declarations package nesting us) := by
  cases h with
  | nil =>
    cases nesting with
    | nil =>
      rw [declarations]
      exact .ok ⟨rfl, .nil⟩
    | cons d outer =>
      rw [declarations]
      exact .error ⟨rfl, .none⟩
  | @cons t u rest _ htu hrest =>
    rw [declarations_cons, declarations_cons, ← hR.kind htu]
    split
    · refine (alike_expect hR _ _ hrest).bind ?_
      rintro ⟨name, left⟩ ⟨name', left'⟩ hexpect ⟨hkind, hname, hleft⟩
      have hlt := length_of_expect hexpect
      simp only at hkind hname ⊢
      rw [← hR.text hname (by simp [hkind])]
      exact alike_declarations _ _ hleft
    · split
      · refine (alike_typeDecls hR hrest).bind ?_
        rintro ⟨decls, left⟩ ⟨decls', left'⟩ hdecls ⟨hrel, hleft⟩
        have hlt := length_le_of_typeDecls hdecls
        refine (alike_declarations _ _ hleft).bind ?_
        rintro file file' - ⟨hpackage, htypes⟩
        exact .ok ⟨hpackage, List.rel_append hrel htypes⟩
      · refine (alike_step hR nesting htu).bind ?_
        rintro nesting' _ - rfl
        exact alike_declarations _ _ hrest
termination_by ts.length

end Declarations

end SignalBridge.Source
