import SignalBridge.Proofs.Source.FileOfStructs

namespace SignalBridge.Source

/-- Every closing delimiter closes the innermost open one, which is of its kind, and none stays
open. -/
def Matched (ts : List Token) : Prop :=
  Enclosed true (ts.map Token.kind)

/-- The token stands outside all delimiters: those before it match. -/
def Outermost (t : Token) (ts : List Token) : Prop :=
  ∃ before after, ts = before ++ t :: after ∧ Matched before

/-- The kinds close the delimiters that are open, innermost first; what stands before, between and
after the closing ones is matched. -/
inductive Closes : Nesting → List Token.Kind → Prop where
  | nil {ks : List Token.Kind} (h : Enclosed true ks) : Closes [] ks
  | cons {d : Delimiter} {outer : Nesting} {inner ks : List Token.Kind} (hi : Enclosed true inner)
      (h : Closes outer ks) : Closes (d :: outer) (inner ++ .closer d :: ks)

/-- A reader takes matched tokens from `ts` and leaves `rest`. -/
def Leaves (ts rest : List Token) : Prop :=
  ∃ taken, taken ++ rest = ts ∧ Matched taken

section Closing

variable {nesting nesting' : Nesting} {t : Token} {ks front : List Token.Kind}

theorem Closes.prepend (hf : Enclosed true front) (h : Closes nesting ks) :
    Closes nesting (front ++ ks) := by
  cases h with
  | nil h => exact .nil (hf.append h)
  | cons hi h =>
    rw [← List.append_assoc]
    exact .cons (hf.append hi) h

theorem enclosed_plain {k : Token.Kind} (h : ∀ d, k ≠ .opener d ∧ k ≠ .closer d) :
    Enclosed true [k] :=
  .plain (fun _ => rfl) h .nil

/-- One token more in front, and the nesting one step back. -/
theorem Closes.step (hs : nesting.step t = .ok nesting') (h : Closes nesting' ks) :
    Closes nesting (t.kind :: ks) := by
  unfold Nesting.step at hs
  split at hs
  · rename_i d hk
    obtain rfl := Except.ok.inj hs
    cases h with
    | @cons _ _ inner ks hi h =>
      have hg : Enclosed true (.opener d :: (inner ++ [.closer d])) := .group hi .nil
      simpa [hk] using h.prepend hg
  · rename_i d hk
    split at hs
    · cases hs
    · rename_i innermost outer
      split at hs
      · rename_i hd
        obtain rfl := Except.ok.inj hs
        subst hd
        rw [hk]
        exact .cons .nil h
      · cases hs
  · rename_i ho hc
    obtain rfl := Except.ok.inj hs
    exact h.prepend (enclosed_plain fun d => ⟨ho d, hc d⟩)

end Closing

section Leaving

variable {t : Token} {ts us rest : List Token}

theorem Leaves.refl (ts : List Token) : Leaves ts ts :=
  ⟨[], rfl, .nil⟩

theorem Matched.append (ht : Matched ts) (hu : Matched us) : Matched (ts ++ us) := by
  rw [Matched, List.map_append]
  exact Enclosed.append ht hu

theorem Leaves.trans (h : Leaves ts us) (h' : Leaves us rest) : Leaves ts rest := by
  obtain ⟨taken, rfl, ht⟩ := h
  obtain ⟨taken', rfl, ht'⟩ := h'
  exact ⟨taken ++ taken', by rw [List.append_assoc], ht.append ht'⟩

theorem Leaves.plain (hk : ∀ d, t.kind ≠ .opener d ∧ t.kind ≠ .closer d) :
    Leaves (t :: ts) ts :=
  ⟨[t], rfl, enclosed_plain hk⟩

theorem Matched.group {d : Delimiter} {opening closing : Token} (ho : opening.kind = .opener d)
    (hc : closing.kind = .closer d) (h : Matched ts) : Matched (opening :: (ts ++ [closing])) := by
  rw [Matched, List.map_cons, List.map_append, List.map_cons, ho, hc]
  exact .group h .nil

/-- From an opening delimiter up to and with the closing one. -/
theorem Leaves.group {d : Delimiter} {opening closing : Token} (ho : opening.kind = .opener d)
    (hc : closing.kind = .closer d) (h : Leaves ts (closing :: rest)) :
    Leaves (opening :: ts) rest := by
  obtain ⟨inner, rfl, hi⟩ := h
  exact ⟨opening :: (inner ++ [closing]), by simp, hi.group ho hc⟩

theorem plain_of_isSeparator {k : Token.Kind} (h : k.isSeparator) (d : Delimiter) :
    k ≠ .opener d ∧ k ≠ .closer d := by
  constructor
  · rintro rfl
    simp [Token.Kind.isSeparator] at h
  · rintro rfl
    simp [Token.Kind.isSeparator] at h

theorem leaves_dropSeparators (ts : List Token) : Leaves ts (dropSeparators ts) := by
  induction ts with
  | nil => exact .refl []
  | cons t ts ih =>
    rw [dropSeparators, List.dropWhile_cons]
    split
    · rename_i hs
      exact (Leaves.plain (plain_of_isSeparator hs)).trans ih
    · exact .refl _

theorem expect_eq_ok {kind : Token.Kind} {expected : Expected}
    (h : expect kind expected ts = .ok (t, rest)) : ts = t :: rest ∧ t.kind = kind := by
  cases ts with
  | nil => simp [expect] at h
  | cons u us =>
    rw [expect] at h
    split at h
    · rename_i hu
      cases h
      exact ⟨rfl, hu⟩
    · simp at h

end Leaving

section Readers

variable {stop : Token.Kind → Bool} {nesting : Nesting} {t brace : Token}
  {ts taken rest : List Token} {fields : List Field} {decl : TypeDecl} {decls : List TypeDecl}
  {package : Option String} {file : SourceFile}

theorem closes_takeUntil (h : takeUntil stop nesting ts = .ok (taken, rest)) :
    Closes nesting (taken.map Token.kind) := by
  induction ts generalizing nesting taken with
  | nil =>
    cases nesting with
    | nil =>
      simp only [takeUntil, Except.ok.injEq, Prod.mk.injEq] at h
      rw [← h.1]
      exact .nil .nil
    | cons d outer => simp [takeUntil] at h
  | cons t ts ih =>
    rw [takeUntil] at h
    split at h
    · rename_i hstop
      simp only [Except.ok.injEq, Prod.mk.injEq] at h
      simp only [Bool.and_eq_true, List.isEmpty_iff] at hstop
      rw [← h.1, hstop.1]
      exact .nil .nil
    · obtain ⟨nesting', hstep, h⟩ := bind_eq_ok_iff.mp h
      obtain ⟨⟨taken', rest'⟩, hr, h⟩ := bind_eq_ok_iff.mp h
      simp only [pure_eq_ok, Except.ok.injEq, Prod.mk.injEq] at h
      obtain ⟨rfl, rfl⟩ := h
      exact (ih hr).step hstep

/-- A group ends wherever its delimiters are closed. -/
theorem takeGroup_eq_takeUntil (nesting : Nesting) (ts : List Token) :
    takeGroup nesting ts = takeUntil (fun _ => true) nesting ts := by
  induction ts generalizing nesting with
  | nil => cases nesting <;> rfl
  | cons t ts ih =>
    cases nesting with
    | nil => rfl
    | cons d outer => simp only [takeGroup, takeUntil, List.isEmpty_cons, Bool.false_and, ih]; rfl

theorem Closes.enclosed {ks : List Token.Kind} (h : Closes [] ks) : Enclosed true ks := by
  cases h with
  | nil h => exact h

theorem leaves_takeField (h : takeField t ts = .ok (taken, rest)) : Leaves (t :: ts) rest := by
  obtain ⟨nesting, hstep, h⟩ := bind_eq_ok_iff.mp h
  obtain ⟨⟨taken', rest'⟩, hr, h⟩ := bind_eq_ok_iff.mp h
  simp only [pure_eq_ok, Except.ok.injEq, Prod.mk.injEq] at h
  obtain ⟨rfl, rfl⟩ := h
  refine ⟨t :: taken', by rw [List.cons_append, takeUntil_append hr], ?_⟩
  exact ((closes_takeUntil hr).step hstep).enclosed

/-- The body of a struct is matched up to the closing brace. -/
theorem leaves_structBody (h : structBody ts = .ok (fields, brace, rest)) :
    Leaves ts (brace :: rest) ∧ brace.kind = .closer .curly := by
  fun_induction structBody ts generalizing fields with
  | case1 => simp at h
  | case2 ts t after hd ht =>
    cases h
    exact ⟨hd ▸ leaves_dropSeparators ts, ht⟩
  | case3 => simp at h
  | case4 ts t after hd ht taken after' hf ih =>
    obtain ⟨_, -, h⟩ := bind_eq_ok_iff.mp h
    obtain ⟨⟨_, _, _⟩, hr, h⟩ := bind_eq_ok_iff.mp h
    cases h
    obtain ⟨hl, hb⟩ := ih hr
    exact ⟨((hd ▸ leaves_dropSeparators ts).trans (leaves_takeField hf)).trans hl, hb⟩

theorem leaves_typeParameters (h : typeParameters ts = .ok (taken, rest)) : Leaves ts rest := by
  unfold typeParameters at h
  split at h
  · rename_i bracket us
    split at h
    · rename_i hopens
      obtain ⟨⟨taken', rest'⟩, hr, h⟩ := bind_eq_ok_iff.mp h
      cases h
      have hb : bracket.kind = .opener .square := by
        cases us with
        | nil => simp [opensTypeParameters] at hopens
        | cons u us =>
          simp only [opensTypeParameters, Bool.and_eq_true, decide_eq_true_eq] at hopens
          exact hopens.1.1
      have hstep : Nesting.step [] bracket = .ok [.square] := by rw [Nesting.step, hb]
      rw [takeGroup_eq_takeUntil] at hr
      exact ⟨bracket :: taken', by rw [List.cons_append, takeUntil_append hr],
        ((closes_takeUntil hr).step hstep).enclosed⟩
    · cases h
      exact .refl _
  · cases h
    exact .refl _

theorem leaves_aliasSign (ts : List Token) : Leaves ts (aliasSign ts).2 := by
  cases ts with
  | nil => exact .refl _
  | cons t ts =>
    rw [aliasSign]
    split
    · rename_i ht
      simp only [Bool.and_eq_true, decide_eq_true_eq] at ht
      exact .plain (by simp [ht.1])
    · exact .refl _

theorem leaves_typeSpec (h : typeSpec ts = .ok (decl, rest)) : Leaves ts rest := by
  obtain ⟨⟨name, ts₁⟩, h₁, h⟩ := bind_eq_ok_iff.mp h
  obtain ⟨⟨parameters, ts₂⟩, h₂, h⟩ := bind_eq_ok_iff.mp h
  have hl : Leaves ts (aliasSign ts₂).2 := by
    obtain ⟨rfl, hname⟩ := expect_eq_ok h₁
    exact ((Leaves.plain (by simp [hname])).trans (leaves_typeParameters h₂)).trans
      (leaves_aliasSign ts₂)
  simp only at h
  split at h
  · rename_i hs
    cases h
    exact hs ▸ hl
  · rename_i t ts₃ hs
    rw [hs] at hl
    split at h
    · rename_i ht
      obtain ⟨⟨opening, ts₄⟩, h₄, h⟩ := bind_eq_ok_iff.mp h
      obtain ⟨⟨fields, brace, ts₅⟩, h₅, h⟩ := bind_eq_ok_iff.mp h
      cases h
      obtain ⟨hbody, hbrace⟩ := leaves_structBody h₅
      obtain ⟨rfl, hopening⟩ := expect_eq_ok h₄
      exact (hl.trans (.plain (by simp [ht]))).trans (.group hopening hbrace hbody)
    · obtain ⟨⟨taken, ts₄⟩, h₄, h⟩ := bind_eq_ok_iff.mp h
      cases h
      exact hl.trans ⟨taken, takeUntil_append h₄, (closes_takeUntil h₄).enclosed⟩

/-- A group is matched up to the closing parenthesis. -/
theorem leaves_typeGroup (h : typeGroup ts = .ok (decls, rest)) :
    ∃ closing : Token, Leaves ts (closing :: rest) ∧ closing.kind = .closer .round := by
  fun_induction typeGroup ts generalizing decls with
  | case1 => simp at h
  | case2 ts t after hd ht =>
    cases h
    exact ⟨t, hd ▸ leaves_dropSeparators ts, ht⟩
  | case3 => simp at h
  | case4 ts t after hd ht decl after' hs ih =>
    obtain ⟨⟨_, _⟩, hr, h⟩ := bind_eq_ok_iff.mp h
    cases h
    obtain ⟨closing, hl, hc⟩ := ih hr
    exact ⟨closing, ((hd ▸ leaves_dropSeparators ts).trans (leaves_typeSpec hs)).trans hl, hc⟩

theorem leaves_typeDecls (h : typeDecls ts = .ok (decls, rest)) : Leaves ts rest := by
  unfold typeDecls at h
  split at h
  · split at h
    · rename_i ht
      obtain ⟨closing, hl, hc⟩ := leaves_typeGroup h
      exact .group ht hc hl
    · obtain ⟨⟨_, _⟩, hr, h⟩ := bind_eq_ok_iff.mp h
      cases h
      exact leaves_typeSpec hr
  · simp at h

theorem Closes.of_leaves (hl : Leaves ts rest) (h : Closes nesting (rest.map Token.kind)) :
    Closes nesting (ts.map Token.kind) := by
  obtain ⟨taken, rfl, ht⟩ := hl
  rw [List.map_append]
  exact h.prepend ht

/-- What is read to the end closes all that was open. -/
theorem closes_declarations (h : declarations package nesting ts = .ok file) :
    Closes nesting (ts.map Token.kind) := by
  fun_induction declarations package nesting ts generalizing file with
  | case1 => exact .nil .nil
  | case2 => simp at h
  | case3 => simp at h
  | case4 package nesting t us ht name rest he ih =>
    simp only [Bool.and_eq_true, List.isEmpty_iff, decide_eq_true_eq] at ht
    obtain ⟨rfl, hname⟩ := expect_eq_ok he
    obtain rfl := ht.1.1
    exact .of_leaves ((Leaves.plain (by simp [ht.2])).trans (.plain (by simp [hname]))) (ih h)
  | case5 => simp at h
  | case6 package nesting t us _ ht decls rest hd ih =>
    simp only [Bool.and_eq_true, List.isEmpty_iff, decide_eq_true_eq] at ht
    obtain ⟨file', hr, h⟩ := bind_eq_ok_iff.mp h
    obtain rfl := ht.1
    exact .of_leaves ((Leaves.plain (by simp [ht.2])).trans (leaves_typeDecls hd)) (ih hr)
  | case7 package nesting t us _ _ ih =>
    obtain ⟨nesting', hstep, h⟩ := bind_eq_ok_iff.mp h
    exact (ih nesting' h).step hstep

end Readers

section Stack

variable {nesting : Nesting} {ts : List Token} {ks : List Token.Kind}

theorem foldlM_step_of_enclosed {separators : Bool} (h : Enclosed separators ks)
    (hk : ts.map Token.kind = ks) : ts.foldlM Nesting.step nesting = .ok nesting := by
  induction h generalizing ts nesting with
  | nil =>
    obtain rfl := List.map_eq_nil_iff.mp hk
    rfl
  | plain _ hd _ ih =>
    obtain ⟨t, ts, rfl, rfl, hts⟩ := List.map_eq_cons_iff.mp hk
    rw [List.foldlM_cons, step_of_plain hd]
    exact ih hts
  | @group _ d inner ks _ _ ihi ih =>
    obtain ⟨t, ts, rfl, ht, hts⟩ := List.map_eq_cons_iff.mp hk
    obtain ⟨ti, ts, rfl, hti, hts⟩ := List.map_eq_append_iff.mp hts
    obtain ⟨t', ts, rfl, ht', hts⟩ := List.map_eq_cons_iff.mp hts
    have hopen : nesting.step t = .ok (d :: nesting) := by simp [Nesting.step, ht]
    have hclose : Nesting.step (d :: nesting) t' = .ok nesting := by simp [Nesting.step, ht']
    calc (t :: (ti ++ t' :: ts)).foldlM Nesting.step nesting
        = (ti ++ t' :: ts).foldlM Nesting.step (d :: nesting) := by
          rw [List.foldlM_cons, hopen]
          rfl
      _ = (t' :: ts).foldlM Nesting.step (d :: nesting) := by
          rw [List.foldlM_append, ihi hti]
          rfl
      _ = ts.foldlM Nesting.step nesting := by
          rw [List.foldlM_cons, hclose]
          rfl
      _ = .ok nesting := ih hts

theorem closes_of_foldlM_step (h : ts.foldlM Nesting.step nesting = .ok []) :
    Closes nesting (ts.map Token.kind) := by
  induction ts generalizing nesting with
  | nil =>
    obtain rfl : nesting = [] := Except.ok.inj h
    exact .nil .nil
  | cons t ts ih =>
    rw [List.foldlM_cons] at h
    obtain ⟨nesting', hstep, h⟩ := bind_eq_ok_iff.mp h
    exact (ih h).step hstep

/-- The stack says the same as the grammar. -/
theorem matched_iff_foldlM_step : Matched ts ↔ ts.foldlM Nesting.step [] = .ok [] :=
  ⟨fun h => foldlM_step_of_enclosed h rfl, fun h => (closes_of_foldlM_step h).enclosed⟩

instance (ts : List Token) : Decidable (Matched ts) :=
  decidable_of_iff _ matched_iff_foldlM_step.symm

/-- Which tokens stand outside all delimiters can be tried place by place. -/
theorem forall_outermost_iff {p : Token → Prop} : (∀ t, Outermost t ts → p t) ↔
    ∀ i : Fin ts.length, Matched (ts.take i) → p ts[i] := by
  constructor
  · intro h i hm
    have hsplit : ts = ts.take i ++ ts[i] :: ts.drop (i + 1) := by
      rw [Fin.getElem_fin, ← List.drop_eq_getElem_cons i.isLt, List.take_append_drop]
    exact h _ ⟨ts.take i, ts.drop (i + 1), hsplit, hm⟩
  · rintro h t ⟨before, after, rfl, hb⟩
    have hlt : before.length < (before ++ t :: after).length := by simp
    have := h ⟨before.length, hlt⟩ (by simpa using hb)
    simpa using this

end Stack

section PassingOver

variable {nesting nesting' : Nesting} {t : Token} {ts rest : List Token} {ks : List Token.Kind}
  {package : Option String}

/-- The keywords that begin what is read outside all delimiters. -/
def Token.Kind.declares (kind : Kind) : Bool :=
  kind = .keyword .type || kind = .keyword .package

theorem declarations_step (hk : nesting ≠ [] ∨ t.kind.declares = false)
    (hs : nesting.step t = .ok nesting') :
    declarations package nesting (t :: ts) = declarations package nesting' ts := by
  have hpackage : ¬ (nesting.isEmpty && package.isNone && t.kind = .keyword .package) := by
    rcases hk with hk | hk
    · simp [hk]
    · simp_all [Token.Kind.declares]
  have htype : ¬ (nesting.isEmpty && t.kind = .keyword .type) := by
    rcases hk with hk | hk
    · simp [hk]
    · simp_all [Token.Kind.declares]
  rw [declarations, if_neg hpackage, if_neg htype, hs]
  rfl

theorem Outermost.of_append {us : List Token} (hm : Matched us) (h : Outermost t ts) :
    Outermost t (us ++ ts) := by
  obtain ⟨before, after, rfl, hb⟩ := h
  exact ⟨us ++ before, after, by rw [List.append_assoc], hm.append hb⟩

theorem Outermost.behind_group {d : Delimiter} {closing : Token} {us : List Token}
    {opening : Token} (ho : opening.kind = .opener d) (hc : closing.kind = .closer d)
    (hm : Matched us) (h : Outermost t ts) : Outermost t (opening :: (us ++ closing :: ts)) := by
  simpa using h.of_append (hm.group ho hc)

/-- Matched tokens that declare nothing outside their delimiters are passed over, whatever is
inside. -/
theorem declarations_enclosed (h : Enclosed true ks) (hk : ts.map Token.kind = ks)
    (ho : nesting ≠ [] ∨ ∀ t, Outermost t ts → t.kind.declares = false) :
    declarations package nesting (ts ++ rest) = declarations package nesting rest := by
  generalize hsep : true = separators at h
  induction h generalizing ts nesting rest with
  | nil =>
    obtain rfl := List.map_eq_nil_iff.mp hk
    rfl
  | @plain separators k ks _ hd _ ih =>
    obtain ⟨t, ts, rfl, rfl, hts⟩ := List.map_eq_cons_iff.mp hk
    have ht := ho.imp_right fun ho => ho t ⟨[], ts, rfl, .nil⟩
    have hone : Matched [t] := enclosed_plain hd
    have hrest : nesting ≠ [] ∨ ∀ u, Outermost u ts → u.kind.declares = false :=
      ho.imp_right fun ho u hu => ho u (hu.of_append hone)
    rw [List.cons_append, declarations_step ht (step_of_plain hd), ih hts hrest hsep]
  | @group separators d inner ks hi _ ihi ih =>
    obtain ⟨t, ts, rfl, ht, hts⟩ := List.map_eq_cons_iff.mp hk
    obtain ⟨ti, ts, rfl, hti, hts⟩ := List.map_eq_append_iff.mp hts
    obtain ⟨t', ts, rfl, ht', hts⟩ := List.map_eq_cons_iff.mp hts
    have hopen : nesting.step t = .ok (d :: nesting) := by simp [Nesting.step, ht]
    have hclose : Nesting.step (d :: nesting) t' = .ok nesting := by simp [Nesting.step, ht']
    have hinner : Matched ti := by
      rw [Matched, hti]
      exact hi
    have hrest : nesting ≠ [] ∨ ∀ u, Outermost u ts → u.kind.declares = false :=
      ho.imp_right fun ho u hu => ho u (hu.behind_group ht ht' hinner)
    rw [List.cons_append, declarations_step (.inr (by simp [ht, Token.Kind.declares])) hopen,
      List.append_assoc, ihi hti (.inl (List.cons_ne_nil _ _)) rfl, List.cons_append,
      declarations_step (.inl (List.cons_ne_nil _ _)) hclose, ih hts hrest hsep]

end PassingOver

/-- A file that is read has its delimiters matched. A file with matched delimiters is read as empty
if no keyword that declares something stands outside them. -/
theorem scan_matched {source : String} {ts : List Token} (h : tokenize source = .ok ts) :
    (∀ file, scan source = .ok file → Matched ts) ∧
      (Matched ts →
        (∀ t, Outermost t ts → t.kind ≠ .keyword .type ∧ t.kind ≠ .keyword .package) →
        scan source = .ok ⟨none, []⟩) := by
  have hscan : scan source =
      (SourceFile.ofTokens ts).mapError (.ofSyntaxFault source.toList) := by
    rw [scan, h]
    rfl
  rw [hscan, SourceFile.ofTokens]
  constructor
  · intro file hfile
    cases hd : declarations none [] ts with
    | error fault =>
      rw [hd] at hfile
      cases hfile
    | ok read => exact (closes_declarations hd).enclosed
  · intro hm ho
    have hread : declarations none [] (ts ++ []) = declarations none [] [] :=
      declarations_enclosed hm rfl (.inr fun t ht => by simp [Token.Kind.declares, ho t ht])
    rw [List.append_nil, declarations] at hread
    rw [hread]
    rfl

/-- The tokens of `func f() { type t struct{} }`. -/
def localStruct : List Token :=
  [⟨.keyword .func, 0, [], "func".toList⟩, ⟨.ident, 5, [' '], ['f']⟩,
    ⟨.opener .round, 6, [], ['(']⟩, ⟨.closer .round, 7, [], [')']⟩,
    ⟨.opener .curly, 9, [' '], ['\x7b']⟩, ⟨.keyword .type, 11, [' '], "type".toList⟩,
    ⟨.ident, 16, [' '], ['t']⟩, ⟨.keyword .struct, 18, [' '], "struct".toList⟩,
    ⟨.opener .curly, 24, [], ['\x7b']⟩, ⟨.closer .curly, 25, [], ['\x7d']⟩,
    ⟨.closer .curly, 27, [' '], ['\x7d']⟩]

theorem scan_matched_localStruct :
    tokenize "func f() \x7b type t struct\x7b\x7d \x7d" = .ok localStruct ∧ Matched localStruct ∧
      scan "func f() \x7b type t struct\x7b\x7d \x7d" = .ok ⟨none, []⟩ := by
  have htokens : tokenize "func f() \x7b type t struct\x7b\x7d \x7d" = .ok localStruct := by decide +kernel
  have hmatched : Matched localStruct := by decide
  exact ⟨htokens, hmatched,
    (scan_matched htokens).2 hmatched (forall_outermost_iff.mpr (by decide))⟩

end SignalBridge.Source
