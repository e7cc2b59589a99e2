import SignalBridge.Proofs.Source.FieldWalk

namespace SignalBridge.Source.Cursor

variable {source : List Char} {ts : List Token} {t : Token} {pos : Nat}

section Items

variable {β : Type} {d : Delimiter} {item : Reader β}

theorem isSeparator_of_dropSeparators {us rest : List Token} (h : dropSeparators us = t :: rest) :
    t.kind.isSeparator = false := by
  have := List.head?_dropWhile_not (fun t : Token => t.kind.isSeparator) us
  rw [← dropSeparators, h] at this
  exact this

/-- A pass over a list skips separators, and then the list ends too early, is closed, or has one
item more. -/
theorem itemPass_cases (items : List β) (h : pos ≤ ts.length) :
    ∃ pos', pos ≤ pos' ∧ pos' ≤ ts.length ∧ dropSeparators (ts.drop pos) = ts.drop pos' ∧
      (ts.drop pos' = [] ∧ itemPass source ts d item items pos =
          some (.error (.ofFault source ⟨.closer d, none⟩)) ∨
        ∃ t rest, ts.drop pos' = t :: rest ∧
          (t.kind = .closer d ∧ itemPass source ts d item items pos =
              some (.ok (.leave items, pos' + 1)) ∨
            t.kind ≠ .closer d ∧ t.kind.isSeparator = false ∧ itemPass source ts d item items pos =
              (do return .again (items ++ [← item]) : Reader (Pass (List β) (List β))) pos')) := by
  obtain ⟨pos', hskip, hle, hin, hdrop⟩ := skipSeparators_eq h
  refine ⟨pos', hle, hin, hdrop, ?_⟩
  rw [itemPass, bind_of_ok hskip, ahead_bind, Nat.add_zero]
  rcases next_cases hin with ⟨hnext, hnil⟩ | ⟨t, hnext, hcons, -⟩
  · refine .inl ⟨hnil, ?_⟩
    rw [hnext]
    change (refuse source ts _ : Reader (Pass (List β) (List β))) pos' = _
    rw [refuse_eq, hnext]
    rfl
  · refine .inr ⟨t, _, hcons, ?_⟩
    rw [hnext]
    by_cases hk : t.kind = .closer d
    · refine .inl ⟨hk, ?_⟩
      simp only [hk, ↓reduceIte]
      rw [bind_of_ok (bump_of_next hnext)]
      rfl
    · refine .inr ⟨hk, isSeparator_of_dropSeparators (hdrop.trans hcons), ?_⟩
      simp only [hk, ↓reduceIte]

/-- A list is read item by item. -/
theorem agrees_items {read : List Token → Except SyntaxFault (β × List Token)}
    {readAll : List Token → Except SyntaxFault (List β × List Token)}
    (hall : ∀ us, readAll us =
      match dropSeparators us with
      | [] => .error ⟨.closer d, none⟩
      | t :: rest =>
        if t.kind = .closer d then .ok ([], rest)
        else do
          let (b, after) ← read (t :: rest)
          let (bs, after) ← readAll after
          return (b :: bs, after))
    (hitem : ∀ {pos t rest}, ts.drop pos = t :: rest → t.kind.isSeparator = false →
      t.kind ≠ .closer d → Agrees source (Stands ts Eq) (item pos) (read (t :: rest)))
    (hshort : ∀ {us b after}, read us = .ok (b, after) → after.length < us.length)
    (items : List β) (h : pos ≤ ts.length) :
    Agrees source (Stands ts fun bs bs' => bs = items ++ bs')
      (Loop.run (itemPass source ts d item) items pos) (readAll (ts.drop pos)) := by
  generalize hn : ts.length - pos = n
  induction n using Nat.strongRecOn generalizing pos items with
  | _ n ih =>
    obtain ⟨pos', hle, hin, hdrop, hcase⟩ :=
      @itemPass_cases source ts pos β d item items h
    rw [hall, hdrop]
    rcases hcase with ⟨hnil, hpass⟩ | ⟨t, rest, hcons, ⟨hk, hpass⟩ | ⟨hk, hs, hpass⟩⟩
    · rw [loop_error hpass, hnil]
      exact .error (by simp)
    · obtain ⟨-, rfl, hle'⟩ := next_of_drop hcons
      rw [loop_leave hpass, hcons]
      simp only [hk, ↓reduceIte]
      exact .ok ⟨hle', rfl, (List.append_nil _).symm⟩
    · rw [hcons]
      simp only [hk, ↓reduceIte]
      rw [loop_again_bind hpass]
      refine (hitem hcons hs hk).bind ?_
      rintro b pos'' ⟨b', after⟩ hread hp
      have hrest : after.length < (ts.drop pos').length := by
        rw [hcons]
        exact hshort hread
      -- what the item has taken makes the tokens left fewer
      obtain ⟨hlt, hin'⟩ := hp.gets_on hrest
      obtain rfl : after = ts.drop pos'' := hp.rest
      obtain rfl : b = b' := hp.value
      refine (ih _ (by omega) (items ++ [b]) hin' rfl).finish ?_
      rintro ⟨bs, _⟩ ⟨bs', after⟩ hbs
      refine ⟨_, rfl, hbs.inside, hbs.rest, ?_⟩
      rw [hbs.value, List.append_assoc, List.singleton_append]

end Items

section Structs

/-- The fields of a struct, without the brace that closes it. -/
theorem structBody_fields_eq (us : List Token) :
    ((Source.structBody us).map fun p => (p.1, p.2.2)) =
      match dropSeparators us with
      | [] => .error ⟨.closer .curly, none⟩
      | t :: rest =>
        if t.kind = .closer .curly then .ok ([], rest)
        else do
          let (f, after) ← readField (t :: rest)
          let (fs, after) ← (Source.structBody after).map fun p => (p.1, p.2.2)
          return (f :: fs, after) := by
  rw [structBody_eq]
  cases dropSeparators us with
  | nil => rfl
  | cons t rest =>
    by_cases hk : t.kind = .closer .curly
    · simp only [hk, ↓reduceIte]
      rfl
    · simp only [hk, ↓reduceIte, readField]
      cases takeField t rest with
      | error fault => rfl
      | ok p =>
        obtain ⟨taken, after⟩ := p
        simp only [bind, Except.bind, pure, Except.pure]
        cases Field.ofTokens taken after.head? with
        | error fault => rfl
        | ok f =>
          dsimp only
          cases Source.structBody after <;> rfl

theorem agrees_structBody (hw : WrittenAt source ts) (h : pos ≤ ts.length) :
    Agrees source (fun p q => p.1 = q.1 ∧ p.2 ≤ ts.length ∧ q.2.2 = ts.drop p.2)
      (structBody source ts pos) (Source.structBody (ts.drop pos)) := by
  have hitems := agrees_items structBody_fields_eq
    (fun hdrop hs hk => agrees_field hw hdrop (endsField_eq_false hs hk)) length_lt_of_readField
    [] h
  exact hitems.of_map.mono fun p q _ hp => ⟨hp.value, hp.inside, hp.rest⟩

end Structs

section Types

theorem opensTypeParameters_eq (us : List Token) : opensTypeParameters us =
    (us[0]?.any (·.kind = .opener .square) &&
      (us[1]?.any (·.kind = .ident) && !us[2]?.any (·.kind = .closer .square))) := by
  match us with
  | [] => rfl
  | [t] => simp [opensTypeParameters]
  | t :: u :: us => simp [opensTypeParameters, List.head?_eq_getElem?, Bool.and_assoc]

/-- Whether type parameters follow is told by the next three tokens. -/
theorem typeParameters_eq_if : typeParameters source ts pos =
    if opensTypeParameters (ts.drop pos) then skipBalanced source ts pos
    else some (.ok ((), pos)) := by
  have hahead : atTypeParameters ts pos = some (.ok (ts[pos + 1]?.any (·.kind = .ident) &&
    !ts[pos + 2]?.any (·.kind = .closer .square), pos)) := rfl
  rw [opensTypeParameters_eq, List.getElem?_drop, List.getElem?_drop, List.getElem?_drop,
    Nat.add_zero, typeParameters, atKind_bind]
  cases ts[pos]?.any (·.kind = .opener .square) with
  | false => rfl
  | true =>
    simp only [↓reduceIte, Bool.true_and]
    rw [bind_of_ok hahead]
    split <;> rfl

theorem agrees_typeParameters (h : pos ≤ ts.length) :
    Agrees source (Stands ts fun _ _ => True) (typeParameters source ts pos)
      (Source.typeParameters (ts.drop pos)) := by
  rw [typeParameters_eq_if]
  rcases next_cases h with ⟨hnext, hnil⟩ | ⟨t, hnext, hcons, hle⟩
  · rw [hnil]
    exact .ok ⟨h, hnil.symm, trivial⟩
  · rw [hcons, Source.typeParameters]
    split
    · rename_i hopens
      have hk : t.kind = .opener .square := by
        rw [opensTypeParameters_eq, List.getElem?_cons_zero, Option.any_some] at hopens
        simpa using (Bool.and_eq_true_iff.mp hopens).1
      refine (agrees_skipBalanced hcons hk).finish ?_
      rintro ⟨_, pos'⟩ ⟨taken, rest⟩ hp
      exact ⟨_, rfl, hp.inside, hp.rest, trivial⟩
    · exact .ok ⟨h, hcons.symm, trivial⟩

theorem aliasSign_eq (h : pos ≤ ts.length) : ∃ pos',
    aliasSign source ts pos = some (.ok ((), pos')) ∧ pos' ≤ ts.length ∧
      (Source.aliasSign (ts.drop pos)).2 = ts.drop pos' := by
  rcases next_cases h with ⟨hnext, hnil⟩ | ⟨t, hnext, hcons, hle⟩
  · refine ⟨pos, ?_, h, by rw [hnil]; rfl⟩
    rw [aliasSign, ahead_bind, Nat.add_zero, hnext]
    rfl
  · rw [hcons, Source.aliasSign, aliasSign, ahead_bind, Nat.add_zero, hnext, Option.any_some]
    by_cases hk : t.kind = .op && t.text = ['=']
    · refine ⟨pos + 1, ?_, hle, by rw [if_pos hk]⟩
      rw [if_pos hk, bind_of_ok (bump_of_next hnext)]
      rfl
    · refine ⟨pos, ?_, h, by rw [if_neg hk, hcons]⟩
      rw [if_neg hk]
      rfl

/-- The name and the body of a declaration. -/
theorem agrees_namedBody (hw : WrittenAt source ts) (h : pos ≤ ts.length) :
    Agrees source (Stands ts fun p d =>
        d.name = String.ofList p.1.text ∧ d.body = p.2 ∧ d.span.start = p.1.start)
      (namedBody source ts pos) (Source.typeSpec (ts.drop pos)) := by
  refine (agrees_expect (by simp) h).bind ?_
  rintro name pos₁ ⟨_, ts₁⟩ - ⟨h₁, hts₁, rfl⟩
  obtain rfl : ts₁ = ts.drop pos₁ := hts₁
  refine (agrees_typeParameters h₁).bind ?_
  rintro _ pos₂ ⟨parameters, ts₂⟩ - ⟨h₂, hts₂, -⟩
  obtain rfl : ts₂ = ts.drop pos₂ := hts₂
  obtain ⟨pos₃, hsign, h₃, hts₃⟩ := @aliasSign_eq source ts pos₂ h₂
  rw [bind_of_ok hsign, atKind_bind]
  simp only at h₂ h₃ ⊢
  rw [hts₃]
  rcases next_cases h₃ with ⟨hnext, hnil⟩ | ⟨t, hnext, hcons, hle⟩
  · have hskip : skipType source ts pos₃ = some (.ok ((), pos₃)) :=
      bind_of_ok (loop_leave (typePass_leave (by simp [hnext])))
    rw [hnil, hnext, Option.any_none, if_neg Bool.false_ne_true, bind_of_ok hskip]
    exact .ok ⟨h₃, hnil.symm, rfl, rfl, rfl⟩
  · rw [hcons, hnext, Option.any_some]
    by_cases hk : t.kind = .keyword .struct
    · simp only [hk, ↓reduceIte, decide_true]
      rw [bind_of_ok (bump_of_next hnext)]
      refine (agrees_expect (by simp) hle).bind ?_
      rintro _ pos₄ ⟨_, ts₄⟩ - ⟨h₄, hts₄, -⟩
      obtain rfl : ts₄ = ts.drop pos₄ := hts₄
      refine (agrees_structBody hw h₄).bind ?_
      rintro fields pos₅ ⟨_, brace, ts₅⟩ - ⟨rfl, h₅, hts₅⟩
      exact .ok ⟨h₅, hts₅, rfl, rfl, rfl⟩
    · simp only [hk, ↓reduceIte, decide_false, Bool.false_eq_true]
      rw [← hcons]
      refine (agrees_skipType h₃).bind ?_
      rintro _ pos₄ ⟨taken, ts₄⟩ - ⟨h₄, hts₄, -⟩
      exact .ok ⟨h₄, hts₄, rfl, rfl, rfl⟩

/-- The span of a declaration goes to the last token taken. -/
theorem stop_eq {pos' : Nat} {d : TypeDecl} (h : pos ≤ ts.length) (h' : pos' ≤ ts.length)
    (hd : Source.typeSpec (ts.drop pos) = .ok (d, ts.drop pos')) (start : Nat) :
    ts[pos' - 1]?.elim start Token.stop = d.span.stop := by
  obtain ⟨run, hrun, name, more, rfl, -, -, hspan, -⟩ := declOf_typeSpec hd
  obtain ⟨init, last, hlast⟩ : ∃ init last, name :: more = init ++ [last] :=
    ⟨_, _, (List.dropLast_append_getLast (List.cons_ne_nil name more)).symm⟩
  have hstop : d.span.stop = last.stop := by
    rw [hspan]
    have := stopOf_cons 0 name more
    rw [hlast, stopOf_concat] at this
    exact this.symm
  have hlength := congrArg List.length hrun
  rw [hlast, List.append_assoc, List.singleton_append] at hrun
  rw [hlast] at hlength
  simp only [List.length_drop, List.length_append, List.length_singleton] at hlength
  have hget : ts[pos + init.length]? = some last := by
    rw [← List.getElem?_drop, hrun, List.getElem?_append_right (Nat.le_refl _), Nat.sub_self]
    rfl
  rw [show pos' - 1 = pos + init.length by omega, hget, hstop]
  rfl

theorem agrees_typeSpec (hw : WrittenAt source ts) (h : pos ≤ ts.length) :
    Agrees source (Stands ts Eq) (typeSpec source ts pos) (Source.typeSpec (ts.drop pos)) := by
  have hbody := agrees_namedBody hw h
  generalize hx : namedBody source ts pos = x at hbody
  generalize hy : Source.typeSpec (ts.drop pos) = y at hbody
  cases hbody with
  | @ok p q hp =>
    obtain ⟨⟨name, body⟩, pos'⟩ := p
    obtain ⟨⟨name', body', span⟩, rest⟩ := q
    obtain ⟨hin, hrest, hname, hbody, hstart⟩ := hp
    obtain rfl : rest = ts.drop pos' := hrest
    have hstop := stop_eq h hin hy name.start
    rw [typeSpec, bind_of_ok hx]
    simp only at hname hbody hstart hstop ⊢
    rw [get_bind, hstop, ← hname, ← hbody, ← hstart]
    exact .ok ⟨hin, rfl, rfl⟩
  | error he =>
    rw [typeSpec, bind_of_error hx]
    exact .error he

theorem agrees_typeSpec_of_drop {rest : List Token} (hw : WrittenAt source ts)
    (hdrop : ts.drop pos = t :: rest) :
    Agrees source (Stands ts Eq) (typeSpec source ts pos) (Source.typeSpec (t :: rest)) := by
  obtain ⟨-, -, hle⟩ := next_of_drop hdrop
  rw [← hdrop]
  exact agrees_typeSpec hw (Nat.le_of_succ_le hle)

theorem agrees_typeGroup (hw : WrittenAt source ts) (decls : List TypeDecl)
    (h : pos ≤ ts.length) : Agrees source (Stands ts fun ds ds' => ds = decls ++ ds')
      (Loop.run (groupPass source ts) decls pos) (Source.typeGroup (ts.drop pos)) :=
  agrees_items typeGroup_eq (fun hdrop _ _ => agrees_typeSpec_of_drop hw hdrop)
    length_lt_of_typeSpec decls h

theorem agrees_typeDecls (hw : WrittenAt source ts) (decls : List TypeDecl)
    (h : pos ≤ ts.length) : Agrees source (Stands ts fun ds ds' => ds = decls ++ ds')
      (typeDecls source ts decls pos) (Source.typeDecls (ts.drop pos)) := by
  have hone : Agrees source (Stands ts fun ds ds' => ds = decls ++ ds')
      ((do return decls ++ [← typeSpec source ts] : Reader (List TypeDecl)) pos)
      (do
        let read ← Source.typeSpec (ts.drop pos)
        return ([read.1], read.2)) := by
    refine (agrees_typeSpec hw h).bind ?_
    rintro decl pos' ⟨_, rest⟩ - ⟨hin, hrest, rfl⟩
    exact .ok ⟨hin, hrest, rfl⟩
  rw [typeDecls, atKind_bind]
  rcases next_cases h with ⟨hnext, hnil⟩ | ⟨t, hnext, hcons, hle⟩
  · rw [hnil] at hone
    rw [hnext, hnil, Option.any_none, if_neg Bool.false_ne_true]
    exact hone
  · rw [hnext, hcons, Source.typeDecls, Option.any_some]
    by_cases hk : t.kind = .opener .round
    · simp only [hk, ↓reduceIte, decide_true]
      rw [bind_of_ok (bump_of_next hnext)]
      exact agrees_typeGroup hw decls hle
    · simp only [hk, ↓reduceIte, decide_false, Bool.false_eq_true]
      rw [← hcons]
      exact hone

end Types

section Files

variable {file : SourceFile} {nesting : Nesting}

/-- What a pass over a file does with the next token. -/
theorem filePass_next (h : ts[pos]? = some t) : filePass source ts (file, nesting) pos =
    if nesting.isEmpty && file.package.isNone && t.kind = .keyword .package then
      (do
        let name ← expect source ts .ident .packageName
        return .again ({ file with package := some (String.ofList name.text) }, nesting) :
          Reader (Pass (SourceFile × Nesting) (SourceFile × Nesting))) (pos + 1)
    else if nesting.isEmpty && t.kind = .keyword .type then
      (do return .again ({ file with types := ← typeDecls source ts file.types }, nesting) :
        Reader (Pass (SourceFile × Nesting) (SourceFile × Nesting))) (pos + 1)
    else (do return .again (file, ← track source ts nesting) :
      Reader (Pass (SourceFile × Nesting) (SourceFile × Nesting))) pos := by
  rw [filePass, ahead_bind, Nat.add_zero, h]
  simp only
  split
  · exact bind_of_ok (bump_of_next h)
  · split
    · exact bind_of_ok (bump_of_next h)
    · rfl

theorem filePass_end (h : ts[pos]? = none) : filePass source ts (file, nesting) pos =
    some (.ok (.leave (file, nesting), pos)) := by
  rw [filePass, ahead_bind, Nat.add_zero, h]
  rfl

theorem restOfFile_again {β : Type} {x : Reader β} {f : β → SourceFile × Nesting}
    {s : SourceFile × Nesting} {pos' : Nat}
    (h : filePass source ts s pos = (do return .again (f (← x)) :
      Reader (Pass (SourceFile × Nesting) (SourceFile × Nesting))) pos') :
    restOfFile source ts s pos =
      (do restOfFile source ts (f (← x)) : Reader SourceFile) pos' := by
  rw [restOfFile, bind_eq_bind (loop_again_bind h), bind_assoc]
  rfl

/-- From wherever the walk stands, it reads the declarations that are left. What it has found so far
comes before them. -/
theorem agrees_restOfFile (hw : WrittenAt source ts) (h : pos ≤ ts.length) :
    Agrees source (fun p f => p.1 = ⟨f.package, file.types ++ f.types⟩)
      (restOfFile source ts (file, nesting) pos)
      (declarations file.package nesting (ts.drop pos)) := by
  -- by the number of tokens left, which each pass makes smaller
  generalize hn : ts.length - pos = n
  induction n using Nat.strongRecOn generalizing pos file nesting with
  | _ n ih =>
    rcases next_cases h with ⟨hnext, hnil⟩ | ⟨t, hnext, hcons, hle⟩
    · rw [hnil, restOfFile, bind_of_ok (loop_leave (filePass_end hnext))]
      cases nesting with
      | nil =>
        rw [declarations]
        exact .ok (by simp)
      | cons d outer =>
        rw [declarations]
        exact @Agrees.error _ _ _ _ ⟨.closer d, none⟩ (by simp)
    · have hpass := @filePass_next source ts t pos file nesting hnext
      rw [hcons, declarations_cons]
      split at hpass
      · rename_i hk
        rw [if_pos hk, restOfFile_again hpass]
        refine (agrees_expect (by simp) hle).bind ?_
        rintro name pos' ⟨_, rest⟩ hexpect hp
        have hshort : rest.length < (ts.drop pos).length := by
          rw [hcons, List.length_cons, length_of_expect hexpect]
          omega
        obtain ⟨hlt, hin⟩ := hp.gets_on hshort
        obtain ⟨-, hrest, rfl⟩ := hp
        obtain rfl : rest = ts.drop pos' := hrest
        simp only [Bool.and_eq_true, List.isEmpty_iff] at hk
        obtain rfl := hk.1.1
        exact @ih _ (by omega) pos' { file with package := some (String.ofList name.text) } []
          hin rfl
      · rename_i hk
        rw [if_neg hk]
        split at hpass
        · rename_i hk'
          rw [if_pos hk', restOfFile_again hpass]
          refine (agrees_typeDecls hw file.types hle).bind ?_
          rintro decls pos' ⟨decls', rest⟩ hdecls hp
          have hshort : rest.length < (ts.drop pos).length := by
            rw [hcons, List.length_cons]
            exact Nat.lt_succ_of_le (length_le_of_typeDecls hdecls)
          obtain ⟨hlt, hin⟩ := hp.gets_on hshort
          obtain rfl : rest = ts.drop pos' := hp.rest
          obtain rfl : decls = file.types ++ decls' := hp.value
          simp only [Bool.and_eq_true, List.isEmpty_iff] at hk'
          obtain rfl := hk'.1
          refine Agrees.finish (ih _ (by omega) hin rfl) ?_
          rintro p f hp
          exact ⟨_, rfl, by rw [hp, List.append_assoc]⟩
        · rename_i hk'
          rw [if_neg hk', restOfFile_again hpass]
          refine (agrees_track nesting hnext).bind ?_
          rintro nesting' pos' _ - ⟨⟩
          exact ih _ (by omega) hle rfl

end Files

end SignalBridge.Source.Cursor
