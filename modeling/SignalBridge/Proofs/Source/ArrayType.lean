import SignalBridge.Proofs.Source.Concatenation

/-!
Declarations of array types. A length in brackets and type parameters begin alike, and the scanner
takes a length that begins with a name and has more to it for type parameters. This shows only where
the elements are structs: the scanner finds no struct in any other array type, wherever it is
declared (`scan_arrayDecl`).
-/

namespace SignalBridge.Source

/-- The tokens of an array type behind its name, and what they need to be for a declaration. The
elements are of any type that ends where its line does. -/
structure ArrayDecl where
  name : Token
  opening : Token
  length : List Token
  closing : Token
  elem : List Token
  name_ident : name.kind = .ident
  opening_square : opening.kind = .opener .square
  length_ne_nil : length ≠ []
  length_matched : Matched length
  closing_square : closing.kind = .closer .square
  elem_ne_nil : elem ≠ []
  elem_enclosed : Enclosed false (elem.map Token.kind)
  /-- No type begins with an equals sign. -/
  elem_type : ∀ t ∈ elem.head?, ¬(t.kind = .op ∧ t.text = ['='])

namespace ArrayDecl

def tokens (a : ArrayDecl) : List Token :=
  a.name :: a.opening :: (a.length ++ a.closing :: a.elem)

def typeName (a : ArrayDecl) : String :=
  String.ofList a.name.text

def span (a : ArrayDecl) : Span :=
  ⟨a.name.start, stopOf a.name.stop a.elem⟩

/-- The length begins with a name and has more to it, so that it passes for type parameters. -/
def BeginsLikeParameters (a : ArrayDecl) : Prop :=
  (∃ t ∈ a.length.head?, t.kind = .ident) ∧ a.length.tail ≠ []

/-- The elements are structs whose fields the scanner takes for those of the type. -/
def TakenForStruct (a : ArrayDecl) : Prop :=
  a.BeginsLikeParameters ∧ ∃ t ∈ a.elem.head?, t.kind = .keyword .struct

end ArrayDecl

section Reading

variable {ts rest : List Token}

theorem takeUntil_stop {stop : Token.Kind → Bool} (h : ∀ t ∈ rest.head?, stop t.kind) :
    takeUntil stop [] rest = .ok ([], rest) := by
  cases rest with
  | nil => rfl
  | cons t rest => simp [takeUntil, h t rfl]

/-- A type that is no struct is read up to where it ends. -/
theorem typeSpec_other {name : Token} {parameters taken : List Token} (hname : name.kind = .ident)
    (hparameters : typeParameters ts = .ok (parameters, taken ++ rest))
    (hsign : aliasSign (taken ++ rest) = ([], taken ++ rest)) (hne : taken ≠ [])
    (hstruct : ∀ t ∈ taken.head?, t.kind ≠ .keyword .struct)
    (htaken : Enclosed false (taken.map Token.kind)) (hr : ∀ t ∈ rest.head?, t.kind.endsType) :
    typeSpec (name :: ts) = .ok (⟨String.ofList name.text, .other,
      ⟨name.start, stopOf name.stop (parameters ++ taken)⟩⟩, rest) := by
  have hstop (k : Token.Kind) (hk : k.endsType) : k.isSeparator ∨ ∃ d, k = .closer d := by
    simp only [Token.Kind.endsType, Bool.or_eq_true, decide_eq_true_eq] at hk
    exact hk.imp_right fun h => ⟨_, h⟩
  have hread : takeUntil Token.Kind.endsType [] (taken ++ rest) = .ok (taken, rest) := by
    rw [takeUntil_enclosed htaken rfl (.inr ⟨rfl, hstop⟩), takeUntil_stop hr]
    simp [Except.map]
  obtain ⟨t, more, rfl⟩ := List.exists_cons_of_ne_nil hne
  have ht : t.kind ≠ .keyword .struct := hstruct t rfl
  rw [List.cons_append] at hsign hread hparameters
  unfold typeSpec
  simp only [expect_of_kind hname, hparameters, hsign, hread, if_neg ht, bind, Except.bind, pure,
    Except.pure, List.append_nil]

theorem stopOf_append (start : Nat) (us : List Token) (h : ts ≠ []) :
    stopOf start (us ++ ts) = stopOf start ts := by
  rw [stopOf, stopOf, List.getLast?_append_of_ne_nil _ h]

end Reading

namespace ArrayDecl

variable (a : ArrayDecl) {rest after : List Token} {d : TypeDecl}

theorem enclosed_type : Enclosed false
    ((a.opening :: (a.length ++ a.closing :: a.elem)).map Token.kind) := by
  rw [List.map_cons, List.map_append, List.map_cons, a.opening_square, a.closing_square]
  exact .group a.length_matched a.elem_enclosed

/-- The lookahead of the scanner sees what the length begins with and whether that is all. -/
theorem opensTypeParameters_iff :
    opensTypeParameters (a.opening :: (a.length ++ a.closing :: rest)) ↔
      a.BeginsLikeParameters := by
  obtain ⟨t, more, hlength⟩ := List.exists_cons_of_ne_nil a.length_ne_nil
  have hmatched := a.length_matched
  rw [hlength, Matched, List.map_cons] at hmatched
  simp only [BeginsLikeParameters, hlength, List.cons_append, opensTypeParameters,
    a.opening_square, List.head?_cons, List.tail_cons]
  cases more with
  | nil => simp [a.closing_square]
  | cons u more =>
    have hu : t.kind = .ident → u.kind ≠ .closer .square := by
      intro ht hu
      rw [List.map_cons, ht, hu] at hmatched
      cases hmatched with
      | plain _ _ h =>
        cases h with
        | plain _ hd _ => exact (hd .square).2 rfl
    simpa using hu

theorem typeParameters_eq (ha : a.BeginsLikeParameters) :
    typeParameters (a.opening :: (a.length ++ a.closing :: rest)) =
      .ok (a.opening :: (a.length ++ [a.closing]), rest) := by
  have hclose : Nesting.step [.square] a.closing = .ok [] := by
    simp [Nesting.step, a.closing_square]
  have hgroup : takeGroup [.square] (a.length ++ a.closing :: rest) =
      .ok (a.length ++ [a.closing], rest) := by
    have hinside : ([.square] : Nesting) ≠ [] := List.cons_ne_nil _ _
    rw [takeGroup_eq_takeUntil, takeUntil_enclosed a.length_matched rfl (.inl hinside),
      takeUntil_cons (.inl hinside) hclose, takeUntil_stop fun _ _ => rfl]
    rfl
  rw [typeParameters, if_pos (a.opensTypeParameters_iff.mpr ha), hgroup]
  rfl

theorem aliasSign_elem : aliasSign (a.elem ++ rest) = ([], a.elem ++ rest) := by
  obtain ⟨t, more, helem⟩ := List.exists_cons_of_ne_nil a.elem_ne_nil
  have ht := a.elem_type t (by simp [helem])
  simp [helem, aliasSign, ht]

/-- A declaration that is not taken for a struct is read to the end of its type, in either way. -/
theorem typeSpec_eq (ha : ¬a.TakenForStruct) (hr : ∀ t ∈ rest.head?, t.kind.endsType) :
    typeSpec (a.tokens ++ rest) = .ok (⟨a.typeName, .other, a.span⟩, rest) := by
  rw [tokens, List.cons_append, List.cons_append, List.append_assoc, List.cons_append]
  by_cases hp : a.BeginsLikeParameters
  · rw [typeSpec_other a.name_ident (a.typeParameters_eq hp) a.aliasSign_elem a.elem_ne_nil
      (fun t ht hk => ha ⟨hp, t, ht, hk⟩) a.elem_enclosed hr, stopOf_append _ _ a.elem_ne_nil]
    rfl
  · have htype : a.opening :: (a.length ++ a.closing :: (a.elem ++ rest)) =
        (a.opening :: (a.length ++ a.closing :: a.elem)) ++ rest := by simp
    have hparameters : typeParameters (a.opening :: (a.length ++ a.closing :: (a.elem ++ rest))) =
        .ok ([], (a.opening :: (a.length ++ a.closing :: a.elem)) ++ rest) := by
      rw [typeParameters, if_neg (mt a.opensTypeParameters_iff.mp hp), htype]
    rw [typeSpec_other a.name_ident hparameters (by simp [aliasSign, a.opening_square])
      (List.cons_ne_nil _ _) (by simp [a.opening_square]) a.enclosed_type hr, List.nil_append]
    have hstop := stopOf_append a.name.stop (a.opening :: (a.length ++ [a.closing])) a.elem_ne_nil
    rw [List.cons_append, List.append_assoc] at hstop
    rw [span, ← hstop]
    rfl

/-- One that is taken for a struct is never read as anything else. -/
theorem isSome_struct?_of_typeSpec (ha : a.TakenForStruct)
    (h : typeSpec (a.tokens ++ rest) = .ok (d, after)) : d.struct?.isSome := by
  obtain ⟨hp, t, ht, hk⟩ := ha
  obtain ⟨more, helem⟩ : ∃ more, a.elem = t :: more := ⟨_, (List.cons_head?_tail ht).symm⟩
  rw [tokens, List.cons_append, List.cons_append, List.append_assoc, List.cons_append] at h
  obtain ⟨⟨name, ts⟩, hname, h⟩ := bind_eq_ok_iff.mp h
  rw [expect_of_kind a.name_ident] at hname
  cases hname
  obtain ⟨⟨parameters, ts⟩, hparameters, h⟩ := bind_eq_ok_iff.mp h
  rw [a.typeParameters_eq hp] at hparameters
  cases hparameters
  simp only [a.aliasSign_elem] at h
  rw [helem, List.cons_append] at h
  simp only [hk, if_true] at h
  obtain ⟨⟨_, ts⟩, -, h⟩ := bind_eq_ok_iff.mp h
  obtain ⟨⟨fields, brace, ts⟩, -, h⟩ := bind_eq_ok_iff.mp h
  cases h
  rfl

end ArrayDecl

/-- Declarations in a group, each with a separator behind it. -/
inductive GroupLines : List Token → List TypeDecl → Prop where
  | nil : GroupLines [] []
  | separator {t : Token} {ts : List Token} {ds : List TypeDecl} (ht : t.kind.isSeparator)
      (h : GroupLines ts ds) : GroupLines (t :: ts) ds
  | spec {line : Token} {us ts : List Token} {d : TypeDecl} {ds : List TypeDecl}
      (hl : line.kind.isSeparator) (hd : typeSpec (us ++ [line]) = .ok (d, [line]))
      (h : GroupLines ts ds) : GroupLines (us ++ line :: ts) (d :: ds)

/-- Where the declaration `spec` can stand in a file: outside all delimiters behind the keyword, or
in a group. What stands before it and what follows it is read without it, and declares `front` and
`back`. -/
inductive StandsIn (spec : List Token) :
    List Token → Option String → (front back : List TypeDecl) → Prop where
  | alone {keyword : Token} {before rest : List Token} {first last : SourceFile}
      (hbefore : ∀ t ∈ before.getLast?, t.kind.isSeparator)
      (hfirst : SourceFile.ofTokens before = .ok first) (hkeyword : keyword.kind = .keyword .type)
      (hrest : ∀ t ∈ rest.head?, t.kind.isSeparator) (hlast : SourceFile.ofTokens rest = .ok last) :
      StandsIn spec (before ++ keyword :: (spec ++ rest)) (first.package <|> last.package)
        first.types last.types
  | grouped {keyword opening : Token} {before lines after rest : List Token}
      {first last : SourceFile} {front back : List TypeDecl}
      (hbefore : ∀ t ∈ before.getLast?, t.kind.isSeparator)
      (hfirst : SourceFile.ofTokens before = .ok first) (hkeyword : keyword.kind = .keyword .type)
      (hopening : opening.kind = .opener .round) (hlines : GroupLines lines front)
      (hends : ∀ t ∈ after.head?, t.kind.endsType) (hafter : typeGroup after = .ok (back, rest))
      (hlast : SourceFile.ofTokens rest = .ok last) :
      StandsIn spec (before ++ keyword :: opening :: (lines ++ (spec ++ after)))
        (first.package <|> last.package) (first.types ++ front) (back ++ last.types)

section Standing

variable {t x line : Token} {ts us before rest more spec : List Token} {d : TypeDecl}
  {ds front back : List TypeDecl} {package : Option String} {file first : SourceFile}

theorem typeSpec_separated (hl : line.kind.isSeparator)
    (h : typeSpec (us ++ [line]) = .ok (d, [line])) :
    typeSpec (us ++ line :: more) = .ok (d, line :: more) := by
  obtain ⟨⟨_, after⟩, hread, rfl, hafter⟩ :=
    continued_typeSpec hl (@continued_append line more us) _ h
  cases hafter with
  | line => exact hread
  | cons _ h => cases h

theorem typeGroup_cons (ht : t.kind = .ident) (h : typeSpec (t :: ts) = .ok (d, rest)) :
    typeGroup (t :: ts) = (typeGroup rest).map fun p => (d :: p.1, p.2) := by
  have hdrop : dropSeparators (t :: ts) = t :: ts := by
    simp [dropSeparators, ht, Token.Kind.isSeparator]
  rw [typeGroup_eq, hdrop]
  simp only [ht, reduceCtorEq, if_false, h, bind, Except.bind]
  cases typeGroup rest <;> rfl

theorem typeGroup_separator (ht : t.kind.isSeparator) : typeGroup (t :: ts) = typeGroup ts := by
  have hdrop : dropSeparators (t :: ts) = dropSeparators ts := List.dropWhile_cons_of_pos ht
  rw [typeGroup_eq (t :: ts), hdrop, ← typeGroup_eq ts]

/-- What stands in a group before some tokens is read before them. -/
theorem GroupLines.typeGroup_append (h : GroupLines ts ds) :
    typeGroup (ts ++ more) = (typeGroup more).map fun p => (ds ++ p.1, p.2) := by
  induction h with
  | nil =>
    rw [List.nil_append]
    cases typeGroup more <;> rfl
  | separator ht _ ih => rw [List.cons_append, typeGroup_separator ht, ih]
  | @spec line us ts d ds hl hd _ ih =>
    have hread := @typeSpec_separated line us (ts ++ more) d hl hd
    obtain ⟨⟨name, _⟩, hname, -⟩ := bind_eq_ok_iff.mp hread
    obtain ⟨hus, hname⟩ := expect_eq_ok hname
    rw [List.append_assoc, List.cons_append, hus, typeGroup_cons hname (hus ▸ hread),
      typeGroup_separator hl, ih]
    cases typeGroup more <;> rfl

theorem declarations_typeDecls (ht : t.kind = .keyword .type) (h : typeDecls ts = .ok (ds, rest))
    (hrest : declarations package [] rest = .ok file) :
    declarations package [] (t :: ts) = .ok ⟨file.package, ds ++ file.types⟩ := by
  rw [declarations_cons, if_neg (by simp [ht]), if_pos (by simp [ht]), h]
  simp only [bind, Except.bind, hrest]
  rfl

/-- What stands before a separator outside all delimiters is read before the rest. -/
theorem declarations_front (hbefore : ∀ t ∈ before.getLast?, t.kind.isSeparator)
    (hfirst : SourceFile.ofTokens before = .ok first)
    (hmore : declarations first.package [] more = .ok file) :
    SourceFile.ofTokens (before ++ more) = .ok ⟨file.package, first.types ++ file.types⟩ := by
  rcases List.eq_nil_or_concat before with rfl | ⟨init, line, rfl⟩
  · rw [SourceFile.ofTokens, declarations] at hfirst
    cases hfirst
    exact hmore
  · rw [List.concat_eq_append] at *
    rw [List.append_assoc]
    exact declarations_separated (hbefore line (by simp)) (continued_append init) hfirst hmore

/-- A declaration that is read to its end by itself is read in a file as well. -/
theorem StandsIn.ofTokens_eq (h : StandsIn spec ts package front back)
    (hident : ∀ t ∈ spec.head?, t.kind = .ident) (hne : spec ≠ [])
    (hspec : ∀ rest : List Token, (∀ t ∈ rest.head?, t.kind.endsType) →
      typeSpec (spec ++ rest) = .ok (d, rest)) :
    SourceFile.ofTokens ts = .ok ⟨package, front ++ d :: back⟩ := by
  obtain ⟨name, spec, rfl⟩ := List.exists_cons_of_ne_nil hne
  have hname : name.kind = .ident := hident name rfl
  cases h with
  | @alone keyword before rest first last hbefore hfirst hkeyword hrest hlast =>
    have hdecls : typeDecls (name :: spec ++ rest) = .ok ([d], rest) := by
      rw [List.cons_append, typeDecls, if_neg (by simp [hname]), ← List.cons_append,
        hspec rest fun t ht => (isSeparator_ends (hrest t ht)).2.1]
      rfl
    rw [declarations_front hbefore hfirst (declarations_typeDecls hkeyword hdecls
      (declarations_behind first.package hlast))]
    rfl
  | @grouped keyword opening before lines after rest first last front back hbefore hfirst hkeyword
      hopening hlines hends hafter hlast =>
    have hread : typeSpec (name :: (spec ++ after)) = .ok (d, after) := hspec after hends
    have hgroup : typeGroup (lines ++ (name :: spec ++ after)) = .ok (front ++ d :: back, rest) := by
      rw [hlines.typeGroup_append, List.cons_append, typeGroup_cons hname hread, hafter]
      rfl
    have hdecls : typeDecls (opening :: (lines ++ (name :: spec ++ after))) =
        .ok (front ++ d :: back, rest) := by
      rw [typeDecls, if_pos hopening, hgroup]
    rw [declarations_front hbefore hfirst (declarations_typeDecls hkeyword hdecls
      (declarations_behind first.package hlast))]
    simp

end Standing

/-- Declarations of array types outside all delimiters and in groups. The scanner finds no struct in
them unless the length begins with a name, has more to it and is followed by the keyword `struct`;
where it reads one of these it finds nothing but a struct. -/
theorem scan_arrayDecl (a : ArrayDecl) :
    (¬a.TakenForStruct → ∀ source ts package front back, tokenize source = .ok ts →
      StandsIn a.tokens ts package front back → ∃ file, scan source = .ok file ∧
        file.package = package ∧
        file.types = front ++ ⟨a.typeName, .other, a.span⟩ :: back ∧
        file.types.filterMap TypeDecl.struct? =
          front.filterMap TypeDecl.struct? ++ back.filterMap TypeDecl.struct?) ∧
    (a.TakenForStruct → ∀ rest d after, typeSpec (a.tokens ++ rest) = .ok (d, after) →
      d.struct?.isSome) := by
  refine ⟨?_, fun ha rest d after => a.isSome_struct?_of_typeSpec ha⟩
  intro ha source ts package front back htokens hstands
  have hident : ∀ t ∈ a.tokens.head?, t.kind = .ident := by
    rintro t ⟨⟩
    exact a.name_ident
  have hread := hstands.ofTokens_eq hident (List.cons_ne_nil _ _) fun rest => a.typeSpec_eq ha
  refine ⟨⟨package, front ++ ⟨a.typeName, .other, a.span⟩ :: back⟩, ?_, rfl, rfl, ?_⟩
  · rw [scan, htokens]
    change (SourceFile.ofTokens ts).mapError _ = _
    rw [hread]
    rfl
  · rw [List.filterMap_append, List.filterMap_cons_none rfl]

def lineAt (start : Nat) : Token :=
  ⟨.newline, start, [], ['\n']⟩

/-- A clause with a name of four letters. -/
def packageClause (name : String) : List Token :=
  [⟨.keyword .package, 0, [], "package".toList⟩, ⟨.ident, 8, [' '], name.toList⟩, lineAt 12]

/-- The keyword in the line after the clause. -/
def typeKeyword : Token :=
  ⟨.keyword .type, 13, [], "type".toList⟩

/-- An array of empty structs, its length a number. -/
def rowArray : ArrayDecl where
  name := ⟨.ident, 29, ['\t'], "Row".toList⟩
  opening := ⟨.opener .square, 33, [' '], ['[']⟩
  length := [⟨.number, 34, [], ['4']⟩]
  closing := ⟨.closer .square, 35, [], [']']⟩
  elem := [⟨.keyword .struct, 36, [], "struct".toList⟩, ⟨.opener .curly, 42, [], ['\x7b']⟩,
    ⟨.closer .curly, 43, [], ['\x7d']⟩]
  name_ident := rfl
  opening_square := rfl
  length_ne_nil := List.cons_ne_nil _ _
  length_matched := by decide
  closing_square := rfl
  elem_ne_nil := List.cons_ne_nil _ _
  elem_enclosed := .plain (by decide) (by simp) (@Enclosed.group _ _ [] _ .nil .nil)
  elem_type := by decide

/-- Another declaration. -/
def idSpec : List Token :=
  [⟨.ident, 21, ['\t'], "ID".toList⟩, ⟨.ident, 24, [' '], "int".toList⟩]

/-- A group of the two. -/
def groupSource : String :=
  "package grid\ntype (\n\tID int\n\tRow [4]struct\x7b\x7d\n)\n"

theorem scan_arrayDecl_row : ¬rowArray.TakenForStruct ∧ scan groupSource = .ok ⟨some "grid",
    [⟨"ID", .other, ⟨21, 27⟩⟩, ⟨"Row", .other, ⟨29, 44⟩⟩]⟩ := by
  have hnumber : ¬rowArray.TakenForStruct := by
    rintro ⟨⟨⟨t, ⟨⟩, hk⟩, -⟩, -⟩
    cases hk
  have hlines : GroupLines (lineAt 19 :: (idSpec ++ [lineAt 27])) [⟨"ID", .other, ⟨21, 27⟩⟩] :=
    .separator rfl (.spec rfl (by decide +kernel) .nil)
  have hstands : StandsIn rowArray.tokens
      (packageClause "grid" ++ typeKeyword :: ⟨.opener .round, 18, [' '], ['(']⟩ ::
        ((lineAt 19 :: (idSpec ++ [lineAt 27])) ++
          (rowArray.tokens ++ [lineAt 44, ⟨.closer .round, 45, [], [')']⟩, lineAt 46])))
      (some "grid") [⟨"ID", .other, ⟨21, 27⟩⟩] [] :=
    @StandsIn.grouped _ typeKeyword _ (packageClause "grid") _ _ [lineAt 46] ⟨some "grid", []⟩
      ⟨none, []⟩ _ [] (by decide) (by decide +kernel) rfl rfl hlines (by decide)
      (by decide +kernel) (by decide +kernel)
  obtain ⟨⟨package, types⟩, hscan, rfl, rfl, -⟩ :=
    (scan_arrayDecl rowArray).1 hnumber groupSource _ _ _ _ (by decide +kernel) hstands
  exact ⟨hnumber, hscan⟩

/-- An array of structs, its length a product that begins with a name. -/
def matrixArray : ArrayDecl where
  name := ⟨.ident, 18, [' '], "Grid".toList⟩
  opening := ⟨.opener .square, 23, [' '], ['[']⟩
  length := [⟨.ident, 24, [], "rows".toList⟩, ⟨.star, 29, [' '], ['*']⟩,
    ⟨.number, 31, [' '], ['2']⟩]
  closing := ⟨.closer .square, 32, [], [']']⟩
  elem := [⟨.keyword .struct, 33, [], "struct".toList⟩, ⟨.opener .curly, 39, [], ['\x7b']⟩,
    ⟨.ident, 41, [' '], ['x']⟩, ⟨.ident, 43, [' '], "int".toList⟩,
    ⟨.closer .curly, 47, [' '], ['\x7d']⟩]
  name_ident := rfl
  opening_square := rfl
  length_ne_nil := List.cons_ne_nil _ _
  length_matched := by decide
  closing_square := rfl
  elem_ne_nil := List.cons_ne_nil _ _
  elem_enclosed := .plain (by decide) (by simp)
    (@Enclosed.group _ _ [.ident, .ident] _
      (.plain (by decide) (by simp) (.plain (by decide) (by simp) .nil)) .nil)
  elem_type := by decide

def matrixSource : String :=
  "package main\ntype Grid [rows * 2]struct\x7b x int \x7d\n"

/-- Not every declaration of an array type is read as one. -/
theorem structArray_read_as_struct : ¬ ∀ (a : ArrayDecl) (source : String) (ts : List Token)
    (package : Option String) (front back : List TypeDecl), tokenize source = .ok ts →
      StandsIn a.tokens ts package front back → ∃ file, scan source = .ok file ∧
        file.types = front ++ ⟨a.typeName, .other, a.span⟩ :: back := by
  intro h
  have hstands : StandsIn matrixArray.tokens
      (packageClause "main" ++ typeKeyword :: (matrixArray.tokens ++ [lineAt 48]))
      (some "main") [] [] :=
    @StandsIn.alone _ typeKeyword (packageClause "main") [lineAt 48] ⟨some "main", []⟩ ⟨none, []⟩
      (by decide) (by decide +kernel) rfl (by decide) (by decide +kernel)
  obtain ⟨file, hscan, htypes⟩ :=
    h matrixArray matrixSource _ _ _ _ (by decide +kernel) hstands
  have hread : scan matrixSource = .ok
      ⟨some "main", [⟨"Grid", .struct [⟨["x"], "int", none, ⟨41, 46⟩⟩], ⟨18, 48⟩⟩]⟩ := by
    decide +kernel
  rw [hread] at hscan
  cases hscan
  revert htypes
  decide

end SignalBridge.Source
