import SignalBridge.Source.Field
import SignalBridge.Source.Lexeme
import SignalBridge.Source.Nesting

/-!
A source file, read from its tokens. Outside all delimiters the package clause and the type
declarations are read; every other token is passed over. Each reader returns the tokens it leaves,
and each loop is bounded by their number.
-/

namespace SignalBridge.Source

namespace Token.Kind

/-- Where a field ends. -/
def endsField (kind : Kind) : Bool :=
  kind.isSeparator || kind = .closer .curly

/-- Where a type ends that is not a struct. -/
def endsType (kind : Kind) : Bool :=
  kind.isSeparator || kind = .closer .round

end Token.Kind

/-- Leaves out the line breaks and semicolons at the head. -/
def dropSeparators (ts : List Token) : List Token :=
  ts.dropWhile (·.kind.isSeparator)

/-- Takes a token of the given kind, or tells what was expected of it. -/
def expect (kind : Token.Kind) (expected : Expected) :
    List Token → Except SyntaxFault (Token × List Token)
  | t :: ts => if t.kind = kind then .ok (t, ts) else .error ⟨expected, some t⟩
  | [] => .error ⟨expected, none⟩

/-- Takes one field: its first token `t`, and the tokens up to its end. -/
def takeField (t : Token) (ts : List Token) : Except SyntaxFault (List Token × List Token) := do
  let nesting ← Nesting.step [] t
  let (taken, rest) ← takeUntil Token.Kind.endsField nesting ts
  return (t :: taken, rest)

theorem length_le_of_takeField {t : Token} {ts taken rest : List Token}
    (h : takeField t ts = .ok (taken, rest)) : rest.length ≤ ts.length := by
  obtain ⟨_, -, h⟩ := bind_eq_ok_iff.1 h
  obtain ⟨⟨_, _⟩, hr, h⟩ := bind_eq_ok_iff.1 h
  simp only [pure_eq_ok, Except.ok.injEq, Prod.mk.injEq] at h
  rw [← takeUntil_append hr, ← h.2, List.length_append]
  exact Nat.le_add_left _ _

theorem length_dropSeparators_le (ts : List Token) : (dropSeparators ts).length ≤ ts.length :=
  (List.dropWhile_suffix _).length_le

/-- The fields of a struct after its opening brace, the closing brace, and what follows. -/
def structBody (ts : List Token) : Except SyntaxFault (List Field × Token × List Token) :=
  match _h : dropSeparators ts with
  | [] => .error ⟨.closer .curly, none⟩
  | t :: rest =>
    if t.kind = .closer .curly then .ok ([], t, rest)
    else
      match _hf : takeField t rest with
      | .error fault => .error fault
      | .ok (taken, after) => do
        let field ← Field.ofTokens taken after.head?
        let (fields, brace, after) ← structBody after
        return (field :: fields, brace, after)
termination_by ts.length
decreasing_by
  have h₁ := length_dropSeparators_le ts
  have h₂ := length_le_of_takeField _hf
  rw [_h, List.length_cons] at h₁
  omega

theorem length_le_of_structBody {ts rest : List Token} {fields : List Field} {brace : Token}
    (h : structBody ts = .ok (fields, brace, rest)) : rest.length ≤ ts.length := by
  fun_induction structBody ts generalizing fields with
  | case1 => simp at h
  | case2 ts t after hd ht =>
    have := length_dropSeparators_le ts
    simp only [Except.ok.injEq, Prod.mk.injEq] at h
    rw [hd, List.length_cons, h.2.2] at this
    omega
  | case3 => simp at h
  | case4 ts t after hd ht taken after' hf ih =>
    have h₁ := length_dropSeparators_le ts
    have h₂ := length_le_of_takeField hf
    rw [hd, List.length_cons] at h₁
    obtain ⟨_, -, h⟩ := bind_eq_ok_iff.1 h
    obtain ⟨⟨_, _, _⟩, hr, h⟩ := bind_eq_ok_iff.1 h
    simp only [pure_eq_ok, Except.ok.injEq, Prod.mk.injEq] at h
    have := ih (h.2.1 ▸ h.2.2 ▸ hr)
    omega

/-- Whether a bracket opens type parameters: `[N]` and `[4]` are lengths of arrays, and only a
name that no `]` follows begins a list of parameters. -/
def opensTypeParameters : List Token → Bool
  | bracket :: name :: rest =>
    bracket.kind = .opener .square && name.kind = .ident &&
      !rest.head?.any (·.kind = .closer .square)
  | _ => false

/-- Passes over the type parameters of a declaration, if it has any. -/
def typeParameters (ts : List Token) : Except SyntaxFault (List Token × List Token) :=
  match ts with
  | bracket :: rest =>
    if opensTypeParameters ts then do
      let (taken, rest) ← takeGroup [.square] rest
      return (bracket :: taken, rest)
    else .ok ([], ts)
  | [] => .ok ([], [])

/-- Passes over the equals sign of an alias. -/
def aliasSign : List Token → List Token × List Token
  | t :: ts => if t.kind = .op && t.text = ['='] then ([t], ts) else ([], t :: ts)
  | [] => ([], [])

/-- Where the last of the tokens stops, or `start` if there is none. -/
def stopOf (start : Nat) (ts : List Token) : Nat :=
  (ts.getLast?.map Token.stop).getD start

/-- One type declaration, the keyword `type` being read. -/
def typeSpec (ts : List Token) : Except SyntaxFault (TypeDecl × List Token) := do
  let (name, ts) ← expect .ident .typeName ts
  let (parameters, ts) ← typeParameters ts
  let (sign, ts) := aliasSign ts
  match ts with
  | [] =>
    return (⟨String.ofList name.text, .other,
      ⟨name.start, stopOf name.stop (parameters ++ sign)⟩⟩, [])
  | t :: rest =>
    if t.kind = .keyword .struct then
      let (_, rest) ← expect (.opener .curly) .openBrace rest
      let (fields, brace, rest) ← structBody rest
      return (⟨String.ofList name.text, .struct fields, ⟨name.start, brace.stop⟩⟩, rest)
    else
      let (taken, rest) ← takeUntil Token.Kind.endsType [] (t :: rest)
      return (⟨String.ofList name.text, .other,
        ⟨name.start, stopOf name.stop (parameters ++ sign ++ taken)⟩⟩, rest)

theorem length_of_expect {kind : Token.Kind} {expected : Expected} {ts rest : List Token}
    {t : Token} (h : expect kind expected ts = .ok (t, rest)) : ts.length = rest.length + 1 := by
  cases ts with
  | nil => simp [expect] at h
  | cons u us =>
    rw [expect] at h
    split at h
    · simp only [Except.ok.injEq, Prod.mk.injEq] at h
      rw [← h.2, List.length_cons]
    · simp at h

theorem length_le_of_typeParameters {ts taken rest : List Token}
    (h : typeParameters ts = .ok (taken, rest)) : rest.length ≤ ts.length := by
  unfold typeParameters at h
  split at h
  · split at h
    · obtain ⟨⟨_, _⟩, hr, h⟩ := bind_eq_ok_iff.1 h
      simp only [pure_eq_ok, Except.ok.injEq, Prod.mk.injEq] at h
      rw [← takeGroup_append hr, ← h.2, List.length_cons, List.length_append]
      omega
    · simp only [Except.ok.injEq, Prod.mk.injEq] at h
      exact Nat.le_of_eq (congrArg List.length h.2.symm)
  · simp_all

theorem length_aliasSign_le (ts : List Token) : (aliasSign ts).2.length ≤ ts.length := by
  cases ts with
  | nil => simp [aliasSign]
  | cons t ts =>
    rw [aliasSign]
    split <;> simp

theorem length_lt_of_typeSpec {ts rest : List Token} {d : TypeDecl}
    (h : typeSpec ts = .ok (d, rest)) : rest.length < ts.length := by
  obtain ⟨⟨name, ts₁⟩, h₁, h⟩ := bind_eq_ok_iff.1 h
  obtain ⟨⟨parameters, ts₂⟩, h₂, h⟩ := bind_eq_ok_iff.1 h
  have l₁ := length_of_expect h₁
  have l₂ := length_le_of_typeParameters h₂
  have l₃ := length_aliasSign_le ts₂
  simp only at h
  split at h
  · simp only [pure_eq_ok, Except.ok.injEq, Prod.mk.injEq] at h
    rw [← h.2, List.length_nil]
    omega
  · rename_i t ts₃ hs
    rw [hs, List.length_cons] at l₃
    split at h
    · obtain ⟨⟨_, _⟩, h₄, h⟩ := bind_eq_ok_iff.1 h
      obtain ⟨⟨_, _, _⟩, h₅, h⟩ := bind_eq_ok_iff.1 h
      simp only [pure_eq_ok, Except.ok.injEq, Prod.mk.injEq] at h
      have l₄ := length_of_expect h₄
      have l₅ := length_le_of_structBody h₅
      simp only at l₅
      rw [← h.2]
      omega
    · obtain ⟨⟨taken, _⟩, h₄, h⟩ := bind_eq_ok_iff.1 h
      simp only [pure_eq_ok, Except.ok.injEq, Prod.mk.injEq] at h
      have l₄ := congrArg List.length (takeUntil_append h₄)
      rw [List.length_append, List.length_cons, h.2] at l₄
      omega

/-- The declarations of a group after its opening parenthesis, up to the closing one. -/
def typeGroup (ts : List Token) : Except SyntaxFault (List TypeDecl × List Token) :=
  match _h : dropSeparators ts with
  | [] => .error ⟨.closer .round, none⟩
  | t :: rest =>
    if t.kind = .closer .round then .ok ([], rest)
    else
      match _hs : typeSpec (t :: rest) with
      | .error fault => .error fault
      | .ok (decl, after) => do
        let (decls, after) ← typeGroup after
        return (decl :: decls, after)
termination_by ts.length
decreasing_by
  have h₁ := length_dropSeparators_le ts
  have h₂ := length_lt_of_typeSpec _hs
  rw [_h] at h₁
  omega

theorem length_le_of_typeGroup {ts rest : List Token} {decls : List TypeDecl}
    (h : typeGroup ts = .ok (decls, rest)) : rest.length ≤ ts.length := by
  fun_induction typeGroup ts generalizing decls with
  | case1 => simp at h
  | case2 ts t after hd ht =>
    have := length_dropSeparators_le ts
    simp only [Except.ok.injEq, Prod.mk.injEq] at h
    rw [hd, List.length_cons, h.2] at this
    omega
  | case3 => simp at h
  | case4 ts t after hd ht decl after' hs ih =>
    have h₁ := length_dropSeparators_le ts
    have h₂ := length_lt_of_typeSpec hs
    rw [hd] at h₁
    obtain ⟨⟨_, _⟩, hr, h⟩ := bind_eq_ok_iff.1 h
    simp only [pure_eq_ok, Except.ok.injEq, Prod.mk.injEq] at h
    have := ih (h.2 ▸ hr)
    omega

/-- What the keyword `type` declares: one type, or a group in parentheses. -/
def typeDecls (ts : List Token) : Except SyntaxFault (List TypeDecl × List Token) :=
  match ts with
  | t :: rest =>
    if t.kind = .opener .round then typeGroup rest
    else do
      let (decl, rest) ← typeSpec ts
      return ([decl], rest)
  | [] => .error ⟨.typeName, none⟩

theorem length_le_of_typeDecls {ts rest : List Token} {decls : List TypeDecl}
    (h : typeDecls ts = .ok (decls, rest)) : rest.length ≤ ts.length := by
  unfold typeDecls at h
  split at h
  · split at h
    · have := length_le_of_typeGroup h
      rw [List.length_cons]
      omega
    · obtain ⟨⟨_, _⟩, hr, h⟩ := bind_eq_ok_iff.1 h
      simp only [pure_eq_ok, Except.ok.injEq, Prod.mk.injEq] at h
      have := length_lt_of_typeSpec hr
      rw [← h.2]
      omega
  · simp at h

/-- The declarations of the tokens `ts`, which stand inside `nesting`. The first package clause
outside all delimiters names the package; any later one is passed over. -/
def declarations (package : Option String) (nesting : Nesting) (ts : List Token) :
    Except SyntaxFault SourceFile :=
  match ts with
  | [] =>
    match nesting with
    | [] => .ok ⟨package, []⟩
    | innermost :: _ => .error ⟨.closer innermost, none⟩
  | t :: rest =>
    if nesting.isEmpty && package.isNone && t.kind = .keyword .package then
      match _h : expect .ident .packageName rest with
      | .error fault => .error fault
      | .ok (name, rest) => declarations (some (String.ofList name.text)) [] rest
    else if nesting.isEmpty && t.kind = .keyword .type then
      match _h : typeDecls rest with
      | .error fault => .error fault
      | .ok (decls, rest) => do
        let file ← declarations package [] rest
        return ⟨file.package, decls ++ file.types⟩
    else do
      let nesting ← nesting.step t
      declarations package nesting rest
termination_by ts.length
decreasing_by
  · have := length_of_expect _h
    simp only [List.length_cons]
    omega
  · have := length_le_of_typeDecls _h
    simp only [List.length_cons]
    omega
  · simp

def SourceFile.ofTokens (ts : List Token) : Except SyntaxFault SourceFile :=
  declarations none [] ts

/-- Reads the declarations of a source file. -/
def scan (source : String) : Except ScanError SourceFile := do
  let ts ← tokenize source
  (SourceFile.ofTokens ts).mapError (.ofSyntaxFault source.toList)

end SignalBridge.Source
