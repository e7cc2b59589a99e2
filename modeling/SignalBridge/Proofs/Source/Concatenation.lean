import SignalBridge.Proofs.Source.Continued
import SignalBridge.Proofs.Source.Lookahead

namespace SignalBridge.Source

open List (Forall₂)

/-! Things moved `n` bytes to the right. -/

def Token.shift (n : Nat) (t : Token) : Token :=
  { t with start := t.start + n }

def Span.shift (n : Nat) (s : Span) : Span :=
  ⟨s.start + n, s.stop + n⟩

def Field.shift (n : Nat) (f : Field) : Field :=
  { f with span := f.span.shift n }

def TypeBody.shift (n : Nat) : TypeBody → TypeBody
  | .struct fields => .struct (fields.map (Field.shift n))
  | .other => .other

def TypeDecl.shift (n : Nat) (d : TypeDecl) : TypeDecl :=
  ⟨d.name, d.body.shift n, d.span.shift n⟩

/-- `u` is `t`, `n` bytes further to the right. -/
def MovedBy (n : Nat) (t u : Token) : Prop :=
  t.shift n = u

section Shifting

variable {n : Nat} {ts : List Token} {package : Option String} {file : SourceFile}

theorem forall₂_apply_iff {α β : Type} {f : α → β} {xs : List α} {ys : List β} :
    Forall₂ (fun x y => f x = y) xs ys ↔ xs.map f = ys := by
  rw [← List.forall₂_eq_eq_eq, List.forall₂_map_left_iff]

theorem joinLines_shift (ts : List Token) :
    Token.joinLines (ts.map (Token.shift n)) = (Token.joinLines ts).map (Token.shift n) := by
  unfold Token.joinLines
  generalize ([] : List Char) = pending
  induction ts generalizing pending with
  | nil => rfl
  | cons t ts ih =>
    rw [List.map_cons, Token.joinLines.go, Token.joinLines.go]
    simp only [Token.shift, ih]
    split <;> rfl

theorem sourceText_shift (ts : List Token) :
    Token.sourceText (ts.map (Token.shift n)) = Token.sourceText ts := by
  cases ts with
  | nil => rfl
  | cons t ts => simp [Token.sourceText, Token.shift, List.flatMap_map]

/-- The reader of declarations does not ask where a token stands. -/
theorem indistinct_movedBy (n : Nat) : Indistinct (MovedBy n) where
  kind := by
    rintro t _ rfl
    rfl
  text := by
    rintro t _ rfl -
    rfl
  joinLines := by
    intro ts us h
    obtain rfl := forall₂_apply_iff.mp h
    exact forall₂_apply_iff.mpr (joinLines_shift ts).symm

theorem span_shift {s s' : Span} (h : AlikeSpans (MovedBy n) s s') : s.shift n = s' := by
  obtain ⟨t, _, u, _, rfl, rfl, rfl, rfl⟩ := h
  simp only [Span.shift, Token.shift, Token.stop, Span.mk.injEq, true_and]
  omega

theorem field_shift {f f' : Field} (h : AlikeFields (MovedBy n) f f') : f.shift n = f' := by
  obtain ⟨ts, us, hs, htext, htext'⟩ := h.typeText
  obtain rfl := forall₂_apply_iff.mp hs
  obtain ⟨names, typeText, tag, span⟩ := f'
  simp only [sourceText_shift] at htext'
  rw [Field.shift, h.names, h.tag, htext, ← htext', span_shift h.span]

theorem decl_shift {d d' : TypeDecl} (h : AlikeDecls (MovedBy n) d d') : d.shift n = d' := by
  obtain ⟨name, body, span⟩ := d
  obtain ⟨name', body', span'⟩ := d'
  obtain ⟨rfl, hbody, hspan⟩ := h
  obtain rfl := span_shift hspan
  cases hbody with
  | struct hf =>
    obtain rfl := forall₂_apply_iff.mp (hf.imp fun _ _ => field_shift)
    rfl
  | other => rfl

/-- Tokens further to the right declare the same, further to the right. -/
theorem declarations_shift (h : declarations package [] ts = .ok file) :
    declarations package [] (ts.map (Token.shift n)) =
      .ok ⟨file.package, file.types.map (TypeDecl.shift n)⟩ := by
  have halike := alike_declarations (indistinct_movedBy n) package []
    (forall₂_apply_iff.mpr (Eq.refl (ts.map (Token.shift n))))
  rw [h] at halike
  generalize declarations package [] (ts.map (Token.shift n)) = moved at halike
  cases halike with
  | @ok _ file' hfiles =>
    obtain ⟨package', types'⟩ := file'
    obtain rfl := hfiles.package
    rw [forall₂_apply_iff.mp (hfiles.types.imp fun _ _ => decl_shift)]

end Shifting

section Lexemes

variable {n offset : Nat} {leading : List Char} {ls ls' : List Lexeme}

theorem ofLexemes_shift (ls : List Lexeme) :
    Token.ofLexemes (offset + n) leading ls =
      (Token.ofLexemes offset leading ls).map (Token.shift n) := by
  induction ls generalizing offset leading with
  | nil => rfl
  | cons l ls ih =>
    rw [Token.ofLexemes, Token.ofLexemes, Nat.add_right_comm]
    cases l.kind with
    | none => exact ih
    | some kind => simp only [List.map_cons, ih, Token.shift]

/-- Behind a line break the tokens are those of the lexemes that follow. -/
theorem ofLexemes_append_line (ls : List Lexeme) :
    ∃ (init : List Token) (line : Token), line.kind = .newline ∧ ∀ ls',
      Token.ofLexemes offset leading (ls ++ .line :: ls') = init ++ line ::
        Token.ofLexemes (offset + byteLength (written (ls ++ [.line]))) [] ls' := by
  induction ls generalizing offset leading with
  | nil =>
    refine ⟨[], ⟨.newline, offset, leading, ['\n']⟩, rfl, ?_⟩
    intro ls'
    rfl
  | cons l ls ih =>
    simp only [List.cons_append, Token.ofLexemes, written_cons, byteLength_append, ← Nat.add_assoc]
    cases l.kind with
    | none => exact ih
    | some kind =>
      obtain ⟨init, line, hl, h⟩ := @ih (offset + byteLength l.text) []
      refine ⟨⟨kind, offset, leading, l.text⟩ :: init, line, hl, ?_⟩
      intro ls'
      simp only [h, List.cons_append]

/-- Behind a line break lexemes are read as if they stood alone. -/
theorem spaced_append_line (h : Spaced (ls ++ [.line]) []) (h' : Spaced ls' []) :
    Spaced (ls ++ .line :: ls') [] := by
  obtain ⟨hls, -⟩ := spaced_append.mp h
  refine spaced_append.mpr ⟨hls.congr ?_, readBefore_line, h'⟩
  intro l _ c hc
  exact .inl hc

end Lexemes

section Packages

variable {package : Option String} {nesting : Nesting} {ts : List Token} {file : SourceFile}

/-- Once the package is named, a package clause is passed over, and nothing else changes. -/
theorem declarations_named (name : String) (h : declarations package nesting ts = .ok file) :
    declarations (some name) nesting ts = .ok ⟨some name, file.types⟩ := by
  fun_induction declarations package nesting ts generalizing file with
  | case1 =>
    cases h
    rw [declarations]
  | case2 => cases h
  | case3 => cases h
  | case4 package nesting t us ht word rest he ih =>
    simp only [Bool.and_eq_true, List.isEmpty_iff, decide_eq_true_eq] at ht
    obtain ⟨⟨rfl, -⟩, hk⟩ := ht
    obtain ⟨rfl, hword⟩ := expect_eq_ok he
    have hclause : Nesting.step [] t = .ok [] := step_of_plain (by simp [hk])
    have hstep : Nesting.step [] word = .ok [] := step_of_plain (by simp [hword])
    rw [declarations_cons]
    simp only [Option.isNone_some, Bool.and_false, Bool.false_and, Bool.false_eq_true, ↓reduceIte,
      hk, reduceCtorEq, decide_false, Token.Kind.keyword.injEq, hclause]
    change declarations (some name) [] (word :: rest) = _
    rw [declarations_step (.inr (by simp [hword, Token.Kind.declares])) hstep]
    exact ih h
  | case5 => cases h
  | case6 package nesting t us hp ht decls rest hd ih =>
    obtain ⟨after, hafter, h⟩ := bind_eq_ok_iff.mp h
    cases h
    rw [declarations_cons, if_neg (by simp), if_pos ht, hd]
    simp only [bind, Except.bind, ih hafter]
    rfl
  | case7 package nesting t us hp ht ih =>
    obtain ⟨nesting', hstep, h⟩ := bind_eq_ok_iff.mp h
    rw [declarations_cons, if_neg (by simp), if_neg ht, hstep]
    exact ih nesting' h

theorem declarations_behind (first : Option String) (h : declarations none [] ts = .ok file) :
    declarations first [] ts = .ok ⟨first <|> file.package, file.types⟩ := by
  cases first with
  | none => exact h
  | some name => exact declarations_named name h

end Packages

theorem shift_zero : TypeDecl.shift 0 = id := by
  funext d
  obtain ⟨name, body, span⟩ := d
  cases body with
  | struct fields =>
    have hfield : Field.shift 0 = id := rfl
    rw [TypeDecl.shift, TypeBody.shift, hfield, List.map_id]
    rfl
  | other => rfl

/-- Two files one after the other declare what the first declares and then what the second does,
which stands further to the right by the length of the first. -/
theorem scan_append {a b : String} {fa fb : SourceFile} (ha : scan a = .ok fa)
    (hb : scan b = .ok fb) (hline : a = "" ∨ a.toList.getLast? = some '\n') :
    scan (a ++ b) = .ok ⟨fa.package <|> fb.package,
      fa.types ++ fb.types.map (TypeDecl.shift (byteLength a.toList))⟩ := by
  rcases hline with rfl | hline
  · have hempty : scan "" = .ok ⟨none, []⟩ := by
      refine scan_eq_ok_iff.mpr ⟨[], by rw [String.toList_empty, lexemes], ?_⟩
      rw [Token.ofLexemes, declarations]
    rw [hempty] at ha
    cases ha
    simp [hb, shift_zero]
  obtain ⟨las, hla, hda⟩ := scan_eq_ok_iff.mp ha
  obtain ⟨lbs, hlb, hdb⟩ := scan_eq_ok_iff.mp hb
  obtain ⟨hwa, hsa⟩ := spaced_of_lexemes hla
  obtain ⟨hwb, hsb⟩ := spaced_of_lexemes hlb
  rw [← hwa] at hline
  obtain ⟨init, rfl⟩ := hsa.eq_append_line hline
  obtain ⟨before, line, hl, htokens⟩ := @ofLexemes_append_line 0 [] init
  have hwritten : (a ++ b).toList = written (init ++ .line :: lbs) := by
    rw [String.toList_append, ← hwa, ← hwb]
    simp
  rw [scan_eq_ok_iff, hwritten]
  refine ⟨init ++ .line :: lbs, lexemes_of_spaced (spaced_append_line hsa hsb), ?_⟩
  rw [htokens, hwa, ofLexemes_shift]
  rw [htokens [], Token.ofLexemes] at hda
  exact declarations_continued hl (continued_append before) hda
    (declarations_shift (declarations_behind fa.package hdb))

def rowSource : String :=
  "package grid\n\ntype Row struct \x7b *Base; top, left int \x7d\n"

def rowFile : SourceFile :=
  ⟨some "grid", [⟨"Row", .struct [⟨[], "*Base", none, ⟨32, 37⟩⟩,
    ⟨["top", "left"], "int", none, ⟨39, 52⟩⟩], ⟨19, 54⟩⟩]⟩

def cellSource : String :=
  "package cell\ntype Size [2]int\ntype Cell struct \x7b\n\t_ func()\n\x7d\n"

def cellFile : SourceFile :=
  ⟨some "cell", [⟨"Size", .other, ⟨18, 29⟩⟩,
    ⟨"Cell", .struct [⟨["_"], "func()", none, ⟨50, 58⟩⟩], ⟨35, 60⟩⟩]⟩

theorem scan_append_rowCell : scan rowSource = .ok rowFile ∧ scan cellSource = .ok cellFile ∧
    scan (rowSource ++ cellSource) = .ok ⟨some "grid",
      [⟨"Row", .struct [⟨[], "*Base", none, ⟨32, 37⟩⟩, ⟨["top", "left"], "int", none, ⟨39, 52⟩⟩],
        ⟨19, 54⟩⟩,
      ⟨"Size", .other, ⟨73, 84⟩⟩,
      ⟨"Cell", .struct [⟨["_"], "func()", none, ⟨105, 113⟩⟩], ⟨90, 115⟩⟩]⟩ := by
  have hrow : scan rowSource = .ok rowFile := by decide +kernel
  have hcell : scan cellSource = .ok cellFile := by decide +kernel
  exact ⟨hrow, hcell, scan_append hrow hcell (.inr rfl)⟩

end SignalBridge.Source
