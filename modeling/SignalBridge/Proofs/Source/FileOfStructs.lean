import SignalBridge.Proofs.Source.Inked
import SignalBridge.Proofs.Source.StructBody

namespace SignalBridge.Source

variable {ls rest : List Lexeme} {lss : List (List Lexeme)} {ts : List Token} {t : Token}
  {name : List Char} {lines : List (List Lexeme)} {fields : List Field} {s : StructDecl}
  {structs : List StructDecl} {package : Option String}

/-- The struct without the places of its fields. -/
def StructDecl.unplaced (s : StructDecl) : StructDecl :=
  { s with fields := s.fields.map Field.unplaced }

/-- The declaration of a struct behind the keyword `type`. -/
def structSpec (name : List Char) (lines : List (List Lexeme)) : List Lexeme :=
  .word name :: .space :: .word "struct".toList :: .space :: .opener .curly ::
    (bodyLines lines ++ [.closer .curly])

/-- The declaration with its keyword, after an empty line. -/
def structLexemes (name : List Char) (lines : List (List Lexeme)) : List Lexeme :=
  .line :: .word "type".toList :: .space :: (structSpec name lines ++ [.line])

/-- Lexemes that declare a struct after an empty line. -/
def StructLines (ls : List Lexeme) (s : StructDecl) : Prop :=
  ∃ name lines, Token.Kind.ofWord name = .ident ∧ List.Forall₂ FieldLine lines s.fields ∧
    s.name = String.ofList name ∧ ls = structLexemes name lines

/-- The declaration is that of the struct, wherever it and its fields stand. -/
structure Declares (d : TypeDecl) (s : StructDecl) : Prop where
  name : d.name = s.name
  body : ∃ fields, d.body = .struct fields ∧ fields.map Field.unplaced = s.fields

theorem written_structLexemes (name : List Char) (lines : List (List Lexeme)) :
    written (structLexemes name lines) = '\n' :: ("type".toList ++ ' ' :: (name ++ ' ' ::
      ("struct".toList ++ ' ' :: '\x7b' :: '\n' ::
        ((lines.map written).flatMap (· ++ ['\n']) ++ ['\x7d', '\n'])))) := by
  simp only [structLexemes, structSpec, written_cons, written_append, written_bodyLines,
    written_nil, List.cons_append, List.nil_append, List.append_assoc, Lexeme.line, Lexeme.word,
    Lexeme.space, Lexeme.opener, Lexeme.closer, Delimiter.openChar, Delimiter.closeChar]

theorem spaced_structLexemes {rest : List Char} (hname : Pattern.ident.Matches name)
    (hlines : ∀ line ∈ lines, ∀ rest, Spaced line ('\n' :: rest)) :
    Spaced (structLexemes name lines) rest := by
  have hspec : EndsBlank (written (structSpec name lines ++ [.line]) ++ rest) := by
    simp only [structSpec, List.cons_append, written_cons, List.append_assoc]
    exact endsBlank_of_ident hname
  refine ⟨readBefore_line, readBefore_word (ident_keyword .type) (endsWord_cons.mpr rfl),
    readBefore_blank rfl hspec, ?_⟩
  rw [spaced_append]
  refine ⟨⟨readBefore_word hname (endsWord_cons.mpr rfl),
    readBefore_blank rfl (endsBlank_cons.mpr rfl),
    readBefore_word (ident_keyword .struct) (endsWord_cons.mpr rfl),
    readBefore_blank rfl (endsBlank_cons.mpr rfl), readBefore_mark rfl, ?_⟩,
    readBefore_line, trivial⟩
  rw [spaced_append]
  exact ⟨spaced_bodyLines hlines, readBefore_mark rfl, trivial⟩

theorem expect_of_kind {kind : Token.Kind} {expected : Expected} (h : t.kind = kind) :
    expect kind expected (t :: ts) = .ok (t, ts) := by
  rw [expect, if_pos h]

theorem typeSpec_struct (hword : Token.Kind.ofWord name = .ident)
    (hl : List.Forall₂ FieldLine lines fields) (hs : Spelled (structSpec name lines ++ ls) ts) :
    ∃ d rest fs, typeSpec ts = .ok (d, rest) ∧ d.name = String.ofList name ∧
      d.body = .struct fs ∧ fs.map Field.unplaced = fields ∧ Spelled ls rest := by
  simp only [structSpec, List.cons_append, List.append_assoc] at hs
  obtain ⟨x, ts, rfl, hx, hname, hs⟩ := hs.token rfl
  obtain ⟨k, ts, rfl, hk, -, hs⟩ := (hs.blank rfl).token rfl
  obtain ⟨b, ts, rfl, hb, -, hs⟩ := (hs.blank rfl).token rfl
  obtain ⟨fs, brace, rest, hbody, hfs, hrest⟩ := structBody_spelled hl hs
  have hk : k.kind = .keyword .struct := hk
  have hparams : typeParameters (k :: b :: ts) = .ok ([], k :: b :: ts) := by
    simp [typeParameters, opensTypeParameters, hk]
  have halias : aliasSign (k :: b :: ts) = ([], k :: b :: ts) := by simp [aliasSign, hk]
  refine ⟨⟨String.ofList x.text, .struct fs, ⟨x.start, brace.stop⟩⟩, rest, fs, ?_, ?_, rfl, hfs,
    hrest⟩
  · unfold typeSpec
    simp only [expect_of_kind (hx.trans hword), hparams, halias, expect_of_kind hb, hbody, hk,
      bind, Except.bind, pure, Except.pure, ↓reduceIte]
  · rw [hname]
    rfl

/-- What stands first outside all delimiters decides what is read. -/
theorem declarations_cons (package : Option String) (nesting : Nesting) (t : Token)
    (rest : List Token) : declarations package nesting (t :: rest) =
    if nesting.isEmpty && package.isNone && t.kind = .keyword .package then do
      let (name, rest) ← expect .ident .packageName rest
      declarations (some (String.ofList name.text)) [] rest
    else if nesting.isEmpty && t.kind = .keyword .type then do
      let (decls, rest) ← typeDecls rest
      let file ← declarations package [] rest
      return ⟨file.package, decls ++ file.types⟩
    else nesting.step t >>= (declarations package · rest) := by
  rw [declarations]
  split
  · split
    · rename_i he
      rw [he]
      rfl
    · rename_i he
      rw [he]
      rfl
  · split
    · split
      · rename_i hd
        rw [hd]
        rfl
      · rename_i hd
        rw [hd]
        rfl
    · rfl

theorem declarations_pass (ht : t.kind = .newline) :
    declarations package [] (t :: ts) = declarations package [] ts := by
  rw [declarations_cons, if_neg (by simp [ht]), if_neg (by simp [ht]),
    step_of_plain (by simp [ht])]
  rfl

theorem declarations_package {p : Token} (ht : t.kind = .keyword .package) (hp : p.kind = .ident) :
    declarations none [] (t :: p :: ts) = declarations (some (String.ofList p.text)) [] ts := by
  rw [declarations_cons, if_pos (by simp [ht]), expect_of_kind hp]
  rfl

theorem declarations_type {d : TypeDecl} {after : List Token} {x : Token}
    (ht : t.kind = .keyword .type) (hx : x.kind = .ident)
    (h : typeSpec (x :: ts) = .ok (d, after)) :
    declarations package [] (t :: x :: ts) =
      (declarations package [] after).map fun file => ⟨file.package, d :: file.types⟩ := by
  have hdecls : typeDecls (x :: ts) = .ok ([d], after) := by
    rw [typeDecls, if_neg (by simp [hx]), h]
    rfl
  rw [declarations_cons, if_neg (by simp [ht]), if_pos (by simp [ht]), hdecls]
  simp only [bind, Except.bind]
  cases declarations package [] after <;> rfl

/-- The structs of a file are those of its declarations. -/
theorem declarations_structs (package : Option String) (h : List.Forall₂ StructLines lss structs)
    (hs : Spelled lss.flatten ts) :
    ∃ file, declarations package [] ts = .ok file ∧ file.package = package ∧
      List.Forall₂ Declares file.types structs := by
  induction h generalizing ts with
  | nil =>
    obtain rfl := hs.nil
    exact ⟨⟨package, []⟩, by rw [declarations], rfl, .nil⟩
  | @cons ls s lss structs hstruct _ ih =>
    obtain ⟨name, lines, hword, hfields, hname, rfl⟩ := hstruct
    simp only [List.flatten_cons, structLexemes, List.cons_append, List.append_assoc] at hs
    obtain ⟨t, ts, rfl, ht, -, hs⟩ := hs.token rfl
    obtain ⟨k, ts, rfl, hk, -, hs⟩ := hs.token rfl
    have hs := hs.blank rfl
    obtain ⟨d, rest, fs, hspec, hd, hbody, hfs, hrest⟩ := typeSpec_struct hword hfields hs
    obtain ⟨x, ts, rfl, hx, -, -⟩ := hs.token rfl
    obtain ⟨t', rest, rfl, ht', -, hs⟩ := hrest.token rfl
    obtain ⟨file, hfile, hpackage, hstructs⟩ := ih hs
    refine ⟨⟨file.package, d :: file.types⟩, ?_, hpackage, .cons ?_ hstructs⟩
    · rw [declarations_pass ht, declarations_type hk (hx.trans hword) hspec, declarations_pass ht',
        hfile]
      rfl
    · exact ⟨hd.trans hname.symm, fs, hbody, hfs⟩

theorem structs_of_declares {types : List TypeDecl} (h : List.Forall₂ Declares types structs) :
    (types.filterMap TypeDecl.struct?).map StructDecl.unplaced = structs := by
  induction h with
  | nil => rfl
  | @cons d s types structs hd _ ih =>
    obtain ⟨fields, hbody, hfields⟩ := hd.body
    have hone : d.struct? = some ⟨d.name, fields⟩ := by simp [TypeDecl.struct?, hbody]
    rw [List.filterMap_cons_some hone, List.map_cons, ih, StructDecl.unplaced, hfields, hd.name]

/-- A package clause, and structs behind it. -/
def fileLexemes (p : List Char) (lss : List (List Lexeme)) : List Lexeme :=
  .word "package".toList :: .space :: .word p :: .line :: lss.flatten

theorem spaced_fileLexemes {p : List Char} (hp : Pattern.ident.Matches p)
    (h : ∀ ls ∈ lss, ∀ rest, Spaced ls rest) : Spaced (fileLexemes p lss) [] := by
  have hstructs : Spaced lss.flatten [] := by
    induction lss with
    | nil => trivial
    | cons ls lss ih =>
      rw [List.flatten_cons, spaced_append]
      exact ⟨h ls List.mem_cons_self _, ih fun ls hl => h ls (List.mem_cons_of_mem _ hl)⟩
  refine ⟨readBefore_word (ident_keyword .package) (endsWord_cons.mpr rfl),
    readBefore_blank rfl ?_, readBefore_word hp (endsWord_cons.mpr rfl), readBefore_line, hstructs⟩
  rw [written_cons, List.append_assoc]
  exact endsBlank_of_ident hp

theorem tokenize_eq_ok_iff {source : String} : tokenize source = .ok ts ↔
    ∃ ls, lexemes 0 source.toList = .ok ls ∧ Token.ofLexemes 0 [] ls = ts := by
  unfold tokenize tokens
  cases lexemes 0 source.toList with
  | error fault => simp [Except.map, Except.mapError]
  | ok ls => simp [Except.map, Except.mapError]

/-- A file is read from its lexemes. -/
theorem scan_eq_ok_iff {source : String} {file : SourceFile} : scan source = .ok file ↔
    ∃ ls, lexemes 0 source.toList = .ok ls ∧
      declarations none [] (Token.ofLexemes 0 [] ls) = .ok file := by
  have hofTokens : ∀ ts,
      (SourceFile.ofTokens ts).mapError (ScanError.ofSyntaxFault source.toList) = .ok file ↔
        declarations none [] ts = .ok file := by
    intro ts
    unfold SourceFile.ofTokens
    cases declarations none [] ts <;> simp [Except.mapError]
  unfold scan
  simp only [bind_eq_ok_iff, tokenize_eq_ok_iff, hofTokens]
  constructor
  · rintro ⟨_, ⟨ls, hls, rfl⟩, h⟩
    exact ⟨ls, hls, h⟩
  · rintro ⟨ls, hls, h⟩
    exact ⟨_, ⟨ls, hls, rfl⟩, h⟩

/-- A file of structs is scanned as these structs. -/
theorem scan_structs {p : List Char} (hp : Token.Kind.ofWord p = .ident)
    (h : List.Forall₂ StructLines lss structs) (hs : Spaced (fileLexemes p lss) []) :
    ∃ file, scan (String.ofList (written (fileLexemes p lss))) = .ok file ∧
      file.package = some (String.ofList p) ∧ List.Forall₂ Declares file.types structs := by
  have hspelled : Spelled (fileLexemes p lss) (Token.ofLexemes 0 [] (fileLexemes p lss)) :=
    ⟨0, [], rfl⟩
  obtain ⟨t, ts, hts, ht, -, hspelled⟩ := hspelled.token rfl
  obtain ⟨x, ts, rfl, hx, hname, hspelled⟩ := (hspelled.blank rfl).token rfl
  obtain ⟨n, ts, rfl, hn, -, hspelled⟩ := hspelled.token rfl
  obtain ⟨file, hfile, hpackage, hstructs⟩ :=
    declarations_structs (some (String.ofList p)) h hspelled
  refine ⟨file, ?_, hpackage, hstructs⟩
  rw [scan_eq_ok_iff, String.toList_ofList]
  refine ⟨_, lexemes_of_spaced hs, ?_⟩
  rw [hts, declarations_package ht (hx.trans hp), declarations_pass hn, hname]
  exact hfile

end SignalBridge.Source
