import SignalBridge.Proofs.Source.FieldLine
import SignalBridge.Proofs.Source.Lookahead
import SignalBridge.Proofs.Source.Matched

namespace SignalBridge.Source

open List (Forall₂)

/-- An identifier that is no keyword. -/
structure Name where
  text : List Char
  isIdent : Pattern.ident.Matches text
  notKeyword : Keyword.ofText? text = none

def Name.string (n : Name) : String :=
  String.ofList n.text

/-- A string literal of either form, with its quotes. -/
structure TagLiteral where
  text : List Char
  isLiteral : Pattern.string.Matches text ∨ Pattern.rawString.Matches text

def TagLiteral.string (l : TagLiteral) : String :=
  String.ofList l.text

/-- A field as the format writes it. Its type is any text whose tokens end where it ends and can be
told from the names before it and the tag behind it. -/
structure WrittenField where
  names : List Name
  type : List Char
  tokens : List Token
  tag : Option TagLiteral
  tokenized : tokenize (String.ofList type) = .ok tokens
  first : ∃ t ∈ tokens.head?, t.start = 0
  last : ∃ t ∈ tokens.getLast?, t.stop = byteLength type
  matched : Matched tokens
  oneLine : ∀ t, Outermost t tokens → t.kind ≠ .newline ∧ t.kind ≠ .semicolon
  untagged : tag = none → ∀ t ∈ tokens.getLast?, t.kind ≠ .string ∧ t.kind ≠ .rawString
  named : names ≠ [] → ∀ t ∈ tokens.head?, t.kind ≠ .dot ∧ t.kind ≠ .comma
  /-- An embedded type is a single token, or begins with no identifier, or with a qualified one. -/
  embedded : names = [] → tokens.length = 1 ∨ (∀ t ∈ tokens.head?, t.kind ≠ .ident) ∨
    ∃ t ∈ tokens.tail.head?, t.kind = .dot

/-- Its line, without the line break. -/
def WrittenField.text (f : WrittenField) : List Char :=
  '\t' ::
    ((if f.names.isEmpty then [] else [',', ' '].intercalate (f.names.map Name.text) ++ [' ']) ++
      (f.type ++ f.tag.elim [] fun l => ' ' :: l.text))

/-- The field is scanned as it was written. -/
structure WrittenField.ReadAs (w : WrittenField) (f : Field) : Prop where
  names : f.names = w.names.map Name.string
  typeText : f.typeText = String.ofList w.type
  tag : f.tag = w.tag.map TagLiteral.string
  embedded : f.isEmbedded ↔ w.names = []

structure WrittenStruct where
  name : Name
  fields : List WrittenField

/-- The declaration after an empty line, its fields a line each. -/
def WrittenStruct.text (s : WrittenStruct) : List Char :=
  '\n' :: ("type".toList ++ ' ' ::
    (s.name.text ++ ' ' :: ("struct".toList ++ ' ' :: '\x7b' :: '\n' ::
      ((s.fields.map WrittenField.text).flatMap (· ++ ['\n']) ++ ['\x7d', '\n']))))

structure WrittenStruct.ReadAs (w : WrittenStruct) (d : TypeDecl) : Prop where
  name : d.name = w.name.string
  body : ∃ fields, d.body = .struct fields ∧ Forall₂ WrittenField.ReadAs w.fields fields

structure WrittenFile where
  package : Name
  structs : List WrittenStruct

def WrittenFile.text (file : WrittenFile) : List Char :=
  "package".toList ++ ' ' :: (file.package.text ++ '\n' ::
    (file.structs.map WrittenStruct.text).flatten)

def WrittenFile.source (file : WrittenFile) : String :=
  String.ofList file.text

section Tokens

variable {offset : Nat} {leading text rest : List Char} {ls : List Lexeme} {l : Lexeme} {t : Token}
  {ts : List Token} {ks : List Token.Kind}

/-- Matched tokens are enclosed where no separator stands outside all delimiters. -/
theorem enclosed_of_outermost (h : Enclosed true ks) (hk : ts.map Token.kind = ks)
    (ho : ∀ t, Outermost t ts → t.kind.isSeparator = false) : Enclosed false ks := by
  generalize hsep : true = separators at h
  induction h generalizing ts with
  | nil => exact .nil
  | @plain separators k ks _ hd _ ih =>
    obtain ⟨t, ts, rfl, rfl, hts⟩ := List.map_eq_cons_iff.mp hk
    have hone : Matched [t] := enclosed_plain hd
    have ht := ho t ⟨[], ts, rfl, .nil⟩
    exact .plain (by simp [ht]) hd (ih hts (fun u hu => ho u (hu.of_append hone)) hsep)
  | @group separators d inner ks hi _ _ ih =>
    obtain ⟨t, ts, rfl, ht, hts⟩ := List.map_eq_cons_iff.mp hk
    obtain ⟨ti, ts, rfl, hti, hts⟩ := List.map_eq_append_iff.mp hts
    obtain ⟨t', ts, rfl, ht', hts⟩ := List.map_eq_cons_iff.mp hts
    have hinner : Matched ti := by
      rw [Matched, hti]
      exact hi
    exact .group hi (ih hts (fun u hu => ho u (hu.behind_group ht ht' hinner)) hsep)

/-- A token lies within the lexemes it is read from. -/
theorem bounds_ofLexemes (h : t ∈ Token.ofLexemes offset leading ls) :
    offset ≤ t.start ∧ t.stop ≤ offset + byteLength (written ls) := by
  induction ls generalizing offset leading with
  | nil => cases h
  | cons l ls ih =>
    rw [Token.ofLexemes] at h
    rw [written_cons, byteLength_append]
    cases hk : l.kind with
    | none =>
      rw [hk] at h
      have := ih h
      omega
    | some kind =>
      rw [hk] at h
      rcases List.mem_cons.mp h with rfl | h
      · simp only [Token.stop]
        omega
      · have := ih h
        omega

theorem ofLexemes_concat_blank (hk : l.kind = none) :
    Token.ofLexemes offset leading (ls ++ [l]) = Token.ofLexemes offset leading ls := by
  obtain ⟨offset', leading', h⟩ := ofLexemes_append offset leading ls [l]
  rw [h, Token.ofLexemes, hk]
  exact List.append_nil _

/-- Lexemes whose tokens reach from the first character to the last have a token at each end. -/
theorem bounded_of_span (hs : Spaced ls [])
    (hfirst : ∃ t ∈ (Token.ofLexemes 0 [] ls).head?, t.start = 0)
    (hlast : ∃ t ∈ (Token.ofLexemes 0 [] ls).getLast?, t.stop = byteLength (written ls)) :
    Bounded ls := by
  constructor
  · obtain ⟨t, ht, hstart⟩ := hfirst
    cases ls with
    | nil => cases ht
    | cons l ls =>
      cases hk : l.kind with
      | some kind => simp [hk]
      | none =>
        obtain ⟨c, taken, htext, -⟩ := hs.1
        have hpos : 0 < byteLength l.text := byteLength_pos (by simp [htext])
        rw [Token.ofLexemes, hk] at ht
        have := (bounds_ofLexemes (List.mem_of_head? ht)).1
        omega
  · obtain ⟨t, ht, hstop⟩ := hlast
    rcases List.eq_nil_or_concat ls with rfl | ⟨init, l, rfl⟩
    · cases ht
    · rw [List.concat_eq_append] at hs ht hstop ⊢
      cases hk : l.kind with
      | some kind => simp [hk]
      | none =>
        obtain ⟨-, ⟨c, taken, htext, -⟩, -⟩ := spaced_append.mp hs
        have hpos : 0 < byteLength l.text := byteLength_pos (by simp [htext])
        rw [ofLexemes_concat_blank hk] at ht
        have := (bounds_ofLexemes (List.mem_of_getLast? ht)).2
        simp only [written_append, byteLength_append, written_cons, written_nil, List.append_nil]
          at hstop
        omega

theorem Bounded.head (h : Bounded ls) : ∃ l more, ls = l :: more ∧ l.kind.isSome := by
  cases ls with
  | nil => simp [Bounded] at h
  | cons l more => exact ⟨l, more, rfl, by simpa using h.1⟩

theorem Bounded.last (h : Bounded ls) : ∀ l ∈ ls.getLast?, l.kind.isSome := by
  intro l hl
  simpa [Option.mem_def.mp hl] using h.2

/-- A token begins with no blank. -/
theorem endsBlank_of_token (h : l.ReadBefore rest) (hk : l.kind.isSome) :
    EndsBlank (l.text ++ text) := by
  obtain ⟨c, taken, htext, hn⟩ := h
  rw [htext, List.cons_append, endsBlank_cons]
  cases hc : Lexeme.isInlineBlank c with
  | false => rfl
  | true =>
    rw [Lexeme.next_eq_read, Pattern.lead_of_isInlineBlank hc, Lead.read, Except.ok.injEq,
      Prod.mk.injEq] at hn
    simp [← hn.1] at hk

end Tokens

/-- The literal as a lexeme. -/
theorem TagLiteral.exists_lexeme (tag : TagLiteral) : ∃ l : Lexeme, l.text = tag.text ∧
    (∃ k, l.kind = some k ∧ k.isStringLiteral) ∧ ∀ rest, l.ReadBefore rest := by
  obtain ⟨text, ⟨body, rfl, hbody⟩ | ⟨body, rfl, hbody⟩⟩ := tag
  · exact ⟨⟨some .string, _⟩, rfl, ⟨_, rfl, rfl⟩, fun rest => readBefore_string hbody⟩
  · exact ⟨.raw body, rfl, ⟨_, rfl, rfl⟩, fun rest => readBefore_raw hbody⟩

theorem Name.ofWord_text (n : Name) : Token.Kind.ofWord n.text = .ident := by
  rw [Token.Kind.ofWord, n.notKeyword]

section Parts

variable {rest : List Char}

theorem written_namesPart (names : List Name) : written (namesPart (names.map Name.text)) =
    if names.isEmpty then [] else [',', ' '].intercalate (names.map Name.text) ++ [' '] := by
  have hwords : (names.map Name.text).map (fun n => written [Lexeme.word n]) =
      names.map Name.text := by
    rw [List.map_map]
    exact List.map_congr_left fun n _ => by simp [Lexeme.word]
  rw [namesPart, List.isEmpty_map]
  split
  · rfl
  · rw [written_append, nameLexemes, written_listed, List.map_map]
    exact congrArg₂ (· ++ ·) (congrArg _ hwords) rfl

theorem spaced_namesPart (names : List Name) (hr : EndsBlank rest) :
    Spaced (namesPart (names.map Name.text)) rest := by
  rw [namesPart]
  split
  · trivial
  · rw [spaced_append]
    refine ⟨spaced_listed ?_ ?_ (endsWord_cons.mpr rfl), readBefore_blank rfl hr, trivial⟩
    · intro item hitem
      obtain ⟨_, hn, rfl⟩ := List.mem_map.mp hitem
      obtain ⟨n, -, rfl⟩ := List.mem_map.mp hn
      exact .single (isInk_word n.isIdent)
    · intro item hitem rest hr
      obtain ⟨_, hn, rfl⟩ := List.mem_map.mp hitem
      obtain ⟨n, -, rfl⟩ := List.mem_map.mp hn
      exact ⟨readBefore_word n.isIdent hr, trivial⟩

theorem endsBlank_namesPart (names : List Name) (hr : EndsBlank rest) :
    EndsBlank (written (namesPart (names.map Name.text)) ++ rest) := by
  cases names with
  | nil => exact hr
  | cons n names =>
    rw [List.map_cons, namesPart, List.isEmpty_cons, if_neg Bool.false_ne_true, nameLexemes_cons,
      List.cons_append, written_cons, List.append_assoc]
    exact endsBlank_of_ident n.isIdent

/-- The tag as lexemes, and with the blank before it. -/
theorem exists_literal (tag : Option TagLiteral) : ∃ literal : Option Lexeme,
    literal.isSome = tag.isSome ∧
    (literal.map fun l => String.ofList l.text) = tag.map TagLiteral.string ∧
    (∀ l ∈ literal, ∃ k, l.kind = some k ∧ k.isStringLiteral) ∧
    written (tagPart literal) = (tag.elim [] fun l => ' ' :: l.text) ∧
    ∀ rest, Spaced (tagPart literal) rest := by
  cases tag with
  | none => exact ⟨none, rfl, rfl, by simp, rfl, fun _ => trivial⟩
  | some tag =>
    obtain ⟨l, htext, hk, hread⟩ := tag.exists_lexeme
    refine ⟨some l, rfl, ?_, by simpa using hk, ?_, ?_⟩
    · rw [Option.map_some, Option.map_some, htext, TagLiteral.string]
    · simp [tagPart, Lexeme.space, htext]
    · intro rest
      obtain ⟨k, hkind, -⟩ := hk
      refine ⟨readBefore_blank rfl ?_, hread _, trivial⟩
      rw [written_cons, List.append_assoc]
      exact endsBlank_of_token (hread []) (by simp [hkind])

theorem endsBlank_bounded {ls : List Lexeme} (hb : Bounded ls) (hs : Spaced ls [])
    (text : List Char) : EndsBlank (written ls ++ text) := by
  obtain ⟨first, more, rfl, hk⟩ := hb.head
  rw [written_cons, List.append_assoc]
  exact endsBlank_of_token hs.1 hk

/-- The line of a field, before the line break. -/
theorem spaced_fieldLexemes (names : List Name) {ls : List Lexeme} {literal : Option Lexeme}
    (hb : Bounded ls) (hs : Spaced ls []) (htag : ∀ rest, Spaced (tagPart literal) rest)
    (rest : List Char) :
    Spaced (fieldLexemes (names.map Name.text) ls literal) ('\n' :: rest) := by
  -- The type is read to its end before the blank of a tag and before a line break.
  have hfollow : ∀ l ∈ ls.getLast?,
      MayFollow l.kind [] (written (tagPart literal) ++ '\n' :: rest) := by
    intro l hl c hc
    refine .inr ⟨hb.last l hl, ?_⟩
    cases literal with
    | none =>
      obtain rfl := Option.some.inj hc
      rfl
    | some tag =>
      obtain rfl := Option.some.inj hc
      rfl
  have htype : EndsBlank (written (ls ++ tagPart literal) ++ '\n' :: rest) := by
    rw [written_append, List.append_assoc]
    exact endsBlank_bounded hb hs _
  refine ⟨readBefore_blank rfl ?_, ?_⟩
  · rw [written_append, List.append_assoc]
    exact endsBlank_namesPart names htype
  · rw [spaced_append, spaced_append]
    exact ⟨spaced_namesPart names htype, hs.congr hfollow, htag _⟩

end Parts

/-- What can be written part by part can be written part after part. -/
theorem exists_parts {α β : Type} {text : α → List Char} {value : α → β}
    {Reads : List Lexeme → β → Prop} {S : List Lexeme → Prop}
    (h : ∀ x, ∃ ls, written ls = text x ∧ Reads ls (value x) ∧ S ls) (xs : List α) :
    ∃ lss : List (List Lexeme), lss.map written = xs.map text ∧
      Forall₂ Reads lss (xs.map value) ∧ ∀ ls ∈ lss, S ls := by
  induction xs with
  | nil => exact ⟨[], rfl, .nil, by simp⟩
  | cons x xs ih =>
    obtain ⟨ls, hwritten, hreads, hls⟩ := h x
    obtain ⟨lss, hall, hrest, hlss⟩ := ih
    exact ⟨ls :: lss, by rw [List.map_cons, hwritten, hall, List.map_cons], .cons hreads hrest,
      List.forall_mem_cons.mpr ⟨hls, hlss⟩⟩

namespace WrittenField

variable (f : WrittenField)

/-- The type as lexemes. -/
theorem exists_lexemes : ∃ ls, written ls = f.type ∧ Spaced ls [] ∧ Bounded ls ∧
    ls.filterMap Lexeme.kind = f.tokens.map Token.kind := by
  obtain ⟨ls, hls, htokens⟩ := tokenize_eq_ok_iff.mp f.tokenized
  rw [String.toList_ofList] at hls
  obtain ⟨hwritten, hspaced⟩ := spaced_of_lexemes hls
  have hspelled : Spelled ls f.tokens := ⟨0, [], htokens.symm⟩
  refine ⟨ls, hwritten, hspaced, bounded_of_span hspaced ?_ ?_, hspelled.kinds.symm⟩
  · rw [htokens]
    exact f.first
  · rw [htokens, hwritten]
    exact f.last

theorem typeKinds : TypeKinds f.names.isEmpty f.tag.isSome (f.tokens.map Token.kind) where
  enclosed := by
    apply enclosed_of_outermost f.matched rfl
    intro t ht
    have := f.oneLine t ht
    simp [Token.Kind.isSeparator, this]
  ne_nil := by
    obtain ⟨t, ht, -⟩ := f.first
    exact List.ne_nil_of_mem (List.mem_map_of_mem (List.mem_of_head? ht))
  untagged := by
    intro h k hk
    rw [List.getLast?_map] at hk
    obtain ⟨t, ht, rfl⟩ := Option.map_eq_some_iff.mp hk
    have := f.untagged (by simpa using h) t ht
    simp [Token.Kind.isStringLiteral, this]
  named := by
    intro h k hk
    rw [List.head?_map] at hk
    obtain ⟨t, ht, rfl⟩ := Option.map_eq_some_iff.mp hk
    exact f.named (by simpa using h) t ht
  embedded := by
    intro h
    rcases f.embedded (by simpa using h) with hone | hident | ⟨t, ht, hdot⟩
    · obtain ⟨t, ht⟩ := List.length_eq_one_iff.mp hone
      exact .inr (.inl (by rw [ht]; rfl))
    · refine .inl ?_
      rw [List.head?_map]
      intro he
      obtain ⟨t, ht, hk⟩ := Option.map_eq_some_iff.mp he
      exact hident t ht hk
    · refine .inr (.inr ?_)
      rw [← List.map_tail, List.head?_map, Option.mem_def.mp ht, Option.map_some, hdot]

/-- The field as the scanner finds it. -/
def field : Field :=
  ⟨f.names.map Name.string, String.ofList f.type, f.tag.map TagLiteral.string, ⟨0, 0⟩⟩

/-- The line as lexemes. -/
theorem exists_line : ∃ line : List Lexeme, written line = f.text ∧ FieldLine line f.field ∧
    ∀ rest, Spaced line ('\n' :: rest) := by
  obtain ⟨ls, hwritten, hspaced, hbounded, hkinds⟩ := f.exists_lexemes
  obtain ⟨literal, hsome, htext, hliteral, htag, htagSpaced⟩ := exists_literal f.tag
  refine ⟨fieldLexemes (f.names.map Name.text) ls literal, ?_, ?_, ?_⟩
  · rw [fieldLexemes, written_cons, written_append, written_append, written_namesPart, hwritten,
      htag]
    rfl
  · have hwords : ∀ n ∈ f.names.map Name.text, Token.Kind.ofWord n = .ident := by
      intro n hn
      obtain ⟨name, -, rfl⟩ := List.mem_map.mp hn
      exact name.ofWord_text
    have hline := fieldLine _ _ hwords hbounded hliteral (by
      rw [hkinds, hsome, List.isEmpty_map]
      exact f.typeKinds)
    rw [hwritten, htext, List.map_map] at hline
    exact hline
  · exact spaced_fieldLexemes f.names hbounded hspaced htagSpaced

theorem readAs {d : Field} (h : d.unplaced = f.field) : f.ReadAs d where
  names := congrArg Field.names h
  typeText := congrArg Field.typeText h
  tag := congrArg Field.tag h
  embedded := by
    have hnames : d.names = f.names.map Name.string := congrArg Field.names h
    rw [Field.isEmbedded, hnames, List.isEmpty_map, List.isEmpty_iff]

end WrittenField

namespace WrittenStruct

variable (s : WrittenStruct)

/-- The struct as the scanner finds it. -/
def struct : StructDecl :=
  ⟨s.name.string, s.fields.map WrittenField.field⟩

theorem exists_struct : ∃ ls, written ls = s.text ∧ StructLines ls s.struct ∧
    ∀ rest, Spaced ls rest := by
  obtain ⟨lines, hwritten, hlines, hspaced⟩ := exists_parts WrittenField.exists_line s.fields
  refine ⟨structLexemes s.name.text lines, ?_,
    ⟨s.name.text, lines, s.name.ofWord_text, hlines, rfl, rfl⟩, ?_⟩
  · rw [written_structLexemes, hwritten]
    rfl
  · intro rest
    exact spaced_structLexemes s.name.isIdent hspaced

theorem readAs {d : TypeDecl} (h : Declares d s.struct) : s.ReadAs d := by
  obtain ⟨hname, fields, hbody, hfields⟩ := h
  refine ⟨hname, fields, hbody, ?_⟩
  have heq : Forall₂ Eq (s.fields.map WrittenField.field) (fields.map Field.unplaced) := by
    rw [List.forall₂_eq_eq_eq, hfields]
    rfl
  rw [List.forall₂_map_left_iff, List.forall₂_map_right_iff] at heq
  exact heq.imp fun f d h => f.readAs h.symm

end WrittenStruct

/-- A file of structs is scanned as it was written: its package, its types in order, and for each
field its names, its type to the letter and its tag. -/
theorem scan_writtenFile (file : WrittenFile) : ∃ scanned, scan file.source = .ok scanned ∧
    scanned.package = some file.package.string ∧
    Forall₂ WrittenStruct.ReadAs file.structs scanned.types := by
  obtain ⟨lss, hwritten, hlines, hspaced⟩ := exists_parts WrittenStruct.exists_struct file.structs
  obtain ⟨scanned, hscan, hpackage, hdeclares⟩ := scan_structs file.package.ofWord_text hlines
    (spaced_fileLexemes file.package.isIdent hspaced)
  have htext : written (fileLexemes file.package.text lss) = file.text := by
    rw [fileLexemes, written_cons, written_cons, written_cons, written_cons, written_flatten,
      hwritten]
    rfl
  rw [htext] at hscan
  refine ⟨scanned, hscan, hpackage, ?_⟩
  exact (List.forall₂_map_right_iff.mp hdeclares).flip.imp fun s d h => s.readAs h

section Grid

def gridName : Name :=
  ⟨"grid".toList, ⟨'g', "rid".toList, rfl, rfl, List.all_eq_true.mp rfl⟩, by decide⟩

def rowName : Name :=
  ⟨"Row".toList, ⟨'R', "ow".toList, rfl, rfl, List.all_eq_true.mp rfl⟩, by decide⟩

def topName : Name :=
  ⟨"top".toList, ⟨'t', "op".toList, rfl, rfl, List.all_eq_true.mp rfl⟩, by decide⟩

def leftName : Name :=
  ⟨"left".toList, ⟨'l', "eft".toList, rfl, rfl, List.all_eq_true.mp rfl⟩, by decide⟩

def rawTag : TagLiteral :=
  ⟨"`base`".toList, .inr ⟨"base".toList, rfl, by decide⟩⟩

/-- An embedded type with a tag. -/
def baseField : WrittenField where
  names := []
  type := "*grid.Base".toList
  tokens := [⟨.star, 0, [], ['*']⟩, ⟨.ident, 1, [], "grid".toList⟩, ⟨.dot, 5, [], ['.']⟩,
    ⟨.ident, 6, [], "Base".toList⟩]
  tag := some rawTag
  tokenized := by decide +kernel
  first := ⟨_, rfl, rfl⟩
  last := ⟨_, rfl, rfl⟩
  matched := by decide
  oneLine := forall_outermost_iff.mpr (by decide)
  untagged := by simp
  named := by simp
  embedded := by simp

/-- Two names and a type over three lines, with a comment. -/
def sizeField : WrittenField where
  names := [topName, leftName]
  type := "struct \x7b\n\t\tx int // width\n\t\x7d".toList
  tokens := [⟨.keyword .struct, 0, [], "struct".toList⟩, ⟨.opener .curly, 7, [' '], ['\x7b']⟩,
    ⟨.newline, 8, [], ['\n']⟩, ⟨.ident, 11, ['\t', '\t'], ['x']⟩,
    ⟨.ident, 13, [' '], "int".toList⟩, ⟨.newline, 25, " // width".toList, ['\n']⟩,
    ⟨.closer .curly, 27, ['\t'], ['\x7d']⟩]
  tag := none
  tokenized := by decide +kernel
  first := ⟨_, rfl, rfl⟩
  last := ⟨_, rfl, rfl⟩
  matched := by decide
  oneLine := forall_outermost_iff.mpr (by decide)
  untagged := by simp
  named := by simp
  embedded := by simp

def gridFile : WrittenFile :=
  ⟨gridName, [⟨rowName, [baseField, sizeField]⟩]⟩

theorem scan_writtenFile_grid : ∃ row fields base size,
    scan ("package grid\n\ntype Row struct \x7b\n\t*grid.Base `base`\n" ++
      "\ttop, left struct \x7b\n\t\tx int // width\n\t\x7d\n\x7d\n") = .ok ⟨some "grid", [row]⟩ ∧
    row.name = "Row" ∧ row.body = .struct fields ∧ fields = [base, size] ∧
    (base.isEmbedded ∧ base.typeText = "*grid.Base" ∧ base.tag = some "`base`") ∧
    (size.names = ["top", "left"] ∧ size.tag = none ∧
      size.typeText = "struct \x7b\n\t\tx int // width\n\t\x7d") := by
  obtain ⟨⟨package, types⟩, hscan, rfl, htypes⟩ := scan_writtenFile gridFile
  obtain ⟨row, _, ⟨hname, fields, hbody, hfields⟩, ⟨⟩, rfl⟩ := List.forall₂_cons_left_iff.mp htypes
  obtain ⟨base, rest, hbase, hrest, rfl⟩ := List.forall₂_cons_left_iff.mp hfields
  obtain ⟨size, _, hsize, ⟨⟩, rfl⟩ := List.forall₂_cons_left_iff.mp hrest
  refine ⟨row, _, base, size, hscan, hname, hbody, rfl, ⟨hbase.embedded.mpr rfl, hbase.typeText,
    hbase.tag⟩, hsize.names, hsize.tag, hsize.typeText⟩

end Grid

end SignalBridge.Source
