import SignalBridge.Member.Marker
import SignalBridge.Proofs.Host.Type
import SignalBridge.Proofs.Member.Signature
import SignalBridge.Proofs.Source.FieldLine
import SignalBridge.Proofs.Text.Pieces

namespace SignalBridge

open Source (Lexeme Nested Spaced Inked EndsWord FieldLine written listed)

structure HostParameter where
  name : Identifier
  type : HostType

/-- A signal has no result. -/
inductive MemberRole where
  | signal
  | slot (result : Option HostType)

structure HostMember where
  name : List Char
  isIdentifier : isIdentifier name
  parameters : List HostParameter
  role : MemberRole

def HostParameter.text (p : HostParameter) : List Char :=
  p.name.text ++ ' ' :: p.type.text

namespace MemberRole

def category : MemberRole → Category
  | signal => .signal
  | slot _ => .slot

def result : MemberRole → Option HostType
  | signal => none
  | slot result => result

/-- The word of the tag. -/
def word : MemberRole → List Char
  | signal => ['s', 'i', 'g', 'n', 'a', 'l', ':']
  | slot _ => ['s', 'l', 'o', 't', ':']

end MemberRole

namespace HostMember

/-- The type of the field. -/
def signatureText (m : HostMember) : List Char :=
  'f' :: 'u' :: 'n' :: 'c' :: '(' :: (commaSeparated (m.parameters.map HostParameter.text) ++
    ')' :: HostType.resultText m.role.result)

def tagBody (m : HostMember) : List Char :=
  m.role.word ++ '"' :: (m.name ++ ['"'])

/-- The field, with a raw string as tag. -/
def text (m : HostMember) : List Char :=
  '\t' :: '_' :: ' ' :: (m.signatureText ++ ' ' :: '\x60' :: (m.tagBody ++ ['\x60']))

/-- The member as a class called `owner` has it, its types not mapped yet. -/
def member (owner : String) (m : HostMember) : Member where
  name := String.ofList m.name
  fullName := qualify owner (String.ofList m.name)
  category := m.role.category
  returnType := "void"
  hostReturn := m.role.result.map fun t => String.ofList t.text
  parameters := m.parameters.map fun p => ⟨p.name.name, String.ofList p.type.text, ""⟩
  virtuality := .nonvirtual

end HostMember

namespace HostParameter

variable (p : HostParameter)

def lexemes : List Lexeme :=
  .word p.name.text :: .space :: p.type.lexemes

theorem written_lexemes : written p.lexemes = p.text := by
  simp [lexemes, text, p.type.written_lexemes, Lexeme.word, Lexeme.space]

theorem inked : Inked p.lexemes :=
  .span [.space] (Source.isInk_word p.name.isIdent) p.type.inked

theorem nested : Nested false p.lexemes :=
  .plain (Source.isPlain_word p.name.isIdent) (.plain Source.space_isPlain p.type.nested)

theorem spaced {rest : List Char} (hr : EndsWord rest) : Spaced p.lexemes rest :=
  ⟨Source.readBefore_word p.name.isIdent (Source.endsWord_cons.mpr rfl),
    Source.readBefore_blank rfl p.type.inked.endsBlank, p.type.spaced hr⟩

theorem ofText_text : Signature.Entry.ofText p.text =
    .named p.name.name (String.ofList p.type.text) := by
  refine Signature.ofText_named (fun c hc => Source.isIdentPart_of_mem p.name.isIdent hc) ?_
  rw [← p.type.written_lexemes]
  exact p.type.inked.trimmed

end HostParameter

section Marker

variable {name : List Char}

/-- The characters of a name of a member. -/
theorem isIdentPart_of_isIdentifier (h : isIdentifier name) :
    ∀ c ∈ name, Lexeme.isIdentPart c := by
  cases name with
  | nil => simp
  | cons c cs =>
    simp only [isIdentifier, Bool.and_eq_true, Bool.or_eq_true, decide_eq_true_eq,
      List.all_eq_true] at h
    intro d hd
    rcases List.mem_cons.mp hd with rfl | hd
    · rcases h.1 with hc | rfl
      · exact Source.isIdentPart_of_isAlphanum (by simp [Char.isAlphanum, hc])
      · rfl
    · rcases h.2 d hd with hc | rfl
      · exact Source.isIdentPart_of_isAlphanum hc
      · rfl

/-- A marker says its category and its name. -/
theorem ofTag?_word (role : MemberRole) (h : isIdentifier name) :
    Marker.ofTag? (String.ofList (role.word ++ name)) =
      some ⟨role.category, String.ofList name⟩ := by
  have hparts := isIdentPart_of_isIdentifier h
  have hcolon : ':' ∉ name := fun hm => Text.isIdentPart_ne (hparts _ hm) rfl rfl
  have hname : name.takeWhile Marker.isNamePart = name := by
    rw [List.takeWhile_eq_self_iff]
    intro c hc
    simp [Marker.isNamePart, Text.isIdentPart_ne (hparts c hc) (d := ':') rfl,
      Text.isBlank_of_isIdentPart (hparts c hc)]
  have hafter : Marker.afterWord? (role.word ++ name) = some name := by
    cases role <;> rfl
  have hoccurs : Text.occurs Marker.slotWord (role.word ++ name) =
      decide (role.category = .slot) := by
    cases role with
    | signal =>
      change Text.occurs Marker.slotWord name = false
      exact Text.occurs_eq_false (c := ':') (by decide) hcolon
    | slot => rfl
  rw [Marker.ofTag?, String.toList_ofList, hafter, hoccurs, Option.map_some, hname]
  cases role <;> rfl

end Marker

namespace HostMember

variable (m : HostMember)

def signatureLexemes : List Lexeme :=
  .word "func".toList :: .opener .round :: (listed (m.parameters.map HostParameter.lexemes) ++
    .closer .round :: HostType.resultLexemes m.role.result)

def lexemes : List Lexeme :=
  .tab :: .word ['_'] :: .space :: (m.signatureLexemes ++ [.space, .raw m.tagBody])

theorem written_parameters : written (listed (m.parameters.map HostParameter.lexemes)) =
    commaSeparated (m.parameters.map HostParameter.text) := by
  have htexts : (m.parameters.map HostParameter.lexemes).map written =
      m.parameters.map HostParameter.text := by
    rw [List.map_map]
    exact List.map_congr_left fun p _ => p.written_lexemes
  rw [Source.written_listed, htexts, commaSeparated]

theorem written_signatureLexemes : written m.signatureLexemes = m.signatureText := by
  rw [signatureLexemes, Source.written_cons, Source.written_cons, Source.written_append,
    Source.written_cons, written_parameters,
    HostType.written_resultLexemes fun t _ => t.written_lexemes]
  rfl

theorem written_lexemes : written m.lexemes = m.text := by
  simp [lexemes, text, written_signatureLexemes, Lexeme.tab, Lexeme.word, Lexeme.space, Lexeme.raw,
    Lexeme.rawQuote]

theorem nested_parameters : ∀ item ∈ m.parameters.map HostParameter.lexemes, Nested false item := by
  intro item hi
  obtain ⟨p, -, rfl⟩ := List.mem_map.mp hi
  exact p.nested

theorem nested_signature : Nested true m.signatureLexemes :=
  .plain (Source.isPlain_word (Source.ident_keyword .func))
    (.group (Source.nested_listed fun i hi => (m.nested_parameters i hi).allow)
      (HostType.nested_result fun t _ => t.nested).allow)

theorem inked_signature : Inked m.signatureLexemes :=
  .span (.opener .round :: listed (m.parameters.map HostParameter.lexemes))
    (Source.isInk_word (Source.ident_keyword .func)) (HostType.inked_result fun t _ => t.inked)

/-- The field as the scanner finds it. -/
def field : Source.Field :=
  ⟨["_"], String.ofList m.signatureText, some (String.ofList ('\x60' :: (m.tagBody ++ ['\x60']))),
    ⟨0, 0⟩⟩

theorem fieldLine : FieldLine m.lexemes m.field := by
  rw [field, ← m.written_signatureLexemes]
  have hfunc : (Lexeme.word Source.Keyword.func.text.toList).kind = some (.keyword .func) := rfl
  exact Source.fieldLine_named rfl m.nested_signature m.inked_signature hfunc (by simp) (by simp)

theorem spaced_signature {rest : List Char} (hr : EndsWord rest) :
    Spaced m.signatureLexemes rest := by
  refine ⟨Source.readBefore_word (Source.ident_keyword .func) (Source.endsWord_cons.mpr rfl),
    Source.readBefore_mark rfl, ?_⟩
  rw [Source.spaced_append]
  refine ⟨Source.spaced_listed ?_ ?_ (Source.endsWord_cons.mpr rfl), Source.readBefore_mark rfl,
    HostType.spaced_result (fun t _ => t.inked) fun t _ => t.spaced hr⟩
  · intro item hi
    obtain ⟨p, -, rfl⟩ := List.mem_map.mp hi
    exact p.inked
  · intro item hi rest hr
    obtain ⟨p, -, rfl⟩ := List.mem_map.mp hi
    exact p.spaced hr

theorem not_mem_name {c : Char} (hc : Lexeme.isIdentPart c = false) : c ∉ m.name := fun h =>
  Text.isIdentPart_ne (isIdentPart_of_isIdentifier m.isIdentifier c h) hc rfl

theorem spaced {rest : List Char} : Spaced m.lexemes rest := by
  have hraw : Lexeme.rawQuote ∉ m.tagBody := by
    have hword : Lexeme.rawQuote ∉ m.role.word := by
      cases m.role <;> simp [MemberRole.word, Lexeme.rawQuote]
    simp only [tagBody, List.mem_append, List.mem_cons, List.not_mem_nil, or_false, not_or]
    exact ⟨hword, by decide, m.not_mem_name rfl, by decide⟩
  have hsignature : Source.EndsBlank
      (written (m.signatureLexemes ++ [.space, .raw m.tagBody]) ++ rest) := by
    rw [Source.written_append, List.append_assoc]
    exact m.inked_signature.endsBlank
  refine ⟨Source.readBefore_blank rfl (Source.endsBlank_cons.mpr rfl),
    Source.readBefore_word ⟨'_', [], rfl, rfl, by simp⟩ (Source.endsWord_cons.mpr rfl),
    Source.readBefore_blank rfl hsignature, ?_⟩
  rw [Source.spaced_append]
  exact ⟨m.spaced_signature (Source.endsWord_cons.mpr rfl),
    Source.readBefore_blank rfl (Source.endsBlank_cons.mpr rfl), Source.readBefore_raw hraw,
    trivial⟩

/-- The tag says the word and the name; its quotes are left out. -/
theorem tagText_field : m.field.tagText = some (String.ofList (m.role.word ++ m.name)) := by
  have hname : m.name.filter (!Source.Tag.isQuote ·) = m.name := by
    rw [List.filter_eq_self]
    intro c hc
    have hne : ∀ d, Lexeme.isIdentPart d = false → c ≠ d := fun d =>
      Text.isIdentPart_ne (isIdentPart_of_isIdentifier m.isIdentifier c hc)
    simp [Source.Tag.isQuote, hne '"' rfl, hne '\x60' rfl]
  have hword : m.role.word.filter (!Source.Tag.isQuote ·) = m.role.word := by
    cases m.role <;> rfl
  have hinterpreted : Source.Tag.isInterpreted ('\x60' :: (m.tagBody ++ ['\x60'])) = false := by
    simp [Source.Tag.isInterpreted]
  have hcontent : Source.Tag.content ('\x60' :: (m.tagBody ++ ['\x60'])) =
      m.role.word ++ m.name := by
    have hraw : Source.Tag.isQuote '\x60' = true := rfl
    have hquote : Source.Tag.isQuote '"' = true := rfl
    rw [Source.Tag.content, hinterpreted]
    simp [tagBody, hname, hword, hraw, hquote]
  rw [Source.Field.tagText, field, Option.map_some, String.toList_ofList, hcontent]

theorem signature_eq : Signature.ofType? (String.ofList m.signatureText) =
    some ⟨m.parameters.map fun p => .named p.name.name (String.ofList p.type.text),
      m.role.result.map fun t => String.ofList t.text⟩ := by
  have hlast : ∀ c ∈ (')' :: HostType.resultText m.role.result).getLast?,
      Text.isBlank c = false := by
    have hinked : Inked (.closer .round :: HostType.resultLexemes m.role.result) :=
      HostType.inked_result fun t _ => t.inked
    have := hinked.trimmed.last
    rwa [Source.written_cons, HostType.written_resultLexemes fun t _ => t.written_lexemes] at this
  have hentries : Signature.Entry.readList (written (listed (m.parameters.map
      HostParameter.lexemes))) =
        m.parameters.map fun p => .named p.name.name (String.ofList p.type.text) := by
    rw [Signature.readList_listed m.nested_parameters, List.map_map]
    · exact List.map_congr_left fun p _ => by
        rw [Function.comp_apply, p.written_lexemes, p.ofText_text]
    · intro item hi
      obtain ⟨p, -, rfl⟩ := List.mem_map.mp hi
      exact ⟨p.inked.trimmed, p.inked.ne_nil⟩
  rw [signatureText, ← written_parameters, Signature.ofType?_func
    (Source.nested_listed fun i hi => (m.nested_parameters i hi).allow) hlast, hentries,
    HostType.trim_resultText]
  cases m.role.result with
  | none => rfl
  | some t =>
    have hne : t.text.isEmpty = false := by
      rw [← t.written_lexemes]
      simpa using t.inked.ne_nil
    simp [hne]

/-- The field declares the member that was written. -/
theorem fieldMember?_field (r : Registry) (owner : String) :
    r.fieldMember? owner (String.ofList (m.role.word ++ m.name)) m.field.typeText =
      some (m.member owner) := by
  have hparameters : Signature.resolve r
      (m.parameters.map fun p => .named p.name.name (String.ofList p.type.text)) =
        m.parameters.map fun p => ⟨p.name.name, String.ofList p.type.text, ""⟩ := by
    have := Signature.resolve_named r
      (m.parameters.map fun p => (p.name.name, String.ofList p.type.text))
    simpa only [List.map_map, Function.comp_def] using this
  have hguard : (guard (SignalBridge.isIdentifier (String.ofList m.name).toList) : Option Unit) =
      some () := if_pos (by rw [String.toList_ofList, m.isIdentifier])
  unfold Registry.fieldMember?
  rw [ofTag?_word m.role m.isIdentifier, Option.bind_eq_bind, Option.bind_some, hguard]
  simp only [Option.bind_eq_bind, Option.bind_some, Option.pure_def, field, signature_eq,
    Option.map_some, Option.getD_some, hparameters]
  cases h : m.role <;> simp [member, h, MemberRole.category, MemberRole.result]

end HostMember

end SignalBridge
