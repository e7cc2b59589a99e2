import SignalBridge.Proofs.Source.Inked

namespace SignalBridge

open Source (Lexeme Nested Spaced Inked EndsWord written listed)

structure Identifier where
  text : List Char
  isIdent : Source.Pattern.ident.Matches text

def Identifier.name (n : Identifier) : String :=
  String.ofList n.text

/-- The length of an array: a number or a constant. -/
inductive ArrayLength where
  | number (text : List Char) (isNumber : Source.Pattern.number.Matches text)
  | constant (name : Identifier)

inductive HostType where
  | name (n : Identifier)
  | qualified (package n : Identifier)
  | pointer (t : HostType)
  | slice (t : HostType)
  | array (length : ArrayLength) (t : HostType)
  | map (key value : HostType)
  | chan (t : HostType)
  | func (parameters : List HostType) (result : Option HostType)
  | emptyInterface
  | emptyStruct

def commaSeparated (items : List (List Char)) : List Char :=
  [',', ' '].intercalate items

def ArrayLength.text : ArrayLength → List Char
  | number text _ => text
  | constant name => name.text

namespace HostType

mutual

/-- How a type is written. -/
def text : HostType → List Char
  | name n => n.text
  | qualified package n => package.text ++ '.' :: n.text
  | pointer t => '*' :: t.text
  | slice t => '[' :: ']' :: t.text
  | array length t => '[' :: (length.text ++ ']' :: t.text)
  | map key value => 'm' :: 'a' :: 'p' :: '[' :: (key.text ++ ']' :: value.text)
  | chan t => 'c' :: 'h' :: 'a' :: 'n' :: ' ' :: t.text
  | func parameters result => 'f' :: 'u' :: 'n' :: 'c' :: '(' ::
      (commaSeparated (texts parameters) ++ ')' :: resultText result)
  | emptyInterface => ['i', 'n', 't', 'e', 'r', 'f', 'a', 'c', 'e', '\x7b', '\x7d']
  | emptyStruct => ['s', 't', 'r', 'u', 'c', 't', '\x7b', '\x7d']

def texts : List HostType → List (List Char)
  | [] => []
  | t :: ts => t.text :: texts ts

/-- The result of a function stands after a blank. -/
def resultText : Option HostType → List Char
  | none => []
  | some t => ' ' :: t.text

end

example : String.ofList (func [emptyInterface, slice emptyStruct] (some (chan emptyStruct))).text =
    "func(interface\x7b\x7d, []struct\x7b\x7d) chan struct\x7b\x7d" := by
  decide

/-- What holds of the parts of a type and so of the type holds of every type. -/
theorem induction {P : HostType → Prop}
    (name : ∀ n, P (name n)) (qualified : ∀ package n, P (qualified package n))
    (pointer : ∀ t, P t → P (pointer t)) (slice : ∀ t, P t → P (slice t))
    (array : ∀ length t, P t → P (array length t))
    (map : ∀ key value, P key → P value → P (map key value))
    (chan : ∀ t, P t → P (chan t))
    (func : ∀ parameters result, (∀ t ∈ parameters, P t) → (∀ t ∈ result, P t) →
      P (func parameters result))
    (emptyInterface : P emptyInterface) (emptyStruct : P emptyStruct) (t : HostType) : P t := by
  refine @HostType.rec P (fun ts => ∀ t ∈ ts, P t) (fun result => ∀ t ∈ result, P t)
    name qualified pointer slice array map chan func emptyInterface emptyStruct ?_ ?_ ?_ ?_ t
  · intro t ht
    cases ht
  · intro t ts ht hts u hu
    rcases List.mem_cons.mp hu with rfl | hu
    · exact ht
    · exact hts u hu
  · intro t ht
    cases ht
  · intro t ht u hu
    exact Option.mem_some.mp hu ▸ ht

theorem texts_eq (ts : List HostType) : texts ts = ts.map text := by
  induction ts with
  | nil => rfl
  | cons t ts ih => rw [texts, ih, List.map_cons]

end HostType

def ArrayLength.lexeme : ArrayLength → Lexeme
  | number text _ => .number text
  | constant name => .word name.text

namespace HostType

mutual

/-- The lexemes a type is written in. -/
def lexemes : HostType → List Lexeme
  | name n => [.word n.text]
  | qualified package n => [.word package.text, .dot, .word n.text]
  | pointer t => .star :: t.lexemes
  | slice t => .opener .square :: .closer .square :: t.lexemes
  | array length t => .opener .square :: length.lexeme :: .closer .square :: t.lexemes
  | map key value =>
    .word "map".toList :: .opener .square :: (key.lexemes ++ .closer .square :: value.lexemes)
  | chan t => .word "chan".toList :: .space :: t.lexemes
  | func parameters result => .word "func".toList :: .opener .round ::
      (listed (lexemeLists parameters) ++ .closer .round :: resultLexemes result)
  | emptyInterface => [.word "interface".toList, .opener .curly, .closer .curly]
  | emptyStruct => [.word "struct".toList, .opener .curly, .closer .curly]

def lexemeLists : List HostType → List (List Lexeme)
  | [] => []
  | t :: ts => t.lexemes :: lexemeLists ts

def resultLexemes : Option HostType → List Lexeme
  | none => []
  | some t => .space :: t.lexemes

end

theorem lexemeLists_eq (ts : List HostType) : lexemeLists ts = ts.map lexemes := by
  induction ts with
  | nil => rfl
  | cons t ts ih => rw [lexemeLists, ih, List.map_cons]

theorem mem_lexemeLists {ts : List HostType} {item : List Lexeme} :
    item ∈ lexemeLists ts ↔ ∃ t ∈ ts, t.lexemes = item := by
  rw [lexemeLists_eq, List.mem_map]

@[simp] theorem written_length (n : ArrayLength) : n.lexeme.text = n.text := by
  cases n <;> rfl

section Result

variable {result : Option HostType}

theorem written_resultLexemes (h : ∀ t ∈ result, written t.lexemes = t.text) :
    written (resultLexemes result) = resultText result := by
  cases result with
  | none => rfl
  | some t => simp [resultLexemes, resultText, h t rfl, Lexeme.space]

theorem inked_result (h : ∀ t ∈ result, Inked t.lexemes) :
    Inked (.closer .round :: resultLexemes result) := by
  cases result with
  | none => exact .single (Source.isInk_mark rfl)
  | some t => exact .span [.space] (Source.isInk_mark rfl) (h t rfl)

theorem nested_result (h : ∀ t ∈ result, Nested false t.lexemes) :
    Nested false (resultLexemes result) := by
  cases result with
  | none => exact .nil
  | some t => exact .plain Source.space_isPlain (h t rfl)

theorem spaced_result {rest : List Char} (hi : ∀ t ∈ result, Inked t.lexemes)
    (h : ∀ t ∈ result, Spaced t.lexemes rest) : Spaced (resultLexemes result) rest := by
  cases result with
  | none => trivial
  | some t => exact ⟨Source.readBefore_blank rfl (hi t rfl).endsBlank, h t rfl⟩

end Result

section List

variable {ts : List HostType}

theorem written_lexemeLists (h : ∀ t ∈ ts, written t.lexemes = t.text) :
    written (listed (lexemeLists ts)) = commaSeparated (texts ts) := by
  have htexts : (ts.map lexemes).map written = ts.map text := by
    rw [List.map_map]
    exact List.map_congr_left h
  rw [Source.written_listed, lexemeLists_eq, texts_eq, htexts, commaSeparated]

theorem nested_lexemeLists (h : ∀ t ∈ ts, Nested false t.lexemes) :
    Nested true (listed (lexemeLists ts)) := by
  apply Source.nested_listed
  intro item hi
  obtain ⟨t, ht, rfl⟩ := mem_lexemeLists.mp hi
  exact (h t ht).allow

end List

/-- The lexemes of a type make up its text. -/
theorem written_lexemes (t : HostType) : written t.lexemes = t.text := by
  induction t using HostType.induction with
  | func parameters result ihp ihr =>
    have hlist := written_lexemeLists ihp
    simp [lexemes, text, hlist, written_resultLexemes ihr, Lexeme.word, Lexeme.opener,
      Lexeme.closer, Source.Delimiter.openChar, Source.Delimiter.closeChar]
  | _ => simp_all [lexemes, text, Lexeme.word, Lexeme.opener, Lexeme.closer, Lexeme.star,
      Lexeme.dot, Lexeme.space, Source.Delimiter.openChar, Source.Delimiter.closeChar]

theorem ident_of_word {w : String} (c : Char) (cs : List Char) (h : w.toList = c :: cs)
    (hc : Lexeme.isIdentStart c) (hcs : cs.all Lexeme.isIdentPart) :
    Source.Pattern.ident.Matches w.toList :=
  ⟨c, cs, h, hc, List.all_eq_true.mp hcs⟩

theorem ident_map : Source.Pattern.ident.Matches "map".toList :=
  ident_of_word 'm' ['a', 'p'] rfl rfl rfl

theorem ident_chan : Source.Pattern.ident.Matches "chan".toList :=
  ident_of_word 'c' ['h', 'a', 'n'] rfl rfl rfl

/-- A type stands between tokens without blanks at their ends. -/
theorem inked (t : HostType) : Inked t.lexemes := by
  induction t using HostType.induction with
  | name n => exact .single (Source.isInk_word n.isIdent)
  | qualified package n =>
    exact .cons (Source.isInk_word package.isIdent)
      (.cons (Source.isInk_mark rfl) (.single (Source.isInk_word n.isIdent)))
  | pointer t ih => exact .cons (Source.isInk_mark rfl) ih
  | slice t ih => exact .cons (Source.isInk_mark rfl) (.cons (Source.isInk_mark rfl) ih)
  | array length t ih =>
    exact .span [length.lexeme, .closer .square] (Source.isInk_mark rfl) ih
  | map key value _ ihv =>
    exact .cons (Source.isInk_word ident_map)
      (.span key.lexemes (Source.isInk_mark rfl) (.cons (Source.isInk_mark rfl) ihv))
  | chan t ih => exact .span [.space] (Source.isInk_word ident_chan) ih
  | func parameters result _ ihr =>
    exact .span (.opener .round :: listed (lexemeLists parameters))
      (Source.isInk_word (Source.ident_keyword .func)) (inked_result ihr)
  | emptyInterface =>
    exact .span [.opener .curly] (Source.isInk_word (Source.ident_keyword .interface))
      (.single (Source.isInk_mark rfl))
  | emptyStruct =>
    exact .span [.opener .curly] (Source.isInk_word (Source.ident_keyword .struct))
      (.single (Source.isInk_mark rfl))

theorem isPlain_length (n : ArrayLength) : n.lexeme.IsPlain := by
  cases n with
  | number text h => exact Source.isPlain_number h
  | constant name => exact Source.isPlain_word name.isIdent

/-- The brackets of a type match, and its commas stand inside them. -/
theorem nested (t : HostType) : Nested false t.lexemes := by
  induction t using HostType.induction with
  | name n => exact .plain (Source.isPlain_word n.isIdent) .nil
  | qualified package n =>
    exact .plain (Source.isPlain_word package.isIdent)
      (.plain Source.isPlain_dot (.plain (Source.isPlain_word n.isIdent) .nil))
  | pointer t ih => exact .plain Source.isPlain_star ih
  | slice t ih => exact .pair ih
  | array length t ih =>
    exact @Nested.group _ _ [length.lexeme] _ (.plain (isPlain_length length) .nil) ih
  | map key value ihk ihv => exact .plain (Source.isPlain_word ident_map) (.group ihk.allow ihv)
  | chan t ih => exact .plain (Source.isPlain_word ident_chan) (.plain Source.space_isPlain ih)
  | func parameters result ihp ihr =>
    have hlist := nested_lexemeLists ihp
    exact .plain (Source.isPlain_word (Source.ident_keyword .func))
      (.group hlist (nested_result ihr))
  | emptyInterface =>
    exact .plain (Source.isPlain_word (Source.ident_keyword .interface)) (.pair .nil)
  | emptyStruct =>
    exact .plain (Source.isPlain_word (Source.ident_keyword .struct)) (.pair .nil)

theorem readBefore_length {n : ArrayLength} {rest : List Char} :
    n.lexeme.ReadBefore (']' :: rest) := by
  cases n with
  | number text h => exact Source.readBefore_number h (by simp; rfl)
  | constant name => exact Source.readBefore_word name.isIdent (Source.endsWord_cons.mpr rfl)

/-- Whatever ends a word ends a type. -/
theorem spaced (t : HostType) {rest : List Char} (hr : EndsWord rest) :
    Spaced t.lexemes rest := by
  induction t using HostType.induction generalizing rest with
  | name n => exact ⟨Source.readBefore_word n.isIdent hr, trivial⟩
  | qualified package n =>
    exact ⟨Source.readBefore_word package.isIdent (Source.endsWord_cons.mpr rfl),
      Source.readBefore_mark rfl, Source.readBefore_word n.isIdent hr, trivial⟩
  | pointer t ih => exact ⟨Source.readBefore_mark rfl, ih hr⟩
  | slice t ih => exact ⟨Source.readBefore_mark rfl, Source.readBefore_mark rfl, ih hr⟩
  | array length t ih =>
    exact ⟨Source.readBefore_mark rfl, readBefore_length, Source.readBefore_mark rfl, ih hr⟩
  | map key value ihk ihv =>
    refine ⟨Source.readBefore_word ident_map (Source.endsWord_cons.mpr rfl),
      Source.readBefore_mark rfl, ?_⟩
    rw [Source.spaced_append]
    exact ⟨ihk (Source.endsWord_cons.mpr rfl), Source.readBefore_mark rfl, ihv hr⟩
  | chan t ih =>
    exact ⟨Source.readBefore_word ident_chan (Source.endsWord_cons.mpr rfl),
      Source.readBefore_blank rfl t.inked.endsBlank, ih hr⟩
  | func parameters result ihp ihr =>
    have hlist : ∀ rest, EndsWord rest → Spaced (listed (lexemeLists parameters)) rest := by
      intro rest hr
      refine Source.spaced_listed ?_ ?_ hr
      · intro item hi
        obtain ⟨t, -, rfl⟩ := mem_lexemeLists.mp hi
        exact t.inked
      · intro item hi rest hr
        obtain ⟨t, ht, rfl⟩ := mem_lexemeLists.mp hi
        exact ihp t ht hr
    have hresult : Spaced (resultLexemes result) rest :=
      spaced_result (fun t _ => t.inked) fun t ht => ihr t ht hr
    refine ⟨Source.readBefore_word (Source.ident_keyword .func) (Source.endsWord_cons.mpr rfl),
      Source.readBefore_mark rfl, ?_⟩
    rw [Source.spaced_append]
    exact ⟨hlist _ (Source.endsWord_cons.mpr rfl), Source.readBefore_mark rfl, hresult⟩
  | emptyInterface =>
    exact ⟨Source.readBefore_word (Source.ident_keyword .interface) (Source.endsWord_cons.mpr rfl),
      Source.readBefore_mark rfl, Source.readBefore_mark rfl, trivial⟩
  | emptyStruct =>
    exact ⟨Source.readBefore_word (Source.ident_keyword .struct) (Source.endsWord_cons.mpr rfl),
      Source.readBefore_mark rfl, Source.readBefore_mark rfl, trivial⟩

theorem trim_text (t : HostType) : Text.trim t.text = t.text := by
  rw [← t.written_lexemes]
  exact Text.trim_of_trimmed t.inked.trimmed

/-- What follows the parameter list is the result and nothing else. -/
theorem trim_resultText (result : Option HostType) :
    Text.trim (resultText result) = (result.map text).getD [] := by
  cases result with
  | none => rfl
  | some t => rw [resultText, Text.trim_cons rfl, t.trim_text, Option.map_some, Option.getD_some]

end HostType

end SignalBridge
