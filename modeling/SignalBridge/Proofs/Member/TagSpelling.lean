import SignalBridge.Member.Marker
import SignalBridge.Proofs.Source.Pattern

namespace SignalBridge

namespace Source.Tag

variable {text : List Char} {c : Char}

/-- A character as an interpreted literal has it. -/
def escapeChar (c : Char) : List Char :=
  if c = '\\' then ['\\', '\\']
  else if c = '"' then ['\\', '"']
  else if c = '\n' then ['\\', 'n']
  else if c = '\t' then ['\\', 't']
  else [c]

def escape (text : List Char) : List Char :=
  text.flatMap escapeChar

def rawLiteral (text : List Char) : List Char :=
  Lexeme.rawQuote :: (text ++ [Lexeme.rawQuote])

def interpretedLiteral (text : List Char) : List Char :=
  '"' :: (escape text ++ ['"'])

section Escapes

/-- A character is escaped by a backslash and one more character, which are read as it, or it stands
for itself. -/
theorem escapeChar_cases (c : Char) :
    (∃ d, d ≠ '\n' ∧ escapeChar c = ['\\', d] ∧
      ∀ rest, unescape ('\\' :: d :: rest) = c :: unescape rest) ∨
    (c ≠ '\\' ∧ c ≠ '"' ∧ c ≠ '\n' ∧ escapeChar c = [c]) := by
  by_cases hb : c = '\\'
  · subst hb
    exact .inl ⟨'\\', by decide, rfl, fun _ => rfl⟩
  by_cases hq : c = '"'
  · subst hq
    exact .inl ⟨'"', by decide, rfl, fun _ => rfl⟩
  by_cases hn : c = '\n'
  · subst hn
    exact .inl ⟨'n', by decide, rfl, fun _ => rfl⟩
  by_cases ht : c = '\t'
  · subst ht
    exact .inl ⟨'t', by decide, rfl, fun _ => rfl⟩
  refine .inr ⟨hb, hq, hn, ?_⟩
  rw [escapeChar, if_neg hb, if_neg hq, if_neg hn, if_neg ht]

theorem escape_cons (c : Char) (cs : List Char) : escape (c :: cs) = escapeChar c ++ escape cs :=
  List.flatMap_cons

theorem unescape_plain (h : c ≠ '\\') (rest : List Char) :
    unescape (c :: rest) = c :: unescape rest := by
  rw [unescape.eq_def]
  split <;> simp_all

/-- Read back, an escaped text is what it was. -/
theorem unescape_escape (text : List Char) : unescape (escape text) = text := by
  induction text with
  | nil => rfl
  | cons c cs ih =>
    rw [escape_cons]
    rcases escapeChar_cases c with ⟨d, -, he, hread⟩ | ⟨hb, -, -, he⟩
    · rw [he, List.cons_append, List.singleton_append, hread, ih]
    · rw [he, List.singleton_append, unescape_plain hb, ih]

/-- Escaped, a text may stand between double quotes. -/
theorem quotedBody_escape (text : List Char) : QuotedBody '"' (escape text) := by
  induction text with
  | nil => exact .nil
  | cons c cs ih =>
    rw [escape_cons]
    rcases escapeChar_cases c with ⟨d, hd, he, -⟩ | ⟨hb, hq, hn, he⟩
    · rw [he]
      exact .escape hd ih
    · rw [he]
      exact .plain hq hb hn ih

end Escapes

section Contents

theorem filter_isQuote (h : Lexeme.rawQuote ∉ text) :
    text.filter (!isQuote ·) = text.filter (· ≠ '"') := by
  refine List.filter_congr fun c hc => ?_
  have hne : c ≠ '\x60' := by
    rintro rfl
    exact h hc
  simp [isQuote, hne]

theorem content_rawLiteral (h : Lexeme.rawQuote ∉ text) :
    content (rawLiteral text) = text.filter (· ≠ '"') := by
  have hraw : isInterpreted (rawLiteral text) = false := by
    simp [isInterpreted, rawLiteral, Lexeme.rawQuote]
  have hquote : isQuote Lexeme.rawQuote = true := rfl
  rw [content, hraw, ← filter_isQuote h]
  simp [rawLiteral, hquote]

theorem content_interpretedLiteral (h : Lexeme.rawQuote ∉ text) :
    content (interpretedLiteral text) = text.filter (· ≠ '"') := by
  have hinterpreted : isInterpreted (interpretedLiteral text) = true := by
    simp [isInterpreted, interpretedLiteral, List.getLast?_cons]
  have hinner : (interpretedLiteral text).tail.dropLast = escape text := by
    simp [interpretedLiteral]
  rw [content, hinterpreted, if_pos rfl, hinner, unescape_escape, filter_isQuote h]

end Contents

end Source.Tag

open Source (Lexeme Pattern Tag.rawLiteral Tag.interpretedLiteral)

/-- The field with another tag. -/
def Source.Field.withTag (f : Source.Field) (literal : List Char) : Source.Field :=
  { f with tag := some (String.ofList literal) }

theorem Source.Field.tagText_withTag (f : Source.Field) (literal : List Char) :
    (f.withTag literal).tagText = some (String.ofList (Tag.content literal)) := by
  rw [tagText, withTag, Option.map_some, String.toList_ofList]

/-- A text without backquote is written as a raw literal, or with its backslashes, double quotes,
line breaks and tabs escaped as an interpreted one. As a field's tag either is read as the text
without its double quotes, and so the field has the same marker and declares the same member. -/
theorem tagText_spellings {text : List Char} (h : Lexeme.rawQuote ∉ text) :
    Pattern.rawString.Matches (Tag.rawLiteral text) ∧
    Pattern.string.Matches (Tag.interpretedLiteral text) ∧
    ∀ f : Source.Field,
      let raw := f.withTag (Tag.rawLiteral text)
      let interpreted := f.withTag (Tag.interpretedLiteral text)
      raw.tagText = some (String.ofList (text.filter (· ≠ '"'))) ∧
      interpreted.tagText = raw.tagText ∧
      interpreted.tagText.bind Marker.ofTag? = raw.tagText.bind Marker.ofTag? ∧
      (∀ (r : Registry) (owner : String),
        (interpreted.tagText.bind fun tag => r.fieldMember? owner tag interpreted.typeText) =
          raw.tagText.bind fun tag => r.fieldMember? owner tag raw.typeText) := by
  refine ⟨⟨text, rfl, h⟩, ⟨_, rfl, Source.Tag.quotedBody_escape text⟩, ?_⟩
  intro f raw interpreted
  have hraw : raw.tagText = some (String.ofList (text.filter (· ≠ '"'))) := by
    rw [f.tagText_withTag, Source.Tag.content_rawLiteral h]
  have hsame : interpreted.tagText = raw.tagText := by
    rw [hraw, f.tagText_withTag, Source.Tag.content_interpretedLiteral h]
  refine ⟨hraw, hsame, by rw [hsame], ?_⟩
  intro r owner
  rw [hsame]
  rfl

section Backslashes

/-- A tag with backslashes before a letter and before a quote, and with a tab at its end. -/
def goTag : List Char :=
  "path:\"\\new\\\\\" slot:\"go\"\t".toList

def goField : Source.Field :=
  ⟨["_"], "func(int) bool", none, ⟨0, 0⟩⟩

theorem tagText_spellings_go :
    String.ofList (Tag.interpretedLiteral goTag) =
      "\"path:\\\"\\\\new\\\\\\\\\\\" slot:\\\"go\\\"\\t\"" ∧
    (goField.withTag (Tag.interpretedLiteral goTag)).tagText =
      some "path:\\new\\\\ slot:go\t" ∧
    (goField.withTag (Tag.interpretedLiteral goTag)).tagText.bind Marker.ofTag? =
      some ⟨.slot, "go"⟩ := by
  obtain ⟨-, -, hfield⟩ := @tagText_spellings goTag (by decide)
  obtain ⟨hraw, hsame, hmarker, -⟩ := hfield goField
  refine ⟨by decide, hsame.trans (hraw.trans (by decide)), hmarker.trans ?_⟩
  rw [hraw]
  decide

end Backslashes

end SignalBridge
