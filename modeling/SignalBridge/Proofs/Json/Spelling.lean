import Mathlib.Data.List.Chain
import Mathlib.Data.List.Forall2
import SignalBridge.Proofs.Json.Printed

namespace SignalBridge.Json

open List (Forall₂)

namespace Token

/-- One digit or more. -/
def IsDigits (cs : List Char) : Prop :=
  cs ≠ [] ∧ ∀ c ∈ cs, c.isDigit

inductive WholeText : List Char → Prop where
  | zero : WholeText ['0']
  | digits {c : Char} {cs : List Char} (h : IsDigits (c :: cs)) (hc : c ≠ '0') :
      WholeText (c :: cs)

inductive FractionText : List Char → Prop where
  | none : FractionText []
  | digits {ds : List Char} (h : IsDigits ds) : FractionText ('.' :: ds)

inductive ExponentText : List Char → Prop where
  | none : ExponentText []
  | digits {e : Char} {sign ds : List Char} (he : e = 'e' ∨ e = 'E')
      (hs : sign = [] ∨ sign = ['+'] ∨ sign = ['-']) (h : IsDigits ds) :
      ExponentText (e :: (sign ++ ds))

inductive NumberText : List Char → Prop where
  | parts {sign whole fraction exponent : List Char} (hs : sign = [] ∨ sign = ['-'])
      (hw : WholeText whole) (hf : FractionText fraction) (he : ExponentText exponent) :
      NumberText (sign ++ (whole ++ (fraction ++ exponent)))

/-- The ways to write a piece of a string. -/
inductive PieceText : Piece → List Char → Prop where
  | plain {c : Char} (hq : c ≠ '"') (hb : c ≠ '\\') (hc : ¬ c.toNat < 0x20) :
      PieceText (.char c) [c]
  | short {e c : Char} (h : shortEscape? e = some c) : PieceText (.char c) ['\\', e]
  | unit {a b c d : Char} {n : Nat} (h : hexNumber? [a, b, c, d] = some n) :
      PieceText (.ofUnit n) ['\\', 'u', a, b, c, d]

/-- The ways to write a token. -/
inductive TokenText : Token → List Char → Prop where
  | beginObject : TokenText .beginObject ['{']
  | endObject : TokenText .endObject ['}']
  | beginArray : TokenText .beginArray ['[']
  | endArray : TokenText .endArray [']']
  | comma : TokenText .comma [',']
  | colon : TokenText .colon [':']
  | null : TokenText .null ['n', 'u', 'l', 'l']
  | boolTrue : TokenText (.bool true) ['t', 'r', 'u', 'e']
  | boolFalse : TokenText (.bool false) ['f', 'a', 'l', 's', 'e']
  | number {text : List Char} (h : NumberText text) : TokenText (.number (String.ofList text)) text
  | string {ps : List Piece} {texts : List (List Char)} (h : Forall₂ PieceText ps texts) :
      TokenText (.string ((joinPieces? ps).map String.ofList)) ('"' :: (texts.flatten ++ ['"']))

def isNumber : Token → Bool
  | .number _ => true
  | _ => false

/-- Tokens written one after the other, with any blanks between and around them. -/
inductive Spaced : List Token → List Char → Prop where
  | nil {blanks : List Char} (hb : ∀ c ∈ blanks, isBlank c) : Spaced [] blanks
  | cons {t : Token} {ts : List Token} {blanks text rest : List Char} (hb : ∀ c ∈ blanks, isBlank c)
      (ht : TokenText t text) (h : Spaced ts rest) : Spaced (t :: ts) (blanks ++ (text ++ rest))

/-! Numbers, part by part. -/

section Numbers

variable {ds rest whole fraction exponent : List Char}

theorem digits?_of_isDigits (h : IsDigits ds) (hr : NoDigit rest) :
    digits? (ds ++ rest) = some (ds, rest) := by
  have htake : (ds ++ rest).takeWhile Char.isDigit = ds := by
    rw [List.takeWhile_append_of_pos h.2, hr.takeWhile, List.append_nil]
  have hdrop : (ds ++ rest).dropWhile Char.isDigit = rest := by
    have hall := List.takeWhile_append_dropWhile (p := Char.isDigit) (l := ds ++ rest)
    rw [htake] at hall
    exact List.append_cancel_left hall
  rw [digits?, htake, hdrop, if_neg (by simp [h.1])]

theorem integer?_of_wholeText (h : WholeText whole) (hr : NoDigit rest) :
    integer? (whole ++ rest) = some (whole, rest) := by
  cases h with
  | zero => rfl
  | @digits c cs h hc =>
    rw [List.cons_append, integer?.eq_2 _ (by simp [hc]), ← List.cons_append]
    exact digits?_of_isDigits h hr

theorem fraction?_of_fractionText (h : FractionText fraction) (hr : NoDigit rest)
    (hdot : rest.head? ≠ some '.') : fraction? (fraction ++ rest) = some (fraction, rest) := by
  cases h with
  | none => exact fraction?.eq_2 rest fun _ he => hdot (congrArg List.head? he)
  | digits h =>
    rw [List.cons_append, fraction?, digits?_of_isDigits h hr]
    rfl

theorem exponentSign_of_isDigits {sign : List Char} (hs : sign = [] ∨ sign = ['+'] ∨ sign = ['-'])
    (h : IsDigits ds) : exponentSign (sign ++ ds) = (sign, ds) := by
  obtain ⟨c, cs, rfl⟩ := List.exists_cons_of_ne_nil h.1
  have hc : c.isDigit := h.2 c List.mem_cons_self
  rcases hs with rfl | rfl | rfl
  · refine exponentSign.eq_3 _ ?_ ?_ <;> rintro _ ⟨⟩ <;> cases hc
  · rfl
  · rfl

theorem exponent?_of_exponentText (h : ExponentText exponent) :
    exponent? exponent = some (exponent, []) := by
  cases h with
  | none => rfl
  | digits he hs h =>
    have hdigits : digits? (_ ++ []) = some (_, []) := digits?_of_isDigits h nofun
    rw [List.append_nil] at hdigits
    rw [exponent?, if_pos he, exponentSign_of_isDigits hs h, hdigits]
    rfl

theorem ExponentText.head (h : ExponentText exponent) :
    NoDigit exponent ∧ exponent.head? ≠ some '.' := by
  cases h with
  | none => exact ⟨nofun, nofun⟩
  | digits he hs h =>
    rcases he with rfl | rfl
    · exact ⟨by rintro _ ⟨⟩; rfl, by simp⟩
    · exact ⟨by rintro _ ⟨⟩; rfl, by simp⟩

theorem FractionText.noDigit (h : FractionText fraction) (he : NoDigit exponent) :
    NoDigit (fraction ++ exponent) := by
  cases h with
  | none => exact he
  | digits h =>
    rintro _ ⟨⟩
    rfl

theorem WholeText.head (h : WholeText whole) (rest : List Char) :
    (whole ++ rest).head? ≠ some '-' := by
  cases h with
  | zero => simp
  | digits h hc =>
    rintro ⟨⟩
    cases h.2 '-' List.mem_cons_self

/-- What the grammar takes for a number, the reader takes whole. -/
theorem NumberText.isNumber {text : List Char} (h : NumberText text) :
    IsNumber (String.ofList text) := by
  obtain ⟨hs, hw, hf, he⟩ := h
  rename_i sign whole fraction exponent
  have hunsigned : ∀ sign, unsigned? sign (whole ++ (fraction ++ exponent)) =
      some (sign ++ (whole ++ (fraction ++ exponent)), []) := by
    intro sign
    have hwhole := integer?_of_wholeText hw (hf.noDigit he.head.1)
    have hfraction := fraction?_of_fractionText hf he.head.1 he.head.2
    simp [unsigned?, hwhole, hfraction, exponent?_of_exponentText he]
  rw [IsNumber, String.toList_ofList]
  rcases hs with rfl | rfl
  · rw [List.nil_append, number?_of_head (hw.head _)]
    exact hunsigned []
  · exact hunsigned ['-']

end Numbers

/-! Strings, piece by piece. -/

section Strings

variable {ps : List Piece} {cs rest : List Char} {texts : List (List Char)}

theorem pieces?_short {e c : Char} (h : shortEscape? e = some c)
    (hps : pieces? cs = some (ps, rest)) :
    pieces? ('\\' :: e :: cs) = some (.char c :: ps, rest) := by
  have he : e ≠ 'u' := by
    rintro rfl
    cases h
  rw [pieces?.eq_3 _ _ (by simp [he]), h, hps]
  rfl

theorem pieces?_pieceText {p : Piece} {text : List Char} (h : PieceText p text)
    (hps : pieces? cs = some (ps, rest)) : pieces? (text ++ cs) = some (p :: ps, rest) := by
  cases h with
  | plain hq hb hc => exact pieces?_plain hq hb hc hps
  | short h => exact pieces?_short h hps
  | unit h => simp [pieces?, h, hps]

theorem pieces?_pieceTexts (h : Forall₂ PieceText ps texts) (rest : List Char) :
    pieces? (texts.flatten ++ '"' :: rest) = some (ps, rest) := by
  induction h with
  | nil => simp [pieces?]
  | cons h _ ih =>
    rw [List.flatten_cons, List.append_assoc]
    exact pieces?_pieceText h ih

end Strings

section Texts

variable {t : Token} {ts : List Token} {text rest : List Char}

/-- No blank stands at the head of a token, and no part of a number at the head of any other. -/
theorem TokenText.head (h : TokenText t text) : ∃ c cs, text = c :: cs ∧ isBlank c = false ∧
    (t.isNumber = false → isNumberPart c = false) := by
  cases h with
  | number h =>
    obtain ⟨c, cs, hl, hc⟩ := h.isNumber.head
    rw [String.toList_ofList] at hl
    refine ⟨c, cs, hl, ?_, nofun⟩
    have hne : ∀ d : Char, (d = '-' ∨ d.isDigit) = False → c ≠ d := by
      rintro d hd rfl
      simp [hd] at hc
    simp [isBlank, hne]
  | string => exact ⟨_, _, rfl, rfl, fun _ => rfl⟩
  | _ => exact ⟨_, _, rfl, rfl, fun _ => rfl⟩

theorem next?_of_tokenText (h : TokenText t text) (hr : t.isNumber → EndsNumber rest) :
    next? (text ++ rest) = some (t, rest) := by
  cases h with
  | number h =>
    have hn := next?_number h.isNumber (hr rfl)
    rwa [String.toList_ofList] at hn
  | string h =>
    rw [List.cons_append, List.append_assoc, List.singleton_append, next?_quote,
      pieces?_pieceTexts h]
    rfl
  | _ => rfl

theorem endsNumber_blanks {blanks : List Char} (hb : ∀ c ∈ blanks, isBlank c)
    (h : EndsNumber rest) : EndsNumber (blanks ++ rest) := by
  cases blanks with
  | nil => exact h
  | cons c cs =>
    rintro _ ⟨⟩
    have hc := hb c List.mem_cons_self
    simp only [isBlank, Bool.or_eq_true, decide_eq_true_eq] at hc
    obtain ((rfl | rfl) | rfl) | rfl := hc <;> rfl

/-- Tokens of which the first is no number may stand behind a number. -/
theorem Spaced.endsNumber (h : Spaced ts text) (hn : ∀ t ∈ ts.head?, t.isNumber = false) :
    EndsNumber text := by
  cases h with
  | nil hb =>
    have hend : EndsNumber (_ ++ []) := endsNumber_blanks hb nofun
    rwa [List.append_nil] at hend
  | cons hb ht h =>
    refine endsNumber_blanks hb ?_
    obtain ⟨c, cs, rfl, -, hc⟩ := ht.head
    rintro _ ⟨⟩
    exact hc (hn _ rfl)

end Texts

/-- No number stands beside another. -/
def Apart (ts : List Token) : Prop :=
  ts.IsChain fun t u => t.isNumber → u.isNumber = false

end Token

section Values

variable {ts : List Token} {text : List Char} {v : Json}

open Token (Apart Spaced)

theorem tokens?_blanks {blanks : List Char} (hb : ∀ c ∈ blanks, Token.isBlank c)
    (cs : List Char) : tokens? (blanks ++ cs) = tokens? cs := by
  induction blanks with
  | nil => rfl
  | cons c blanks ih =>
    obtain ⟨hc, hb⟩ := List.forall_mem_cons.mp hb
    rw [List.cons_append, tokens?_blank hc, ih hb]

/-- Tokens written with any blanks between them are read as these tokens. -/
theorem tokens?_of_spaced (h : Spaced ts text) (ha : Apart ts) : tokens? text = some ts := by
  induction h with
  | @nil blanks hb =>
    have hread := tokens?_blanks hb []
    rw [List.append_nil] at hread
    rw [hread, tokens?]
  | @cons t ts blanks text rest hb ht h ih =>
    obtain ⟨hnext, ha⟩ := List.isChain_cons.mp ha
    have hstep := Token.next?_of_tokenText ht fun hn => h.endsNumber fun u hu => hnext u hu hn
    obtain ⟨c, cs, rfl, hc, -⟩ := ht.head
    rw [List.cons_append] at hstep ⊢
    rw [tokens?_blanks hb, tokens?_next hc hstep, ih ha, Option.map_some]

/-- In front of tokens of which the first is no number, nothing has to be kept apart. -/
def Sealed (ts : List Token) : Prop :=
  Apart ts ∧ ∀ t ∈ ts.head?, t.isNumber = false

theorem apart_cons {t : Token} (h : Sealed ts) : Apart (t :: ts) :=
  List.isChain_cons.mpr ⟨fun u hu _ => h.2 u hu, h.1⟩

theorem sealed_cons {t : Token} (ht : t.isNumber = false) (h : Apart ts) : Sealed (t :: ts) :=
  ⟨List.isChain_cons.mpr ⟨fun _ _ hn => by simp [ht] at hn, h⟩, by rintro _ ⟨⟩; exact ht⟩

theorem sealed_itemTokens {vs : List Json} (h : ∀ v ∈ vs, ∀ ts, Sealed ts → Apart (tokens v ++ ts))
    (hs : Sealed ts) : Sealed (itemTokens vs ++ ts) := by
  induction vs with
  | nil => exact hs
  | cons v vs ih =>
    obtain ⟨hv, hvs⟩ := List.forall_mem_cons.mp h
    rw [itemTokens, List.cons_append, List.append_assoc]
    exact sealed_cons rfl (hv _ (ih hvs))

theorem sealed_entryTokens {es : List (Option String × Json)}
    (h : ∀ e ∈ es, ∀ ts, Sealed ts → Apart (tokens e.2 ++ ts)) (hs : Sealed ts) :
    Sealed (entryTokens es ++ ts) := by
  induction es with
  | nil => exact hs
  | cons e es ih =>
    obtain ⟨he, hes⟩ := List.forall_mem_cons.mp h
    rw [entryTokens, List.cons_append, List.cons_append, List.cons_append, List.append_assoc]
    exact sealed_cons rfl (sealed_cons rfl (sealed_cons rfl (he _ (ih hes))).1).1

/-- In a value no number stands beside another, and none beside what follows. -/
theorem apart_tokens_append (v : Json) (hs : Sealed ts) : Apart (tokens v ++ ts) := by
  -- Items and entries are followed by a comma or a closing mark, so what follows each is sealed.
  induction v using Json.induction generalizing ts with
  | null | bool | number | string => exact apart_cons hs
  | array items ih =>
    have hclose : Sealed (.endArray :: ts) := sealed_cons rfl hs.1
    cases items with
    | nil => exact apart_cons hclose
    | cons v vs =>
      obtain ⟨hv, hvs⟩ := List.forall_mem_cons.mp ih
      have hitems := hv (sealed_itemTokens (fun w hw ts => hvs w hw) hclose)
      simp only [tokens, List.cons_append, List.append_assoc, List.nil_append]
      exact (sealed_cons rfl hitems).1
  | object entries ih =>
    have hclose : Sealed (.endObject :: ts) := sealed_cons rfl hs.1
    cases entries with
    | nil => exact apart_cons hclose
    | cons e es =>
      obtain ⟨he, hes⟩ := List.forall_mem_cons.mp ih
      have hentries := he (sealed_entryTokens (fun e he ts => hes e he) hclose)
      simp only [tokens, List.cons_append, List.append_assoc, List.nil_append]
      exact (sealed_cons rfl (sealed_cons rfl (sealed_cons rfl hentries).1).1).1

end Values

/-- The text holds the tokens of the value, each in any spelling, and any blanks between them. -/
def SpelledBy (v : Json) (text : String) : Prop :=
  Token.Spaced v.tokens text.toList

/-- However a value is spelled, it is read as that value. -/
theorem ofText?_of_spelledBy {v : Json} {text : String} (h : v.SpelledBy text) :
    ofText? text = some v := by
  have hapart : Token.Apart (v.tokens ++ []) := apart_tokens_append v ⟨.nil, nofun⟩
  rw [List.append_nil] at hapart
  rw [ofText?, tokens?_of_spaced h hapart, Option.bind_some, ofTokens?_tokens]

end SignalBridge.Json
