import SignalBridge.Proofs.Json.Spelling

/-!
The texts that are read as JSON. Each token is one of its spellings, and the machine that reads
values keeps track of all tokens it took; so a text is read as a value just if it spells that value
(`ofText?_eq_some_iff`).
-/

namespace SignalBridge.Json

open List (Forall₂)

namespace Token

variable {cs ds rest text : List Char} {ps : List Piece} {t : Token} {ts : List Token}

theorem digits?_eq_some (h : digits? cs = some (ds, rest)) : cs = ds ++ rest ∧ IsDigits ds := by
  unfold digits? at h
  split at h
  · cases h
  · rename_i hne
    cases h
    refine ⟨List.takeWhile_append_dropWhile.symm, by simpa using hne, ?_⟩
    exact List.all_eq_true.mp List.all_takeWhile

theorem integer?_eq_some (h : integer? cs = some (ds, rest)) :
    cs = ds ++ rest ∧ WholeText ds := by
  unfold integer? at h
  split at h
  · cases h
    exact ⟨rfl, .zero⟩
  · rename_i hzero
    obtain ⟨rfl, hd⟩ := digits?_eq_some h
    obtain ⟨c, ds, rfl⟩ := List.exists_cons_of_ne_nil hd.1
    exact ⟨rfl, .digits hd fun hc => hzero (ds ++ rest) (by rw [List.cons_append, hc])⟩

theorem fraction?_eq_some (h : fraction? cs = some (ds, rest)) :
    cs = ds ++ rest ∧ FractionText ds := by
  unfold fraction? at h
  split at h
  · obtain ⟨⟨ds, rest⟩, hd, he⟩ := Option.map_eq_some_iff.mp h
    cases he
    obtain ⟨rfl, hdigits⟩ := digits?_eq_some hd
    exact ⟨rfl, .digits hdigits⟩
  · cases h
    exact ⟨rfl, .none⟩

theorem exponentSign_append_eq (cs : List Char) :
    (exponentSign cs).1 ++ (exponentSign cs).2 = cs ∧ ((exponentSign cs).1 = [] ∨
      (exponentSign cs).1 = ['+'] ∨ (exponentSign cs).1 = ['-']) := by
  unfold exponentSign
  split <;> simp

theorem exponent?_eq_some (h : exponent? cs = some (ds, rest)) :
    cs = ds ++ rest ∧ ExponentText ds := by
  cases cs with
  | nil =>
    cases h
    exact ⟨rfl, .none⟩
  | cons c cs =>
    rw [exponent?] at h
    split at h
    · rename_i hc
      obtain ⟨⟨ds, rest⟩, hd, he⟩ := Option.map_eq_some_iff.mp h
      cases he
      obtain ⟨hsign, hs⟩ := exponentSign_append_eq cs
      obtain ⟨hrest, hdigits⟩ := digits?_eq_some hd
      refine ⟨?_, .digits hc hs hdigits⟩
      rw [List.cons_append, List.cons_append, List.append_assoc, ← hrest, hsign]
    · cases h
      exact ⟨rfl, .none⟩

theorem number?_eq_some (h : number? cs = some (text, rest)) :
    cs = text ++ rest ∧ NumberText text := by
  have hunsigned : ∀ {sign cs}, sign = [] ∨ sign = ['-'] → unsigned? sign cs = some (text, rest) →
      sign ++ cs = text ++ rest ∧ NumberText text := by
    intro sign cs hs h
    simp only [unsigned?, Option.bind_eq_bind, Option.bind_eq_some_iff, Option.pure_def,
      Option.some.injEq, Prod.mk.injEq] at h
    obtain ⟨⟨whole, cs₁⟩, h₁, ⟨fraction, cs₂⟩, h₂, ⟨exponent, cs₃⟩, h₃, rfl, rfl⟩ := h
    obtain ⟨rfl, hw⟩ := integer?_eq_some h₁
    obtain ⟨rfl, hf⟩ := fraction?_eq_some h₂
    obtain ⟨rfl, he⟩ := exponent?_eq_some h₃
    have hnumber := NumberText.parts hs hw hf he
    simpa only [List.append_assoc, true_and] using hnumber
  by_cases hm : cs.head? = some '-'
  · obtain ⟨cs, rfl⟩ := List.head?_eq_some_iff.mp hm
    exact hunsigned (.inr rfl) h
  · rw [number?_of_head hm] at h
    exact hunsigned (.inl rfl) h

theorem pieces?_eq_some (h : pieces? cs = some (ps, rest)) :
    ∃ texts, cs = texts.flatten ++ '"' :: rest ∧ Forall₂ PieceText ps texts := by
  fun_induction pieces? cs generalizing ps with
  | case1 => cases h
  | case2 a b c d cs ih =>
    simp only [Option.bind_eq_bind, Option.bind_eq_some_iff, Option.pure_def, Option.some.injEq,
      Prod.mk.injEq] at h
    obtain ⟨n, hn, ⟨ps, rest⟩, hps, rfl, rfl⟩ := h
    obtain ⟨texts, rfl, hs⟩ := ih hps
    exact ⟨_ :: texts, rfl, .cons (.unit hn) hs⟩
  | case3 e cs _ ih =>
    simp only [Option.bind_eq_bind, Option.bind_eq_some_iff, Option.pure_def, Option.some.injEq,
      Prod.mk.injEq] at h
    obtain ⟨c, hc, ⟨ps, rest⟩, hps, rfl, rfl⟩ := h
    obtain ⟨texts, rfl, hs⟩ := ih hps
    exact ⟨_ :: texts, rfl, .cons (.short hc) hs⟩
  | case4 cs =>
    cases h
    exact ⟨[], rfl, .nil⟩
  | case5 => cases h
  | case6 c cs _ _ hq hc ih =>
    simp only [Option.bind_eq_bind, Option.bind_eq_some_iff, Option.pure_def, Option.some.injEq,
      Prod.mk.injEq] at h
    obtain ⟨⟨ps, rest⟩, hps, rfl, rfl⟩ := h
    obtain ⟨texts, rfl, hs⟩ := ih hps
    rw [not_or] at hc
    exact ⟨[c] :: texts, rfl, .cons (.plain hq hc.1 hc.2) hs⟩

theorem next?_eq_some (h : next? cs = some (t, rest)) :
    ∃ text, cs = text ++ rest ∧ TokenText t text := by
  unfold next? at h
  split at h
  case h_10 =>
    obtain ⟨⟨ps, rest⟩, hps, he⟩ := Option.map_eq_some_iff.mp h
    cases he
    obtain ⟨texts, rfl, hs⟩ := pieces?_eq_some hps
    exact ⟨_, by simp, .string hs⟩
  case h_11 =>
    obtain ⟨⟨text, rest⟩, hn, he⟩ := Option.map_eq_some_iff.mp h
    cases he
    obtain ⟨rfl, hnumber⟩ := number?_eq_some hn
    exact ⟨text, rfl, .number hnumber⟩
  all_goals
    cases h
    refine ⟨_, ?_, by constructor⟩
    rfl

theorem spaced_blank {c : Char} (hc : isBlank c) (h : Spaced ts text) : Spaced ts (c :: text) := by
  cases h with
  | nil hb => exact .nil (List.forall_mem_cons.mpr ⟨hc, hb⟩)
  | @cons _ _ blanks _ _ hb ht h =>
    exact @Spaced.cons _ _ (c :: blanks) _ _ (List.forall_mem_cons.mpr ⟨hc, hb⟩) ht h

end Token

open Token (Spaced)

/-- The tokens read are those that the text spells. -/
theorem spaced_of_tokens? {text : List Char} {ts : List Token} (h : tokens? text = some ts) :
    Spaced ts text := by
  fun_induction tokens? text generalizing ts with
  | case1 =>
    cases h
    exact .nil nofun
  | case2 c cs hc ih => exact Token.spaced_blank hc (ih h)
  | case3 => cases h
  | case4 c cs _ t rest hn ih =>
    obtain ⟨ts, hts, rfl⟩ := Option.map_eq_some_iff.mp h
    obtain ⟨text, he, ht⟩ := Token.next?_eq_some hn
    rw [he]
    exact @Spaced.cons _ _ [] _ _ nofun ht (ih hts)

section Machine

variable {frames : List Frame} {s s' : State} {t : Token} {ts : List Token}

/-- The tokens of finished items, each with the comma behind it. -/
def closedItems (vs : List Json) : List Token :=
  vs.flatMap fun v => v.tokens ++ [.comma]

/-- The tokens of finished entries, each with the comma behind it. -/
def closedEntries (es : List (Option String × Json)) : List Token :=
  es.flatMap fun e => .string e.1 :: .colon :: (e.2.tokens ++ [.comma])

/-- The tokens of an array or object part way through. -/
def Frame.tokens : Frame → List Token
  | .array done => .beginArray :: closedItems done.reverse
  | .object done key => .beginObject :: (closedEntries done.reverse ++ [.string key, .colon])

/-- The tokens that led to a state. -/
def State.taken : State → List Token
  | value frames => frames.reverse.flatMap Frame.tokens
  | itemOrEnd frames => frames.reverse.flatMap Frame.tokens ++ [.beginArray]
  | keyOrEnd frames => frames.reverse.flatMap Frame.tokens ++ [.beginObject]
  | key done frames =>
    frames.reverse.flatMap Frame.tokens ++ .beginObject :: closedEntries done.reverse
  | colon done k frames =>
    frames.reverse.flatMap Frame.tokens ++
      .beginObject :: (closedEntries done.reverse ++ [.string k])
  | after v frames => frames.reverse.flatMap Frame.tokens ++ v.tokens

theorem itemTokens_concat (vs : List Json) (v : Json) :
    itemTokens (vs ++ [v]) = .comma :: (closedItems vs ++ v.tokens) := by
  induction vs with
  | nil => simp [itemTokens, closedItems]
  | cons w vs ih => simp [itemTokens, ih, closedItems]

theorem entryTokens_concat (es : List (Option String × Json)) (k : Option String) (v : Json) :
    entryTokens (es ++ [(k, v)]) =
      .comma :: (closedEntries es ++ .string k :: .colon :: v.tokens) := by
  induction es with
  | nil => simp [entryTokens, closedEntries]
  | cons e es ih => simp [entryTokens, ih, closedEntries]

theorem tokens_array_concat (vs : List Json) (v : Json) :
    tokens (.array (vs ++ [v])) = .beginArray :: (closedItems vs ++ (v.tokens ++ [.endArray])) := by
  cases vs with
  | nil => simp [tokens, itemTokens, closedItems]
  | cons w vs => simp [tokens, itemTokens_concat, closedItems]

theorem tokens_object_concat (es : List (Option String × Json)) (k : Option String) (v : Json) :
    tokens (.object (es ++ [(k, v)])) = .beginObject ::
      (closedEntries es ++ .string k :: .colon :: (v.tokens ++ [.endObject])) := by
  cases es with
  | nil => simp [tokens, entryTokens, closedEntries]
  | cons e es => simp [tokens, entryTokens_concat, closedEntries]

theorem taken_startValue (h : State.startValue frames t = some s) :
    s.taken = frames.reverse.flatMap Frame.tokens ++ [t] := by
  cases t <;> cases h <;> rfl

theorem taken_step (h : s.step t = some s') : s'.taken = s.taken ++ [t] := by
  cases s with
  | value frames => exact taken_startValue h
  | itemOrEnd frames =>
    by_cases ht : t = .endArray
    · subst ht
      cases h
      simp [State.taken, tokens]
    · rw [State.step.eq_3 _ _ ht] at h
      rw [taken_startValue h]
      simp [State.taken, Frame.tokens, closedItems]
  | keyOrEnd frames =>
    cases t with
    | endObject =>
      cases h
      simp [State.taken, tokens]
    | string k =>
      cases h
      simp [State.taken, closedEntries]
    | _ => cases h
  | key done frames =>
    cases t with
    | string k =>
      cases h
      simp [State.taken]
    | _ => cases h
  | colon done k frames =>
    cases t with
    | colon =>
      cases h
      simp [State.taken, Frame.tokens]
    | _ => cases h
  | after v frames =>
    rcases frames with _ | ⟨⟨done⟩ | ⟨done, k⟩, frames⟩
    · cases t <;> cases h
    · cases t with
      | comma =>
        cases h
        simp [State.taken, Frame.tokens, closedItems]
      | endArray =>
        cases h
        simp [State.taken, Frame.tokens, tokens_array_concat]
      | _ => cases h
    · cases t with
      | comma =>
        cases h
        simp [State.taken, Frame.tokens, closedEntries]
      | endObject =>
        cases h
        simp [State.taken, Frame.tokens, tokens_object_concat]
      | _ => cases h

/-- The machine forgets none of the tokens it takes. -/
theorem taken_foldlM (h : ts.foldlM State.step s = some s') : s'.taken = s.taken ++ ts := by
  induction ts generalizing s with
  | nil =>
    cases h
    exact (List.append_nil _).symm
  | cons t ts ih =>
    rw [List.foldlM_cons] at h
    obtain ⟨middle, hstep, hrest⟩ := Option.bind_eq_some_iff.mp h
    rw [ih hrest, taken_step hstep, List.append_assoc, List.singleton_append]

theorem ofTokens?_eq_some {v : Json} (h : ofTokens? ts = some v) : ts = v.tokens := by
  obtain ⟨s, hs, hresult⟩ := Option.bind_eq_some_iff.mp h
  have htaken := taken_foldlM hs
  unfold State.result? at hresult
  split at hresult
  · cases hresult
    exact htaken.symm
  · cases hresult

end Machine

/-- A text is read as a value just if it spells that value. -/
theorem ofText?_eq_some_iff {text : String} {v : Json} :
    ofText? text = some v ↔ v.SpelledBy text := by
  constructor
  · intro h
    obtain ⟨ts, hts, hv⟩ := Option.bind_eq_some_iff.mp h
    rw [ofTokens?_eq_some hv] at hts
    exact spaced_of_tokens? hts
  · exact ofText?_of_spelledBy

end SignalBridge.Json
