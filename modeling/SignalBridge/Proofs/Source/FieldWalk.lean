import SignalBridge.Proofs.Source.Agreement
import SignalBridge.Proofs.Source.Slice

namespace SignalBridge.Source.Cursor

open List (Forall₂)

variable {source : List Char} {ts : List Token} {t : Token} {pos : Nat} {nesting : Nesting}
  {words : List Token}

section Words

theorem fieldPass_leave (hstop : ∀ t ∈ ts[pos]?, t.kind.endsField) :
    fieldPass source ts ([], words) pos = some (.ok (.leave ([], words), pos)) := by
  rw [fieldPass, ahead_bind, Nat.add_zero]
  cases hnext : ts[pos]? with
  | none => rfl
  | some t =>
    simp only [hstop t hnext]
    rfl

/-- The words taken with one token more. -/
def keepWord (words : List Token) (t : Token) : List Token :=
  if t.kind = .newline then words else words ++ [t]

theorem keepWord_append (words : List Token) (t : Token) (taken : List Token) :
    keepWord words t ++ taken.filter Token.isWord = words ++ (t :: taken).filter Token.isWord := by
  unfold keepWord
  split
  · rename_i hk
    rw [List.filter_cons_of_neg (by simp [Token.isWord, hk])]
  · rename_i hk
    rw [List.filter_cons_of_pos (by simp [Token.isWord, hk]), List.append_assoc,
      List.singleton_append]

theorem item_of_getElem? {i : Nat} (h : ts[i]? = some t) : item ts i pos = some (.ok (t, pos)) := by
  rw [item, h]
  rfl

/-- The token looked up behind the delimiters is the one that was next. -/
theorem fieldPass_next (hnext : ts[pos]? = some t)
    (hg : nesting ≠ [] ∨ t.kind.endsField = false) :
    fieldPass source ts (nesting, words) pos =
      (do return .again (← track source ts nesting, keepWord words t) :
        Reader (Pass (Nesting × List Token) (Nesting × List Token))) pos := by
  have hpass : fieldPass source ts (nesting, words) pos =
      (do
        let nesting ← track source ts nesting
        let t ← item ts pos
        return .again (nesting, keepWord words t) :
          Reader (Pass (Nesting × List Token) (Nesting × List Token))) pos := by
    rw [fieldPass, ahead_bind, Nat.add_zero, hnext]
    simp only [isEmpty_and_eq_false hg, Bool.false_eq_true, ↓reduceIte]
    rw [get_bind]
    rfl
  rw [hpass]
  cases hs : nesting.step t with
  | ok nesting' =>
    rw [bind_of_ok (track_of_ok hnext hs), bind_of_ok (track_of_ok hnext hs),
      bind_of_ok (item_of_getElem? hnext)]
  | error fault =>
    rw [bind_of_error (track_of_error hnext hs), bind_of_error (track_of_error hnext hs)]

theorem follows_restOfField : Follows source ts Token.Kind.endsField Prod.fst
    (fun s taken ws => ws = s.2 ++ taken.filter Token.isWord) (restOfField source ts) where
  leave := by
    rintro ⟨nesting, words⟩ pos rfl hstop
    exact ⟨words, bind_of_ok (loop_leave (fieldPass_leave hstop)), by simp⟩
  missing := by
    rintro ⟨nesting, words⟩ pos hn hnext
    have hpass : fieldPass source ts (nesting, words) pos =
        some (.ok (.leave (nesting, words), pos)) := by
      rw [fieldPass, ahead_bind, Nat.add_zero, hnext]
      rfl
    have hempty : nesting.isEmpty = false := by simpa using hn
    rw [restOfField, bind_of_ok (loop_leave hpass)]
    simp only [hempty, Bool.false_eq_true, ↓reduceIte]
    rw [refuse_eq, hnext]
    rfl
  refused := by
    rintro ⟨nesting, words⟩ pos t fault hnext hg hs
    refine bind_of_error (loop_error ?_)
    rw [fieldPass_next hnext hg, bind_of_error (track_of_error hnext hs)]
  next := by
    rintro ⟨nesting, words⟩ pos t nesting' hnext hg hs
    refine ⟨(nesting', keepWord words t), rfl, bind_eq_bind (loop_again ?_), ?_⟩
    · rw [fieldPass_next hnext hg, bind_of_ok (track_of_ok hnext hs)]
      rfl
    · rintro taken ws rfl
      exact keepWord_append words t taken

theorem agrees_fieldWords {rest : List Token} (hdrop : ts.drop pos = t :: rest)
    (hk : t.kind.endsField = false) :
    Agrees source (Stands ts fun ws taken => ws = taken.filter Token.isWord)
      (fieldWords source ts pos) (takeField t rest) := by
  have hle : pos ≤ ts.length := by
    obtain ⟨-, -, hle⟩ := next_of_drop hdrop
    omega
  have h := (@follows_restOfField source ts).agrees ([], []) hle
  rw [hdrop, takeUntil, hk, Bool.and_false, if_neg Bool.false_ne_true] at h
  exact h

end Words

section Names

variable {names : List String} {i : Nat}

/-- What the search for names is left with: the index where the type begins, and the names behind
those found before. -/
structure NamesFound (pos : Nat) (words : List Token) (names : List String)
    (p : (Nat × List String) × Nat) (q : List Token × List Token) : Prop where
  still : p.2 = pos
  inside : p.1.1 ≤ words.length
  type : q.2 = words.drop p.1.1
  names : p.1.2 = names ++ q.1.map fun t => String.ofList t.text

/-- The pass at a name looks at the two words behind it. -/
theorem namePass_of_drop {ws : List Token} (hi : words[i]? = some t)
    (hws : words.drop (i + 1) = ws) : namePass source ts words (i, names) pos =
    (if ws[0]?.any (·.kind = .comma) then
      match ws[1]? with
      | some u =>
        if u.kind = .ident then return .again (i + 2, names ++ [String.ofList t.text])
        else throw (.refusal source (Expected.text .fieldName) (some u))
      | none => refuse source ts (Expected.text .fieldName)
    else return .leave (i + 1, names ++ [String.ofList t.text]) :
      Reader (Pass (Nat × List String) (Nat × List String))) pos := by
  rw [← hws, List.getElem?_drop, List.getElem?_drop, namePass]
  exact bind_of_ok (item_of_getElem? hi)

/-- A name that no comma follows is the last. -/
theorem namesFound_last {ws : List Token} (hi : words[i]? = some t)
    (hws : words.drop (i + 1) = ws) :
    NamesFound pos words names ((i + 1, names ++ [String.ofList t.text]), pos) ([t], ws) :=
  ⟨rfl, (List.getElem?_eq_some_iff.mp hi).1, hws.symm, rfl⟩

/-- The names from one at index `i` on. -/
theorem agrees_loop_name (hi : words[i]? = some t) :
    Agrees source (fun p q => NamesFound pos words names p (t :: q.1, q.2))
      (Loop.run (namePass source ts words) (i, names) pos)
      (Field.moreNames ts[pos]? (words.drop (i + 1))) := by
  generalize hws : words.drop (i + 1) = ws
  induction ws using Field.moreNames.induct generalizing i t names with
  | case1 =>
    rw [loop_leave (namePass_of_drop hi hws)]
    exact .ok (namesFound_last hi hws)
  | case2 u hu =>
    have hpass := @namePass_of_drop source ts t pos words names i [u] hi hws
    simp only [List.getElem?_cons_zero, Option.any_some, hu, decide_true, ↓reduceIte] at hpass
    rw [loop_error hpass, Field.moreNames, if_pos hu]
    exact @Agrees.error _ _ _ _ ⟨.fieldName, ts[pos]?⟩ (by simp)
  | case3 u hu =>
    have hpass := @namePass_of_drop source ts t pos words names i [u] hi hws
    simp only [List.getElem?_cons_zero, Option.any_some, hu, decide_false, Bool.false_eq_true,
      ↓reduceIte] at hpass
    rw [loop_leave hpass, Field.moreNames, if_neg hu]
    exact .ok (namesFound_last hi hws)
  | case4 u v ws hu hv ih =>
    have hpass := @namePass_of_drop source ts t pos words names i (u :: v :: ws) hi hws
    simp only [List.getElem?_cons_zero, List.getElem?_cons_succ, Option.any_some, hu, hv,
      decide_true, ↓reduceIte] at hpass
    have hi' : words[i + 2]? = some v := by
      rw [show i + 2 = i + 1 + 1 from rfl, ← List.getElem?_drop, hws]
      rfl
    have hws' : words.drop (i + 2 + 1) = ws := by
      rw [show i + 2 + 1 = i + 1 + 2 from rfl, ← List.drop_drop, hws]
      rfl
    rw [loop_again hpass, Field.moreNames, if_pos hu, if_pos hv]
    refine (ih hi' hws').finish ?_
    rintro p ⟨names', type⟩ hfound
    exact ⟨_, rfl, hfound.still, hfound.inside, hfound.type, by simpa using hfound.names⟩
  | case5 u v ws hu hv =>
    have hpass := @namePass_of_drop source ts t pos words names i (u :: v :: ws) hi hws
    simp only [List.getElem?_cons_zero, List.getElem?_cons_succ, Option.any_some, hu, hv,
      decide_true, ↓reduceIte] at hpass
    rw [loop_error hpass, Field.moreNames, if_pos hu, if_neg hv]
    exact @Agrees.error _ _ _ _ ⟨.fieldName, some v⟩ (by simp)
  | case6 u v ws hu =>
    have hpass := @namePass_of_drop source ts t pos words names i (u :: v :: ws) hi hws
    simp only [List.getElem?_cons_zero, Option.any_some, hu, decide_false, Bool.false_eq_true,
      ↓reduceIte] at hpass
    rw [loop_leave hpass, Field.moreNames, if_neg hu]
    exact .ok (namesFound_last hi hws)

theorem beginsNames_cons_cons (t u : Token) (ws : List Token) :
    beginsNames (t :: u :: ws) pos = some (.ok (t.kind = .ident && u.kind ≠ .dot, pos)) := by
  have h0 : item (t :: u :: ws) 0 pos = some (.ok (t, pos)) := rfl
  have h1 : item (t :: u :: ws) 1 pos = some (.ok (u, pos)) := rfl
  rw [beginsNames, if_pos (by simp), bind_of_ok h0]
  split
  · rename_i hk
    rw [bind_of_ok h1, decide_eq_true hk, Bool.true_and]
    rfl
  · rename_i hk
    rw [decide_eq_false hk, Bool.false_and]
    rfl

theorem agrees_fieldNames (words : List Token) :
    Agrees source (NamesFound pos words []) (fieldNames source ts words pos)
      (Field.splitNames ts[pos]? words) := by
  match words with
  | [] => exact .ok ⟨rfl, Nat.le_refl _, rfl, rfl⟩
  | [t] => exact .ok ⟨rfl, Nat.zero_le _, rfl, rfl⟩
  | t :: u :: ws =>
    rw [fieldNames, bind_of_ok (beginsNames_cons_cons t u ws), Field.splitNames]
    split
    · have hfirst : (t :: u :: ws)[0]? = some t := rfl
      refine (agrees_loop_name hfirst).finish ?_
      rintro p ⟨names, type⟩ hfound
      exact ⟨_, rfl, hfound⟩
    · exact .ok ⟨rfl, Nat.zero_le _, rfl, rfl⟩

end Names

section Parts

variable {run us : List Token}

/-- Whether the last of the words is a tag. -/
theorem splitTag_eq {last : Token} {tagged : Bool} (hl : words.getLast? = some last)
    (ht : (decide (1 < words.length) && last.kind.isStringLiteral) = tagged) :
    Field.splitTag words =
      (if tagged then words.dropLast else words, if tagged then some last else none) := by
  rw [Field.splitTag, hl]
  simp only [ht]
  cases tagged <;> rfl

theorem textBetween_eq {text : List Char} {span : Span} (h : HasText source span text) :
    textBetween source span.start span.stop = text := by
  obtain ⟨before, after, rfl, hstart, hstop⟩ := h
  rw [textBetween, ← hstart, takeBytes_byteLength, List.drop_left, ← hstop, byteLength_append,
    Nat.add_sub_cancel_left, takeBytes_byteLength]

theorem forall₂_same_symm (h : Forall₂ Token.Same us words) : Forall₂ Token.Same words us :=
  h.flip.imp fun _ _ h => ⟨h.kind.symm, h.start.symm, h.text.symm⟩

theorem rel_same_refl (next : Option Token) : Option.Rel Token.Same next next := by
  cases next with
  | none => exact .none
  | some t => exact .some ⟨rfl, rfl, rfl⟩

/-- What the source says from the first token of a type to the last is how the tokens are written,
their lines joined. -/
theorem textBetween_type {typeFirst typeLast : Token} {type type' : List Token}
    (hw : WrittenAt source type') (hsame : Forall₂ Token.Same type type')
    (hf : type.head? = some typeFirst) (hl : type.getLast? = some typeLast) :
    textBetween source typeFirst.start typeLast.stop = Token.sourceText type' := by
  have hspans : Spans ⟨typeFirst.start, typeLast.stop⟩ type := ⟨typeFirst, hf, typeLast, hl, rfl⟩
  exact textBetween_eq (hw.hasText (hspans.same hsame))

/-- The words of a run of tokens, where it has any, are read as the field of the run. -/
theorem agrees_fieldOf (hw : WrittenAt source run) (hne : run.filter Token.isWord ≠ []) :
    Agrees source (fun p f => p = (f, pos)) (fieldOf source ts (run.filter Token.isWord) pos)
      (Field.ofTokens run ts[pos]?) := by
  have hsame := forall₂_same_symm (same_joinLines run)
  have hjoined := hw.joinLines
  rw [Field.ofTokens]
  -- the walk keeps the words and the other reader joins the lines: the same but for leading text
  generalize run.filter Token.isWord = words at hne hsame
  generalize Token.joinLines run = joined at hsame hjoined
  obtain ⟨first, more, hwords⟩ := List.exists_cons_of_ne_nil hne
  have hf : words.head? = some first := by rw [hwords]; rfl
  have hl := List.getLast?_eq_some_getLast hne
  generalize words.getLast hne = last at hl
  obtain ⟨first', hf', hfirst⟩ := rel_some_left (hf ▸ rel_head? hsame)
  obtain ⟨last', hl', hlast⟩ := rel_some_left (hl ▸ rel_getLast? hsame)
  obtain ⟨hrest, htag⟩ := alike_splitTag indistinct_same hsame
  rw [fieldOf, hf, hl, hf', hl']
  simp only
  generalize htagged : (decide (1 < words.length) && last.kind.isStringLiteral) = tagged
  rw [splitTag_eq hl htagged] at hrest htag
  generalize (if tagged then words.dropLast else words) = untagged at hrest ⊢
  refine ((agrees_fieldNames untagged).trans
    (alike_splitNames indistinct_same (rel_same_refl _) hrest)).bind ?_
  rintro ⟨start, names⟩ pos' ⟨names', type'⟩ hsplit ⟨⟨words', type⟩, hfound, hnames, htype⟩
  obtain rfl : pos' = pos := hfound.still
  obtain rfl : type = untagged.drop start := hfound.type
  -- the names end within the words, so the type is cut off inside them
  have hitems : itemsFrom untagged start pos' = some (.ok (untagged.drop start, pos')) := by
    rw [itemsFrom, if_pos hfound.inside]
    rfl
  rw [bind_of_ok hitems]
  simp only at htype hnames
  generalize untagged.drop start = type at htype
  cases htype with
  | nil => exact Agrees.refused (by simp) rfl
  | @cons t u type type' htu htype =>
    obtain ⟨_, happend, -⟩ := nameList_splitNames hsplit
    -- the type stands in the source between the names and the tag
    rw [← splitTag_append joined, happend] at hjoined
    have hends := List.getLast?_eq_some_getLast (List.cons_ne_nil t type)
    have htext := textBetween_type hjoined.left.right (.cons htu htype) rfl hends
    have hnamed : names = names'.map fun t => String.ofList t.text := by
      rw [← hnames]
      simpa using hfound.names
    have htag' : (if tagged then some (String.ofList last.text) else none) =
        (Field.splitTag joined).2.map fun t => String.ofList t.text := by
      rw [← htag]
      cases tagged <;> rfl
    simp only [hends, List.head?_cons, htext, hnamed, htag', hfirst.start, hlast.stop]
    exact .ok rfl

end Parts

section Fields

variable {rest taken : List Token}

/-- The field whose first token is next. -/
def readField : List Token → Except SyntaxFault (Field × List Token)
  | [] => .error ⟨.field, none⟩
  | t :: rest => do
    let (taken, after) ← takeField t rest
    return (← Field.ofTokens taken after.head?, after)

theorem takeField_cons (h : takeField t ts = .ok (taken, rest)) : ∃ more, taken = t :: more := by
  obtain ⟨_, -, h⟩ := bind_eq_ok_iff.mp h
  obtain ⟨⟨more, _⟩, -, h⟩ := bind_eq_ok_iff.mp h
  cases h
  exact ⟨more, rfl⟩

theorem agrees_field (hw : WrittenAt source ts) (hdrop : ts.drop pos = t :: rest)
    (hk : t.kind.endsField = false) :
    Agrees source (Stands ts Eq) (field source ts pos) (readField (t :: rest)) := by
  refine (agrees_fieldWords hdrop hk).bind ?_
  rintro ws pos' ⟨taken, after⟩ htake ⟨hinside, hafter, hws⟩
  obtain rfl : after = ts.drop pos' := hafter
  obtain rfl : ws = taken.filter Token.isWord := hws
  have hrun : WrittenAt source taken := by
    rw [← List.take_append_drop pos ts, hdrop, ← takeField_append htake] at hw
    exact hw.right.left
  have hne : taken.filter Token.isWord ≠ [] := by
    obtain ⟨more, rfl⟩ := takeField_cons htake
    have hword : t.isWord := by
      rw [Token.isWord, decide_eq_true_eq]
      rintro hn
      simp [hn, Token.Kind.endsField, Token.Kind.isSeparator] at hk
    rw [List.filter_cons_of_pos hword]
    exact List.cons_ne_nil _ _
  simp only [List.head?_drop]
  refine (agrees_fieldOf hrun hne).finish ?_
  rintro _ f rfl
  exact ⟨_, rfl, hinside, rfl, rfl⟩

theorem length_lt_of_readField {us : List Token} {f : Field}
    (h : readField us = .ok (f, rest)) : rest.length < us.length := by
  cases us with
  | nil => cases h
  | cons t us =>
    obtain ⟨⟨taken, after⟩, htake, h⟩ := bind_eq_ok_iff.mp h
    obtain ⟨_, -, h⟩ := bind_eq_ok_iff.mp h
    cases h
    exact Nat.lt_succ_of_le (length_le_of_takeField htake)

end Fields

end SignalBridge.Source.Cursor
