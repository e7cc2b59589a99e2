import SignalBridge.Proofs.Source.Nested
import SignalBridge.Proofs.Text.Blank

/-!
Signatures read back from what was written: neither the end of the parameter list nor a comma is
found inside well-nested lexemes, so every entry is read whole.
-/

namespace SignalBridge.Signature

open Source (Lexeme Nested written listed listed_cons_cons)
open Text (Trimmed)

variable {text rest : List Char} {depth : Nat} {commas : Bool} {ls : List Lexeme}

theorem depthAfter_open (d : Source.Delimiter) : depthAfter depth d.openChar = depth + 1 := by
  cases d <;> rfl

theorem depthAfter_close (d : Source.Delimiter) : depthAfter (depth + 1) d.closeChar = depth := by
  cases d <;> rfl

theorem depthAfter_plain {c : Char} (ho : opens c = false) (hc : closes c = false) :
    depthAfter depth c = depth := by
  simp [depthAfter, ho, hc]

theorem splitList_cons {c : Char} (h : c ≠ ')' ∨ 0 < depth) :
    splitList depth (c :: rest) =
      (c :: (splitList (depthAfter depth c) rest).1, (splitList (depthAfter depth c) rest).2) := by
  have hc : (decide (c = ')') && decide (depth = 0)) = false := by
    rcases h with h | h
    · simp [h]
    · simp [Nat.ne_of_gt h]
  rw [splitList, hc]
  rfl

theorem splitList_plain (h : ∀ c ∈ text, opens c = false ∧ closes c = false) :
    splitList depth (text ++ rest) =
      (text ++ (splitList depth rest).1, (splitList depth rest).2) := by
  induction text with
  | nil => rfl
  | cons c cs ih =>
    obtain ⟨ho, hc⟩ := h c List.mem_cons_self
    have hne : c ≠ ')' := by
      rintro rfl
      cases hc
    rw [List.cons_append, splitList_cons (.inl hne), depthAfter_plain ho hc,
      ih fun d hd => h d (List.mem_cons_of_mem _ hd)]
    rfl

/-- The list does not end inside what is well-nested. -/
theorem splitList_nested (h : Nested commas ls) : splitList depth (written ls ++ rest) =
    (written ls ++ (splitList depth rest).1, (splitList depth rest).2) := by
  induction h generalizing depth rest with
  | nil => rfl
  | plain hl _ ih =>
    rw [Source.written_cons, List.append_assoc,
      splitList_plain fun c hc => ⟨(hl.text c hc).1, (hl.text c hc).2.1⟩, ih, List.append_assoc]
  | @comma ls _ ih =>
    change splitList depth (',' :: (written ls ++ rest)) = _
    rw [splitList_cons (.inl (by decide)), depthAfter_plain rfl rfl, ih]
    rfl
  | @group _ d inner ls _ _ ihi ih =>
    have hopen : d.openChar ≠ ')' := by cases d <;> decide
    have hw : written (.opener d :: (inner ++ .closer d :: ls)) ++ rest =
        d.openChar :: (written inner ++ (d.closeChar :: (written ls ++ rest))) := by
      simp [Lexeme.opener, Lexeme.closer]
    rw [hw, splitList_cons (.inl hopen), depthAfter_open, ihi,
      splitList_cons (.inr (Nat.succ_pos depth)), depthAfter_close, ih]
    simp [Lexeme.opener, Lexeme.closer]

/-- The pieces with a text put before the first. -/
def prefixFirst (text : List Char) : List (List Char) → List (List Char)
  | [] => [text]
  | piece :: rest => (text ++ piece) :: rest

theorem prefixFirst_append (text text' : List Char) (ps : List (List Char)) :
    prefixFirst text (prefixFirst text' ps) = prefixFirst (text ++ text') ps := by
  cases ps <;> simp [prefixFirst]

section Pieces

variable {separates : Char → Bool}

theorem pieces_ne_nil : pieces separates depth text ≠ [] := by
  cases text with
  | nil => simp [pieces]
  | cons c cs =>
    rw [pieces]
    split
    · simp
    · split <;> simp

theorem prefixFirst_nil : prefixFirst [] (pieces separates depth text) =
    pieces separates depth text := by
  cases h : pieces separates depth text with
  | nil => exact absurd h pieces_ne_nil
  | cons piece rest => rfl

theorem pieces_cons {c : Char} (h : separates c = false ∨ 0 < depth) :
    pieces separates depth (c :: rest) =
      prefixFirst [c] (pieces separates (depthAfter depth c) rest) := by
  have hc : (decide (depth = 0) && separates c) = false := by
    rcases h with h | h
    · simp [h]
    · simp [Nat.ne_of_gt h]
  rw [pieces, hc, if_neg Bool.false_ne_true]
  cases pieces separates (depthAfter depth c) rest <;> rfl

theorem pieces_plain
    (h : ∀ c ∈ text, opens c = false ∧ closes c = false ∧ separates c = false) :
    pieces separates depth (text ++ rest) = prefixFirst text (pieces separates depth rest) := by
  induction text with
  | nil => exact prefixFirst_nil.symm
  | cons c cs ih =>
    obtain ⟨ho, hc, hs⟩ := h c List.mem_cons_self
    rw [List.cons_append, pieces_cons (.inl hs), depthAfter_plain ho hc,
      ih fun d hd => h d (List.mem_cons_of_mem _ hd), prefixFirst_append]
    rfl

/-- No piece ends inside what is well-nested and has no comma outside its brackets. -/
theorem pieces_nested (h : Nested commas ls) (hd : commas = false ∨ 0 < depth) :
    pieces (· = ',') depth (written ls ++ rest) =
      prefixFirst (written ls) (pieces (· = ',') depth rest) := by
  induction h generalizing depth rest with
  | nil => exact prefixFirst_nil.symm
  | plain hl _ ih =>
    rw [Source.written_cons, List.append_assoc,
      pieces_plain fun c hc => by simpa using hl.text c hc,
      ih hd, prefixFirst_append]
  | @comma ls _ ih =>
    change pieces (· = ',') depth (',' :: (written ls ++ rest)) = _
    rw [pieces_cons (.inr (hd.resolve_left (by decide))), depthAfter_plain rfl rfl, ih hd,
      prefixFirst_append]
    rfl
  | @group _ d inner ls _ _ ihi ih =>
    have hopen : decide (d.openChar = ',') = false := by cases d <;> decide
    have hw : written (.opener d :: (inner ++ .closer d :: ls)) ++ rest =
        d.openChar :: (written inner ++ (d.closeChar :: (written ls ++ rest))) := by
      simp [Lexeme.opener, Lexeme.closer]
    rw [hw, pieces_cons (.inl hopen), depthAfter_open, ihi (.inr (Nat.succ_pos depth)),
      pieces_cons (.inr (Nat.succ_pos depth)), depthAfter_close, ih hd]
    simp only [prefixFirst_append]
    simp [Lexeme.opener, Lexeme.closer]

end Pieces

section Entries

variable {items : List (List Lexeme)}

/-- The pieces of a list are its items, all but the first after a blank. -/
theorem pieces_listed {item : List Lexeme} (h : ∀ i ∈ item :: items, Nested false i) :
    pieces (· = ',') 0 (written (listed (item :: items))) =
      written item :: items.map fun i => ' ' :: written i := by
  induction items generalizing item with
  | nil =>
    have : pieces (· = ',') 0 (written item ++ []) =
        prefixFirst (written item) (pieces (· = ',') 0 []) :=
      pieces_nested (h item List.mem_cons_self) (.inl rfl)
    simpa [listed, pieces, prefixFirst] using this
  | cons item' items ih =>
    have hw : written (listed (item :: item' :: items)) =
        written item ++ ',' :: ' ' :: written (listed (item' :: items)) := by
      rw [listed_cons_cons]
      simp [Lexeme.comma, Lexeme.space]
    rw [hw, pieces_nested (h item List.mem_cons_self) (.inl rfl), pieces.eq_2,
      pieces_cons (.inl rfl), depthAfter_plain rfl rfl,
      ih fun i hi => h i (List.mem_cons_of_mem _ hi)]
    simp [prefixFirst]

/-- A list is read item by item. -/
theorem readList_listed (hn : ∀ i ∈ items, Nested false i)
    (ht : ∀ i ∈ items, Trimmed (written i) ∧ written i ≠ []) :
    Entry.readList (written (listed items)) = items.map fun i => Entry.ofText (written i) := by
  cases items with
  | nil => rfl
  | cons item items =>
    have htrim : (pieces (· = ',') 0 (written (listed (item :: items)))).map Text.trim =
        (item :: items).map written := by
      rw [pieces_listed hn, List.map_cons, List.map_map, List.map_cons,
        Text.trim_of_trimmed (ht item List.mem_cons_self).1]
      congr 1
      apply List.map_congr_left
      intro i hi
      rw [Function.comp_apply, Text.trim_cons rfl,
        Text.trim_of_trimmed (ht i (List.mem_cons_of_mem _ hi)).1]
    have hfull :
        ((item :: items).map written).filter (!·.isEmpty) = (item :: items).map written := by
      rw [List.filter_eq_self]
      intro text hm
      obtain ⟨i, hi, rfl⟩ := List.mem_map.mp hm
      simpa using (ht i hi).2
    rw [Entry.readList, htrim, hfull, List.map_map]
    rfl

theorem splitBlank?_plain {before after : List Char} {gap : Char} (hg : Text.isBlank gap)
    (h : ∀ c ∈ before, opens c = false ∧ closes c = false ∧ Text.isBlank c = false) :
    splitBlank? 0 (before ++ gap :: after) = some (before, after) := by
  induction before with
  | nil => simp [splitBlank?, hg]
  | cons c cs ih =>
    obtain ⟨ho, hc, hb⟩ := h c List.mem_cons_self
    rw [List.cons_append, splitBlank?, hb, depthAfter_plain ho hc,
      ih fun d hd => h d (List.mem_cons_of_mem _ hd)]
    rfl

/-- The search for a blank outside all brackets passes over the text. -/
def PassesBlank (text : List Char) : Prop :=
  ∀ rest, splitBlank? 0 (text ++ rest) = (splitBlank? 0 rest).map fun p => (text ++ p.1, p.2)

section PassesBlank

variable {text' : List Char}

theorem PassesBlank.append (h : PassesBlank text) (h' : PassesBlank text') :
    PassesBlank (text ++ text') := by
  intro rest
  rw [List.append_assoc, h, h', Option.map_map]
  congr 1
  funext p
  simp

theorem passesBlank_plain
    (h : ∀ c ∈ text, opens c = false ∧ closes c = false ∧ Text.isBlank c = false) :
    PassesBlank text := by
  intro rest
  induction text with
  | nil => simp
  | cons c cs ih =>
    obtain ⟨ho, hc, hb⟩ := h c List.mem_cons_self
    rw [List.cons_append, splitBlank?, hb, depthAfter_plain ho hc,
      ih fun d hd => h d (List.mem_cons_of_mem _ hd)]
    simp [Function.comp_def]

theorem splitBlank?_cons {c : Char} (h : 0 < depth) : splitBlank? depth (c :: rest) =
    (splitBlank? (depthAfter depth c) rest).map fun p => (c :: p.1, p.2) := by
  rw [splitBlank?, decide_eq_false (Nat.ne_of_gt h)]
  rfl

/-- Inside brackets no blank counts. -/
theorem splitBlank?_inside (h : ∀ c ∈ text, opens c = false ∧ closes c = false)
    (hd : 0 < depth) : splitBlank? depth (text ++ rest) =
      (splitBlank? depth rest).map fun p => (text ++ p.1, p.2) := by
  induction text with
  | nil => simp
  | cons c cs ih =>
    obtain ⟨ho, hc⟩ := h c List.mem_cons_self
    rw [List.cons_append, splitBlank?_cons hd, depthAfter_plain ho hc,
      ih fun d hd => h d (List.mem_cons_of_mem _ hd)]
    simp [Function.comp_def]

theorem splitBlank?_nested (h : Nested commas ls) (hd : 0 < depth) :
    splitBlank? depth (written ls ++ rest) =
      (splitBlank? depth rest).map fun p => (written ls ++ p.1, p.2) := by
  induction h generalizing depth rest with
  | nil => simp
  | plain hl _ ih =>
    rw [Source.written_cons, List.append_assoc,
      splitBlank?_inside (fun c hc => ⟨(hl.text c hc).1, (hl.text c hc).2.1⟩) hd, ih hd]
    simp [Function.comp_def]
  | @comma ls _ ih =>
    change splitBlank? depth (',' :: (written ls ++ rest)) = _
    rw [splitBlank?_cons hd, depthAfter_plain rfl rfl, ih hd]
    simp [Function.comp_def, Lexeme.comma]
  | @group _ d inner ls _ _ ihi ih =>
    have hw : written (.opener d :: (inner ++ .closer d :: ls)) ++ rest =
        d.openChar :: (written inner ++ (d.closeChar :: (written ls ++ rest))) := by
      simp [Lexeme.opener, Lexeme.closer]
    rw [hw, splitBlank?_cons hd, depthAfter_open, ihi (Nat.succ_pos depth),
      splitBlank?_cons (Nat.succ_pos depth), depthAfter_close, ih hd]
    simp [Function.comp_def, Lexeme.opener, Lexeme.closer]

theorem passesBlank_group (d : Source.Delimiter) (h : Nested true ls) :
    PassesBlank (d.openChar :: (written ls ++ [d.closeChar])) := by
  intro rest
  have hopen : Text.isBlank d.openChar = false := by cases d <;> rfl
  rw [List.cons_append, List.append_assoc, splitBlank?, hopen, depthAfter_open,
    splitBlank?_nested h Nat.one_pos, List.singleton_append, splitBlank?_cons Nat.one_pos,
    depthAfter_close]
  simp [Function.comp_def]

end PassesBlank

/-- A named entry is split behind its name. -/
theorem ofText_named {name type : List Char} (hn : ∀ c ∈ name, Lexeme.isIdentPart c)
    (ht : Trimmed type) :
    Entry.ofText (name ++ ' ' :: type) = .named (String.ofList name) (String.ofList type) := by
  have hplain : ∀ c ∈ name, opens c = false ∧ closes c = false ∧ Text.isBlank c = false := by
    intro c hc
    have hne : ∀ d, Lexeme.isIdentPart d = false → c ≠ d := fun d => Text.isIdentPart_ne (hn c hc)
    refine ⟨?_, ?_, Text.isBlank_of_isIdentPart (hn c hc)⟩
    · simp [opens, hne '(' rfl, hne '[' rfl, hne '\x7b' rfl]
    · simp [closes, hne ')' rfl, hne ']' rfl, hne '\x7d' rfl]
  rw [Entry.ofText, splitBlank?_plain rfl hplain]
  simp only [Text.trim_of_trimmed ht]

/-- A function type is its list and what follows it. -/
theorem ofType?_list {list result : List Char}
    (hl : splitList 0 (list ++ ')' :: result) = (list, some result))
    (hr : ∀ c ∈ (')' :: result).getLast?, Text.isBlank c = false) :
    ofType? (String.ofList ('f' :: 'u' :: 'n' :: 'c' :: '(' :: (list ++ ')' :: result))) =
      some ⟨Entry.readList list,
        if (Text.trim result).isEmpty then none else some (String.ofList (Text.trim result))⟩ := by
  have htrim : Trimmed ('f' :: 'u' :: 'n' :: 'c' :: '(' :: (list ++ ')' :: result)) := by
    refine ⟨by simp; rfl, ?_⟩
    intro c hc
    apply hr
    simpa [List.getLast?_cons, List.getLast?_append] using hc
  have hfunc : dropFunc ('f' :: 'u' :: 'n' :: 'c' :: '(' :: (list ++ ')' :: result)) =
      '(' :: (list ++ ')' :: result) := rfl
  have hstart : Text.trimStart ('(' :: (list ++ ')' :: result)) =
      '(' :: (list ++ ')' :: result) := Text.trimStart_of_head (by simp; rfl)
  rw [ofType?, String.toList_ofList, Text.trim_of_trimmed htrim, hfunc, hstart]
  simp only [hl, Option.getD_some]

theorem ofType?_func {result : List Char} (hn : Nested true ls)
    (hr : ∀ c ∈ (')' :: result).getLast?, Text.isBlank c = false) :
    ofType? (String.ofList ('f' :: 'u' :: 'n' :: 'c' :: '(' :: (written ls ++ ')' :: result))) =
      some ⟨Entry.readList (written ls),
        if (Text.trim result).isEmpty then none else some (String.ofList (Text.trim result))⟩ := by
  apply ofType?_list _ hr
  rw [splitList_nested hn]
  simp [splitList]

theorem resolve_named (r : Registry) (entries : List (String × String)) :
    resolve r (entries.map fun e => .named e.1 e.2) = entries.map fun e => ⟨e.1, e.2, ""⟩ := by
  have hfrom : ∀ i, (resolveFrom r i (entries.map fun e => .named e.1 e.2)).1 =
      entries.map fun e => (⟨e.1, e.2, ""⟩ : Parameter) := by
    induction entries with
    | nil => intro i; rfl
    | cons e es ih => intro i; simp only [List.map_cons, resolveFrom, ih]
  exact hfrom 0

end Entries

end SignalBridge.Signature
