import SignalBridge.NativeType
import SignalBridge.Proofs.Host.Type
import SignalBridge.Proofs.Registry.Lookup
import SignalBridge.Proofs.Text.Pieces

namespace SignalBridge

section Scopes

variable {text : List Char}

/-- The pieces between double underscores, read from the left. -/
def scopeParts : List Char → List (List Char)
  | '_' :: '_' :: cs => [] :: scopeParts cs
  | c :: cs => (scopeParts cs).modifyHead (c :: ·)
  | [] => [[]]

/-- The pieces with colons between each two. -/
def joinScopes (parts : List (List Char)) : List Char :=
  [':', ':'].intercalate parts

theorem scopeParts_ne_nil (text : List Char) : scopeParts text ≠ [] := by
  fun_induction scopeParts text <;> simp_all

theorem joinScopes_singleton (part : List Char) : joinScopes [part] = part :=
  List.intercalate_singleton

theorem joinScopes_cons (part : List Char) {parts : List (List Char)} (h : parts ≠ []) :
    joinScopes (part :: parts) = part ++ ':' :: ':' :: joinScopes parts := by
  obtain ⟨next, parts, rfl⟩ := List.exists_cons_of_ne_nil h
  simp [joinScopes, List.intercalate_cons_cons]

theorem joinScopes_modifyHead (c : Char) {parts : List (List Char)} (h : parts ≠ []) :
    joinScopes (parts.modifyHead (c :: ·)) = c :: joinScopes parts := by
  obtain ⟨part, parts, rfl⟩ := List.exists_cons_of_ne_nil h
  cases parts <;> simp [joinScopes, List.intercalate_cons_cons]

/-- A text with colons for its double underscores, whether it has any or not. -/
theorem getD_scopes? (text : List Char) :
    (scopes? text).getD text = joinScopes (scopeParts text) := by
  fun_induction scopes? text with
  | case1 cs ih =>
    rw [scopeParts, joinScopes_cons [] (scopeParts_ne_nil cs), ← ih]
    rfl
  | case2 c cs hc ih =>
    rw [scopeParts, joinScopes_modifyHead c (scopeParts_ne_nil cs), ← ih]
    · cases scopes? cs <;> rfl
    · exact hc
  | case3 => rfl

theorem isSome_scopes? (text : List Char) :
    (scopes? text).isSome = Text.occurs ['_', '_'] text := by
  fun_induction scopes? text with
  | case1 cs ih => simp [Text.occurs, Text.dropWord?]
  | case2 c cs hc ih =>
    have hnone : Text.dropWord? ['_', '_'] (c :: cs) = none := by
      apply Text.dropWord?_eq_none
      rintro ⟨rest, he⟩
      cases he
      exact hc rest rfl rfl
    simp [Text.occurs, hnone, ih]
  | case3 => rfl

theorem scopes?_of_occurs (h : Text.occurs ['_', '_'] text) :
    scopes? text = some (joinScopes (scopeParts text)) := by
  rw [← isSome_scopes?] at h
  obtain ⟨nested, hn⟩ := Option.isSome_iff_exists.mp h
  rw [← getD_scopes?, hn, Option.getD_some]

theorem scopes?_eq_none (h : ¬Text.occurs ['_', '_'] text) : scopes? text = none := by
  rw [← isSome_scopes?] at h
  exact Option.not_isSome_iff_eq_none.mp h

/-- What stands at the end stays there, unless it is written anew. -/
theorem getLast?_joinScopes (text : List Char) :
    (joinScopes (scopeParts text)).getLast? = text.getLast? ∨
      (joinScopes (scopeParts text)).getLast? = some ':' := by
  fun_induction scopeParts text with
  | case1 cs ih =>
    rw [joinScopes_cons [] (scopeParts_ne_nil cs), List.nil_append]
    rcases ih with h | h
    · cases hc : cs.getLast? <;> simp [List.getLast?_cons, h, hc]
    · exact .inr (by simp [List.getLast?_cons, h])
  | case2 c cs hc ih =>
    rw [joinScopes_modifyHead c (scopeParts_ne_nil cs)]
    rcases ih with h | h
    · exact .inl (by rw [List.getLast?_cons, List.getLast?_cons, h])
    · exact .inr (by rw [List.getLast?_cons, h, Option.getD_some])
  | case3 => exact .inl rfl

theorem not_mem_scopeParts {c : Char} (h : c ∉ text) : ∀ part ∈ scopeParts text, c ∉ part := by
  fun_induction scopeParts text with
  | case1 cs ih => simp_all
  | case2 d cs hd ih =>
    obtain ⟨part, parts, hp⟩ := List.exists_cons_of_ne_nil (scopeParts_ne_nil cs)
    simp_all
  | case3 => simp

theorem append_colon_inj {x y xs ys : List Char} (hx : ':' ∉ x) (hy : ':' ∉ y)
    (h : x ++ ':' :: xs = y ++ ':' :: ys) : x = y ∧ xs = ys := by
  induction x generalizing y with
  | nil =>
    cases y with
    | nil => simpa using h
    | cons d y => exact absurd ((List.cons.inj h).1 ▸ List.mem_cons_self) hy
  | cons c x ih =>
    cases y with
    | nil => exact absurd ((List.cons.inj h).1 ▸ List.mem_cons_self) hx
    | cons d y =>
      simp only [List.mem_cons, not_or, List.cons_append, List.cons.injEq] at hx hy h
      obtain ⟨hxy, hrest⟩ := ih hx.2 hy.2 h.2
      exact ⟨by rw [h.1, hxy], hrest⟩

/-- Pieces without colons can be told from one another when they are joined. -/
theorem joinScopes_inj {xs ys : List (List Char)} (hx : xs ≠ []) (hy : ys ≠ [])
    (hxs : ∀ x ∈ xs, ':' ∉ x) (hys : ∀ y ∈ ys, ':' ∉ y) (h : joinScopes xs = joinScopes ys) :
    xs = ys := by
  induction xs generalizing ys with
  | nil => exact absurd rfl hx
  | cons x xs ih =>
    obtain ⟨y, ys, rfl⟩ := List.exists_cons_of_ne_nil hy
    have hx₁ := hxs x List.mem_cons_self
    have hy₁ := hys y List.mem_cons_self
    by_cases hxn : xs = [] <;> by_cases hyn : ys = []
    · subst hxn hyn
      rw [joinScopes_singleton, joinScopes_singleton] at h
      rw [h]
    · subst hxn
      rw [joinScopes_singleton, joinScopes_cons y hyn] at h
      exact absurd (h ▸ by simp) hx₁
    · subst hyn
      rw [joinScopes_singleton, joinScopes_cons x hxn] at h
      exact absurd (h ▸ by simp) hy₁
    · rw [joinScopes_cons x hxn, joinScopes_cons y hyn] at h
      obtain ⟨rfl, hrest⟩ := append_colon_inj hx₁ hy₁ h
      rw [ih hxn hyn (List.forall_mem_cons.mp hxs).2 (List.forall_mem_cons.mp hys).2
        (List.cons.inj hrest).2]

end Scopes

/-- Identifiers with colons between each two, and at most one star at the end. -/
def IsNativeName (native : List Char) : Prop :=
  ∃ names : List Identifier, names ≠ [] ∧ ∃ star ∈ [[], ['*']],
    native = joinScopes (names.map Identifier.text) ++ star

theorem not_mem_ident {text : List Char} {c : Char} (h : Source.Pattern.ident.Matches text)
    (hc : Source.Lexeme.isIdentPart c = false) : c ∉ text := fun hm =>
  Text.isIdentPart_ne (Source.isIdentPart_of_mem h hm) hc rfl

theorem ident_of_head_tail {text : List Char} (hfirst : text.head?.any Source.Lexeme.isIdentStart)
    (hrest : text.tail.all Source.Lexeme.isIdentPart) : Source.Pattern.ident.Matches text := by
  obtain ⟨c, hc, hstart⟩ := (Option.any_eq_true _ _).mp hfirst
  exact ⟨c, _, (List.cons_head?_tail hc).symm, hstart, List.all_eq_true.mp hrest⟩

theorem isNativeName_of_ident {text star : List Char} (h : Source.Pattern.ident.Matches text)
    (hs : star ∈ [[], ['*']]) : IsNativeName (text ++ star) :=
  ⟨[⟨text, h⟩], List.cons_ne_nil _ _, star, hs, by simp [joinScopes_singleton]⟩

theorem isNativeName_joinScopes_iff {text : List Char} (hc : ':' ∉ text)
    (hs : text.getLast? ≠ some '*') : IsNativeName (joinScopes (scopeParts text)) ↔
      ∀ part ∈ scopeParts text, Source.Pattern.ident.Matches part := by
  constructor
  · rintro ⟨names, hne, star, hstar, he⟩
    rcases List.mem_pair.mp hstar with rfl | rfl
    · rw [List.append_nil] at he
      have hnames : ∀ n ∈ names.map Identifier.text, Source.Pattern.ident.Matches n := by
        intro part hp
        obtain ⟨n, -, rfl⟩ := List.mem_map.mp hp
        exact n.isIdent
      rw [joinScopes_inj (scopeParts_ne_nil text) (by simpa using hne) (not_mem_scopeParts hc)
        (fun n hn => not_mem_ident (hnames n hn) rfl) he]
      exact hnames
    · rcases getLast?_joinScopes text with h | h <;> rw [he, List.getLast?_concat] at h
      · exact absurd h.symm hs
      · cases h
  · intro h
    refine ⟨(scopeParts text).pmap Identifier.mk h, ?_, [], List.mem_cons_self, ?_⟩
    · simpa using scopeParts_ne_nil text
    · simp [List.map_pmap]

/-- What a type is mapped to, its first star and the white space around it left out. -/
inductive Registry.Maps (r : Registry) (type : List Char) : NativeType → Prop
  | primitive {native : String} : primitives.lookup (String.ofList type) = some native →
      r.Maps type (.known native)
  | nested : primitives.lookup (String.ofList type) = none →
      Text.occurs ['_', '_'] (Text.afterLast '.' type) →
      r.Maps type (.known (String.ofList (joinScopes (scopeParts (Text.afterLast '.' type)))))
  | ofClass {name : String} : primitives.lookup (String.ofList type) = none →
      ¬Text.occurs ['_', '_'] (Text.afterLast '.' type) →
      name = String.ofList (Text.afterLast '.' type) → r.contains name →
      r.Maps type (.known (if r.isObjectClass name then name ++ "*" else name))
  | unmapped : primitives.lookup (String.ofList type) = none →
      ¬Text.occurs ['_', '_'] (Text.afterLast '.' type) →
      ¬r.contains (String.ofList (Text.afterLast '.' type)) → r.Maps type .unmapped

theorem Registry.maps_nativeType (r : Registry) (hostType : String) :
    r.Maps (dropStar (Text.trim hostType.toList)) (r.nativeType hostType) := by
  rw [nativeType]
  cases hp : primitives.lookup (String.ofList (dropStar (Text.trim hostType.toList))) with
  | some native => exact .primitive hp
  | none =>
    dsimp only
    by_cases ho : Text.occurs ['_', '_'] (Text.afterLast '.' (dropStar (Text.trim hostType.toList)))
    · rw [scopes?_of_occurs ho]
      exact .nested hp ho
    rw [scopes?_eq_none ho]
    dsimp only
    split
    case isTrue hc => exact .ofClass hp ho rfl hc
    case isFalse hc => exact .unmapped hp ho hc

namespace HostType

/-- Whether the type is built from others, a pointer apart. -/
def isComposite : HostType → Bool
  | slice _ | array _ _ | map _ _ | chan _ | func _ _ => true
  | name _ | qualified _ _ | pointer _ | emptyInterface | emptyStruct => false

/-- The name that ends the type where a package stands before it. -/
def lastQualified? : HostType → Option Identifier
  | qualified _ n => some n
  | pointer t | slice t | array _ t | map _ t | chan t => t.lastQualified?
  | func _ (some t) => t.lastQualified?
  | func _ none | name _ | emptyInterface | emptyStruct => none
termination_by structural t => t

variable {t u : HostType} {n : Identifier}

/-- What stands behind the last dot of a type, its first star left out. -/
def localText (t : HostType) : List Char :=
  Text.afterLast '.' (dropStar t.text)

theorem mem_commaSeparated {items : List (List Char)} {c : Char}
    (h : c ∈ commaSeparated items) : (∃ item ∈ items, c ∈ item) ∨ c ∈ [',', ' '] := by
  induction items with
  | nil => cases h
  | cons item items ih =>
    cases items with
    | nil => exact .inl ⟨item, List.mem_singleton.mpr rfl, by simpa [commaSeparated] using h⟩
    | cons next items =>
      rw [commaSeparated, List.intercalate_cons_cons, List.mem_append, List.mem_append] at h
      rcases h with (h | h) | h
      · exact .inl ⟨item, List.mem_cons_self, h⟩
      · exact .inr h
      · rcases ih h with ⟨later, hi, hc⟩ | hsep
        · exact .inl ⟨later, List.mem_cons_of_mem _ hi, hc⟩
        · exact .inr hsep

theorem colon_not_mem_text (t : HostType) : ':' ∉ t.text := by
  have hident (n : Identifier) : ':' ∉ n.text := not_mem_ident n.isIdent rfl
  induction t using HostType.induction with
  | name n => exact hident n
  | array length t ih =>
    have hlength : ':' ∉ length.text := by
      cases length with
      | number text h =>
        intro hc
        exact absurd (Source.number_part h _ hc) (by decide)
      | constant n => exact hident n
    simp [text, hlength, ih]
  | func parameters result ihp ihr =>
    have hlist : ':' ∉ commaSeparated (texts parameters) := by
      intro hc
      rcases mem_commaSeparated hc with ⟨item, hi, hc⟩ | hc
      · rw [texts_eq] at hi
        obtain ⟨t, ht, rfl⟩ := List.mem_map.mp hi
        exact ihp t ht hc
      · revert hc
        decide
    have hresult : ':' ∉ resultText result := by
      cases result with
      | none => exact List.not_mem_nil
      | some t => simp [resultText, ihr t rfl]
    simp [text, hlist, hresult]
  | _ => simp_all [text]

theorem text_ne_nil (t : HostType) : t.text ≠ [] := by
  rw [← t.written_lexemes]
  exact t.inked.ne_nil

/-- The type at the end of one that is built from others. -/
def lastPart? : HostType → Option HostType
  | pointer t | slice t | array _ t | map _ t | chan t => some t
  | func _ result => result
  | name _ | qualified _ _ | emptyInterface | emptyStruct => none

theorem text_of_lastPart (h : t.lastPart? = some u) :
    ∃ before, ∃ c ∈ ['*', ']', ' '], t.text = before ++ c :: u.text := by
  cases t with
  | pointer t =>
    cases h
    exact ⟨[], '*', by simp, rfl⟩
  | slice t =>
    cases h
    exact ⟨['['], ']', by simp, rfl⟩
  | array length t =>
    cases h
    exact ⟨'[' :: length.text, ']', by simp, rfl⟩
  | map key value =>
    cases h
    exact ⟨'m' :: 'a' :: 'p' :: '[' :: key.text, ']', by simp, rfl⟩
  | chan t =>
    cases h
    exact ⟨['c', 'h', 'a', 'n'], ' ', by simp, rfl⟩
  | func parameters result =>
    obtain rfl : result = some u := h
    refine ⟨'f' :: 'u' :: 'n' :: 'c' :: '(' :: (commaSeparated (texts parameters) ++ [')']), ' ',
      by simp, ?_⟩
    simp [text, resultText]
  | _ => cases h

theorem lastQualified_of_lastPart (h : t.lastPart? = some u) :
    t.lastQualified? = u.lastQualified? := by
  cases t <;> cases h <;> rfl

/-- Any other type is a name or ends in a bracket. -/
theorem cases_of_not_lastPart (h : t.lastPart? = none) :
    (∃ n, t = name n) ∨ (∃ package n, t = qualified package n) ∨
      t.lastQualified? = none ∧ ∃ before, ∃ c ∈ [')', '\x7d'], t.text = before ++ [c] := by
  cases t with
  | name n => exact .inl ⟨n, rfl⟩
  | qualified package n => exact .inr (.inl ⟨package, n, rfl⟩)
  | func parameters result =>
    obtain rfl : result = none := h
    exact .inr (.inr ⟨rfl, 'f' :: 'u' :: 'n' :: 'c' :: '(' :: commaSeparated (texts parameters), ')',
      by simp, rfl⟩)
  | emptyInterface => exact .inr (.inr ⟨rfl, "interface\x7b".toList, '\x7d', by simp, by decide⟩)
  | emptyStruct => exact .inr (.inr ⟨rfl, "struct\x7b".toList, '\x7d', by simp, by decide⟩)
  | _ => cases h

/-- What passes from the last part to the type holds of every type. -/
theorem induction_last {P : HostType → Prop} (leaf : ∀ t, t.lastPart? = none → P t)
    (step : ∀ t u, t.lastPart? = some u → P u → P t) (t : HostType) : P t := by
  induction t using HostType.induction with
  | pointer t ih | slice t ih | array _ t ih | chan t ih => exact step _ t rfl ih
  | map key value _ ih => exact step _ value rfl ih
  | func parameters result _ ih =>
    cases result with
    | none => exact leaf _ rfl
    | some t => exact step _ t rfl (ih t rfl)
  | _ => exact leaf _ rfl

/-- A type ends in a word or a bracket. -/
theorem getLast?_text (t : HostType) : t.text.getLast? ≠ some '*' := by
  have hident (before : List Char) (n : Identifier) :
      (before ++ n.text).getLast? ≠ some '*' := by
    rw [List.getLast?_append_of_ne_nil _ n.isIdent.ne_nil]
    exact fun h => not_mem_ident n.isIdent rfl (List.mem_of_getLast? h)
  induction t using induction_last with
  | leaf t h =>
    rcases cases_of_not_lastPart h with ⟨n, rfl⟩ | ⟨package, n, rfl⟩ | ⟨-, before, c, hc, hb⟩
    · exact hident [] n
    · rw [text, List.append_cons]
      exact hident _ n
    · rw [hb, List.getLast?_concat]
      rintro ⟨⟩
      revert hc
      decide
  | step t u h ih =>
    obtain ⟨before, c, -, hb⟩ := text_of_lastPart h
    rwa [hb, List.append_cons, List.getLast?_append_of_ne_nil _ u.text_ne_nil]

theorem afterLast_of_lastQualified (h : t.lastQualified? = some n) :
    Text.afterLast '.' t.text = n.text := by
  obtain ⟨before, hb⟩ : ∃ before, t.text = before ++ '.' :: n.text := by
    induction t using induction_last with
    | leaf t hl =>
      rcases cases_of_not_lastPart hl with ⟨m, rfl⟩ | ⟨package, m, rfl⟩ | ⟨hnone, -⟩
      · cases h
      · cases h
        exact ⟨package.text, rfl⟩
      · rw [hnone] at h
        cases h
    | step t u hl ih =>
      obtain ⟨before, c, -, hb⟩ := text_of_lastPart hl
      obtain ⟨between, hu⟩ := ih (lastQualified_of_lastPart hl ▸ h)
      exact ⟨before ++ c :: between, by rw [hb, hu]; simp⟩
  rw [hb, Text.afterLast_append before (not_mem_ident n.isIdent rfl)]

/-- Where no package stands before the last name, more than a word follows the last dot of a type
that is no name. -/
theorem exists_mem_afterLast (h : t.lastQualified? = none) : (∃ n, t = name n) ∨
    ∃ c ∈ Text.afterLast '.' t.text, Source.Lexeme.isIdentPart c = false := by
  have hmark : ∀ c ∈ [')', '\x7d', '*', ']', ' '],
      c ≠ '.' ∧ Source.Lexeme.isIdentPart c = false := by
    simp only [List.forall_mem_cons]
    exact ⟨by decide, by decide, by decide, by decide, by decide, List.forall_mem_nil _⟩
  have hstays (before : List Char) {c : Char} {word : List Char}
      (hc : c ∈ [')', '\x7d', '*', ']', ' ']) (hw : '.' ∉ word) :
      c ∈ Text.afterLast '.' (before ++ c :: word) := by
    have hfree : '.' ∉ c :: word := by simp [(hmark c hc).1.symm, hw]
    apply Text.mem_afterLast_append
    rw [Text.afterLast_of_not_mem hfree]
    exact List.mem_cons_self
  induction t using induction_last with
  | leaf t hl =>
    rcases cases_of_not_lastPart hl with hn | ⟨package, n, rfl⟩ | ⟨-, before, c, hc, hb⟩
    · exact .inl hn
    · cases h
    · have hc := List.mem_append_left ['*', ']', ' '] hc
      exact .inr ⟨c, hb ▸ hstays before hc List.not_mem_nil, (hmark c hc).2⟩
  | step t u hl ih =>
    obtain ⟨before, c, hc, hb⟩ := text_of_lastPart hl
    right
    rw [hb]
    rcases ih (lastQualified_of_lastPart hl ▸ h) with ⟨n, rfl⟩ | ⟨d, hd, hpart⟩
    · have hc := List.mem_append_right [')', '\x7d'] hc
      exact ⟨c, hstays before hc (not_mem_ident n.isIdent rfl), (hmark c hc).2⟩
    · rw [List.append_cons]
      exact ⟨d, Text.mem_afterLast_append _ hd, hpart⟩

theorem localText_suffix (t : HostType) : t.localText <:+ t.text := by
  apply (Text.afterLast_suffix '.' _).trans
  unfold dropStar
  split
  · rename_i hstar
    rw [hstar]
    exact List.suffix_cons _ _
  · exact List.suffix_rfl

theorem colon_not_mem_local (t : HostType) : ':' ∉ t.localText := fun h =>
  t.colon_not_mem_text (t.localText_suffix.mem h)

theorem getLast?_local (t : HostType) : t.localText.getLast? ≠ some '*' := by
  intro h
  obtain ⟨before, hb⟩ := t.localText_suffix
  apply t.getLast?_text
  rw [← hb, List.getLast?_append, h, Option.some_or]

theorem dropStar_text (h : t.isComposite) : dropStar t.text = t.text := by
  cases t <;> first | rfl | cases h

theorem exists_mem_text (h : t.isComposite) :
    ∃ c ∈ t.text, Source.Lexeme.isIdentPart c = false ∧ c ≠ '.' := by
  cases t with
  | slice t => exact ⟨'[', by simp [text], by decide, by decide⟩
  | array length t => exact ⟨'[', by simp [text], by decide, by decide⟩
  | map key value => exact ⟨'[', by simp [text], by decide, by decide⟩
  | chan t => exact ⟨' ', by simp [text], by decide, by decide⟩
  | func parameters result => exact ⟨'(', by simp [text], by decide, by decide⟩
  | _ => cases h

theorem lookup_primitives (h : t.isComposite) (hs : t.text ≠ "[]string".toList) :
    primitives.lookup (String.ofList t.text) = none := by
  obtain ⟨c, hc, hpart, hdot⟩ := exists_mem_text h
  have hwords : ∀ p ∈ primitives, p.1 = "[]string" ∨
      p.1.toList.all fun c => Source.Lexeme.isIdentPart c || c = '.' := by decide
  rw [List.lookup_eq_none_iff]
  intro p hp
  simp only [bne_iff_ne]
  intro he
  have hkey : t.text = p.1.toList := by rw [← he, String.toList_ofList]
  rcases hwords p hp with h | h
  · exact hs (hkey.trans (congrArg String.toList h))
  · have := List.all_eq_true.mp h c (hkey ▸ hc)
    simp [hpart, hdot] at this

end HostType

section Mapping

variable {r : Registry} {t : HostType}

/-- The primitives are mapped to names, and none has a double underscore. -/
theorem isNativeName_primitive {type native : String} (h : primitives.lookup type = some native) :
    IsNativeName native.toList ∧ ¬Text.occurs ['_', '_'] (Text.afterLast '.' type.toList) := by
  have hall : ∀ p ∈ primitives,
      (∃ star ∈ [[], ['*']], p.2.toList = p.2.toList.filter (· ≠ '*') ++ star) ∧
        (p.2.toList.filter (· ≠ '*')).head?.any Source.Lexeme.isIdentStart ∧
        (p.2.toList.filter (· ≠ '*')).tail.all Source.Lexeme.isIdentPart ∧
        ¬Text.occurs ['_', '_'] (Text.afterLast '.' p.1.toList) := by decide
  obtain ⟨before, after, hp, -⟩ := List.lookup_eq_some_iff.mp h
  obtain ⟨⟨star, hs, hstar⟩, hfirst, hrest, hocc⟩ := hall (type, native) (by simp [hp])
  refine ⟨?_, hocc⟩
  rw [hstar]
  exact isNativeName_of_ident (ident_of_head_tail hfirst hrest) hs

theorem ident_of_contains (hr : ∀ c ∈ r.classes, Source.Pattern.ident.Matches c.name.toList)
    {name : String} (h : r.contains name) : Source.Pattern.ident.Matches name.toList := by
  obtain ⟨c, hc⟩ := Option.isSome_iff_exists.mp h
  obtain ⟨hmem, rfl⟩ := Registry.find?_eq_some_iff.mp hc
  exact hr c hmem

theorem HostType.contains_local_iff
    (hr : ∀ c ∈ r.classes, Source.Pattern.ident.Matches c.name.toList) (h : t.isComposite) :
    r.contains (String.ofList t.localText) ↔ ∃ n ∈ t.lastQualified?, r.contains n.name := by
  rw [localText, dropStar_text h]
  cases hq : t.lastQualified? with
  | some n => simp [afterLast_of_lastQualified hq, Identifier.name]
  | none =>
    rcases exists_mem_afterLast hq with ⟨n, rfl⟩ | ⟨c, hc, hpart⟩
    · cases h
    · simp only [Option.mem_def, reduceCtorEq, false_and, exists_false, iff_false]
      intro hcontains
      have hident := ident_of_contains hr hcontains
      rw [String.toList_ofList] at hident
      have := Source.isIdentPart_of_mem hident hc
      simp [hpart] at this

theorem Registry.isKnown_nativeType_iff {hostType : String}
    (h : primitives.lookup (String.ofList (dropStar (Text.trim hostType.toList))) = none) :
    (r.nativeType hostType).isKnown ↔
      Text.occurs ['_', '_'] (Text.afterLast '.' (dropStar (Text.trim hostType.toList))) ∨
        r.contains (String.ofList (Text.afterLast '.' (dropStar (Text.trim hostType.toList)))) := by
  have hm := r.maps_nativeType hostType
  generalize r.nativeType hostType = native at hm
  cases hm with
  | primitive hp => simp [h] at hp
  | nested _ ho => simp [NativeType.isKnown, ho]
  | ofClass _ _ hn hc => simp [NativeType.isKnown, ← hn, hc]
  | unmapped _ ho hc => simp [NativeType.isKnown, ho, hc]

/-- A type that is built from others is unmapped, unless it ends in the name of a class with a
package before it or has a double underscore behind the last dot. What a type is mapped to is a
name of C++, unless a piece between double underscores is no identifier. -/
theorem nativeType_of_type (r : Registry)
    (hr : ∀ c ∈ r.classes, Source.Pattern.ident.Matches c.name.toList) (t : HostType) :
    (t.isComposite → t.text ≠ "[]string".toList → ∀ u ∈ [t, .pointer t],
      ((r.nativeType (String.ofList u.text)).isKnown ↔
        Text.occurs ['_', '_'] t.localText ∨ ∃ n ∈ t.lastQualified?, r.contains n.name)) ∧
    ∀ native, r.nativeType (String.ofList t.text) = .known native →
      (IsNativeName native.toList ↔ (Text.occurs ['_', '_'] t.localText →
        ∀ part ∈ scopeParts t.localText, Source.Pattern.ident.Matches part)) := by
  constructor
  · intro hc hs u hu
    have htype : dropStar (Text.trim (String.ofList u.text).toList) = t.text := by
      rw [String.toList_ofList, u.trim_text]
      rcases List.mem_pair.mp hu with rfl | rfl
      · exact HostType.dropStar_text hc
      · rfl
    rw [Registry.isKnown_nativeType_iff (by rw [htype]; exact HostType.lookup_primitives hc hs),
      ← HostType.contains_local_iff hr hc, htype, HostType.localText, HostType.dropStar_text hc]
  · intro native hn
    have hm := r.maps_nativeType (String.ofList t.text)
    rw [String.toList_ofList, t.trim_text, hn] at hm
    cases hm with
    | primitive hp =>
      obtain ⟨hnative, hocc⟩ := isNativeName_primitive hp
      rw [String.toList_ofList] at hocc
      exact iff_of_true hnative fun h => absurd h hocc
    -- Only here the text itself is kept, whatever stands in it.
    | nested _ ho =>
      have hiff := isNativeName_joinScopes_iff t.colon_not_mem_local t.getLast?_local
      rw [String.toList_ofList]
      exact hiff.trans ⟨fun h _ => h, fun h => h ho⟩
    | ofClass _ ho hname hc =>
      rename_i name
      refine iff_of_true ?_ fun h => absurd h ho
      have hident := ident_of_contains hr hc
      split
      · rw [String.toList_append]
        exact isNativeName_of_ident hident (by simp)
      · have hplain := @isNativeName_of_ident _ [] hident (by simp)
        rwa [List.append_nil] at hplain

def stringName : Identifier :=
  ⟨['s', 't', 'r', 'i', 'n', 'g'], 's', ['t', 'r', 'i', 'n', 'g'], rfl, rfl,
    List.all_eq_true.mp rfl⟩

def coreName : Identifier :=
  ⟨['c', 'o', 'r', 'e'], 'c', ['o', 'r', 'e'], rfl, rfl, List.all_eq_true.mp rfl⟩

def objectName : Identifier :=
  ⟨rootClass.toList, 'Q', ['O', 'b', 'j', 'e', 'c', 't'], rfl, rfl, List.all_eq_true.mp rfl⟩

/-- The root of all objects, from a library. -/
def rootRegistry : Registry where
  classes := [⟨rootClass, .publicAccess, "core", none, []⟩]
  names_nodup := by decide

theorem rootRegistry_names :
    ∀ c ∈ rootRegistry.classes, Source.Pattern.ident.Matches c.name.toList := by
  intro c hc
  obtain rfl := List.mem_singleton.mp hc
  exact objectName.isIdent

theorem nativeType_of_type_root :
    (rootRegistry.nativeType "*[]QObject").isKnown = false ∧
      (rootRegistry.nativeType "map[string]core.QObject").isKnown ∧
      ∀ native, rootRegistry.nativeType "*core.QObject" = .known native →
        IsNativeName native.toList := by
  have hall := nativeType_of_type rootRegistry rootRegistry_names
  refine ⟨?_, ?_, ?_⟩
  · have h := (hall (.slice (.name objectName))).1 rfl (by decide)
      (.pointer (.slice (.name objectName))) (List.mem_pair.mpr (.inr rfl))
    exact Bool.eq_false_iff.mpr fun hknown => absurd (h.mp hknown) (by decide)
  · have h := (hall (.map (.name stringName) (.qualified coreName objectName))).1 rfl (by decide)
      _ List.mem_cons_self
    exact h.mpr (.inr ⟨objectName, rfl, by decide⟩)
  · intro native hn
    exact ((hall (.pointer (.qualified coreName objectName))).2 native hn).mpr
      fun h => absurd h (by decide)

/-- A slice goes by the name at its end where a package stands before that. -/
theorem nativeType_of_qualifiedSlice : ¬ ∀ r : Registry,
    (∀ c ∈ r.classes, Source.Pattern.ident.Matches c.name.toList) → ∀ t : HostType, t.isComposite →
      t.text ≠ "[]string".toList → r.nativeType (String.ofList t.text) = .unmapped := by
  intro h
  have hslice : rootRegistry.nativeType "[]core.QObject" = .unmapped :=
    h rootRegistry rootRegistry_names (.slice (.qualified coreName objectName)) rfl (by decide)
  revert hslice
  decide

end Mapping

end SignalBridge
