import SignalBridge.Proofs.Host.Type
import SignalBridge.Proofs.Member.Layout

namespace SignalBridge

open Text (AllBlank Trimmed)

namespace Signature

/-- A text that can stand between the commas of a list. -/
structure IsEntry (text : List Char) : Prop where
  whole : isWhole 0 text
  trimmed : Trimmed text
  ne_nil : text ≠ []

/-- A list's text: a comma between each two of its entries, and white space before them as one
likes. -/
inductive Lists : List (List Char) → List Char → Prop where
  | last {gap e : List Char} (hg : AllBlank gap) (he : IsEntry e) : Lists [e] (gap ++ e)
  | cons {gap e text : List Char} {es : List (List Char)} (hg : AllBlank gap) (he : IsEntry e)
      (h : Lists es text) : Lists (e :: es) (gap ++ (e ++ ',' :: text))

section Lists

variable {es es' : List (List Char)} {text text' gap e : List Char}

theorem isWhole_gap (hg : AllBlank gap) (he : IsEntry e) : isWhole 0 (gap ++ e) :=
  isWhole_append (isWhole_allBlank hg) he.whole

theorem trim_gap (hg : AllBlank gap) (he : IsEntry e) : Text.trim (gap ++ e) = e := by
  have h := Text.trim_append hg (fun _ h => absurd h List.not_mem_nil) e
  rw [List.append_nil] at h
  rw [h, Text.trim_of_trimmed he.trimmed]

/-- The list ends at the parenthesis that follows it. -/
theorem Lists.splitList (h : Lists es text) (rest : List Char) :
    splitList 0 (text ++ ')' :: rest) = (text, some rest) := by
  induction h with
  | last hg he =>
    rw [splitList_whole (isWhole_gap hg he)]
    simp [Signature.splitList]
  | @cons gap e text es hg he _ ih =>
    have hassoc : gap ++ (e ++ ',' :: text) ++ ')' :: rest =
        (gap ++ e) ++ ',' :: (text ++ ')' :: rest) := by simp
    rw [hassoc, splitList_whole (isWhole_gap hg he), splitList_comma, ih]
    simp

theorem Lists.readList (h : Lists es text) : Entry.readList text = es.map Entry.ofText := by
  induction h with
  | last hg he =>
    rw [Entry.readList, pieces_whole_end (isWhole_gap hg he)]
    simp [trim_gap hg he, he.ne_nil]
  | @cons gap e text es hg he _ ih =>
    rw [Entry.readList, ← List.append_assoc, pieces_whole_comma (isWhole_gap hg he), List.map_cons,
      trim_gap hg he, List.filter_cons_of_pos (by simp [he.ne_nil]), List.map_cons, List.map_cons,
      ← ih, Entry.readList]

theorem Lists.append (h : Lists es text) (h' : Lists es' text') :
    Lists (es ++ es') (text ++ ',' :: text') := by
  induction h with
  | last hg he =>
    rw [List.append_assoc]
    exact .cons hg he h'
  | cons hg he _ ih =>
    rw [List.append_assoc, List.append_assoc]
    exact .cons hg he ih

theorem Lists.after_blank (hg : AllBlank gap) (h : Lists es text) : Lists es (gap ++ text) := by
  cases h with
  | last hb he =>
    rw [← List.append_assoc]
    exact .last (List.forall_mem_append.mpr ⟨hg, hb⟩) he
  | cons hb he h =>
    rw [← List.append_assoc]
    exact .cons (List.forall_mem_append.mpr ⟨hg, hb⟩) he h

/-- Lists with commas between them are one list. -/
theorem Lists.intercalate {α : Type} {entries : α → List (List Char)} {text : α → List Char}
    {i : α} {is : List α} (hg : AllBlank gap) (h : ∀ j ∈ i :: is, Lists (entries j) (text j)) :
    Lists ((i :: is).flatMap entries) ((',' :: gap).intercalate ((i :: is).map text)) := by
  induction is generalizing i with
  | nil => simpa using h i List.mem_cons_self
  | cons j js ih =>
    have hrest := ih fun k hk => h k (List.mem_cons_of_mem _ hk)
    have := (h i List.mem_cons_self).append (hrest.after_blank hg)
    simpa [List.flatMap_cons] using this

theorem lists_intercalate (hg : AllBlank gap) (hne : es ≠ []) (h : ∀ e ∈ es, IsEntry e) :
    Lists es ((',' :: gap).intercalate es) := by
  obtain ⟨e, es, rfl⟩ := List.exists_cons_of_ne_nil hne
  have hnone : AllBlank [] := fun _ h => absurd h List.not_mem_nil
  have hl : Lists ((e :: es).flatMap fun e => [e]) ((',' :: gap).intercalate ((e :: es).map id)) :=
    Lists.intercalate hg fun e he => .last hnone (h e he)
  rwa [List.map_id, List.flatMap_singleton'] at hl

theorem splitBlank?_eq_none {depth : Nat} (h : ∀ c ∈ text, Text.isBlank c = false) :
    splitBlank? depth text = none := by
  induction text generalizing depth with
  | nil => rfl
  | cons c cs ih =>
    rw [splitBlank?, h c List.mem_cons_self, ih fun d hd => h d (List.mem_cons_of_mem _ hd)]
    simp

end Lists

section Resolution

variable {es : List Entry}

/-- The type of a named entry. -/
def Entry.type? : Entry → Option String
  | named _ type => some type
  | single _ => none

/-- The type that words before these entries share: that of the next named one. -/
def sharedType (es : List Entry) : Option String :=
  es.findSome? Entry.type?

/-- The parameter of the entry at position `i`, where `shared` is the type to share. -/
def Entry.parameter (r : Registry) (i : Nat) (shared : Option String) : Entry → Parameter
  | named name type => ⟨name, type, ""⟩
  | single word =>
    match shared with
    | some type => if (r.nativeType word).isKnown then ⟨s!"v{i}", word, ""⟩ else ⟨word, type, ""⟩
    | none => ⟨s!"v{i}", word, ""⟩

theorem parameter_known {r : Registry} {word : String} (h : (r.nativeType word).isKnown) (i : Nat)
    (shared : Option String) :
    (Entry.single word).parameter r i shared = ⟨s!"v{i}", word, ""⟩ := by
  cases shared with
  | none => rfl
  | some type => rw [Entry.parameter, if_pos h]

theorem parameter_shares {r : Registry} {word : String}
    (h : (r.nativeType word).isKnown = false) (i : Nat) (type : String) :
    (Entry.single word).parameter r i (some type) = ⟨word, type, ""⟩ := by
  rw [Entry.parameter, h]
  rfl

theorem resolveFrom_cons (r : Registry) (i : Nat) (e : Entry) (es : List Entry) :
    resolveFrom r i (e :: es) =
      (e.parameter r i (resolveFrom r (i + 1) es).2 :: (resolveFrom r (i + 1) es).1,
        e.type?.or (resolveFrom r (i + 1) es).2) := by
  cases e with
  | named name type => rfl
  | single word =>
    simp only [resolveFrom, Entry.parameter, Entry.type?, Option.none_or]
    generalize resolveFrom r (i + 1) es = p
    obtain ⟨parameters, shared⟩ := p
    cases shared with
    | none => rfl
    | some type => cases (r.nativeType word).isKnown <;> rfl

theorem resolveFrom_shared (r : Registry) (i : Nat) (es : List Entry) :
    (resolveFrom r i es).2 = sharedType es := by
  induction es generalizing i with
  | nil => rfl
  | cons e es ih =>
    rw [resolveFrom_cons, ih]
    cases e <;> rfl

theorem length_resolve (r : Registry) (es : List Entry) : (resolve r es).length = es.length := by
  have hfrom : ∀ i, (resolveFrom r i es).1.length = es.length := by
    induction es with
    | nil => intro i; rfl
    | cons e es ih =>
      intro i
      rw [resolveFrom_cons, List.length_cons, ih, List.length_cons]
  exact hfrom 0

/-- Every entry becomes one parameter, by itself but for the type to share. -/
theorem getElem?_resolve (r : Registry) (es : List Entry) (i : Nat) :
    (resolve r es)[i]? = es[i]?.map (·.parameter r i (sharedType (es.drop (i + 1)))) := by
  have hfrom : ∀ k, (resolveFrom r k es).1[i]? =
      es[i]?.map (·.parameter r (k + i) (sharedType (es.drop (i + 1)))) := by
    induction es generalizing i with
    | nil => intro k; rfl
    | cons e es ih =>
      intro k
      rw [resolveFrom_cons]
      cases i with
      | zero => simp [resolveFrom_shared]
      | succ i =>
        rw [List.getElem?_cons_succ, List.getElem?_cons_succ, ih i (k + 1), List.drop_succ_cons,
          Nat.add_right_comm, Nat.add_assoc]
  simpa [resolve] using hfrom 0

end Resolution

/-- A function type with a parameter list and, after a blank, a result. -/
def functionText (list : List Char) (result : Option (List Char)) : List Char :=
  'f' :: 'u' :: 'n' :: 'c' :: '(' :: (list ++ ')' :: (result.map (' ' :: ·)).getD [])

theorem ofType?_functionText {list : List Char} {result : Option (List Char)}
    (hl : ∀ rest, splitList 0 (list ++ ')' :: rest) = (list, some rest))
    (hr : ∀ text ∈ result, Trimmed text ∧ text ≠ []) :
    ofType? (String.ofList (functionText list result)) =
      some ⟨Entry.readList list, result.map String.ofList⟩ := by
  cases result with
  | none => exact ofType?_list (hl _) (by simp; rfl)
  | some text =>
    obtain ⟨ht, hne⟩ := hr text rfl
    have hlast : ∀ c ∈ (')' :: ' ' :: text).getLast?, Text.isBlank c = false := by
      intro c hc
      apply ht.last
      simpa [List.getLast?_cons_of_ne_nil, hne] using hc
    refine (ofType?_list (hl _) hlast).trans ?_
    rw [Text.trim_cons rfl, Text.trim_of_trimmed ht, if_neg (by simpa using hne), Option.map_some]

end Signature

open Signature (IsEntry isWhole Lists)

/-- Names that share a type: `x, y int`. -/
structure ParameterGroup where
  /-- The names before the last. -/
  names : List Identifier
  last : Identifier
  type : List Char
  isEntry : IsEntry type

namespace ParameterGroup

variable {g : ParameterGroup} {gs : List ParameterGroup} {r : Registry}

/-- What stands between the commas. -/
def entryTexts (g : ParameterGroup) : List (List Char) :=
  g.names.map Identifier.text ++ [g.last.text ++ ' ' :: g.type]

def text (g : ParameterGroup) : List Char :=
  commaSeparated g.entryTexts

/-- Groups with a comma between each two, and what white space one likes behind it. -/
def listText (gap : List Char) (gs : List ParameterGroup) : List Char :=
  (',' :: gap).intercalate (gs.map text)

/-- A parameter for each name, its type not mapped yet. -/
def parameters (g : ParameterGroup) : List Parameter :=
  (g.names ++ [g.last]).map fun n => ⟨n.name, String.ofList g.type, ""⟩

theorem isNameChar_of_isIdentPart {c : Char} (h : Source.Lexeme.isIdentPart c) :
    Signature.isNameChar c := by
  have hpart : ∀ d ∈ [c], Source.Lexeme.isIdentPart d ∨ d = '.' := by simpa using .inl h
  obtain ⟨ho, hc, hne⟩ := Source.isPlain_text hpart c List.mem_cons_self
  simp [Signature.isNameChar, ho, hc, hne, Text.isBlank_of_isIdentPart h]

theorem isEntry_name (n : Identifier) : IsEntry n.text := by
  have hword := Source.isInk_word n.isIdent
  refine ⟨Signature.isWhole_plain ?_, hword.trimmed, hword.ne_nil⟩
  exact Source.isPlain_text fun c hc => .inl (Source.isIdentPart_of_mem n.isIdent hc)

theorem isEntry_last (g : ParameterGroup) : IsEntry (g.last.text ++ ' ' :: g.type) := by
  have hname : g.last.text.all Signature.isNameChar := List.all_eq_true.mpr fun c hc =>
    isNameChar_of_isIdentPart (Source.isIdentPart_of_mem g.last.isIdent hc)
  have hword := isEntry_name g.last
  refine ⟨?_, ⟨?_, ?_⟩, by simp⟩
  · have hnone : AllBlank [] := fun _ h => absurd h List.not_mem_nil
    exact Signature.isWhole_named hnone hname rfl g.isEntry.whole
  · rw [List.head?_append_of_ne_nil _ hword.ne_nil]
    exact hword.trimmed.head
  · rw [List.getLast?_append_cons, List.getLast?_cons_of_ne_nil g.isEntry.ne_nil]
    exact g.isEntry.trimmed.last

theorem lists_text (g : ParameterGroup) : Lists g.entryTexts g.text := by
  have hgap : AllBlank [' '] := by decide
  refine Signature.lists_intercalate hgap (by simp [entryTexts]) ?_
  intro e he
  rcases List.mem_append.mp he with he | he
  · obtain ⟨n, -, rfl⟩ := List.mem_map.mp he
    exact isEntry_name n
  · rw [List.mem_singleton.mp he]
    exact g.isEntry_last

/-- The group as it is read: words, and a name with the type. -/
def entries (g : ParameterGroup) : List Signature.Entry :=
  g.names.map (fun n => .single n.name) ++ [.named g.last.name (String.ofList g.type)]

theorem ofText_name (n : Identifier) : Signature.Entry.ofText n.text = .single n.name := by
  have hnone : Signature.splitBlank? 0 n.text = none :=
    Signature.splitBlank?_eq_none fun c hc =>
      Text.isBlank_of_isIdentPart (Source.isIdentPart_of_mem n.isIdent hc)
  rw [Signature.Entry.ofText, hnone]
  rfl

theorem ofText_entryTexts (g : ParameterGroup) :
    g.entryTexts.map Signature.Entry.ofText = g.entries := by
  have hlast : Signature.Entry.ofText (g.last.text ++ ' ' :: g.type) =
      .named g.last.name (String.ofList g.type) :=
    Signature.ofText_named (fun _ hc => Source.isIdentPart_of_mem g.last.isIdent hc)
      g.isEntry.trimmed
  rw [entryTexts, entries, List.map_append, List.map_map, List.map_singleton, hlast]
  congr 1
  exact List.map_congr_left fun n _ => ofText_name n

theorem readList_listText {gap : List Char} (hg : AllBlank gap) (gs : List ParameterGroup) :
    Signature.Entry.readList (listText gap gs) = gs.flatMap entries ∧
      ∀ rest, Signature.splitList 0 (listText gap gs ++ ')' :: rest) =
        (listText gap gs, some rest) := by
  cases gs with
  | nil => exact ⟨rfl, fun _ => rfl⟩
  | cons g gs =>
    have hl : Lists ((g :: gs).flatMap entryTexts) (listText gap (g :: gs)) :=
      Lists.intercalate hg fun g _ => g.lists_text
    refine ⟨?_, hl.splitList⟩
    rw [hl.readList, List.map_flatMap]
    exact List.flatMap_congr fun g _ => g.ofText_entryTexts

/-- Every name of a group takes its type, whatever follows. -/
theorem resolveFrom_entries (h : ∀ n ∈ g.names, (r.nativeType n.name).isKnown = false) (i : Nat)
    (es : List Signature.Entry) : ∃ j, (Signature.resolveFrom r i (g.entries ++ es)).1 =
      g.parameters ++ (Signature.resolveFrom r j es).1 := by
  obtain ⟨names, last, type, isEntry⟩ := g
  simp only [entries, parameters] at h ⊢
  induction names generalizing i with
  | nil => exact ⟨i + 1, rfl⟩
  | cons n ns ih =>
    obtain ⟨j, hj⟩ := ih (i + 1) fun m hm => h m (List.mem_cons_of_mem _ hm)
    have hshared : Signature.sharedType ((ns.map fun n => .single n.name) ++
        [Signature.Entry.named last.name (String.ofList type)] ++ es) =
          some (String.ofList type) := by
      rw [Signature.sharedType, List.findSome?_append, List.findSome?_append]
      have : (ns.map fun n => Signature.Entry.single n.name).findSome? Signature.Entry.type? =
          none := by simp [Signature.Entry.type?]
      rw [this]
      rfl
    refine ⟨j, ?_⟩
    rw [List.map_cons, List.cons_append, List.cons_append, Signature.resolveFrom_cons, hj,
      Signature.resolveFrom_shared, hshared,
      Signature.parameter_shares (h n List.mem_cons_self)]
    rfl

theorem resolve_entries
    (h : ∀ g ∈ gs, ∀ n ∈ g.names, (r.nativeType n.name).isKnown = false) :
    Signature.resolve r (gs.flatMap entries) = gs.flatMap parameters := by
  have hfrom : ∀ i, (Signature.resolveFrom r i (gs.flatMap entries)).1 = gs.flatMap parameters := by
    induction gs with
    | nil => intro i; rfl
    | cons g gs ih =>
      intro i
      obtain ⟨j, hj⟩ := resolveFrom_entries (h g List.mem_cons_self) i (gs.flatMap entries)
      rw [List.flatMap_cons, List.flatMap_cons, hj, ih fun g hg => h g (List.mem_cons_of_mem _ hg)]
  exact hfrom 0

end ParameterGroup

/-- A function type whose parameters stand in groups declares a parameter for each name, of its
group's type, and the result that is written behind the list. Only the last name of a group may be
that of a type. -/
theorem parameters_of_groups (r : Registry) {groups : List ParameterGroup} {gap : List Char}
    {result : Option (List Char)} (hg : AllBlank gap)
    (hn : ∀ g ∈ groups, ∀ n ∈ g.names, (r.nativeType n.name).isKnown = false)
    (hr : ∀ text ∈ result, Trimmed text ∧ text ≠ []) :
    ∃ s, Signature.ofType? (String.ofList (Signature.functionText
        (ParameterGroup.listText gap groups) result)) = some s ∧
      s.result = result.map String.ofList ∧
      Signature.resolve r s.entries = groups.flatMap ParameterGroup.parameters := by
  obtain ⟨hread, hlist⟩ := ParameterGroup.readList_listText hg groups
  refine ⟨_, Signature.ofType?_functionText hlist hr, rfl, ?_⟩
  rw [hread]
  exact ParameterGroup.resolve_entries hn

section Points

def xName : Identifier :=
  ⟨['x'], 'x', [], rfl, rfl, List.all_eq_true.mp rfl⟩

def yName : Identifier :=
  ⟨['y'], 'y', [], rfl, rfl, List.all_eq_true.mp rfl⟩

def doneName : Identifier :=
  ⟨['d', 'o', 'n', 'e'], 'd', ['o', 'n', 'e'], rfl, rfl, List.all_eq_true.mp rfl⟩

def pointGroups : List ParameterGroup :=
  [⟨[xName], yName, "int".toList, rfl, by decide, by decide⟩,
    ⟨[], doneName, "func(a, b int) bool".toList, rfl, by decide, by decide⟩]

theorem parameters_of_groups_points : ∃ s,
    Signature.ofType? "func(x, y int, done func(a, b int) bool) (int, error)" = some s ∧
      s.result = some "(int, error)" ∧ Signature.resolve Registry.empty s.entries =
        [⟨"x", "int", ""⟩, ⟨"y", "int", ""⟩, ⟨"done", "func(a, b int) bool", ""⟩] := by
  have hresult : ∀ text ∈ some "(int, error)".toList, Trimmed text ∧ text ≠ [] := by
    intro text ht
    obtain rfl := Option.mem_some.mp ht
    exact ⟨by decide, by decide⟩
  have htext : String.ofList (Signature.functionText (ParameterGroup.listText [' '] pointGroups)
      (some "(int, error)".toList)) =
        "func(x, y int, done func(a, b int) bool) (int, error)" := by decide
  obtain ⟨s, hs, hr, hp⟩ :=
    @parameters_of_groups Registry.empty pointGroups [' '] _ (by decide) (by decide) hresult
  exact ⟨s, htext ▸ hs, hr, hp⟩

end Points

end SignalBridge
