import SignalBridge.Proofs.Source.Alike
import SignalBridge.Proofs.Source.InTurn

namespace SignalBridge.Source

open List (Forall₂)

/-- Names with a comma between any two. -/
inductive NameList : List Token → List Token → Prop where
  | none : NameList [] []
  | one {name : Token} (hname : name.kind = .ident) : NameList [name] [name]
  | more {name comma next : Token} {words names : List Token} (hname : name.kind = .ident)
      (hcomma : comma.kind = .comma) (h : NameList (next :: words) names) :
      NameList (name :: comma :: next :: words) (name :: names)

/-- The tokens of a field: names in a list, a type, and a string literal as tag. -/
structure FieldParts (ts words names type : List Token) (tag : Option Token) : Prop where
  parts : ts = words ++ (type ++ tag.toList)
  list : NameList words names
  typed : type ≠ []
  literal : ∀ t ∈ tag, t.kind.isStringLiteral

/-- The tokens in a stretch of the source. -/
def tokensIn (span : Span) (ts : List Token) : List Token :=
  ts.filter fun t => span.start ≤ t.start && t.stop ≤ span.stop

/-- The tokens in a stretch of the source, line breaks left out. -/
def wordsIn (span : Span) (ts : List Token) : List Token :=
  (tokensIn span ts).filter Token.isWord

/-- How a field stands in a source with these tokens: its span goes from its first word to its last,
its words follow one another and are its parts, and the text of its type is what the source says
from the first token of the type to the last. -/
structure FieldPlaced (source : List Char) (ts : List Token) (f : Field) : Prop where
  text : ∃ text, text ≠ [] ∧ HasText source f.span text
  span : Spans f.span (wordsIn f.span ts)
  order : Ordered (wordsIn f.span ts)
  parts : ∃ words names type tag, FieldParts (wordsIn f.span ts) words names type tag ∧
    f.names = names.map (fun t => String.ofList t.text) ∧
    (∃ span, Spans span type ∧ HasText source span f.typeText.toList ∧ f.typeText ≠ "") ∧
    f.tag = tag.map fun t => String.ofList t.text

/-- How a declaration stands in a source with these tokens: its span begins with its name, and
behind the name its fields stand in order. -/
structure DeclPlaced (source : List Char) (ts : List Token) (d : TypeDecl) : Prop where
  text : ∃ text, text ≠ [] ∧ HasText source d.span text
  name : ∃ name ∈ ts, name.kind = .ident ∧ name.text = d.name.toList ∧
    name.start = d.span.start ∧ name.stop ≤ d.span.stop ∧
    ∀ f ∈ d.fields, name.stop ≤ f.span.start ∧ f.span.stop ≤ d.span.stop
  order : d.fields.Pairwise fun f g => f.span.stop ≤ g.span.start
  fields : ∀ f ∈ d.fields, FieldPlaced source ts f

section Parts

variable {t : Token} {ts words names type run : List Token} {tag next : Option Token} {f : Field}

theorem nameList_moreNames (ht : t.kind = .ident)
    (h : Field.moreNames next ts = .ok (names, type)) :
    ∃ words, ts = words ++ type ∧ NameList (t :: words) (t :: names) := by
  induction ts using Field.moreNames.induct generalizing t names with
  | case1 =>
    cases h
    exact ⟨[], rfl, .one ht⟩
  | case2 u hu => simp [Field.moreNames, hu] at h
  | case3 u hu =>
    rw [Field.moreNames, if_neg hu] at h
    cases h
    exact ⟨[], rfl, .one ht⟩
  | case4 u v ts hu hv ih =>
    rw [Field.moreNames, if_pos hu, if_pos hv] at h
    obtain ⟨⟨names', type'⟩, hr, h⟩ := bind_eq_ok_iff.mp h
    cases h
    obtain ⟨words, rfl, hlist⟩ := ih hv hr
    exact ⟨u :: v :: words, rfl, .more ht hu hlist⟩
  | case5 u v ts hu hv => simp [Field.moreNames, hu, hv] at h
  | case6 u v ts hu =>
    rw [Field.moreNames, if_neg hu] at h
    cases h
    exact ⟨[], rfl, .one ht⟩

theorem nameList_splitNames (h : Field.splitNames next ts = .ok (names, type)) :
    ∃ words, ts = words ++ type ∧ NameList words names := by
  unfold Field.splitNames at h
  split at h
  · rename_i t u ts
    split at h
    · rename_i ht
      simp only [Bool.and_eq_true, decide_eq_true_eq] at ht
      obtain ⟨⟨names', type'⟩, hr, h⟩ := bind_eq_ok_iff.mp h
      cases h
      obtain ⟨words, hwords, hlist⟩ := nameList_moreNames ht.1 hr
      exact ⟨t :: words, by rw [hwords, List.cons_append], hlist⟩
    · cases h
      exact ⟨[], rfl, .none⟩
  · cases h
    exact ⟨[], rfl, .none⟩

theorem splitTag_append (ts : List Token) :
    (Field.splitTag ts).1 ++ (Field.splitTag ts).2.toList = ts := by
  unfold Field.splitTag
  split
  · rename_i t ht
    split
    · obtain ⟨init, rfl⟩ := List.getLast?_eq_some_iff.mp ht
      simp
    · simp
  · simp

theorem isStringLiteral_of_splitTag : ∀ t ∈ (Field.splitTag ts).2, t.kind.isStringLiteral := by
  intro t ht
  unfold Field.splitTag at ht
  split at ht
  · split at ht
    · rename_i hlit
      obtain rfl := Option.some.inj ht
      simp only [Bool.and_eq_true] at hlit
      exact hlit.2
    · cases ht
  · cases ht

/-- What a field is read from, its lines joined. -/
theorem ofTokens_eq_ok (h : Field.ofTokens run next = .ok f) : ∃ words names type tag,
    FieldParts (Token.joinLines run) words names type tag ∧
      Spans f.span (Token.joinLines run) ∧
      f.names = names.map (fun t => String.ofList t.text) ∧
      f.typeText = String.ofList (Token.sourceText type) ∧
      f.tag = tag.map fun t => String.ofList t.text := by
  unfold Field.ofTokens at h
  generalize Token.joinLines run = ts at h
  simp only at h
  split at h
  · rename_i first last hfirst hlast
    obtain ⟨⟨names, type⟩, hr, h⟩ := bind_eq_ok_iff.mp h
    simp only at h
    split at h
    · cases h
    · rename_i hempty
      cases h
      obtain ⟨words, hwords, hlist⟩ := nameList_splitNames hr
      refine ⟨words, names, type, (Field.splitTag ts).2,
        ⟨?_, hlist, ?_, isStringLiteral_of_splitTag⟩, ⟨first, hfirst, last, hlast, rfl⟩,
        rfl, rfl, rfl⟩
      · rw [← List.append_assoc, ← hwords, splitTag_append]
      · simpa using hempty
  · cases h

end Parts

section Same

variable {ts us words names type : List Token} {tag : Option Token} {span : Span}

theorem forall₂_append_left {α β : Type} {R : α → β → Prop} {xs ys : List α} {zs : List β}
    (h : Forall₂ R (xs ++ ys) zs) :
    ∃ as bs, zs = as ++ bs ∧ Forall₂ R xs as ∧ Forall₂ R ys bs := by
  induction xs generalizing zs with
  | nil => exact ⟨[], zs, rfl, .nil, h⟩
  | cons x xs ih =>
    cases h with
    | cons hx h =>
      obtain ⟨as, bs, rfl, has, hbs⟩ := ih h
      exact ⟨_ :: as, bs, rfl, .cons hx has, hbs⟩

theorem NameList.same (h : NameList words names) (hs : Forall₂ Token.Same words us) :
    ∃ names', NameList us names' ∧ Forall₂ Token.Same names names' := by
  induction h generalizing us with
  | none =>
    cases hs
    exact ⟨[], .none, .nil⟩
  | one hname =>
    rcases hs with _ | ⟨ht, ⟨⟩⟩
    exact ⟨_, .one (ht.kind ▸ hname), .cons ht .nil⟩
  | more hname hcomma _ ih =>
    rcases hs with _ | ⟨ht, _ | ⟨hc, hs⟩⟩
    obtain ⟨names', hlist, hnames⟩ := ih hs
    cases hs with
    | cons hn hs =>
      exact ⟨_, .more (ht.kind ▸ hname) (hc.kind ▸ hcomma) hlist, .cons ht hnames⟩

/-- The parts of a field stay, whatever counts as blank text before its tokens. -/
theorem FieldParts.same (h : FieldParts ts words names type tag) (hs : Forall₂ Token.Same ts us) :
    ∃ words' names' type' tag', FieldParts us words' names' type' tag' ∧
      Forall₂ Token.Same names names' ∧ Forall₂ Token.Same type type' ∧
      Option.Rel Token.Same tag tag' := by
  rw [h.parts] at hs
  obtain ⟨words', rest, rfl, hwords, hrest⟩ := forall₂_append_left hs
  obtain ⟨type', tags, rfl, htype, htags⟩ := forall₂_append_left hrest
  obtain ⟨names', hlist, hnames⟩ := h.list.same hwords
  have htyped : type' ≠ [] := by
    rintro rfl
    exact h.typed (List.forall₂_nil_right_iff.mp htype)
  cases tag with
  | none =>
    cases htags
    exact ⟨words', names', type', none, ⟨rfl, hlist, htyped, by simp⟩, hnames, htype, .none⟩
  | some t =>
    rcases htags with _ | ⟨ht, ⟨⟩⟩
    refine ⟨words', names', type', some _, ⟨rfl, hlist, htyped, ?_⟩, hnames, htype, .some ht⟩
    rintro _ ⟨⟩
    exact ht.kind ▸ h.literal t rfl

theorem rel_some_left {α β : Type} {R : α → β → Prop} {a : α} {y : Option β}
    (h : Option.Rel R (some a) y) : ∃ b ∈ y, R a b := by
  cases h with
  | some h => exact ⟨_, rfl, h⟩

theorem Spans.same (h : Spans span ts) (hs : Forall₂ Token.Same ts us) : Spans span us := by
  obtain ⟨first, hfirst, last, hlast, rfl⟩ := h
  have hhead := rel_head? hs
  have hback := rel_getLast? hs
  rw [Option.mem_def.mp hfirst] at hhead
  rw [Option.mem_def.mp hlast] at hback
  obtain ⟨first', hfirst', hf⟩ := rel_some_left hhead
  obtain ⟨last', hlast', hl⟩ := rel_some_left hback
  exact ⟨first', hfirst', last', hlast', by rw [hf.start, hl.stop]⟩

theorem texts_same (h : Forall₂ Token.Same ts us) :
    ts.map (fun t => String.ofList t.text) = us.map fun t => String.ofList t.text := by
  induction h with
  | nil => rfl
  | cons h _ ih => rw [List.map_cons, List.map_cons, h.text, ih]

end Same

section Placing

variable {source : List Char} {span : Span} {before run after ts : List Token} {t : Token}
  {f : Field} {d : TypeDecl}

theorem Ordered.sublist {us : List Token} (h : Ordered ts) (hs : us.Sublist ts) : Ordered us :=
  ⟨fun t ht => h.room t (hs.subset ht), h.order.sublist hs⟩

theorem ordered_of_tokenize {source : String} (h : tokenize source = .ok ts) : Ordered ts := by
  obtain ⟨pieces, ht⟩ := tokenized_of_tokenize h
  exact ⟨ht.nonempty, ht.ordered⟩

theorem sublist_run (before run after : List Token) :
    run.Sublist (before ++ (run ++ after)) :=
  (List.sublist_append_left run after).trans (List.sublist_append_right before _)

theorem wordsIn_sublist (span : Span) (ts : List Token) : (wordsIn span ts).Sublist ts :=
  List.filter_sublist.trans List.filter_sublist

/-- All tokens lie between the first and the last. -/
theorem Ordered.bounds (h : Ordered ts) (hs : Spans span ts) (ht : t ∈ ts) :
    span.start ≤ t.start ∧ t.stop ≤ span.stop := by
  obtain ⟨first, hfirst, last, hlast, rfl⟩ := hs
  obtain ⟨more, rfl⟩ := List.head?_eq_some_iff.mp hfirst
  have hstart : first.start ≤ t.start := by
    rcases List.mem_cons.mp ht with rfl | hm
    · exact Nat.le_refl _
    · have := (List.pairwise_cons.mp h.order).1 t hm
      have := h.room first List.mem_cons_self
      omega
  refine ⟨hstart, ?_⟩
  obtain ⟨init, hinit⟩ := List.getLast?_eq_some_iff.mp hlast
  rw [hinit] at h ht
  rcases List.mem_append.mp ht with hm | hm
  · have := (List.pairwise_append.mp h.order).2.2 t hm last (List.mem_singleton_self last)
    have := h.room last (by simp)
    simp only
    omega
  · obtain rfl := List.mem_singleton.mp hm
    exact Nat.le_refl _

/-- Where a stretch goes from the first to the last of some tokens of a run, these are the tokens of
their sort in it. -/
theorem filter_tokensIn_run {p : Token → Bool} (h : Ordered (before ++ (run ++ after)))
    (hs : Spans span (run.filter p)) :
    (tokensIn span (before ++ (run ++ after))).filter p = run.filter p := by
  obtain ⟨first, hfirst, last, hlast, he⟩ := id hs
  have hfirst' : first ∈ run := List.mem_of_mem_filter (List.mem_of_mem_head? hfirst)
  have hlast' : last ∈ run := List.mem_of_mem_filter (List.mem_of_mem_getLast? hlast)
  obtain ⟨-, hinner, hcross⟩ := List.pairwise_append.mp h.order
  obtain ⟨-, -, hcross'⟩ := List.pairwise_append.mp hinner
  have hbefore : tokensIn span before = [] := by
    refine List.filter_eq_nil_iff.mpr fun t ht => ?_
    have := hcross t ht first (by simp [hfirst'])
    have := h.room t (by simp [ht])
    simp only [he, Bool.and_eq_true, decide_eq_true_eq]
    omega
  have hafter : tokensIn span after = [] := by
    refine List.filter_eq_nil_iff.mpr fun t ht => ?_
    have := hcross' last hlast' t ht
    have := h.room t (by simp [ht])
    simp only [he, Bool.and_eq_true, decide_eq_true_eq]
    omega
  have hrun : (tokensIn span run).filter p = run.filter p := by
    have ho := h.sublist ((List.filter_sublist (p := p)).trans (sublist_run before run after))
    rw [tokensIn, List.filter_filter]
    refine List.filter_congr fun t ht => ?_
    by_cases hp : p t
    · have := ho.bounds hs (List.mem_filter.mpr ⟨ht, hp⟩)
      simp [hp, this]
    · simp [hp]
  have hsplit : tokensIn span (before ++ (run ++ after)) =
      tokensIn span before ++ (tokensIn span run ++ tokensIn span after) := by
    simp only [tokensIn, List.filter_append]
  rw [hsplit, hbefore, hafter, List.nil_append, List.append_nil, hrun]

theorem sourceText_ne_nil {first : Token} (h : first ∈ ts.head?) (ht : first.text ≠ []) :
    Token.sourceText ts ≠ [] := by
  obtain ⟨more, rfl⟩ := List.head?_eq_some_iff.mp h
  simp [Token.sourceText, ht]

theorem text_ne_nil (h : t.start < t.stop) : t.text ≠ [] := by
  intro he
  simp [Token.stop, he] at h

/-- What a run of tokens is read as stands in the source where the run does. -/
theorem FieldOf.placed (h : FieldOf run f) (hw : WrittenAt source (before ++ (run ++ after)))
    (ho : Ordered (before ++ (run ++ after))) :
    FieldPlaced source (before ++ (run ++ after)) f := by
  obtain ⟨next, h⟩ := h
  obtain ⟨words, names, type, tag, hparts, hspan, hnames, htype, htag⟩ := ofTokens_eq_ok h
  have hsame := same_joinLines run
  have hspan' := hspan.same hsame
  have hwords : wordsIn f.span (before ++ (run ++ after)) = run.filter Token.isWord :=
    filter_tokensIn_run ho hspan'
  have hjoined := hw.right.left.joinLines
  have htext : ∀ t ∈ Token.joinLines run, t.text ≠ [] := by
    intro t ht
    obtain ⟨u, hu, htu⟩ := exists_same_of_mem_joinLines ht
    rw [htu.text]
    exact text_ne_nil (ho.room u (by simp [hu]))
  obtain ⟨words', names', type', tag', hparts', hnames', htype', htag'⟩ := hparts.same hsame
  rw [← hwords] at hparts' hspan'
  refine ⟨⟨_, ?_, hjoined.hasText hspan⟩, hspan', ho.sublist (wordsIn_sublist _ _),
    words', names', type', tag', hparts', ?_, ?_, ?_⟩
  · obtain ⟨first, hfirst, -⟩ := hspan
    exact sourceText_ne_nil hfirst (htext first (List.mem_of_mem_head? hfirst))
  · rw [hnames, texts_same hnames']
  · obtain ⟨first, more, rfl⟩ := List.exists_cons_of_ne_nil hparts.typed
    have hspans := spans_cons_iff.mpr (Eq.refl (⟨first.start, stopOf first.stop more⟩ : Span))
    have htyped := hjoined
    rw [hparts.parts] at htyped
    have hfirst : first ∈ Token.joinLines run := by simp [hparts.parts]
    refine ⟨_, hspans.same htype', ?_, ?_⟩
    · rw [htype, String.toList_ofList]
      exact htyped.right.left.hasText hspans
    · intro he
      rw [htype, ← String.toList_inj, String.toList_ofList] at he
      exact sourceText_ne_nil rfl (htext first hfirst) he
  · rw [htag]
    cases htag' with
    | none => rfl
    | some h => rw [Option.map_some, Option.map_some, h.text]

theorem FieldOf.spanAmong (h : FieldOf run f) : SpanAmong f.span run := by
  obtain ⟨next, h⟩ := h
  obtain ⟨_, _, _, _, -, hspan, -⟩ := ofTokens_eq_ok h
  obtain ⟨first, hfirst, last, hlast, he⟩ := hspan.same (same_joinLines run)
  exact ⟨first, List.mem_of_mem_filter (List.mem_of_mem_head? hfirst), last,
    List.mem_of_mem_filter (List.mem_of_mem_getLast? hlast), he⟩

theorem DeclOf.spans (h : DeclOf run d) : Spans d.span run := by
  obtain ⟨name, more, rfl, -, -, hspan, -⟩ := h
  exact spans_cons_iff.mpr hspan

theorem Spans.spanAmong (h : Spans span ts) : SpanAmong span ts := by
  obtain ⟨first, hfirst, last, hlast, he⟩ := h
  exact ⟨first, List.mem_of_mem_head? hfirst, last, List.mem_of_mem_getLast? hlast, he⟩

theorem DeclOf.placed (h : DeclOf run d) (hw : WrittenAt source (before ++ (run ++ after)))
    (ho : Ordered (before ++ (run ++ after))) :
    DeclPlaced source (before ++ (run ++ after)) d := by
  have hspans := h.spans
  have horun := ho.sublist (sublist_run before run after)
  have hwrun := hw.right.left
  obtain ⟨name, more, rfl, hname, htext, hspan, hfields⟩ := h
  have hroom := horun.room name List.mem_cons_self
  have hbehind := (List.pairwise_cons.mp horun.order).1
  refine ⟨⟨_, sourceText_ne_nil rfl (text_ne_nil hroom), hwrun.hasText hspans⟩, ?_, ?_, ?_⟩
  · refine ⟨name, by simp, hname, by rw [htext, String.toList_ofList], by rw [hspan],
      (horun.bounds hspans List.mem_cons_self).2, fun f hf => ?_⟩
    obtain ⟨before', run', after', rfl, hfield⟩ := hfields.exists_run hf
    obtain ⟨first, hfirst, last, hlast, he⟩ := hfield.spanAmong
    rw [he]
    exact ⟨hbehind first (by simp [hfirst]), (horun.bounds hspans (by simp [hlast])).2⟩
  · exact hfields.pairwise (horun.sublist (List.sublist_cons_self name more))
      fun run f => FieldOf.spanAmong
  · intro f hf
    obtain ⟨before', run', after', rfl, hfield⟩ := hfields.exists_run hf
    have hplaced :=
      @FieldOf.placed source (before ++ name :: before') run' (after' ++ after) f hfield
    simp only [List.append_assoc, List.cons_append] at hplaced hw ho ⊢
    exact hplaced hw ho

theorem scan_eq_ok {source : String} {file : SourceFile} (ht : tokenize source = .ok ts)
    (h : scan source = .ok file) : SourceFile.ofTokens ts = .ok file := by
  rw [scan_of_tokenize ht] at h
  cases hr : SourceFile.ofTokens ts with
  | error fault =>
    rw [hr] at h
    cases h
  | ok file' =>
    rw [hr] at h
    cases h
    rfl

theorem placed_of_ofTokens {source : String} {file : SourceFile} (ht : tokenize source = .ok ts)
    (h : SourceFile.ofTokens ts = .ok file) : ∀ d ∈ file.types, DeclPlaced source.toList ts d := by
  intro d hd
  obtain ⟨before, run, after, rfl, hdecl⟩ := (inTurn_declarations h).exists_run hd
  exact hdecl.placed (writtenAt_of_tokenize ht) (ordered_of_tokenize ht)

end Placing

/-- In every source that scans, the spans of the declarations follow one another; each holds a piece
of the source that begins with the declared name; and in the span of a struct, behind its name, the
spans of its fields follow one another, each from the first word of the field to the last, and its
words are names with commas between them, the tokens that the text of its type goes from and to,
and the tag. -/
theorem scan_placed {source : String} {file : SourceFile} (h : scan source = .ok file) :
    ∃ ts, tokenize source = .ok ts ∧ file.types.Pairwise (fun d e => d.span.stop ≤ e.span.start) ∧
      ∀ d ∈ file.types, DeclPlaced source.toList ts d := by
  obtain ⟨ts, ht, -⟩ := bind_eq_ok_iff.mp (id h)
  have hr := scan_eq_ok ht h
  have horder := (inTurn_declarations hr).pairwise (ordered_of_tokenize ht)
    fun run d hd => hd.spans.spanAmong
  exact ⟨ts, ht, horder, placed_of_ofTokens ht hr⟩

/-- A group of an alias and a generic struct, whose last field has two names, a type over several
lines and a tag. -/
def cellsSource : String :=
  "package grid\n\ntype (\n\tCells = map[string]int // größer\n\tPair[K any] struct \x7b\n" ++
    "\t\tCells\n\t\tleft, right func(\n\t\t\tk K,\n\t\t) int \x60signal:\"moved\"\x60\n\t\x7d\n)\n"

def cellsField : Field :=
  ⟨["left", "right"], "func(\n\t\t\tk K,\n\t\t) int", some "\x60signal:\"moved\"\x60", ⟨89, 139⟩⟩

def cellsFile : SourceFile :=
  ⟨some "grid", [⟨"Cells", .other, ⟨22, 44⟩⟩,
    ⟨"Pair", .struct [⟨[], "Cells", none, ⟨81, 86⟩⟩, cellsField], ⟨58, 142⟩⟩]⟩

theorem scan_placed_cells : scan cellsSource = .ok cellsFile ∧
    ∃ ts, tokenize cellsSource = .ok ts ∧ FieldPlaced cellsSource.toList ts cellsField := by
  have hscan : scan cellsSource = .ok cellsFile := by decide +kernel
  obtain ⟨ts, ht, -, hplaced⟩ := scan_placed hscan
  have hpair := hplaced ⟨"Pair", .struct [⟨[], "Cells", none, ⟨81, 86⟩⟩, cellsField], ⟨58, 142⟩⟩
    (by simp [cellsFile])
  exact ⟨hscan, ts, ht, hpair.fields cellsField (by simp [TypeDecl.fields])⟩

end SignalBridge.Source
