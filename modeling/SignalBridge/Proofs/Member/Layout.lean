import Mathlib.Data.List.Forall2
import SignalBridge.Proofs.Member.Signature
import SignalBridge.Proofs.Text.Pieces
import SignalBridge.Registry.Declared

/-!
Layout that a field's type may change without effect. In a parameter list that is white space around
the entries and between a name and its type, and all that a named entry's type is written with
(`names_of_relaid`); in an embedded type, all that stands before the last dot
(`embeddedName_of_relaid`). A comment is no white space: it may not stand before an entry's name.
-/

namespace SignalBridge

open List (Forall₂)
open Text (AllBlank)

namespace Signature

/-- Every bracket is closed, and neither a comma nor a closing bracket stands outside of them. -/
def isWhole : (depth : Nat) → List Char → Bool
  | depth, [] => depth = 0
  | depth, c :: cs =>
    (0 < depth || (c ≠ ',' && !closes c)) && isWhole (depthAfter depth c) cs

/-- What a name is made of: no bracket, no comma and no white space. -/
def isNameChar (c : Char) : Bool :=
  !opens c && !closes c && c ≠ ',' && !Text.isBlank c

/-- Two entries of parameter lists that differ in layout only. -/
inductive RelaidEntry : List Char → List Char → Prop where
  | word {before after before' after' word : List Char}
      (blank : AllBlank before ∧ AllBlank after ∧ AllBlank before' ∧ AllBlank after')
      (whole : isWhole 0 word) :
      RelaidEntry (before ++ (word ++ after)) (before' ++ (word ++ after'))
  | named {before before' name type type' : List Char} {gap gap' : Char}
      (blank : AllBlank before ∧ AllBlank before' ∧ Text.isBlank gap ∧ Text.isBlank gap')
      (isName : name ≠ [] ∧ name.all isNameChar)
      (isType : ¬AllBlank type ∧ ¬AllBlank type')
      (whole : isWhole 0 type ∧ isWhole 0 type') :
      RelaidEntry (before ++ (name ++ gap :: type)) (before' ++ (name ++ gap' :: type'))

/-- Two parameter lists whose entries differ in layout only. -/
inductive RelaidList : List Char → List Char → Prop where
  | last {e e' : List Char} (h : RelaidEntry e e') : RelaidList e e'
  | cons {e e' l l' : List Char} (h : RelaidEntry e e') (hl : RelaidList l l') :
      RelaidList (e ++ ',' :: l) (e' ++ ',' :: l')

section Whole

variable {depth : Nat} {text rest : List Char} {c : Char}

theorem isWhole_append (h : isWhole depth text) (hr : isWhole 0 rest) :
    isWhole depth (text ++ rest) := by
  induction text generalizing depth with
  | nil =>
    obtain rfl : depth = 0 := by simpa [isWhole] using h
    exact hr
  | cons c cs ih =>
    rw [isWhole, Bool.and_eq_true] at h
    rw [List.cons_append, isWhole, h.1, ih h.2]
    rfl

theorem isWhole_plain (h : ∀ c ∈ text, opens c = false ∧ closes c = false ∧ c ≠ ',') :
    isWhole 0 text := by
  induction text with
  | nil => rfl
  | cons c cs ih =>
    obtain ⟨ho, hc, hne⟩ := h c List.mem_cons_self
    rw [isWhole, depthAfter_plain ho hc, ih fun d hd => h d (List.mem_cons_of_mem _ hd)]
    simp [hc, hne]

theorem plain_of_isBlank (h : Text.isBlank c) : opens c = false ∧ closes c = false ∧ c ≠ ',' := by
  have hne (d : Char) (hd : Text.isBlank d = false) : c ≠ d := by
    rintro rfl
    rw [h] at hd
    cases hd
  refine ⟨?_, ?_, hne ',' rfl⟩
  · simp [opens, hne '(' rfl, hne '[' rfl, hne '\x7b' rfl]
  · simp [closes, hne ')' rfl, hne ']' rfl, hne '\x7d' rfl]

theorem isWhole_allBlank (h : AllBlank text) : isWhole 0 text :=
  isWhole_plain fun c hc => plain_of_isBlank (h c hc)

theorem splitList_whole (h : isWhole depth text) (rest : List Char) :
    splitList depth (text ++ rest) = (text ++ (splitList 0 rest).1, (splitList 0 rest).2) := by
  induction text generalizing depth with
  | nil =>
    obtain rfl : depth = 0 := by simpa [isWhole] using h
    rfl
  | cons c cs ih =>
    rw [isWhole, Bool.and_eq_true] at h
    have hc : c ≠ ')' ∨ 0 < depth := by
      by_cases hd : 0 < depth
      · exact .inr hd
      · refine .inl ?_
        rintro rfl
        simp [hd, closes] at h
    rw [List.cons_append, splitList_cons hc, ih h.2]
    rfl

/-- No piece ends inside what is whole. -/
theorem pieces_whole (h : isWhole depth text) (rest : List Char) :
    pieces (· = ',') depth (text ++ rest) = prefixFirst text (pieces (· = ',') 0 rest) := by
  induction text generalizing depth with
  | nil =>
    obtain rfl : depth = 0 := by simpa [isWhole] using h
    exact prefixFirst_nil.symm
  | cons c cs ih =>
    rw [isWhole, Bool.and_eq_true] at h
    have hc : decide (c = ',') = false ∨ 0 < depth := by
      by_cases hd : 0 < depth
      · exact .inr hd
      · refine .inl ?_
        simpa [hd] using And.left (by simpa [hd] using h.1)
    rw [List.cons_append, pieces_cons hc, ih h.2, prefixFirst_append]
    rfl

theorem pieces_whole_comma (h : isWhole 0 text) (rest : List Char) :
    pieces (· = ',') 0 (text ++ ',' :: rest) = text :: pieces (· = ',') 0 rest := by
  rw [pieces_whole h]
  simp [pieces, prefixFirst]

theorem pieces_whole_end (h : isWhole 0 text) : pieces (· = ',') 0 text = [text] := by
  have he := pieces_whole h []
  rw [List.append_nil] at he
  simpa [pieces, prefixFirst] using he

end Whole

section Entries

variable {e e' l l' before name type : List Char} {gap : Char}

theorem plain_of_isNameChar {c : Char} (h : isNameChar c) :
    opens c = false ∧ closes c = false ∧ c ≠ ',' ∧ Text.isBlank c = false := by
  simpa [isNameChar, and_assoc] using h

theorem isWhole_named (hb : AllBlank before) (hn : name.all isNameChar)
    (hg : Text.isBlank gap) (ht : isWhole 0 type) :
    isWhole 0 (before ++ (name ++ gap :: type)) := by
  have hname : isWhole 0 name := isWhole_plain fun c hc => by
    obtain ⟨ho, hcl, hne, -⟩ := plain_of_isNameChar (List.all_eq_true.mp hn c hc)
    exact ⟨ho, hcl, hne⟩
  have hgap : AllBlank [gap] := by simpa [AllBlank] using hg
  exact isWhole_append (isWhole_allBlank hb)
    (isWhole_append hname (isWhole_append (isWhole_allBlank hgap) ht))

theorem RelaidEntry.whole (h : RelaidEntry e e') : isWhole 0 e ∧ isWhole 0 e' := by
  cases h with
  | word blank whole =>
    obtain ⟨hb, ha, hb', ha'⟩ := blank
    exact ⟨isWhole_append (isWhole_allBlank hb) (isWhole_append whole (isWhole_allBlank ha)),
      isWhole_append (isWhole_allBlank hb') (isWhole_append whole (isWhole_allBlank ha'))⟩
  | named blank isName isType whole =>
    obtain ⟨hb, hb', hg, hg'⟩ := blank
    exact ⟨isWhole_named hb isName.2 hg whole.1, isWhole_named hb' isName.2 hg' whole.2⟩

/-- A named entry keeps its name and something of its type. -/
theorem exists_trim_named (hb : AllBlank before) (hn : name ≠ [] ∧ name.all isNameChar)
    (ht : ¬AllBlank type) :
    ∃ rest, Text.trim (before ++ (name ++ gap :: type)) = name ++ gap :: rest := by
  obtain ⟨c, cs, rfl⟩ := List.exists_cons_of_ne_nil hn.1
  have hc := (plain_of_isNameChar (List.all_eq_true.mp hn.2 c List.mem_cons_self)).2.2.2
  obtain ⟨start, d, rest, -, hd, rfl⟩ := (Text.allBlank_or_split type).resolve_left ht
  refine ⟨start ++ d :: Text.trimEnd rest, ?_⟩
  rw [Text.trim, Text.trimStart_append hb, List.cons_append, Text.trimStart_cons hc]
  have := Text.trimEnd_append_cons hd (c :: cs ++ gap :: start) rest
  simpa using this

theorem ofText_gap (hn : name.all isNameChar) (hg : Text.isBlank gap) (type : List Char) :
    Entry.ofText (name ++ gap :: type) =
      .named (String.ofList name) (String.ofList (Text.trim type)) := by
  have hplain : ∀ c ∈ name, opens c = false ∧ closes c = false ∧ Text.isBlank c = false := by
    intro c hc
    obtain ⟨ho, hcl, -, hb⟩ := plain_of_isNameChar (List.all_eq_true.mp hn c hc)
    exact ⟨ho, hcl, hb⟩
  rw [Entry.ofText, splitBlank?_plain hg hplain]

/-- Entries that say the same of the parameter's name. -/
inductive Entry.SameName : Entry → Entry → Prop where
  | named (name type type' : String) : SameName (.named name type) (.named name type')
  | single (word : String) : SameName (.single word) (.single word)

theorem Entry.SameName.refl (e : Entry) : Entry.SameName e e := by
  cases e with
  | named name type => exact .named name type type
  | single word => exact .single word

/-- Trimmed, both entries are empty, or neither is and both say the same of the name. -/
theorem RelaidEntry.trim (h : RelaidEntry e e') :
    (Text.trim e = [] ∧ Text.trim e' = []) ∨ (Text.trim e ≠ [] ∧ Text.trim e' ≠ [] ∧
      Entry.SameName (Entry.ofText (Text.trim e)) (Entry.ofText (Text.trim e'))) := by
  cases h with
  | @word _ _ _ _ word blank whole =>
    obtain ⟨hb, ha, hb', ha'⟩ := blank
    rw [Text.trim_append hb ha, Text.trim_append hb' ha']
    by_cases hw : Text.trim word = []
    · exact .inl ⟨hw, hw⟩
    · exact .inr ⟨hw, hw, .refl _⟩
  | named blank isName isType whole =>
    obtain ⟨hb, hb', hg, hg'⟩ := blank
    obtain ⟨rest, he⟩ := exists_trim_named hb isName isType.1
    obtain ⟨rest', he'⟩ := exists_trim_named hb' isName isType.2
    rw [he, he', ofText_gap isName.2 hg, ofText_gap isName.2 hg']
    exact .inr ⟨by simp, by simp, .named ..⟩

theorem RelaidList.pieces (h : RelaidList l l') :
    Forall₂ RelaidEntry (pieces (· = ',') 0 l) (pieces (· = ',') 0 l') := by
  induction h with
  | last h =>
    rw [pieces_whole_end h.whole.1, pieces_whole_end h.whole.2]
    exact .cons h .nil
  | cons h _ ih =>
    rw [pieces_whole_comma h.whole.1, pieces_whole_comma h.whole.2]
    exact .cons h ih

theorem splitList_comma (text : List Char) : splitList 0 (',' :: text) =
    (',' :: (splitList 0 text).1, (splitList 0 text).2) :=
  splitList_cons (.inl (by decide))

/-- The lists end at the first closing parenthesis behind them. -/
theorem RelaidList.splitList (h : RelaidList l l') (rest rest' : List Char) :
    splitList 0 (l ++ ')' :: rest) = (l, some rest) ∧
      splitList 0 (l' ++ ')' :: rest') = (l', some rest') := by
  have hend (e rest : List Char) (he : isWhole 0 e) :
      Signature.splitList 0 (e ++ ')' :: rest) = (e, some rest) := by
    rw [splitList_whole he]
    simp [Signature.splitList]
  induction h with
  | last h => exact ⟨hend _ _ h.whole.1, hend _ _ h.whole.2⟩
  | cons h _ ih =>
    rw [List.append_assoc, List.append_assoc, splitList_whole h.whole.1,
      splitList_whole h.whole.2, List.cons_append, List.cons_append, splitList_comma,
      splitList_comma, ih.1, ih.2]
    exact ⟨rfl, rfl⟩

theorem sameName_readList (h : RelaidList l l') :
    Forall₂ Entry.SameName (Entry.readList l) (Entry.readList l') := by
  unfold Entry.readList
  have hp := h.pieces
  generalize Signature.pieces (· = ',') 0 l = ps, Signature.pieces (· = ',') 0 l' = ps' at hp
  induction hp with
  | nil => exact .nil
  | cons he _ ih =>
    rw [List.map_cons, List.map_cons]
    rcases he.trim with ⟨hn, hn'⟩ | ⟨hn, hn', hname⟩
    · simpa [hn, hn'] using ih
    · rw [List.filter_cons_of_pos (by simp [hn]), List.filter_cons_of_pos (by simp [hn'])]
      exact .cons hname ih

/-- Names depend on the words of the entries, and on which of them are types. -/
theorem names_resolve {r r' : Registry} {es es' : List Entry}
    (hr : ∀ type, (r.nativeType type).isKnown = (r'.nativeType type).isKnown)
    (h : Forall₂ Entry.SameName es es') :
    (resolve r es).map Parameter.name = (resolve r' es').map Parameter.name := by
  have hfrom : ∀ i, (resolveFrom r i es).1.map Parameter.name =
      (resolveFrom r' i es').1.map Parameter.name ∧
      (resolveFrom r i es).2.isSome = (resolveFrom r' i es').2.isSome := by
    induction h with
    | nil => exact fun i => ⟨rfl, rfl⟩
    | cons he _ ih =>
      intro i
      obtain ⟨hnames, hshared⟩ := ih (i + 1)
      cases he with
      | named name type type' => exact ⟨by simp [resolveFrom, hnames], rfl⟩
      | single word =>
        simp only [resolveFrom]
        generalize resolveFrom r (i + 1) _ = p, resolveFrom r' (i + 1) _ = p' at hnames hshared
        obtain ⟨parameters, shared⟩ := p
        obtain ⟨parameters', shared'⟩ := p'
        cases shared with
        | none =>
          cases shared' with
          | none => exact ⟨congrArg (_ :: ·) hnames, rfl⟩
          | some _ => cases hshared
        | some _ =>
          cases shared' with
          | none => cases hshared
          | some _ =>
            rw [hr word]
            cases (r'.nativeType word).isKnown <;> simpa using hnames
  exact (hfrom 0).1

end Entries

end Signature

section Types

variable {t t' : String} {gap l rest name : List Char}

/-- Two types of fields that declare parameters by the same names: texts without a parameter list,
or lists that differ in layout only. What follows a list is of no matter. -/
inductive RelaidType : String → String → Prop where
  | same (t : String) : RelaidType t t
  | noList {t t' : String} (h : Signature.ofType? t = none) (h' : Signature.ofType? t' = none) :
      RelaidType t t'
  | list {keyword gap gap' l l' rest rest' : List Char}
      (isFunc : keyword = "func".toList ∨ keyword = []) (blank : AllBlank gap ∧ AllBlank gap')
      (relaid : Signature.RelaidList l l') :
      RelaidType (String.ofList (keyword ++ (gap ++ '(' :: (l ++ ')' :: rest))))
        (String.ofList (keyword ++ (gap' ++ '(' :: (l' ++ ')' :: rest'))))

/-- Two embedded types of one name: what stands before the last dot, and the white space behind a
star, are of no matter. -/
inductive RelaidBase : String → String → Prop where
  | same (t : String) : RelaidBase t t
  | qualified {before before' name : List Char} (noDot : '.' ∉ name) :
      RelaidBase (String.ofList (before ++ '.' :: name)) (String.ofList (before' ++ '.' :: name))
  | pointer {gap gap' name : List Char} (blank : AllBlank gap ∧ AllBlank gap') :
      RelaidBase (String.ofList ('*' :: (gap ++ name))) (String.ofList ('*' :: (gap' ++ name)))

theorem entries_ofType? {keyword : List Char} (hk : keyword = "func".toList ∨ keyword = [])
    (hg : AllBlank gap)
    (hl : ∀ rest, Signature.splitList 0 (l ++ ')' :: rest) = (l, some rest)) :
    (Signature.ofType? (String.ofList (keyword ++ (gap ++ '(' :: (l ++ ')' :: rest))))).map
      Signature.entries = some (Signature.Entry.readList l) := by
  have hclose (before : List Char) : Text.trimEnd (before ++ (l ++ ')' :: rest)) =
      before ++ (l ++ ')' :: Text.trimEnd rest) := by
    simpa using Text.trimEnd_append_cons rfl (before ++ l) rest
  have hopen (cs : List Char) : Text.trimStart (gap ++ '(' :: cs) = '(' :: cs := by
    rw [Text.trimStart_append hg, Text.trimStart_cons rfl]
  have hstripped : Text.trimStart (Signature.dropFunc
      (Text.trim (keyword ++ (gap ++ '(' :: (l ++ ')' :: rest))))) =
      '(' :: (l ++ ')' :: Text.trimEnd rest) := by
    rcases hk with rfl | rfl
    · have hstart (cs : List Char) : Text.trimStart ("func".toList ++ cs) = "func".toList ++ cs :=
        Text.trimStart_cons rfl _
      have hend := hclose ("func".toList ++ (gap ++ ['(']))
      simp only [List.append_assoc, List.singleton_append] at hend
      rw [Text.trim, hstart, hend, Signature.dropFunc, Text.dropWord?_append, Option.getD_some,
        hopen]
    · have hfunc (cs : List Char) : Signature.dropFunc ('(' :: cs) = '(' :: cs := rfl
      have hend := hclose ['(']
      rw [List.nil_append, Text.trim, hopen, ← List.singleton_append, hend, List.singleton_append,
        hfunc, Text.trimStart_cons rfl]
  rw [Signature.ofType?, String.toList_ofList, hstripped]
  simp only [hl, Option.map_some]

theorem names_of_relaid {r r' : Registry} (h : RelaidType t t')
    (hr : ∀ type, (r.nativeType type).isKnown = (r'.nativeType type).isKnown) :
    (Signature.resolve r (((Signature.ofType? t).map Signature.entries).getD [])).map
        Parameter.name =
      (Signature.resolve r' (((Signature.ofType? t').map Signature.entries).getD [])).map
        Parameter.name := by
  apply Signature.names_resolve hr
  cases h with
  | same => exact List.forall₂_same.mpr fun e _ => .refl e
  | noList h h' =>
    rw [h, h']
    exact .nil
  | list isFunc blank relaid =>
    rw [entries_ofType? isFunc blank.1 fun rest => (relaid.splitList rest []).1,
      entries_ofType? isFunc blank.2 fun rest => (relaid.splitList [] rest).2]
    exact Signature.sameName_readList relaid

theorem exists_dropStar (before : List Char) (name : List Char) :
    ∃ before', dropStar (before ++ '.' :: name) = before' ++ '.' :: name := by
  cases before with
  | nil => exact ⟨[], rfl⟩
  | cons c cs =>
    by_cases hc : c = '*'
    · subst hc
      exact ⟨cs, rfl⟩
    · refine ⟨c :: cs, ?_⟩
      unfold dropStar
      split
      · rename_i h
        exact absurd (List.cons.inj h).1 hc
      · rfl

theorem embeddedName_qualified (before : List Char) (h : '.' ∉ name) :
    embeddedName (String.ofList (before ++ '.' :: name)) = String.ofList (Text.trimEnd name) := by
  have hname : '.' ∉ Text.trimEnd name := fun hm => h (by
    rw [Text.trimEnd_eq, List.mem_reverse] at hm
    exact List.mem_reverse.mp ((List.dropWhile_sublist _).mem hm))
  have htrim : Text.trim (before ++ '.' :: name) =
      Text.trimStart before ++ '.' :: Text.trimEnd name := by
    rw [Text.trim, Text.trimStart_append_cons rfl, Text.trimEnd_append_cons rfl]
  obtain ⟨before', hd⟩ := exists_dropStar (Text.trimStart before) (Text.trimEnd name)
  rw [embeddedName, String.toList_ofList, htrim, hd, Text.trimStart_append_cons rfl,
    Text.afterLast_append _ hname]

theorem embeddedName_pointer (hg : AllBlank gap) (name : List Char) :
    embeddedName (String.ofList ('*' :: (gap ++ name))) =
      String.ofList (Text.afterLast '.' (Text.trim name)) := by
  have htrim : Text.trim ('*' :: (gap ++ name)) = '*' :: Text.trimEnd (gap ++ name) := by
    rw [Text.trim, Text.trimStart_cons rfl]
    exact Text.trimEnd_append_cons rfl [] (gap ++ name)
  have hgap := Text.trim_append hg (fun _ h => absurd h List.not_mem_nil) name
  rw [List.append_nil] at hgap
  rw [embeddedName, String.toList_ofList, htrim, dropStar, Text.trimStart_trimEnd, hgap]

theorem embeddedName_of_relaid (h : RelaidBase t t') : embeddedName t = embeddedName t' := by
  cases h with
  | same => rfl
  | qualified noDot => rw [embeddedName_qualified _ noDot, embeddedName_qualified _ noDot]
  | pointer blank => rw [embeddedName_pointer blank.1, embeddedName_pointer blank.2]

end Types

end SignalBridge
