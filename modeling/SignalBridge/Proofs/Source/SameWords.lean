import SignalBridge.Proofs.Source.Slice

namespace SignalBridge.Source

open List (Forall₂)

/-- Fields that say the same; the texts of their types may be laid out differently. -/
structure SameField (f f' : Field) : Prop where
  names : f.names = f'.names
  tag : f.tag = f'.tag
  isEmbedded : f.isEmbedded = f'.isEmbedded
  typeText : ∃ ts us, tokenize f.typeText = .ok ts ∧ tokenize f'.typeText = .ok us ∧
    Forall₂ SameWord ts us

inductive SameBody : TypeBody → TypeBody → Prop where
  | struct {fs fs' : List Field} (h : Forall₂ SameField fs fs') :
      SameBody (.struct fs) (.struct fs')
  | other : SameBody .other .other

structure SameDecl (d d' : TypeDecl) : Prop where
  name : d.name = d'.name
  body : SameBody d.body d'.body

/-- The same word, which stands in both lists at one index. -/
def Paired (ts us : List Token) (t u : Token) : Prop :=
  SameWord t u ∧ ∃ (i : Nat) (v w : Token), ts[i]? = some v ∧ us[i]? = some w ∧ t.Same v ∧ u.Same w

section Pairs

variable {ts us xs ys : List Token} {t t' u u' v w : Token} {i j : Nat} {s s' : Span}

theorem Paired.same (h : Paired ts us t u) (ht : t'.Same t) (hu : u'.Same u) :
    Paired ts us t' u' := by
  obtain ⟨hword, i, v, w, hv, hw, htv, huw⟩ := h
  exact ⟨(ht.sameWord.trans hword).trans hu.sameWord.symm, i, v, w, hv, hw, ht.trans htv,
    hu.trans huw⟩

theorem forall₂_paired (h : Forall₂ SameWord ts us) : Forall₂ (Paired ts us) ts us := by
  rw [List.forall₂_iff_get] at h ⊢
  refine ⟨h.1, fun i hi hj => ⟨h.2 i hi hj, i, _, _, ?_, ?_, ⟨rfl, rfl, rfl⟩, ⟨rfl, rfl, rfl⟩⟩⟩
  · exact List.getElem?_eq_getElem hi
  · exact List.getElem?_eq_getElem hj

theorem indistinct_paired (ts us : List Token) : Indistinct (Paired ts us) where
  kind h := h.1.1
  text h := h.1.2
  joinLines := forall₂_joinLines (fun h => h.1.1) Paired.same

/-- Tokens in order start in order, and stop in order. -/
theorem Ordered.le_iff (h : Ordered ts) (hv : ts[i]? = some v) (hw : ts[j]? = some w) :
    (v.start ≤ w.start ↔ i ≤ j) ∧ (v.stop ≤ w.stop ↔ i ≤ j) := by
  obtain ⟨hi, rfl⟩ := List.getElem?_eq_some_iff.mp hv
  obtain ⟨hj, rfl⟩ := List.getElem?_eq_some_iff.mp hw
  have hlt := List.pairwise_iff_getElem.mp h.order
  have hroom := h.room _ (List.getElem_mem hi)
  have hroom' := h.room _ (List.getElem_mem hj)
  rcases Nat.lt_trichotomy i j with hij | rfl | hij
  · have := hlt i j hi hj hij
    omega
  · simp
  · have := hlt j i hj hi hij
    omega

/-- Between tokens of the same indices stand tokens of the same indices. -/
theorem paired_tokensIn (ho : Ordered ts) (ho' : Ordered us) (h : Forall₂ SameWord ts us)
    (hs : AlikeSpans (Paired ts us) s s') :
    Forall₂ (Paired ts us) (tokensIn s ts) (tokensIn s' us) := by
  refine List.rel_filter ?_ (forall₂_paired h)
  -- A token lies in the stretch by where it starts and stops, and that goes by its index.
  rintro t u ⟨-, k, v, w, hv, hw, htv, huw⟩
  obtain ⟨a, a', b, b', ⟨-, i, x, y, hx, hy, hax, hay⟩, ⟨-, j, p, q, hp, hq, hbp, hbq⟩,
    rfl, rfl⟩ := hs
  have hfirst := (ho.le_iff hx hv).1.trans (ho'.le_iff hy hw).1.symm
  have hlast := (ho.le_iff hv hp).2.trans (ho'.le_iff hw hq).2.symm
  simp only [Bool.and_eq_true, decide_eq_true_eq, hax.start, hay.start, hbp.stop, hbq.stop,
    htv.start, htv.stop, huw.start, huw.stop]
  exact and_congr hfirst hlast

theorem paired_wordsIn (ho : Ordered ts) (ho' : Ordered us) (h : Forall₂ SameWord ts us)
    (hs : AlikeSpans (Paired ts us) s s') :
    Forall₂ (Paired ts us) (wordsIn s ts) (wordsIn s' us) := by
  refine List.rel_filter ?_ (paired_tokensIn ho ho' h hs)
  intro t u htu
  simp only [Token.isWord, htu.1.1]

end Pairs

section Fields

variable {ts us words names type words' names' type' : List Token} {tag tag' : Option Token}
  {R : Token → Token → Prop} {s s' : Span}

/-- As many names as commas and one more, or none. -/
theorem NameList.length_eq (h : NameList words names) : words.length = 2 * names.length - 1 := by
  induction h with
  | none => rfl
  | one _ => rfl
  | @more _ _ _ _ names _ _ hlist ih =>
    have : 0 < names.length := by
      cases hlist <;> exact Nat.zero_lt_succ _
    rw [List.length_cons, List.length_cons, ih, List.length_cons]
    omega

/-- Related tokens are divided into names, type and tag at the same places. -/
theorem FieldParts.related (h : FieldParts ts words names type tag)
    (h' : FieldParts us words' names' type' tag') (hs : Forall₂ R ts us)
    (hnames : names.length = names'.length) (htag : tag.isSome = tag'.isSome) :
    Forall₂ R type type' := by
  rw [h.parts, h'.parts] at hs
  obtain ⟨as, bs, he, has, hbs⟩ := forall₂_append_left hs
  have hlen : as.length = words'.length := by
    rw [← has.length_eq, h.list.length_eq, h'.list.length_eq, hnames]
  obtain ⟨rfl, rfl⟩ := List.append_inj he.symm hlen
  obtain ⟨cs, ds, he', hcs, hds⟩ := forall₂_append_left hbs
  have hlen' : ds.length = tag'.toList.length := by
    rw [← hds.length_eq]
    cases tag <;> cases tag' <;> simp_all
  obtain ⟨rfl, -⟩ := List.append_inj' he'.symm hlen'
  exact hcs

theorem alikeSpans_of_spans (h : Forall₂ R ts us) (hs : Spans s ts) (hs' : Spans s' us) :
    AlikeSpans R s s' := by
  obtain ⟨first, hfirst, last, hlast, rfl⟩ := hs
  obtain ⟨first', hfirst', last', hlast', rfl⟩ := hs'
  have hhead := rel_head? h
  have hback := rel_getLast? h
  rw [Option.mem_def.mp hfirst, Option.mem_def.mp hfirst', Option.rel_some_some] at hhead
  rw [Option.mem_def.mp hlast, Option.mem_def.mp hlast', Option.rel_some_some] at hback
  exact ⟨_, _, _, _, hhead, hback, rfl, rfl⟩

theorem FieldParts.type_sublist (h : FieldParts words ts names type tag) : type.Sublist words := by
  rw [h.parts]
  exact sublist_run _ _ _

end Fields

theorem forall₂_imp_of_mem {α β : Type} {R S : α → β → Prop} {xs : List α} {ys : List β}
    (h : Forall₂ R xs ys) (himp : ∀ x ∈ xs, ∀ y ∈ ys, R x y → S x y) : Forall₂ S xs ys := by
  induction h with
  | nil => exact .nil
  | cons h _ ih =>
    exact .cons (himp _ List.mem_cons_self _ List.mem_cons_self h)
      (ih fun x hx y hy => himp x (List.mem_cons_of_mem _ hx) y (List.mem_cons_of_mem _ hy))

section Scans

variable {a b : String} {ts us : List Token} {f f' : Field} {d d' : TypeDecl}

/-- Corresponding fields of two sources of the same words say the same. -/
theorem sameField_of_alike (ha : tokenize a = .ok ts) (hb : tokenize b = .ok us)
    (hs : Forall₂ SameWord ts us) (hf : FieldPlaced a.toList ts f)
    (hf' : FieldPlaced b.toList us f') (h : AlikeFields (Paired ts us) f f') : SameField f f' := by
  have ho := ordered_of_tokenize ha
  have ho' := ordered_of_tokenize hb
  obtain ⟨words, names, type, tag, hparts, hnames, ⟨span, hspan, htext, -⟩, htag⟩ := hf.parts
  obtain ⟨words', names', type', tag', hparts', hnames', ⟨span', hspan', htext', -⟩, htag'⟩ :=
    hf'.parts
  have hlength : names.length = names'.length := by
    have := congrArg List.length (hnames.symm.trans (h.names.trans hnames'))
    simpa using this
  have hsome : tag.isSome = tag'.isSome := by
    have := congrArg Option.isSome (htag.symm.trans (h.tag.trans htag'))
    simpa using this
  have htype := hparts.related hparts' (paired_wordsIn ho ho' hs h.span) hlength hsome
  have htokens := paired_tokensIn ho ho' hs (alikeSpans_of_spans htype hspan hspan')
  obtain ⟨vs, hvs, hsame⟩ := tokenize_between ha hspan
    (hparts.type_sublist.trans (wordsIn_sublist _ _)) htext
  obtain ⟨vs', hvs', hsame'⟩ := tokenize_between hb hspan'
    (hparts'.type_sublist.trans (wordsIn_sublist _ _)) htext'
  rw [String.ofList_toList] at hvs hvs'
  have hmiddle : Forall₂ SameWord (tokensIn span ts) (tokensIn span' us) :=
    htokens.imp fun _ _ h => h.1
  exact ⟨h.names, h.tag, by rw [Field.isEmbedded, Field.isEmbedded, h.names], vs, vs', hvs, hvs',
    sameWords_trans (sameWords_symm hsame) (sameWords_trans hmiddle hsame')⟩

theorem sameDecl_of_alike (ha : tokenize a = .ok ts) (hb : tokenize b = .ok us)
    (hs : Forall₂ SameWord ts us) (hd : DeclPlaced a.toList ts d)
    (hd' : DeclPlaced b.toList us d') (h : AlikeDecls (Paired ts us) d d') : SameDecl d d' := by
  refine ⟨h.name, ?_⟩
  have hfields := hd.fields
  have hfields' := hd'.fields
  have hbody := h.body
  unfold TypeDecl.fields at hfields hfields'
  generalize d.body = body at hfields hbody
  generalize d'.body = body' at hfields' hbody
  cases hbody with
  | other => exact .other
  | struct hall =>
    refine .struct (forall₂_imp_of_mem hall fun f hf f' hf' h => ?_)
    exact sameField_of_alike ha hb hs (hfields f hf) (hfields' f' hf') h

end Scans

/-- Outcomes that say the same: faults that expect the same and find the same, or the same package
and declarations that say the same. -/
inductive SameScan : Except ScanError SourceFile → Except ScanError SourceFile → Prop where
  | refused {p q : Position} {fault fault' : SyntaxFault}
      (expected : fault.expected = fault'.expected) (found : fault.foundText = fault'.foundText) :
      SameScan (.error (.syntactic p fault)) (.error (.syntactic q fault'))
  | declared {file file' : SourceFile} (package : file.package = file'.package)
      (types : Forall₂ SameDecl file.types file'.types) : SameScan (.ok file) (.ok file')

theorem foundText_of_paired {ts us : List Token} {fault fault' : SyntaxFault}
    (h : AlikeFaults (Paired ts us) fault fault') : fault.foundText = fault'.foundText := by
  have hfound := h.found
  unfold SyntaxFault.foundText
  generalize fault.found = found at hfound
  generalize fault'.found = found' at hfound
  cases hfound with
  | none => rfl
  | @some t u htu =>
    obtain ⟨hkind, htext⟩ := htu.1
    simp only [Token.describe, ← hkind]
    split
    · rfl
    · rename_i hk
      rw [htext hk]

theorem ofSyntaxFault_eq (source : List Char) (fault : SyntaxFault) :
    ∃ p, ScanError.ofSyntaxFault source fault = .syntactic p fault := by
  unfold ScanError.ofSyntaxFault
  split <;> exact ⟨_, rfl⟩

/-- Sources of the same words, whatever is between the words and however the lines are broken, are
refused for the same reason or declare the same. The text of the type of a field may be laid out
differently; it tokenizes for both, to the same words. -/
theorem scan_sameWords {a b : String} {ts us : List Token} (ha : tokenize a = .ok ts)
    (hb : tokenize b = .ok us) (h : Forall₂ SameWord ts us) : SameScan (scan a) (scan b) := by
  have hfits : Fits (AlikeFaults (Paired ts us)) (AlikeFiles (Paired ts us))
      (SourceFile.ofTokens ts) (SourceFile.ofTokens us) :=
    alike_declarations (indistinct_paired ts us) none [] (forall₂_paired h)
  rw [scan_of_tokenize ha, scan_of_tokenize hb]
  cases hr : SourceFile.ofTokens ts with
  | error fault =>
    rw [hr] at hfits
    generalize SourceFile.ofTokens us = outcome at hfits
    cases hfits with
    | error hfault =>
      obtain ⟨p, hp⟩ := ofSyntaxFault_eq a.toList fault
      obtain ⟨q, hq⟩ := ofSyntaxFault_eq b.toList _
      rw [Except.mapError, Except.mapError, hp, hq]
      exact .refused hfault.expected (foundText_of_paired hfault)
  | ok file =>
    rw [hr] at hfits
    cases hr' : SourceFile.ofTokens us with
    | error fault' =>
      rw [hr'] at hfits
      cases hfits
    | ok file' =>
      rw [hr'] at hfits
      cases hfits with
      | ok hfile =>
        have hplaced := placed_of_ofTokens ha hr
        have hplaced' := placed_of_ofTokens hb hr'
        refine .declared hfile.package (forall₂_imp_of_mem hfile.types fun d hd d' hd' h' => ?_)
        exact sameDecl_of_alike ha hb h (hplaced d hd) (hplaced' d' hd') h'

/-- A struct with two fields of one type, which takes several lines. -/
def pairSource : String :=
  "package grid\ntype Pair struct \x7b\n\tleft, right func(\n\t\tk K) int" ++
    " \x60signal:\"moved\"\x60\n\x7d\n"

/-- The struct with comments and white space; two of its lines end inside a comment. -/
def widePairSource : String :=
  "package grid/* the\ngrid */type Pair struct \x7b/*\n*/ left ,right func (// größer\n k K )" ++
    "/* é */ int \x60signal:\"moved\"\x60 // last\n\x7d// of all\n"

def pairFile (typeText : String) (span field : Span) : SourceFile :=
  ⟨some "grid", [⟨"Pair", .struct [⟨["left", "right"], typeText,
    some "\x60signal:\"moved\"\x60", field⟩], span⟩]⟩

theorem scan_sameWords_pair :
    scan pairSource = .ok (pairFile "func(\n\t\tk K) int" ⟨18, 80⟩ ⟨33, 78⟩) ∧
    scan widePairSource =
      .ok (pairFile "func (// größer\n k K )/* é */ int" ⟨31, 125⟩ ⟨50, 115⟩) ∧
    SameScan (scan pairSource) (scan widePairSource) := by
  have hwords : (tokenize pairSource).toOption.any fun ts =>
      (tokenize widePairSource).toOption.any fun us => Forall₂ SameWord ts us := by
    decide +kernel
  obtain ⟨ts, ha, hwords⟩ := exists_ok_of_any hwords
  obtain ⟨us, hb, hwords⟩ := exists_ok_of_any hwords
  exact ⟨by decide +kernel, by decide +kernel,
    scan_sameWords ha hb (of_decide_eq_true hwords)⟩

end SignalBridge.Source
