import Mathlib.Data.List.Infix
import Mathlib.Data.Option.Basic
import SignalBridge.Proofs.Member.Brackets
import SignalBridge.Proofs.Member.ParameterList
import SignalBridge.Proofs.Source.Lookahead

namespace SignalBridge

open Text (AllBlank)

namespace Marker

variable {text rest word name : List Char} {c : Char}

def IsWord (word : List Char) : Prop :=
  word = signalWord ∨ word = slotWord

/-- What follows the first of the two words in a text. -/
def FollowsWord (text rest : List Char) : Prop :=
  ∃ before word, IsWord word ∧ text = before ++ (word ++ rest) ∧
    ∀ before' word' rest', IsWord word' → text = before' ++ (word' ++ rest') →
      before.length ≤ before'.length

/-- The name in a tag: what follows the first word, up to a colon, white space or the end. -/
def Names (tag name : List Char) : Prop :=
  ∃ tail, FollowsWord tag (name ++ tail) ∧ (∀ c ∈ name, c ≠ ':' ∧ Text.isBlank c = false) ∧
    ∀ c ∈ tail.head?, c = ':' ∨ Text.isBlank c

section Words

/-- The two words have no beginning in common, so what follows is the same for every word that
stands there. -/
theorem dropWord?_or_eq_some : (Text.dropWord? signalWord text).or (Text.dropWord? slotWord text) =
    some rest ↔ ∃ word, IsWord word ∧ text = word ++ rest := by
  constructor
  · intro h
    rcases Option.or_eq_some_iff.mp h with h | ⟨-, h⟩
    · exact ⟨_, .inl rfl, Text.eq_append_of_dropWord? h⟩
    · exact ⟨_, .inr rfl, Text.eq_append_of_dropWord? h⟩
  · rintro ⟨word, rfl | rfl, rfl⟩
    · rw [Text.dropWord?_append, Option.some_or]
    · have hsignal : Text.dropWord? signalWord (slotWord ++ rest) = none := rfl
      rw [hsignal, Text.dropWord?_append, Option.none_or]

theorem IsWord.ne_nil (h : IsWord word) : word ≠ [] := by
  rcases h with rfl | rfl <;> decide

theorem not_followsWord_nil : ¬FollowsWord [] rest := by
  rintro ⟨before, word, hw, ht, -⟩
  simp [hw.ne_nil] at ht

/-- A word at the front is the first. -/
theorem followsWord_front {front : List Char} (hw : IsWord word) (h : text = word ++ front) :
    FollowsWord text rest ↔ front = rest := by
  constructor
  · rintro ⟨before, word', hw', ht, hfirst⟩
    have hlength := hfirst [] word front hw h
    obtain rfl : before = [] := List.length_eq_zero_iff.mp (Nat.le_zero.mp hlength)
    have hfront := dropWord?_or_eq_some.mpr ⟨word, hw, h⟩
    have hrest := dropWord?_or_eq_some.mpr ⟨word', hw', ht⟩
    exact Option.some.inj (hfront.symm.trans hrest)
  · rintro rfl
    exact ⟨[], word, hw, h, fun _ _ _ _ _ => Nat.zero_le _⟩

theorem followsWord_cons (h : ∀ word rest, IsWord word → c :: text ≠ word ++ rest) :
    FollowsWord (c :: text) rest ↔ FollowsWord text rest := by
  constructor
  · rintro ⟨before, word, hw, ht, hfirst⟩
    cases before with
    | nil => exact absurd ht (h word rest hw)
    | cons d before =>
      refine ⟨before, word, hw, (List.cons.inj ht).2, ?_⟩
      rintro before' word' rest' hw' rfl
      simpa using hfirst (c :: before') word' rest' hw' rfl
  · rintro ⟨before, word, hw, rfl, hfirst⟩
    refine ⟨c :: before, word, hw, rfl, ?_⟩
    intro before' word' rest' hw' ht
    cases before' with
    | nil => exact absurd ht (h word' rest' hw')
    | cons d before' => simpa using hfirst before' word' rest' hw' (List.cons.inj ht).2

theorem afterWord?_eq_some_iff : afterWord? text = some rest ↔ FollowsWord text rest := by
  induction text with
  | nil => simp [afterWord?, not_followsWord_nil]
  | cons c cs ih =>
    rw [afterWord?]
    split
    case h_1 front hfront =>
      obtain ⟨word, hw, ht⟩ := dropWord?_or_eq_some.mp hfront
      rw [followsWord_front hw ht, Option.some.injEq]
    case h_2 hnone =>
      rw [ih, followsWord_cons]
      intro word rest hw ht
      rw [dropWord?_or_eq_some.mpr ⟨word, hw, ht⟩] at hnone
      cases hnone

end Words

section Tags

variable {tag : String} {marker : Marker}

theorem isNamePart_iff : isNamePart c ↔ c ≠ ':' ∧ Text.isBlank c = false := by
  simp [isNamePart]

theorem isNamePart_eq_false : isNamePart c = false ↔ c = ':' ∨ Text.isBlank c := by
  simp [isNamePart, or_iff_not_imp_left]

theorem names_iff : Names text name ↔
    ∃ rest, afterWord? text = some rest ∧ rest.takeWhile isNamePart = name := by
  simp only [Names, ← isNamePart_iff, ← isNamePart_eq_false, afterWord?_eq_some_iff]
  constructor
  · rintro ⟨tail, hfollows, hname, htail⟩
    exact ⟨_, hfollows, (Source.takeWhile_append_of_head hname htail).1⟩
  · rintro ⟨rest, hfollows, rfl⟩
    have hsplit := List.takeWhile_append_dropWhile (p := isNamePart) (l := rest)
    refine ⟨rest.dropWhile isNamePart, by rwa [hsplit], ?_⟩
    exact Source.split_of_takeWhile (by rw [hsplit])

/-- A tag gives one name at most. -/
theorem Names.unique {name' : List Char} (h : Names text name) (h' : Names text name') :
    name = name' := by
  obtain ⟨rest, hrest, rfl⟩ := names_iff.mp h
  obtain ⟨rest', hrest', rfl⟩ := names_iff.mp h'
  rw [Option.some.inj (hrest.symm.trans hrest')]

theorem ofTag?_eq_some_iff : ofTag? tag = some marker ↔ Names tag.toList marker.name.toList ∧
    marker.category = if slotWord <:+: tag.toList then .slot else .signal := by
  obtain ⟨category, name⟩ := marker
  simp only [ofTag?, names_iff, Option.map_eq_some_iff, Marker.mk.injEq, ← Text.occurs_iff]
  constructor
  · rintro ⟨rest, hrest, rfl, rfl⟩
    exact ⟨⟨rest, hrest, by rw [String.toList_ofList]⟩, rfl⟩
  · rintro ⟨⟨rest, hrest, hname⟩, rfl⟩
    exact ⟨rest, hrest, rfl, by rw [hname, String.ofList_toList]⟩

end Tags

end Marker

open Signature (Entry HasList Pieces resultText)

/-- The member of a field with this tag and type, clause by clause. -/
structure DeclaresMember (r : Registry) (owner tag typeText : String) (m : Member) : Prop where
  name : Marker.Names tag.toList m.name.toList
  isIdentifier : isIdentifier m.name.toList
  fullName : m.fullName = owner ++ "::" ++ m.name
  /-- The word of a slot may stand anywhere in the tag. -/
  category : m.category = if Marker.slotWord <:+: tag.toList then .slot else .signal
  returnType : m.returnType = "void"
  virtuality : m.virtuality = .nonvirtual
  /-- A parameter for each piece of the list with more than white space, and for a slot the result
  behind the list. -/
  list : ∀ list after, HasList typeText.toList list after → ∃ ps, Pieces [] list ps ∧
    let entries := (ps.filter (¬AllBlank ·)).map fun piece => Entry.ofText (Text.trim piece)
    m.parameters.length = (ps.filter (¬AllBlank ·)).length ∧
    (∀ i : Nat, m.parameters[i]? =
      entries[i]?.map (·.parameter r i (Signature.sharedType (entries.drop (i + 1))))) ∧
    m.hostReturn = if m.category = .slot then resultText after else none
  noList : (∀ list after, ¬HasList typeText.toList list after) →
    m.parameters = [] ∧ m.hostReturn = none

section Declaring

variable {r : Registry} {owner tag typeText : String} {m m' : Member}

theorem declares_of_fieldMember? (h : r.fieldMember? owner tag typeText = some m) :
    DeclaresMember r owner tag typeText m := by
  obtain ⟨marker, hmarker, h⟩ := Option.bind_eq_some_iff.mp h
  obtain ⟨_, hguard, h⟩ := Option.bind_eq_some_iff.mp h
  obtain rfl := Option.some.inj h
  have hi : isIdentifier marker.name.toList := (Option.guard_eq_some' _).mp hguard
  obtain ⟨hname, hcategory⟩ := Marker.ofTag?_eq_some_iff.mp hmarker
  refine ⟨hname, hi, rfl, hcategory, rfl, rfl, ?_, ?_⟩
  · intro list after hlist
    obtain ⟨ps, hps⟩ := Signature.exists_pieces [] list
    have hentries : ((Signature.ofType? typeText).map Signature.entries).getD [] =
        (ps.filter (¬AllBlank ·)).map fun piece => Entry.ofText (Text.trim piece) := by
      rw [Signature.ofType?_of_hasList hlist, ← hps.readList_eq]
      rfl
    refine ⟨ps, hps, ?_, ?_, ?_⟩
    · rw [hentries, Signature.length_resolve, List.length_map]
    · intro i
      rw [hentries, Signature.getElem?_resolve]
    · rw [Signature.ofType?_of_hasList hlist]
      rfl
  · intro hnone
    have hnoList : Signature.ofType? typeText = none := by
      refine Option.eq_none_iff_forall_ne_some.mpr fun s hs => ?_
      obtain ⟨list, after, hlist⟩ := Signature.hasList_of_ofType? hs
      exact hnone list after hlist
    simp [hnoList, Signature.resolve, Signature.resolveFrom]

/-- The clauses leave no choice. -/
theorem DeclaresMember.unique (h : DeclaresMember r owner tag typeText m)
    (h' : DeclaresMember r owner tag typeText m') : m = m' := by
  have hname : m.name = m'.name := String.toList_inj.mp (h.name.unique h'.name)
  have hcategory : m.category = m'.category := h.category.trans h'.category.symm
  have hrest : m.parameters = m'.parameters ∧ m.hostReturn = m'.hostReturn := by
    by_cases hlist : ∃ list after, HasList typeText.toList list after
    · obtain ⟨list, after, hlist⟩ := hlist
      obtain ⟨ps, hps, -, hparameters, hreturn⟩ := h.list list after hlist
      obtain ⟨ps', hps', -, hparameters', hreturn'⟩ := h'.list list after hlist
      obtain rfl : ps = ps' := hps.pieces_eq.symm.trans hps'.pieces_eq
      refine ⟨List.ext_getElem? fun i => (hparameters i).trans (hparameters' i).symm, ?_⟩
      rw [hreturn, hreturn', hcategory]
    · have hnone : ∀ list after, ¬HasList typeText.toList list after :=
        fun list after hl => hlist ⟨list, after, hl⟩
      obtain ⟨hparameters, hreturn⟩ := h.noList hnone
      obtain ⟨hparameters', hreturn'⟩ := h'.noList hnone
      exact ⟨hparameters.trans hparameters'.symm, hreturn.trans hreturn'.symm⟩
  have hfull : m.fullName = m'.fullName := by rw [h.fullName, h'.fullName, hname]
  have htype : m.returnType = m'.returnType := h.returnType.trans h'.returnType.symm
  have hvirtuality : m.virtuality = m'.virtuality := h.virtuality.trans h'.virtuality.symm
  cases m
  cases m'
  rw [Member.mk.injEq]
  exact ⟨hname, hfull, hcategory, htype, hrest.2, hrest.1, hvirtuality⟩

theorem exists_fieldMember? (r : Registry) (owner typeText : String) {name : List Char}
    (hn : Marker.Names tag.toList name) (hi : isIdentifier name) :
    ∃ m, r.fieldMember? owner tag typeText = some m := by
  have hname : (String.ofList name).toList = name := String.toList_ofList
  have hmarker : Marker.ofTag? tag = some
      ⟨if Marker.slotWord <:+: tag.toList then .slot else .signal, String.ofList name⟩ :=
    Marker.ofTag?_eq_some_iff.mpr ⟨by rwa [hname], rfl⟩
  have hguard : (guard (isIdentifier (String.ofList name).toList) : Option Unit) = some () :=
    (Option.guard_eq_some' _).mpr (by rwa [hname])
  rw [Registry.fieldMember?, hmarker, Option.bind_eq_bind, Option.bind_some, hguard]
  exact ⟨_, rfl⟩

end Declaring

/-- A field declares a member just if `signal:` or `slot:` stands in its tag and what follows the
first of them, up to a colon, white space or the end, is an identifier. The member has that name, it
is a slot if `slot:` stands anywhere in the tag, and its parameters and result are those of the
list in the field's type, piece by piece. -/
theorem fieldMember?_declares (r : Registry) (owner tag typeText : String) :
    ((∃ m, r.fieldMember? owner tag typeText = some m) ↔
      ∃ name, Marker.Names tag.toList name ∧ isIdentifier name) ∧
    ∀ m, r.fieldMember? owner tag typeText = some m ↔ DeclaresMember r owner tag typeText m := by
  constructor
  · constructor
    · rintro ⟨m, hm⟩
      have h := declares_of_fieldMember? hm
      exact ⟨_, h.name, h.isIdentifier⟩
    · rintro ⟨name, hn, hi⟩
      exact exists_fieldMember? r owner typeText hn hi
  · intro m
    constructor
    · exact declares_of_fieldMember?
    · intro h
      obtain ⟨m', hm'⟩ := exists_fieldMember? r owner typeText h.name h.isIdentifier
      rw [hm', (declares_of_fieldMember? hm').unique h]

/-- The first word gives the name, the second makes it a slot. The bracket in the list closes
nothing, so the list ends behind it. -/
example : Registry.empty.fieldMember? "Pad" "go signal:moved:x slot:" "func(a]) b, (c) d" =
    some ⟨"moved", "Pad::moved", .slot, "void", some "b, (c) d", [⟨"v0", "a]", ""⟩],
      .nonvirtual⟩ := by decide

end SignalBridge
