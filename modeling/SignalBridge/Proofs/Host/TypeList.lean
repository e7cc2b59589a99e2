import SignalBridge.Proofs.Member.ParameterList

/-!
Parameter lists of types alone. A type is an entry by itself and becomes a parameter without a name
of its own, unless a blank stands outside its brackets: in front of that stands then a name, and
behind it a type to share (`parameters_of_types`).
-/

namespace SignalBridge

open Signature (IsEntry PassesBlank)

namespace HostType

/-- The text before the first blank outside all brackets. -/
def firstWord : HostType → List Char
  | name n => n.text
  | qualified package n => package.text ++ '.' :: n.text
  | pointer t => '*' :: t.firstWord
  | slice t => '[' :: ']' :: t.firstWord
  | array length t => '[' :: (length.text ++ ']' :: t.firstWord)
  | map key value => 'm' :: 'a' :: 'p' :: '[' :: (key.text ++ ']' :: value.firstWord)
  | chan _ => ['c', 'h', 'a', 'n']
  | func parameters _ =>
    'f' :: 'u' :: 'n' :: 'c' :: '(' :: (commaSeparated (texts parameters) ++ [')'])
  | emptyInterface => emptyInterface.text
  | emptyStruct => emptyStruct.text

/-- The type behind that blank, if there is one. -/
def afterBlank? : HostType → Option HostType
  | pointer t | slice t | array _ t | map _ t => t.afterBlank?
  | chan t => some t
  | func _ result => result
  | name _ | qualified _ _ | emptyInterface | emptyStruct => none

theorem text_eq (t : HostType) : t.text = t.firstWord ++ resultText t.afterBlank? := by
  induction t using HostType.induction with
  | func parameters result _ _ => simp [text, firstWord, afterBlank?]
  | _ => simp_all [text, firstWord, afterBlank?, resultText]

theorem passesBlank_parts {text : List Char}
    (h : ∀ c ∈ text, Source.Lexeme.isIdentPart c ∨ c = '.') : PassesBlank text := by
  apply Signature.passesBlank_plain
  intro c hc
  obtain ⟨ho, hcl, -⟩ := Source.isPlain_text h c hc
  refine ⟨ho, hcl, ?_⟩
  rcases h c hc with hp | rfl
  · exact Text.isBlank_of_isIdentPart hp
  · rfl

theorem passesBlank_ident {text : List Char} (h : Source.Pattern.ident.Matches text) :
    PassesBlank text :=
  passesBlank_parts fun _ hc => .inl (Source.isIdentPart_of_mem h hc)

/-- No blank stands outside the brackets of a type's first word. -/
theorem passesBlank_firstWord (t : HostType) : PassesBlank t.firstWord := by
  induction t using HostType.induction with
  | name n => exact passesBlank_ident n.isIdent
  | qualified package n =>
    have hdot : PassesBlank ['.'] := passesBlank_parts (by simp)
    exact (passesBlank_ident package.isIdent).append (hdot.append (passesBlank_ident n.isIdent))
  | pointer t ih =>
    have hstar : PassesBlank ['*'] := Signature.passesBlank_plain (by simp; decide)
    exact hstar.append ih
  | slice t ih => exact (Signature.passesBlank_group .square .nil).append ih
  | array length t ih =>
    have hlength := Signature.passesBlank_group .square (.plain (isPlain_length length) .nil)
    simpa [firstWord, Source.Delimiter.openChar, Source.Delimiter.closeChar] using
      hlength.append ih
  | map key value _ ih =>
    have hkey := Signature.passesBlank_group .square key.nested.allow
    simpa [firstWord, key.written_lexemes, Source.Delimiter.openChar,
      Source.Delimiter.closeChar] using (passesBlank_ident ident_map).append (hkey.append ih)
  | chan t _ => exact passesBlank_ident ident_chan
  | func parameters result _ _ =>
    have hlist := Signature.passesBlank_group .round
      (nested_lexemeLists fun t (_ : t ∈ parameters) => t.nested)
    rw [written_lexemeLists fun t _ => t.written_lexemes] at hlist
    simpa [firstWord, Source.Delimiter.openChar,
      Source.Delimiter.closeChar, Source.Keyword.text] using
        (passesBlank_ident (Source.ident_keyword .func)).append hlist
  | emptyInterface =>
    exact (passesBlank_ident (Source.ident_keyword .interface)).append
      (Signature.passesBlank_group .curly .nil)
  | emptyStruct =>
    exact (passesBlank_ident (Source.ident_keyword .struct)).append
      (Signature.passesBlank_group .curly .nil)

/-- Such a blank is found where it stands. -/
theorem splitBlank?_text (t : HostType) :
    Signature.splitBlank? 0 t.text = t.afterBlank?.map fun u => (t.firstWord, u.text) := by
  rw [text_eq, passesBlank_firstWord]
  cases t.afterBlank? with
  | none => rfl
  | some u => simp [resultText, Signature.splitBlank?]; rfl

/-- The entry that a type by itself is read as. -/
def entry (t : HostType) : Signature.Entry :=
  match t.afterBlank? with
  | none => .single (String.ofList t.text)
  | some u => .named (String.ofList t.firstWord) (String.ofList u.text)

theorem entry_eq_single {t : HostType} (h : t.afterBlank? = none) :
    t.entry = .single (String.ofList t.text) := by
  rw [entry, h]

theorem entry_eq_named {t u : HostType} (h : t.afterBlank? = some u) :
    t.entry = .named (String.ofList t.firstWord) (String.ofList u.text) := by
  rw [entry, h]

theorem ofText_text (t : HostType) : Signature.Entry.ofText t.text = t.entry := by
  rw [Signature.Entry.ofText, splitBlank?_text]
  cases h : t.afterBlank? with
  | none => exact (entry_eq_single h).symm
  | some u =>
    rw [entry_eq_named h]
    simp only [Option.map_some, trim_text]

theorem type?_entry (t : HostType) :
    t.entry.type? = t.afterBlank?.map fun u => String.ofList u.text := by
  cases h : t.afterBlank? with
  | none => rw [entry_eq_single h]; rfl
  | some u => rw [entry_eq_named h]; rfl

theorem sharedType_entries (ts : List HostType) : Signature.sharedType (ts.map entry) =
    (ts.findSome? afterBlank?).map fun u => String.ofList u.text := by
  rw [Signature.sharedType, List.findSome?_map]
  induction ts with
  | nil => rfl
  | cons t ts ih =>
    rw [List.findSome?_cons, List.findSome?_cons, Function.comp_apply, type?_entry, ih]
    cases t.afterBlank? <;> rfl

/-- The text of a function type with these types as its parameters. -/
def signatureText (ts : List HostType) : String :=
  String.ofList (func ts none).text

theorem ofType?_signatureText (ts : List HostType) :
    Signature.ofType? (signatureText ts) = some ⟨ts.map entry, none⟩ := by
  have hread : Signature.Entry.readList (Source.written (Source.listed (lexemeLists ts))) =
      ts.map entry := by
    rw [lexemeLists_eq, Signature.readList_listed, List.map_map]
    · exact List.map_congr_left fun t _ => by
        rw [Function.comp_apply, t.written_lexemes, ofText_text]
    · intro item hi
      obtain ⟨t, -, rfl⟩ := List.mem_map.mp hi
      exact t.nested
    · intro item hi
      obtain ⟨t, -, rfl⟩ := List.mem_map.mp hi
      exact ⟨t.inked.trimmed, t.inked.ne_nil⟩
  rw [signatureText, text, ← written_lexemeLists fun t _ => t.written_lexemes,
    Signature.ofType?_func (nested_lexemeLists fun t _ => t.nested) (by simp [resultText]; rfl),
    hread]
  rfl

/-- The parameter that the type at position `i` becomes, with `later` behind it. -/
theorem getElem?_parameters (r : Registry) {ts : List HostType} {i : Nat} {t : HostType}
    (h : ts[i]? = some t) : (Signature.resolve r (ts.map entry))[i]? =
      some (t.entry.parameter r i (((ts.drop (i + 1)).findSome? afterBlank?).map fun u =>
        String.ofList u.text)) := by
  rw [Signature.getElem?_resolve, List.getElem?_map, h, ← List.map_drop, sharedType_entries]
  rfl

end HostType

/-- A list of types alone declares one parameter for each. It has that type and is named by its
position where no blank stands outside the brackets of the type, unless the type is unknown and
one behind it has such a blank: then the type is taken for a name and shares what stands behind
that blank. A type with such a blank is taken for a name and a type. -/
theorem parameters_of_types (r : Registry) (ts : List HostType) : ∃ parameters,
    (Signature.ofType? (HostType.signatureText ts)).map
        (fun s => (Signature.resolve r s.entries, s.result)) = some (parameters, none) ∧
      parameters.length = ts.length ∧ ∀ i t, ts[i]? = some t →
        (t.afterBlank? = none →
          (r.nativeType (String.ofList t.text)).isKnown ∨
            (∀ u ∈ ts.drop (i + 1), u.afterBlank? = none) →
          parameters[i]? = some ⟨s!"v{i}", String.ofList t.text, ""⟩) ∧
        (∀ u, t.afterBlank? = none → (r.nativeType (String.ofList t.text)).isKnown = false →
          (ts.drop (i + 1)).findSome? HostType.afterBlank? = some u →
          parameters[i]? = some ⟨String.ofList t.text, String.ofList u.text, ""⟩) ∧
        ∀ u, t.afterBlank? = some u →
          parameters[i]? = some ⟨String.ofList t.firstWord, String.ofList u.text, ""⟩ := by
  refine ⟨Signature.resolve r (ts.map HostType.entry), ?_, ?_, ?_⟩
  · rw [HostType.ofType?_signatureText, Option.map_some]
  · rw [Signature.length_resolve, List.length_map]
  intro i t hi
  rw [HostType.getElem?_parameters r hi]
  refine ⟨?_, ?_, ?_⟩
  · intro hblank halone
    rw [HostType.entry_eq_single hblank]
    rcases halone with hknown | hlater
    · rw [Signature.parameter_known hknown]
    · rw [List.findSome?_eq_none_iff.mpr hlater]
      rfl
  · intro u hblank hunknown hlater
    rw [HostType.entry_eq_single hblank, hlater, Option.map_some,
      Signature.parameter_shares hunknown]
  · intro u hblank
    rw [HostType.entry_eq_named hblank]
    rfl

section Items

def intName : Identifier :=
  ⟨['i', 'n', 't'], 'i', ['n', 't'], rfl, rfl, List.all_eq_true.mp rfl⟩

def itemName : Identifier :=
  ⟨['I', 't', 'e', 'm'], 'I', ['t', 'e', 'm'], rfl, rfl, List.all_eq_true.mp rfl⟩

/-- An unknown type before a list of channels, and a known one behind it. -/
def itemTypes : List HostType :=
  [.name itemName, .slice (.chan (.name itemName)), .name intName]

theorem parameters_of_types_items : ∃ parameters,
    (Signature.ofType? "func(Item, []chan Item, int)").map
        (fun s => (Signature.resolve Registry.empty s.entries, s.result)) =
          some (parameters, none) ∧
      parameters[0]? = some ⟨"Item", "Item", ""⟩ ∧ parameters[1]? = some ⟨"[]chan", "Item", ""⟩ ∧
      parameters[2]? = some ⟨"v2", "int", ""⟩ := by
  have htext : HostType.signatureText itemTypes = "func(Item, []chan Item, int)" := by decide
  obtain ⟨parameters, hread, -, hall⟩ := parameters_of_types Registry.empty itemTypes
  refine ⟨parameters, htext ▸ hread, ?_, ?_, ?_⟩
  · exact (hall 0 _ rfl).2.1 (.name itemName) rfl (by decide) rfl
  · exact (hall 1 _ rfl).2.2 (.name itemName) rfl
  · exact (hall 2 _ rfl).1 rfl (.inl (by decide))

end Items

/-- A channel is not read as a type alone, its word is taken for a name. -/
theorem parameters_of_channel : ¬ ∀ (r : Registry) (ts : List HostType), ts ≠ [] →
    (Signature.ofType? (HostType.signatureText ts)).map
        (fun s => Signature.resolve r s.entries) =
      some (ts.mapIdx fun i t => ⟨s!"v{i}", String.ofList t.text, ""⟩) := by
  intro h
  have hchannel : (Signature.ofType? "func(chan int)").map
      (fun s => Signature.resolve Registry.empty s.entries) = some [⟨"v0", "chan int", ""⟩] :=
    h Registry.empty [.chan (.name intName)] (by simp)
  revert hchannel
  decide

end SignalBridge
