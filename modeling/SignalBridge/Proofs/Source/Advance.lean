import SignalBridge.Proofs.Source.FileWalk

namespace SignalBridge.Source.Cursor

/-- A pass of a loop that begins at position `pos` ends within the tokens: it goes on from a later
position, it leaves the loop, or it refuses the source, and then not for want of just any token, nor
of a whole field. -/
inductive Advances (ts : List Token) (pos : Nat) {σ α : Type} :
    Option (Except Stop (Pass σ α × Nat)) → Prop where
  | again {s : σ} {pos' : Nat} (hlt : pos < pos') (hle : pos' ≤ ts.length) :
      Advances ts pos (some (.ok (.again s, pos')))
  | leave {a : α} {pos' : Nat} (hge : pos ≤ pos') (hle : pos' ≤ ts.length) :
      Advances ts pos (some (.ok (.leave a, pos')))
  | refused {position : Position} {expected found : String} (ht : expected ≠ "token")
      (hf : expected ≠ "field") : Advances ts pos (some (.error (.refused position expected found)))

/-- Every pass of the loop gets on, from whatever state and place it begins. -/
def Advancing (ts : List Token) {σ α : Type} (pass : Loop σ α) : Prop :=
  ∀ s pos, pos ≤ ts.length → Advances ts pos (pass s pos)

/-- All loops of the walk get on: over a file, the declarations of a group, the fields of a struct,
the tokens of one field, those of a type that is not a struct, and those of a delimited group. -/
structure LoopsAdvance (source : List Char) (ts : List Token) : Prop where
  file : Advancing ts (filePass source ts)
  declarations : Advancing ts (groupPass source ts)
  fields : Advancing ts (structPass source ts)
  field : Advancing ts (fieldPass source ts)
  type : Advancing ts (typePass source ts)
  delimited : Advancing ts (balancedPass source ts)

section Passes

variable {source : List Char} {ts : List Token} {t : Token} {pos pos' : Nat} {σ α β : Type}

theorem text_ne {expected : Expected} (h : expected ≠ .field) :
    expected.text ≠ "token" ∧ expected.text ≠ "field" := by
  match expected with
  | .field => exact absurd rfl h
  | .packageName | .typeName | .declaration | .openBrace | .closingDelimiter | .fieldName
  | .fieldType | .closer .round | .closer .square | .closer .curly => decide

theorem advances_ofFault {fault : SyntaxFault} (h : fault.expected ≠ .field) :
    Advances ts pos
      (some (.error (.ofFault source fault)) : Option (Except Stop (Pass σ α × Nat))) := by
  obtain ⟨expected, found⟩ := fault
  cases found with
  | none => exact .refused (text_ne h).1 (text_ne h).2
  | some t => exact .refused (text_ne h).1 (text_ne h).2

/-- A pass that goes on with what a reader returns advances if the reader does. -/
theorem advances_again {x : Reader β} {f : β → σ} {δ : Type} {P : β × Nat → δ → Prop}
    {y : Except SyntaxFault δ} (h : Agrees source P (x pos') y)
    (hP : ∀ b pos'' d, y = .ok d → P (b, pos'') d → pos < pos'' ∧ pos'' ≤ ts.length) :
    Advances ts pos ((do return .again (f (← x)) : Reader (Pass σ α)) pos') := by
  generalize hx : x pos' = o at h
  cases h with
  | @ok p d hp =>
    rw [bind_of_ok hx]
    obtain ⟨hlt, hle⟩ := hP p.1 p.2 d rfl hp
    exact .again hlt hle
  | error h =>
    rw [bind_of_error hx]
    exact advances_ofFault h

theorem advances_track {f : Nesting → σ} {nesting : Nesting} (h : ts[pos]? = some t)
    (hle : pos + 1 ≤ ts.length) :
    Advances ts pos ((do return .again (f (← track source ts nesting)) :
      Reader (Pass σ α)) pos) :=
  advances_again (agrees_track nesting h) fun _ _ _ _ hp =>
    (Prod.mk.inj hp).2 ▸ ⟨Nat.lt_succ_self pos, hle⟩

theorem advancing_typePass : Advancing ts (typePass source ts) := by
  intro nesting pos h
  rcases next_cases h with ⟨hnext, -⟩ | ⟨t, hnext, -, hle⟩
  · rw [typePass, ahead_bind, Nat.add_zero, hnext]
    exact .leave (Nat.le_refl pos) h
  · by_cases hg : nesting ≠ [] ∨ t.kind.endsType = false
    · rw [typePass_next hnext hg]
      exact advances_track hnext hle
    · simp only [ne_eq, not_or, not_not, Bool.not_eq_false] at hg
      obtain ⟨rfl, hstop⟩ := hg
      rw [typePass_leave (by simpa [hnext] using hstop)]
      exact .leave (Nat.le_refl pos) h

theorem advancing_balancedPass : Advancing ts (balancedPass source ts) := by
  intro nesting pos h
  by_cases hn : nesting = []
  · subst hn
    exact .leave (Nat.le_refl pos) h
  · rcases next_cases h with ⟨hnext, -⟩ | ⟨t, hnext, -, hle⟩
    · rw [balancedPass_end hn hnext]
      exact advances_ofFault (by simp)
    · rw [balancedPass_next hn hnext]
      exact advances_track hnext hle

theorem advancing_fieldPass : Advancing ts (fieldPass source ts) := by
  rintro ⟨nesting, words⟩ pos h
  rcases next_cases h with ⟨hnext, -⟩ | ⟨t, hnext, -, hle⟩
  · rw [fieldPass, ahead_bind, Nat.add_zero, hnext]
    exact .leave (Nat.le_refl pos) h
  · by_cases hg : nesting ≠ [] ∨ t.kind.endsField = false
    · rw [fieldPass_next hnext hg]
      exact advances_track hnext hle
    · simp only [ne_eq, not_or, not_not, Bool.not_eq_false] at hg
      obtain ⟨rfl, hstop⟩ := hg
      rw [fieldPass_leave (by simpa [hnext] using hstop)]
      exact .leave (Nat.le_refl pos) h

/-- A pass over a list advances if its items do. -/
theorem advancing_itemPass {d : Delimiter} {item : Reader β}
    {read : List Token → Except SyntaxFault (β × List Token)}
    (hitem : ∀ {pos t rest}, ts.drop pos = t :: rest → t.kind.isSeparator = false →
      t.kind ≠ .closer d → Agrees source (Stands ts Eq) (item pos) (read (t :: rest)))
    (hshort : ∀ {us b after}, read us = .ok (b, after) → after.length < us.length) :
    Advancing ts (itemPass source ts d item) := by
  intro items pos h
  obtain ⟨pos', hge, hin, -, hcase⟩ := @itemPass_cases source ts pos β d item items h
  rcases hcase with ⟨-, hpass⟩ | ⟨t, rest, hcons, ⟨-, hpass⟩ | ⟨hk, hs, hpass⟩⟩
  · rw [hpass]
    exact advances_ofFault (by simp)
  · obtain ⟨-, -, hle⟩ := next_of_drop hcons
    rw [hpass]
    exact .leave (by omega) hle
  · rw [hpass]
    refine advances_again (hitem hcons hs hk) ?_
    rintro b pos'' ⟨b', after⟩ hread hp
    have hrest : after.length < (ts.drop pos').length := by
      rw [hcons]
      exact hshort hread
    obtain ⟨hlt, hle⟩ := hp.gets_on hrest
    exact ⟨by omega, hle⟩

theorem advancing_structPass (hw : WrittenAt source ts) : Advancing ts (structPass source ts) :=
  advancing_itemPass (fun hdrop hs hk => agrees_field hw hdrop (endsField_eq_false hs hk))
    length_lt_of_readField

theorem advancing_groupPass (hw : WrittenAt source ts) : Advancing ts (groupPass source ts) :=
  advancing_itemPass (fun hdrop _ _ => agrees_typeSpec_of_drop hw hdrop) length_lt_of_typeSpec

theorem advancing_filePass (hw : WrittenAt source ts) : Advancing ts (filePass source ts) := by
  rintro ⟨file, nesting⟩ pos h
  rcases next_cases h with ⟨hnext, -⟩ | ⟨t, hnext, hcons, hle⟩
  · rw [filePass_end hnext]
    exact .leave (Nat.le_refl pos) h
  · rw [filePass_next hnext]
    split
    · refine advances_again (agrees_expect (by simp) hle) ?_
      rintro name pos' ⟨_, rest⟩ hexpect hp
      refine hp.gets_on ?_
      rw [hcons, List.length_cons, length_of_expect hexpect]
      omega
    · split
      · refine advances_again (agrees_typeDecls hw file.types hle) ?_
        rintro decls pos' ⟨decls', rest⟩ hdecls hp
        refine hp.gets_on ?_
        rw [hcons, List.length_cons]
        exact Nat.lt_succ_of_le (length_le_of_typeDecls hdecls)
      · exact advances_track hnext hle

end Passes

section Sources

variable {source : String} {ts : List Token}

theorem ofScanError_ofSyntaxFault (source : List Char) (fault : SyntaxFault) :
    Stop.ofScanError (.ofSyntaxFault source fault) = .ofFault source fault := by
  obtain ⟨expected, found⟩ := fault
  cases found <;> rfl

/-- Over the tokens of a source the walk ends as the reader of lists does. -/
theorem agrees_scan (h : tokenize source = .ok ts) :
    Agrees source.toList Eq (Cursor.scan source) (SourceFile.ofTokens ts) := by
  have hwalk := @agrees_restOfFile source.toList ts 0 ⟨none, []⟩ [] (writtenAt_of_tokenize h)
    (Nat.zero_le _)
  rw [Cursor.scan, h, SourceFile.ofTokens]
  rw [List.drop_zero] at hwalk
  dsimp only [sourceFile]
  generalize restOfFile source.toList ts (⟨none, []⟩, []) 0 = x at hwalk ⊢
  generalize declarations none [] ts = y at hwalk ⊢
  cases hwalk with
  | @ok p f hp =>
    obtain ⟨file, pos⟩ := p
    exact .ok hp
  | error he => exact .error he

/-- The walk ends, and it reads or refuses a source as `scan` does. -/
theorem scan_eq_some (source : String) :
    Cursor.scan source = some ((Source.scan source).mapError Stop.ofScanError) := by
  cases h : tokenize source with
  | error e => rw [Cursor.scan, Source.scan, h]; rfl
  | ok ts =>
    have hscan := agrees_scan h
    rw [scan_of_tokenize h]
    generalize Cursor.scan source = x at hscan
    generalize SourceFile.ofTokens ts = y at hscan
    cases hscan with
    | ok heq => rw [heq]; rfl
    | error =>
      rw [Except.mapError, Except.mapError, ofScanError_ofSyntaxFault]

theorem lexical_of_tokenize {e : ScanError} (h : tokenize source = .error e) :
    ∃ position cause, e = .lexical position cause := by
  rw [tokenize] at h
  cases ht : tokens source.toList with
  | ok ts =>
    rw [ht] at h
    cases h
  | error fault =>
    rw [ht] at h
    cases h
    exact ⟨_, _, rfl⟩

/-- Whatever a walk over a whole source misses is neither just any token nor a whole field. -/
theorem expected_ne_of_scan {position : Position} {expected found : String}
    (h : Cursor.scan source = some (.error (.refused position expected found))) :
    expected ≠ "token" ∧ expected ≠ "field" := by
  cases ht : tokenize source with
  | error e =>
    obtain ⟨_, _, rfl⟩ := lexical_of_tokenize ht
    rw [Cursor.scan, ht] at h
    cases h
  | ok ts =>
    have hscan := agrees_scan ht
    rw [h] at hscan
    generalize SourceFile.ofTokens ts = y at hscan
    generalize hstop : Stop.refused position expected found = stop at hscan
    cases hscan with
    | @error fault he =>
      obtain ⟨missing, found'⟩ := fault
      cases found' <;> cases hstop <;> exact text_ne he

theorem ne_outOfRange_of_scan : Cursor.scan source ≠ some (.error .outOfRange) := by
  intro h
  rw [scan_eq_some] at h
  cases hs : Source.scan source with
  | ok file =>
    rw [hs] at h
    cases h
  | error e =>
    rw [hs] at h
    cases e <;> cases h

theorem loopsAdvance_of_tokenize (h : tokenize source = .ok ts) :
    LoopsAdvance source.toList ts where
  file := advancing_filePass (writtenAt_of_tokenize h)
  declarations := advancing_groupPass (writtenAt_of_tokenize h)
  fields := advancing_structPass (writtenAt_of_tokenize h)
  field := advancing_fieldPass
  type := advancing_typePass
  delimited := advancing_balancedPass

/-- On every source the walk ends, and it ends as `scan` does. It takes no token by an index at
which there is none, and it never misses just any token or a whole field. Each pass of its loops
takes a token unless it leaves the loop or refuses the source. -/
theorem scan_advances (source : String) :
    Cursor.scan source = some ((Source.scan source).mapError Stop.ofScanError) ∧
      Cursor.scan source ≠ some (.error .outOfRange) ∧
      (∀ position expected found,
        Cursor.scan source = some (.error (.refused position expected found)) →
          expected ≠ "token" ∧ expected ≠ "field") ∧
      ∀ ts, tokenize source = .ok ts → LoopsAdvance source.toList ts :=
  ⟨scan_eq_some source, ne_outOfRange_of_scan, fun _ _ _ => expected_ne_of_scan,
    fun _ => loopsAdvance_of_tokenize⟩

/-- A comma with no name behind it. -/
def unnamedSource : String :=
  "type T struct \x7b a, \x7d"

theorem scan_advances_unnamed : ∃ ts, tokenize unnamedSource = .ok ts ∧
    Cursor.scan unnamedSource = some (.error (.refused ⟨1, 20⟩ "field name" "'\x7d'")) ∧
      "field name" ≠ "token" ∧ "field name" ≠ "field" ∧
      LoopsAdvance unnamedSource.toList ts := by
  have htokenizes : (tokenize unnamedSource).toOption.any fun _ => true := by decide +kernel
  have hscan : Source.scan unnamedSource = .error
      (.syntactic ⟨1, 20⟩ ⟨.fieldName, some ⟨.closer .curly, 19, [' '], ['\x7d']⟩⟩) := by
    decide +kernel
  obtain ⟨ts, ht, -⟩ := exists_ok_of_any htokenizes
  obtain ⟨hends, -, hexpected, hloops⟩ := scan_advances unnamedSource
  have hwalk : Cursor.scan unnamedSource =
      some (.error (.refused ⟨1, 20⟩ "field name" "'\x7d'")) := by
    rw [hends, hscan]
    decide
  obtain ⟨htoken, hfield⟩ := hexpected _ _ _ hwalk
  exact ⟨ts, ht, hwalk, htoken, hfield, hloops ts ht⟩

end Sources

end SignalBridge.Source.Cursor
