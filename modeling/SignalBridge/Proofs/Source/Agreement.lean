import SignalBridge.Proofs.Source.Alike
import SignalBridge.Proofs.Source.Cursor
import SignalBridge.Proofs.Source.Placement

namespace SignalBridge.Source.Cursor

open List (Forall₂)

/-- The walk ends as the reader of lists does. It refuses the source in the same words, and it
never misses the field that it is about to read. -/
inductive Agrees (source : List Char) {α β : Type} (P : α → β → Prop) :
    Option (Except Stop α) → Except SyntaxFault β → Prop where
  | ok {a : α} {b : β} (h : P a b) : Agrees source P (some (.ok a)) (.ok b)
  | error {fault : SyntaxFault} (h : fault.expected ≠ .field) :
      Agrees source P (some (.error (.ofFault source fault))) (.error fault)

/-- The position is one of the tokens or their end, and it stands for the tokens left. -/
structure Stands (ts : List Token) {α β : Type} (P : α → β → Prop) (p : α × Nat)
    (q : β × List Token) : Prop where
  inside : p.2 ≤ ts.length
  rest : q.2 = ts.drop p.2
  value : P p.1 q.1

/-- A reader that leaves fewer tokens has got on. -/
theorem Stands.gets_on {α β : Type} {P : α → β → Prop} {ts rest : List Token} {a : α} {b : β}
    {pos pos' : Nat} (h : Stands ts P (a, pos') (b, rest))
    (hlt : rest.length < (ts.drop pos).length) : pos < pos' ∧ pos' ≤ ts.length := by
  have hrest : rest = ts.drop pos' := h.rest
  rw [hrest, List.length_drop, List.length_drop] at hlt
  exact ⟨by omega, h.inside⟩

section Steps

variable {α γ : Type} {x : Reader α} {f : α → Reader γ} {a : α} {pos pos' n : Nat} {stop : Stop}
  {source : List Char} {ts : List Token} {t : Token}

theorem bind_of_ok (h : x pos = some (.ok (a, pos'))) : (x >>= f) pos = f a pos' := by
  change Option.bind (x pos) _ = _
  rw [h]
  rfl

theorem bind_of_error (h : x pos = some (.error stop)) : (x >>= f) pos = some (.error stop) := by
  change Option.bind (x pos) _ = _
  rw [h]
  rfl

theorem bind_eq_bind {y : Reader α} (h : x pos = y pos') : (x >>= f) pos = (y >>= f) pos' := by
  change Option.bind (x pos) _ = Option.bind (y pos') _
  rw [h]

theorem ahead_bind {f : Option Token → Reader γ} :
    (ahead ts n >>= f) pos = f ts[pos + n]? pos := rfl

theorem get_bind {f : Nat → Reader γ} : ((get : Reader Nat) >>= f) pos = f pos pos := rfl

theorem atKind_bind {kind : Token.Kind} {f : Bool → Reader γ} :
    (atKind ts kind >>= f) pos = f (ts[pos]?.any (·.kind = kind)) pos := rfl

theorem refuse_eq (expected : String) : (refuse source ts expected : Reader α) pos =
    some (.error (.refusal source expected ts[pos]?)) := rfl

theorem bump_of_next (h : ts[pos]? = some t) : bump source ts pos = some (.ok (t, pos + 1)) := by
  rw [bump, ahead_bind, Nat.add_zero, h]
  rfl

/-- At each position within the tokens there is a next token, or they are at their end. -/
theorem next_cases (h : pos ≤ ts.length) : (ts[pos]? = none ∧ ts.drop pos = []) ∨
    ∃ t, ts[pos]? = some t ∧ ts.drop pos = t :: ts.drop (pos + 1) ∧ pos + 1 ≤ ts.length := by
  rcases Nat.lt_or_eq_of_le h with hlt | rfl
  · exact .inr ⟨_, List.getElem?_eq_getElem hlt, List.drop_eq_getElem_cons hlt, hlt⟩
  · exact .inl ⟨List.getElem?_eq_none (Nat.le_refl _), List.drop_length⟩

theorem next_of_drop {rest : List Token} (h : ts.drop pos = t :: rest) :
    ts[pos]? = some t ∧ rest = ts.drop (pos + 1) ∧ pos + 1 ≤ ts.length := by
  rw [← List.head?_drop, h, ← List.tail_drop, h]
  refine ⟨rfl, rfl, ?_⟩
  have := congrArg List.length h
  rw [List.length_drop, List.length_cons] at this
  omega

end Steps

section Loops

variable {σ α : Type} {pass : Loop σ α} {s s' : σ} {a : α} {pos pos' : Nat}
  {stop : Stop}

theorem loop_again (h : pass s pos = some (.ok (.again s', pos'))) :
    Loop.run pass s pos = Loop.run pass s' pos' := by
  rw [Loop.run, bind_of_ok h]

theorem loop_leave (h : pass s pos = some (.ok (.leave a, pos'))) :
    Loop.run pass s pos = some (.ok (a, pos')) := by
  rw [Loop.run, bind_of_ok h]
  rfl

theorem loop_error (h : pass s pos = some (.error stop)) :
    Loop.run pass s pos = some (.error stop) := by
  rw [Loop.run, bind_of_error h]

/-- A pass that goes on with what a reader returns. -/
theorem loop_again_bind {β : Type} {x : Reader β} {f : β → σ}
    (h : pass s pos = (do return .again (f (← x)) : Reader (Pass σ α)) pos') :
    Loop.run pass s pos = (do Loop.run pass (f (← x)) : Reader α) pos' := by
  rw [Loop.run, bind_eq_bind h]
  simp only [bind_assoc, pure_bind]

end Loops

section Agreement

variable {source : List Char} {α β γ δ : Type} {P : α → β → Prop} {Q : γ → δ → Prop} {pos : Nat}

theorem Agrees.mono {P' : α → β → Prop} {x : Option (Except Stop α)} {y : Except SyntaxFault β}
    (h : Agrees source P x y) (hP : ∀ a b, y = .ok b → P a b → P' a b) :
    Agrees source P' x y := by
  cases h with
  | ok h => exact .ok (hP _ _ rfl h)
  | error h => exact .error h

theorem Agrees.bind {P : α × Nat → β → Prop} {x : Reader α} {y : Except SyntaxFault β}
    {f : α → Reader γ} {g : β → Except SyntaxFault δ} {Q : γ × Nat → δ → Prop}
    (h : Agrees source P (x pos) y)
    (hf : ∀ a pos' b, y = .ok b → P (a, pos') b → Agrees source Q (f a pos') (g b)) :
    Agrees source Q ((x >>= f) pos) (y >>= g) := by
  generalize hx : x pos = o at h
  cases h with
  | @ok p b hp =>
    rw [bind_of_ok hx]
    exact hf p.1 p.2 b rfl hp
  | error h =>
    rw [bind_of_error hx]
    exact .error h

theorem Agrees.of_map {x : Option (Except Stop α)} {y : Except SyntaxFault β} {g : β → δ}
    {Q : α → δ → Prop} (h : Agrees source Q x (y.map g)) :
    Agrees source (fun a b => Q a (g b)) x y := by
  cases y with
  | ok b =>
    rw [Except.map] at h
    cases h with
    | ok hq => exact .ok hq
  | error fault =>
    rw [Except.map] at h
    cases h with
    | error he => exact .error he

/-- What is put together of the outcome at the end may be put together on one side only. -/
theorem Agrees.finish {x : Option (Except Stop α)} {y : Except SyntaxFault β}
    {g : β → Except SyntaxFault δ} {Q : α → δ → Prop} (h : Agrees source P x y)
    (hg : ∀ a b, P a b → ∃ d, g b = .ok d ∧ Q a d) : Agrees source Q x (y >>= g) := by
  cases h with
  | @ok a b hp =>
    obtain ⟨d, hd, hq⟩ := hg a b hp
    change Agrees source Q (some (.ok a)) (g b)
    rw [hd]
    exact .ok hq
  | error h => exact .error h

/-- What is missing at the next token is missing at the head of the tokens left. -/
theorem Agrees.refused {P : α × Nat → β → Prop} {ts : List Token} {expected : Expected}
    {found : Option Token} (he : expected ≠ .field) (hn : ts[pos]? = found) :
    Agrees source P ((refuse source ts expected.text : Reader α) pos)
      (.error ⟨expected, found⟩) := by
  have herror := @Agrees.error source (α × Nat) β P ⟨expected, found⟩ he
  rwa [refuse_eq, hn]

/-- Only the kind, the place and the text of a token are told where it is refused. -/
theorem ofFault_congr {fault fault' : SyntaxFault} (h : AlikeFaults Token.Same fault fault') :
    Stop.ofFault source fault = Stop.ofFault source fault' := by
  obtain ⟨expected, found⟩ := fault
  obtain ⟨expected', found'⟩ := fault'
  obtain ⟨he, hf⟩ := h
  cases he
  cases hf with
  | none => rfl
  | some h => simp only [Stop.ofFault, Stop.refusal, Token.describe, h.kind, h.start, h.text]

theorem Agrees.trans {x : Option (Except Stop α)} {y : Except SyntaxFault β}
    {z : Except SyntaxFault δ} {R : β → δ → Prop} (h : Agrees source P x y)
    (hz : Fits (AlikeFaults Token.Same) R y z) :
    Agrees source (fun a d => ∃ b, P a b ∧ R b d) x z := by
  cases h with
  | ok h =>
    cases hz with
    | ok hr => exact .ok ⟨_, h, hr⟩
  | error h =>
    cases hz with
    | error hf =>
      rw [ofFault_congr hf]
      exact .error (hf.expected ▸ h)

theorem indistinct_same : Indistinct Token.Same where
  kind h := h.kind
  text h _ := h.text
  joinLines h := forall₂_joinLines (fun h => h.kind)
    (fun h ht hu => (ht.trans h).trans ⟨hu.kind.symm, hu.start.symm, hu.text.symm⟩) h

end Agreement

section Skipping

variable {source : List Char} {ts : List Token} {t : Token} {pos : Nat} {nesting : Nesting}

theorem agrees_expect {kind : Token.Kind} {expected : Expected} (he : expected ≠ .field)
    (h : pos ≤ ts.length) : Agrees source (Stands ts Eq) (expect source ts kind expected pos)
      (Source.expect kind expected (ts.drop pos)) := by
  rw [expect, atKind_bind]
  rcases next_cases h with ⟨hnext, hdrop⟩ | ⟨t, hnext, hdrop, hle⟩
  · rw [hdrop, hnext]
    exact .refused he hnext
  · rw [hdrop, hnext, Source.expect, Option.any_some]
    by_cases hk : t.kind = kind
    · rw [if_pos hk, if_pos (decide_eq_true hk), bump_of_next hnext]
      exact .ok ⟨hle, rfl, rfl⟩
    · rw [if_neg hk, if_neg (by simpa using hk)]
      exact .refused he hnext

theorem expected_ne_field_of_step {fault : SyntaxFault} (h : nesting.step t = .error fault) :
    fault.expected ≠ .field := by
  unfold Nesting.step at h
  split at h
  · cases h
  · split at h
    · cases h
      simp
    · split at h
      · cases h
      · cases h
        simp
  · cases h

theorem track_of_ok {nesting' : Nesting} (h : ts[pos]? = some t)
    (hs : nesting.step t = .ok nesting') :
    track source ts nesting pos = some (.ok (nesting', pos + 1)) := by
  rw [track, bind_of_ok (bump_of_next h), hs]
  rfl

theorem track_of_error {fault : SyntaxFault} (h : ts[pos]? = some t)
    (hs : nesting.step t = .error fault) :
    track source ts nesting pos = some (.error (.ofFault source fault)) := by
  rw [track, bind_of_ok (bump_of_next h), hs]
  rfl

theorem agrees_track (nesting : Nesting) (h : ts[pos]? = some t) :
    Agrees source (fun p nesting' => p = (nesting', pos + 1)) (track source ts nesting pos)
      (nesting.step t) := by
  cases hs : nesting.step t with
  | ok nesting' =>
    rw [track_of_ok h hs]
    exact .ok rfl
  | error fault =>
    rw [track_of_error h hs]
    exact .error (expected_ne_field_of_step hs)

/-- Separators are passed over one by one. -/
theorem skipSeparators_eq (h : pos ≤ ts.length) : ∃ pos', skipSeparators ts pos =
    some (.ok ((), pos')) ∧ pos ≤ pos' ∧ pos' ≤ ts.length ∧
      dropSeparators (ts.drop pos) = ts.drop pos' := by
  generalize hus : ts.drop pos = us
  induction us generalizing pos with
  | nil =>
    obtain ⟨hnext, -⟩ | ⟨t, -, hdrop, -⟩ := next_cases h
    · refine ⟨pos, loop_leave ?_, Nat.le_refl _, h, hus.symm⟩
      rw [separatorPass, ahead_bind, Nat.add_zero, hnext]
      rfl
    · rw [hus] at hdrop
      cases hdrop
  | cons t us ih =>
    obtain ⟨hnext, rfl, hle⟩ := next_of_drop hus
    rw [dropSeparators, List.dropWhile_cons]
    by_cases hk : t.kind.isSeparator
    · obtain ⟨pos', hskip, hpos, hpos', hdrop⟩ := ih hle rfl
      have hpass : separatorPass ts () pos = some (.ok (.again (), pos + 1)) := by
        rw [separatorPass, ahead_bind, Nat.add_zero, hnext, Option.any_some, if_pos hk]
        rfl
      refine ⟨pos', ?_, by omega, hpos', by rwa [if_pos hk]⟩
      rw [skipSeparators, loop_again hpass]
      exact hskip
    · refine ⟨pos, loop_leave ?_, Nat.le_refl _, h, by rw [if_neg hk, hus]⟩
      rw [separatorPass, ahead_bind, Nat.add_zero, hnext, Option.any_some, if_neg hk]
      rfl

/-- A reader takes tokens and follows their delimiters until one outside all of them stops it. Its
states keep the nesting; `R` says what it makes of the tokens taken from a state. -/
structure Follows (source : List Char) (ts : List Token) (stop : Token.Kind → Bool) {σ γ : Type}
    (nest : σ → Nesting) (R : σ → List Token → γ → Prop) (run : σ → Reader γ) : Prop where
  leave : ∀ {s pos}, nest s = [] → (∀ t ∈ ts[pos]?, stop t.kind) →
    ∃ c, run s pos = some (.ok (c, pos)) ∧ R s [] c
  missing : ∀ {s pos}, nest s ≠ [] → ts[pos]? = none →
    run s pos = some (.error (.ofFault source ⟨.closingDelimiter, none⟩))
  refused : ∀ {s pos t fault}, ts[pos]? = some t → (nest s ≠ [] ∨ stop t.kind = false) →
    (nest s).step t = .error fault → run s pos = some (.error (.ofFault source fault))
  next : ∀ {s pos t nesting}, ts[pos]? = some t → (nest s ≠ [] ∨ stop t.kind = false) →
    (nest s).step t = .ok nesting →
    ∃ s', nest s' = nesting ∧ run s pos = run s' (pos + 1) ∧
      ∀ taken c, R s' taken c → R s (t :: taken) c

/-- Such a reader takes the tokens that `takeUntil` takes. -/
theorem Follows.agrees {stop : Token.Kind → Bool} {σ γ : Type} {nest : σ → Nesting}
    {R : σ → List Token → γ → Prop} {run : σ → Reader γ}
    (hf : Follows source ts stop nest R run) (s : σ) (h : pos ≤ ts.length) :
    Agrees source (Stands ts fun c taken => R s taken c) (run s pos)
      (takeUntil stop (nest s) (ts.drop pos)) := by
  -- by the tokens left, from whatever state the ones before them have led to
  generalize hus : ts.drop pos = us
  induction us generalizing s pos with
  | nil =>
    obtain ⟨hnext, -⟩ | ⟨t, -, hdrop, -⟩ := next_cases h
    · cases hn : nest s with
      | nil =>
        have hends : ∀ t ∈ ts[pos]?, stop t.kind := by simp [hnext]
        obtain ⟨c, hrun, hR⟩ := hf.leave hn hends
        rw [hrun]
        exact .ok ⟨h, hus.symm, hR⟩
      | cons d outer =>
        rw [hf.missing (by simp [hn]) hnext]
        exact .error (by simp)
    · rw [hus] at hdrop
      cases hdrop
  | cons t us ih =>
    obtain ⟨hnext, rfl, hle⟩ := next_of_drop hus
    by_cases hstop : nest s = [] ∧ stop t.kind
    · have hends : ∀ t ∈ ts[pos]?, stop t.kind := by simp [hnext, hstop.2]
      obtain ⟨c, hrun, hR⟩ := hf.leave hstop.1 hends
      rw [hrun, takeUntil, if_pos (by simp [hstop.1, hstop.2])]
      exact .ok ⟨h, hus.symm, hR⟩
    · have hgoes : nest s ≠ [] ∨ stop t.kind = false := by
        by_cases hn : nest s = []
        · exact .inr (by simpa [hn] using hstop)
        · exact .inl hn
      cases hs : (nest s).step t with
      | error fault =>
        rw [hf.refused hnext hgoes hs, takeUntil, if_neg (by simpa using hstop), hs]
        exact .error (expected_ne_field_of_step hs)
      | ok nesting =>
        obtain ⟨s', rfl, hrun, hR⟩ := hf.next hnext hgoes hs
        rw [hrun, takeUntil_cons hgoes hs]
        have hrest := ih s' hle rfl
        generalize run s' (pos + 1) = o at hrest
        generalize takeUntil stop (nest s') (ts.drop (pos + 1)) = y at hrest
        cases hrest with
        | ok hp => exact .ok ⟨hp.inside, hp.rest, hR _ _ hp.value⟩
        | error he => exact .error he

theorem isEmpty_and_eq_false {b : Bool} (h : nesting ≠ [] ∨ b = false) :
    (nesting.isEmpty && b) = false := by
  rcases h with h | rfl
  · simp [h]
  · exact Bool.and_false _

theorem typePass_leave (hstop : ∀ t ∈ ts[pos]?, t.kind.endsType) :
    typePass source ts [] pos = some (.ok (.leave [], pos)) := by
  rw [typePass, ahead_bind, Nat.add_zero]
  cases hnext : ts[pos]? with
  | none => rfl
  | some t =>
    simp only [hstop t hnext]
    rfl

theorem typePass_next (hnext : ts[pos]? = some t)
    (hg : nesting ≠ [] ∨ t.kind.endsType = false) : typePass source ts nesting pos =
      (do return .again (← track source ts nesting) : Reader (Pass Nesting Nesting)) pos := by
  rw [typePass, ahead_bind, Nat.add_zero, hnext]
  simp only [isEmpty_and_eq_false hg, Bool.false_eq_true, ↓reduceIte]

theorem follows_restOfType : Follows source ts Token.Kind.endsType (fun nesting => nesting)
    (fun _ _ _ => True) (restOfType source ts) where
  leave := by
    rintro nesting pos rfl hstop
    exact ⟨(), bind_of_ok (loop_leave (typePass_leave hstop)), trivial⟩
  missing := by
    intro nesting pos hn hnext
    have hpass : typePass source ts nesting pos = some (.ok (.leave nesting, pos)) := by
      rw [typePass, ahead_bind, Nat.add_zero, hnext]
      rfl
    rw [restOfType, bind_of_ok (loop_leave hpass), if_neg (by simpa using hn), refuse_eq, hnext]
    rfl
  refused := by
    intro nesting pos t fault hnext hg hs
    refine bind_of_error (loop_error ?_)
    rw [typePass_next hnext hg, bind_of_error (track_of_error hnext hs)]
  next := by
    intro nesting pos t nesting' hnext hg hs
    refine ⟨nesting', rfl, bind_eq_bind (loop_again ?_), fun _ _ _ => trivial⟩
    rw [typePass_next hnext hg, bind_of_ok (track_of_ok hnext hs)]
    rfl

theorem agrees_skipType (h : pos ≤ ts.length) :
    Agrees source (Stands ts fun _ _ => True) (skipType source ts pos)
      (takeUntil Token.Kind.endsType [] (ts.drop pos)) :=
  follows_restOfType.agrees [] h

theorem balancedPass_end (hn : nesting ≠ []) (hnext : ts[pos]? = none) :
    balancedPass source ts nesting pos =
      some (.error (.ofFault source ⟨.closingDelimiter, none⟩)) := by
  rw [balancedPass, if_neg (by simpa using hn), ahead_bind, Nat.add_zero, hnext]
  change (refuse source ts _ : Reader (Pass Nesting Unit)) pos = _
  rw [refuse_eq, hnext]
  rfl

theorem balancedPass_next (hn : nesting ≠ []) (hnext : ts[pos]? = some t) :
    balancedPass source ts nesting pos =
      (do return .again (← track source ts nesting) : Reader (Pass Nesting Unit)) pos := by
  rw [balancedPass, if_neg (by simpa using hn), ahead_bind, Nat.add_zero, hnext]

/-- Inside a group nothing stops the reader, outside it anything does. -/
theorem follows_balanced : Follows source ts (fun _ => true) (fun nesting => nesting)
    (fun _ _ _ => True) (Loop.run (balancedPass source ts)) where
  leave := by
    rintro nesting pos rfl -
    exact ⟨(), loop_leave rfl, trivial⟩
  missing := by
    intro nesting pos hn hnext
    exact loop_error (balancedPass_end hn hnext)
  refused := by
    intro nesting pos t fault hnext hg hs
    refine loop_error ?_
    rw [balancedPass_next (by simpa using hg) hnext, bind_of_error (track_of_error hnext hs)]
  next := by
    intro nesting pos t nesting' hnext hg hs
    refine ⟨nesting', rfl, loop_again ?_, fun _ _ _ => trivial⟩
    rw [balancedPass_next (by simpa using hg) hnext, bind_of_ok (track_of_ok hnext hs)]
    rfl

theorem agrees_skipBalanced {d : Delimiter} {rest : List Token} (hdrop : ts.drop pos = t :: rest)
    (hk : t.kind = .opener d) : Agrees source (Stands ts fun _ _ => True)
      (skipBalanced source ts pos) (takeGroup [d] rest) := by
  obtain ⟨hnext, rfl, hle⟩ := next_of_drop hdrop
  have hstep : Nesting.step [] t = .ok [d] := by rw [Nesting.step, hk]
  rw [skipBalanced, bind_of_ok (track_of_ok hnext hstep), takeGroup_eq_takeUntil]
  exact follows_balanced.agrees [d] hle

end Skipping

end SignalBridge.Source.Cursor
