import SignalBridge.Proofs.Source.Lookahead
import SignalBridge.Proofs.Source.Layout
import SignalBridge.Proofs.Source.Spans

namespace SignalBridge.Source

open List (Forall₂)

section Cutting

variable {offset : Nat} {leading : List Char} {ls : List Lexeme} {t : Token}
  {before after ts us : List Token}

/-- Lexemes are cut before and behind the lexeme of a token. -/
theorem cut_ofLexemes (h : Token.ofLexemes offset leading ls = before ++ t :: after) :
    ∃ front l back, ls = front ++ l :: back ∧ l.kind.isSome ∧
      Token.ofLexemes offset leading (front ++ [l]) = before ++ [t] ∧
      Spelled (l :: back) (t :: after) := by
  induction ls generalizing offset leading before with
  | nil => simp [Token.ofLexemes] at h
  | cons l ls ih =>
    rw [Token.ofLexemes] at h
    cases hk : l.kind with
    | none =>
      simp only [hk] at h
      obtain ⟨front, l', back, rfl, hl, hcut, hback⟩ := ih h
      refine ⟨l :: front, l', back, rfl, hl, ?_, hback⟩
      rw [List.cons_append, Token.ofLexemes, hk]
      exact hcut
    | some kind =>
      simp only [hk] at h
      cases before with
      | nil =>
        obtain ⟨rfl, rfl⟩ := List.cons.inj h
        refine ⟨[], l, ls, rfl, by simp [hk], ?_, offset, leading, ?_⟩
        · simp [Token.ofLexemes, hk]
        · rw [Token.ofLexemes, hk]
      | cons u before =>
        obtain ⟨rfl, hrest⟩ := List.cons.inj h
        obtain ⟨front, l', back, rfl, hl, hcut, hback⟩ := ih hrest
        refine ⟨l :: front, l', back, rfl, hl, ?_, hback⟩
        rw [List.cons_append, Token.ofLexemes, hk]
        simp only [hcut, List.cons_append]

theorem Spelled.sameWords (h : Spelled ls ts) (h' : Spelled ls us) : Forall₂ SameWord ts us := by
  obtain ⟨offset, leading, rfl⟩ := h
  obtain ⟨offset', leading', rfl⟩ := h'
  induction ls generalizing offset leading offset' leading' with
  | nil => exact .nil
  | cons l ls ih =>
    rw [Token.ofLexemes, Token.ofLexemes]
    cases l.kind with
    | none => exact ih _ _ _ _
    | some kind => exact .cons ⟨rfl, fun _ => rfl⟩ (ih _ _ _ _)

end Cutting

section Slices

variable {source : String} {ts run : List Token} {span : Span} {text : List Char}

theorem eq_of_byteLength_eq {a a' b b' : List Char} (h : a ++ a' = b ++ b')
    (hl : byteLength a = byteLength b) : a = b := by
  rw [← takeBytes_byteLength a a', h, hl, takeBytes_byteLength]

theorem hasText_unique {source a b : List Char} (h : HasText source span a)
    (h' : HasText source span b) : a = b := by
  obtain ⟨before, after, rfl, hstart, hstop⟩ := h
  obtain ⟨before', after', he, hstart', hstop'⟩ := h'
  obtain rfl := eq_of_byteLength_eq he (hstart.trans hstart'.symm)
  rw [← List.append_assoc, ← List.append_assoc] at he
  exact List.append_cancel_left (eq_of_byteLength_eq he (hstop.trans hstop'.symm))

theorem exists_run_of_mem {first last : Token} (hf : first ∈ ts) (hl : last ∈ ts)
    (ho : Ordered ts) (h : first.start ≤ last.start) :
    ∃ before run after, ts = before ++ (run ++ after) ∧ Spans ⟨first.start, last.stop⟩ run := by
  obtain ⟨before, rest, rfl⟩ := List.append_of_mem hf
  have hlast : last ∈ first :: rest := by
    rcases List.mem_append.mp hl with hm | hm
    · have := (List.pairwise_append.mp ho.order).2.2 last hm first List.mem_cons_self
      have := ho.room last hl
      omega
    · exact hm
  obtain ⟨init, after, he⟩ := List.append_of_mem hlast
  refine ⟨before, init ++ [last], after, by simp [he], first, ?_, last, by simp, rfl⟩
  cases init with
  | nil => simpa using (List.cons.inj he).1.symm
  | cons t init => simpa using (List.cons.inj he).1.symm

/-- What a source says from one of its tokens to another tokenizes to the tokens there. -/
theorem tokenize_slice {before after : List Token}
    (h : tokenize source = .ok (before ++ (run ++ after))) (hs : Spans span run)
    (ht : HasText source.toList span text) :
    ∃ us, tokenize (String.ofList text) = .ok us ∧ Forall₂ SameWord run us := by
  obtain ⟨ls, hls, hts⟩ := tokenize_eq_ok_iff.mp h
  obtain ⟨-, hspaced⟩ := spaced_of_lexemes hls
  obtain rfl := hasText_unique ht ((writtenAt_of_tokenize h).right.left.hasText hs)
  obtain ⟨first, hfirst, last, hlast, -⟩ := hs
  obtain ⟨more, hmore⟩ := List.head?_eq_some_iff.mp hfirst
  obtain ⟨init, hinit⟩ := List.getLast?_eq_some_iff.mp hlast
  have hend : Token.ofLexemes 0 [] ls = (before ++ init) ++ last :: after := by
    rw [hts, hinit]
    simp
  obtain ⟨front, l, back, rfl, hl, hfront, -⟩ := cut_ofLexemes hend
  have hstart : Token.ofLexemes 0 [] (front ++ [l]) = before ++ first :: more := by
    rw [hfront, List.append_assoc, ← hinit, hmore]
  obtain ⟨front', l', back', hcut, hl', -, hrun⟩ := cut_ofLexemes hstart
  rw [← hmore] at hrun
  have hbounded : Bounded (l' :: back') := by
    have hback : (l' :: back').getLast? = some l := by
      have := congrArg List.getLast? hcut
      rw [List.getLast?_append_of_ne_nil _ (List.cons_ne_nil l' back')] at this
      simpa using this.symm
    exact ⟨hl', by rw [hback]; exact hl⟩
  -- The reader sees one character past a lexeme; at the end of the slice there is none.
  have hslice : Spaced (l' :: back') [] := by
    rw [← List.singleton_append, ← List.append_assoc, hcut, List.append_assoc] at hspaced
    exact (spaced_append.mp (spaced_append.mp hspaced).2).1.congr fun _ _ c hc => by cases hc
  refine ⟨_, tokenize_eq_ok_iff.mpr ⟨l' :: back', ?_, rfl⟩, hrun.sameWords ⟨0, [], rfl⟩⟩
  rw [String.toList_ofList, hrun.sourceText hbounded]
  exact lexemes_of_spaced hslice

/-- What a source says from one of its tokens to a later one tokenizes to the tokens between. -/
theorem tokenize_between (h : tokenize source = .ok ts) (hs : Spans span run)
    (hsub : run.Sublist ts) (ht : HasText source.toList span text) :
    ∃ us, tokenize (String.ofList text) = .ok us ∧ Forall₂ SameWord (tokensIn span ts) us := by
  have ho := ordered_of_tokenize h
  obtain ⟨first, hfirst, last, hlast, rfl⟩ := id hs
  have hlast' := List.mem_of_mem_getLast? hlast
  have hle := ((ho.sublist hsub).bounds hs hlast').1
  obtain ⟨before, run', after, rfl, hs'⟩ :=
    exists_run_of_mem (hsub.subset (List.mem_of_mem_head? hfirst)) (hsub.subset hlast') ho hle
  have hrun := filter_tokensIn_run (p := fun _ => true) ho (by simpa using hs')
  simp only [List.filter_true] at hrun
  rw [hrun]
  exact tokenize_slice h hs' ht

end Slices

end SignalBridge.Source
