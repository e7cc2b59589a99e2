import SignalBridge.Proofs.Source.Matched
import SignalBridge.Proofs.Source.Placement

namespace SignalBridge.Source

open List (Forall₂)

/-- Items of pieces of the tokens, one piece after the other; what stands between the pieces belongs
to no item. -/
inductive InTurn {α : Type} (Of : List Token → α → Prop) : List Token → List α → Prop where
  | nil (ts : List Token) : InTurn Of ts []
  | cons (gap : List Token) {run rest : List Token} {a : α} {as : List α} (h : Of run a)
      (hs : InTurn Of rest as) : InTurn Of (gap ++ (run ++ rest)) (a :: as)

/-- A stretch from some of the tokens to another of them. -/
def SpanAmong (span : Span) (ts : List Token) : Prop :=
  ∃ first ∈ ts, ∃ last ∈ ts, span = ⟨first.start, last.stop⟩

/-- The fields of a struct; any other type has none. -/
def TypeDecl.fields (d : TypeDecl) : List Field :=
  match d.body with
  | .struct fields => fields
  | .other => []

/-- Tokens that take up room and follow one another. -/
structure Ordered (ts : List Token) : Prop where
  room : ∀ t ∈ ts, t.start < t.stop
  order : ts.Pairwise fun t u => t.stop ≤ u.start

namespace InTurn

variable {α : Type} {Of : List Token → α → Prop} {ts us : List Token} {a : α} {as bs : List α}

theorem prepend (front : List Token) (h : InTurn Of ts as) : InTurn Of (front ++ ts) as := by
  cases h with
  | nil ts => exact .nil _
  | cons gap h hs =>
    rw [← List.append_assoc]
    exact .cons (front ++ gap) h hs

theorem append (h : InTurn Of ts as) (h' : InTurn Of us bs) :
    InTurn Of (ts ++ us) (as ++ bs) := by
  induction h with
  | nil ts => exact h'.prepend ts
  | cons gap h hs ih =>
    rw [List.append_assoc, List.append_assoc]
    exact .cons gap h ih

theorem exists_run (h : InTurn Of ts as) (ha : a ∈ as) :
    ∃ before run after, ts = before ++ (run ++ after) ∧ Of run a := by
  induction h with
  | nil ts => cases ha
  | @cons gap run rest _ _ h hs ih =>
    rcases List.mem_cons.mp ha with rfl | ha
    · exact ⟨gap, run, rest, rfl, h⟩
    · obtain ⟨before, run', after, rfl, h'⟩ := ih ha
      exact ⟨gap ++ (run ++ before), run', after, by simp, h'⟩

/-- Where the tokens follow one another, so do the items. -/
theorem pairwise {span : α → Span} (h : InTurn Of ts as) (ho : Ordered ts)
    (hspan : ∀ run a, Of run a → SpanAmong (span a) run) :
    as.Pairwise fun a b => (span a).stop ≤ (span b).start := by
  induction h with
  | nil ts => exact .nil
  | @cons gap run rest a as h hs ih =>
    obtain ⟨-, hrun, -⟩ := List.pairwise_append.mp ho.order
    obtain ⟨-, hrest, hcross⟩ := List.pairwise_append.mp hrun
    refine List.pairwise_cons.mpr ⟨fun b hb => ?_, ih ⟨fun t ht => ho.room t ?_, hrest⟩⟩
    · obtain ⟨before, run', after, rfl, hb'⟩ := hs.exists_run hb
      obtain ⟨_, -, last, hlast, ha⟩ := hspan run a h
      obtain ⟨first, hfirst, _, -, hb⟩ := hspan run' b hb'
      rw [ha, hb]
      exact hcross last hlast first (by simp [hfirst])
    · simp [ht]

end InTurn

section Readers

variable {ts rest taken : List Token} {t : Token} {next : Option Token}

theorem exists_separators (ts : List Token) : ∃ gap, ts = gap ++ dropSeparators ts := by
  obtain ⟨gap, hgap⟩ := List.dropWhile_suffix (l := ts) fun t : Token => t.kind.isSeparator
  exact ⟨gap, hgap.symm⟩

theorem takeField_append (h : takeField t ts = .ok (taken, rest)) : taken ++ rest = t :: ts := by
  obtain ⟨_, -, h⟩ := bind_eq_ok_iff.mp h
  obtain ⟨⟨taken', rest'⟩, hr, h⟩ := bind_eq_ok_iff.mp h
  cases h
  rw [List.cons_append, takeUntil_append hr]

theorem typeParameters_append (h : typeParameters ts = .ok (taken, rest)) :
    taken ++ rest = ts := by
  unfold typeParameters at h
  split at h
  · split at h
    · obtain ⟨⟨taken', rest'⟩, hr, h⟩ := bind_eq_ok_iff.mp h
      cases h
      rw [List.cons_append, takeGroup_append hr]
    · cases h
      rfl
  · cases h
    rfl

theorem aliasSign_append (ts : List Token) : (aliasSign ts).1 ++ (aliasSign ts).2 = ts := by
  cases ts with
  | nil => rfl
  | cons t ts =>
    rw [aliasSign]
    split <;> rfl

/-- The field read from these tokens. -/
def FieldOf (run : List Token) (f : Field) : Prop :=
  ∃ next, Field.ofTokens run next = .ok f

/-- The declaration read from these tokens: it goes from its name to the last of them, and its
fields stand in turn behind the name. -/
def DeclOf (run : List Token) (d : TypeDecl) : Prop :=
  ∃ name more, run = name :: more ∧ name.kind = .ident ∧ d.name = String.ofList name.text ∧
    d.span = ⟨name.start, stopOf name.stop more⟩ ∧ InTurn FieldOf more d.fields

theorem inTurn_structBody {fields : List Field} {brace : Token}
    (h : structBody ts = .ok (fields, brace, rest)) :
    ∃ inner, ts = inner ++ brace :: rest ∧ InTurn FieldOf inner fields := by
  fun_induction structBody ts generalizing fields with
  | case1 => cases h
  | case2 ts t after hd ht =>
    cases h
    obtain ⟨gap, hgap⟩ := exists_separators ts
    exact ⟨gap, by rw [hgap, hd], .nil gap⟩
  | case3 => cases h
  | case4 ts t after hd ht taken after' hf ih =>
    obtain ⟨field, hfield, h⟩ := bind_eq_ok_iff.mp h
    obtain ⟨⟨_, _, _⟩, hr, h⟩ := bind_eq_ok_iff.mp h
    cases h
    obtain ⟨gap, hgap⟩ := exists_separators ts
    obtain ⟨inner, rfl, hinner⟩ := ih hr
    refine ⟨gap ++ (taken ++ inner), ?_, .cons gap ⟨_, hfield⟩ hinner⟩
    rw [List.append_assoc, List.append_assoc, takeField_append hf, hgap, hd]

theorem declOf_typeSpec {d : TypeDecl} (h : typeSpec ts = .ok (d, rest)) :
    ∃ run, ts = run ++ rest ∧ DeclOf run d := by
  obtain ⟨⟨name, ts₁⟩, h₁, h⟩ := bind_eq_ok_iff.mp h
  obtain ⟨⟨parameters, ts₂⟩, h₂, h⟩ := bind_eq_ok_iff.mp h
  obtain ⟨hts, hname⟩ := expect_eq_ok h₁
  rw [← typeParameters_append h₂, ← aliasSign_append ts₂] at hts
  simp only at h
  generalize (aliasSign ts₂).1 = sign at h hts
  split at h
  · rename_i hs
    cases h
    exact ⟨name :: (parameters ++ sign), by simp [hts, hs], _, _, rfl, hname, rfl, rfl, .nil _⟩
  · rename_i t ts₃ hs
    rw [hs] at hts
    split at h
    · obtain ⟨⟨opening, ts₄⟩, h₄, h⟩ := bind_eq_ok_iff.mp h
      obtain ⟨⟨fields, brace, ts₅⟩, h₅, h⟩ := bind_eq_ok_iff.mp h
      cases h
      obtain ⟨rfl, -⟩ := expect_eq_ok h₄
      obtain ⟨inner, rfl, hinner⟩ := inTurn_structBody h₅
      have hbody : InTurn FieldOf (inner ++ [brace]) (fields ++ []) := hinner.append (.nil _)
      rw [List.append_nil] at hbody
      refine ⟨name :: (parameters ++ (sign ++ [t, opening]) ++ (inner ++ [brace])), ?_,
        _, _, rfl, hname, rfl, ?_, hbody.prepend _⟩
      · simp [hts]
      · rw [← List.append_assoc, stopOf_concat]
    · obtain ⟨⟨taken, ts₄⟩, h₄, h⟩ := bind_eq_ok_iff.mp h
      cases h
      rw [← takeUntil_append h₄] at hts
      exact ⟨name :: (parameters ++ sign ++ taken), by simp [hts],
        _, _, rfl, hname, rfl, rfl, .nil _⟩

theorem inTurn_typeGroup {decls : List TypeDecl} (h : typeGroup ts = .ok (decls, rest)) :
    ∃ inner, ts = inner ++ rest ∧ InTurn DeclOf inner decls := by
  fun_induction typeGroup ts generalizing decls with
  | case1 => cases h
  | case2 ts t after hd ht =>
    cases h
    obtain ⟨gap, hgap⟩ := exists_separators ts
    exact ⟨gap ++ [t], by rw [hgap, hd, List.append_assoc, List.singleton_append], .nil _⟩
  | case3 => cases h
  | case4 ts t after hd ht decl after' hs ih =>
    obtain ⟨⟨_, _⟩, hr, h⟩ := bind_eq_ok_iff.mp h
    cases h
    obtain ⟨gap, hgap⟩ := exists_separators ts
    obtain ⟨run, hrun, hdecl⟩ := declOf_typeSpec hs
    obtain ⟨inner, rfl, hinner⟩ := ih hr
    refine ⟨gap ++ (run ++ inner), ?_, .cons gap hdecl hinner⟩
    rw [List.append_assoc, List.append_assoc, ← hrun, hgap, hd]

theorem inTurn_typeDecls {decls : List TypeDecl} (h : typeDecls ts = .ok (decls, rest)) :
    ∃ inner, ts = inner ++ rest ∧ InTurn DeclOf inner decls := by
  unfold typeDecls at h
  split at h
  · split at h
    · obtain ⟨inner, rfl, hinner⟩ := inTurn_typeGroup h
      exact ⟨_ :: inner, rfl, hinner.prepend [_]⟩
    · obtain ⟨⟨decl, rest'⟩, hr, h⟩ := bind_eq_ok_iff.mp h
      cases h
      obtain ⟨run, hrun, hdecl⟩ := declOf_typeSpec hr
      refine ⟨run, hrun, ?_⟩
      rw [← List.append_nil run]
      exact .cons [] hdecl (.nil [])
  · cases h

theorem inTurn_declarations {package : Option String} {nesting : Nesting} {file : SourceFile}
    (h : declarations package nesting ts = .ok file) : InTurn DeclOf ts file.types := by
  fun_induction declarations package nesting ts generalizing file with
  | case1 =>
    cases h
    exact .nil _
  | case2 => cases h
  | case3 => cases h
  | case4 package nesting t us ht name rest he ih =>
    obtain ⟨rfl, -⟩ := expect_eq_ok he
    exact (ih h).prepend [t, name]
  | case5 => cases h
  | case6 package nesting t us _ ht decls rest hd ih =>
    obtain ⟨file', hr, h⟩ := bind_eq_ok_iff.mp h
    cases h
    obtain ⟨inner, rfl, hinner⟩ := inTurn_typeDecls hd
    exact (hinner.append (ih hr)).prepend [t]
  | case7 package nesting t us _ _ ih =>
    obtain ⟨nesting', -, h⟩ := bind_eq_ok_iff.mp h
    exact (ih nesting' h).prepend [t]

end Readers

end SignalBridge.Source
