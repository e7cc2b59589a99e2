import SignalBridge.Proofs.Host.Member
import SignalBridge.Proofs.Registry.Declaration
import SignalBridge.Proofs.Source.FileOfStructs

namespace SignalBridge

open Source (Lexeme Nested Spaced Inked EndsWord FieldLine StructLines written bodyLines structSpec)

/-- An embedded type, as it is or by pointer, of this package or another. -/
structure HostBase where
  pointer : Bool
  package : Option Identifier
  name : Identifier

structure HostClass where
  name : Identifier
  notKeyword : Source.Keyword.ofText? name.text = none
  base : Option HostBase
  members : List HostMember

namespace HostBase

def packageText (b : HostBase) : List Char :=
  (b.package.map fun p => p.text ++ ['.']).getD []

def text (b : HostBase) : List Char :=
  (if b.pointer then ['*'] else []) ++ b.packageText ++ b.name.text

end HostBase

namespace HostClass

/-- The fields, a line each: the base if there is one, then the members. -/
def fieldTexts (c : HostClass) : List (List Char) :=
  (c.base.toList.map fun b => '\t' :: b.text) ++ c.members.map HostMember.text

/-- The declaration after an empty line. -/
def text (c : HostClass) : List Char :=
  '\n' :: ("type".toList ++ ' ' :: (c.name.text ++ ' ' ::
    ("struct".toList ++ ' ' :: '\x7b' :: '\n' ::
      (c.fieldTexts.flatMap (· ++ ['\n']) ++ ['\x7d', '\n']))))

/-- The class as the registry holds it, its types not mapped yet. -/
def metaClass (c : HostClass) : MetaClass where
  name := c.name.name
  visibility := .publicAccess
  moduleName := mainModule
  base := c.base.map fun b => b.name.name
  members := c.members.map (·.member c.name.name)

end HostClass

namespace HostBase

variable (b : HostBase)

def lexemes : List Lexeme :=
  (if b.pointer then [.star] else []) ++
    (b.package.map fun p => [.word p.text, .dot]).getD [] ++ [.word b.name.text]

theorem written_lexemes : written b.lexemes = b.text := by
  unfold lexemes text packageText
  cases b.pointer <;> cases b.package <;> simp [Lexeme.star, Lexeme.word, Lexeme.dot]

theorem inked : Inked b.lexemes := by
  have hname := Source.isInk_word b.name.isIdent
  unfold lexemes
  cases b.pointer with
  | true => exact .span _ (Source.isInk_mark rfl) (.single hname)
  | false =>
    cases b.package with
    | none => exact .single hname
    | some p => exact .span [.dot] (Source.isInk_word p.isIdent) (.single hname)

theorem nested : Nested true b.lexemes := by
  have hname : Nested true [.word b.name.text] := .plain (Source.isPlain_word b.name.isIdent) .nil
  have hpackage : Nested true ((b.package.map fun p => [.word p.text, .dot]).getD []) := by
    cases b.package with
    | none => exact .nil
    | some p => exact .plain (Source.isPlain_word p.isIdent) (.plain Source.isPlain_dot .nil)
  unfold lexemes
  cases b.pointer with
  | true => exact .append (.plain Source.isPlain_star hpackage) hname
  | false => exact .append hpackage hname

theorem spaced {rest : List Char} (hr : EndsWord rest) : Spaced b.lexemes rest := by
  have hname : Spaced [.word b.name.text] rest :=
    ⟨Source.readBefore_word b.name.isIdent hr, trivial⟩
  have hpackage : ∀ rest, Spaced ((b.package.map fun p => [.word p.text, .dot]).getD []) rest := by
    intro rest
    cases b.package with
    | none => trivial
    | some p =>
      exact ⟨Source.readBefore_word p.isIdent (Source.endsWord_cons.mpr rfl),
        Source.readBefore_mark rfl, trivial⟩
  unfold lexemes
  rw [List.append_assoc, Source.spaced_append, Source.spaced_append]
  refine ⟨?_, hpackage _, hname⟩
  cases b.pointer with
  | true => exact ⟨Source.readBefore_mark rfl, trivial⟩
  | false => trivial

/-- The embedded field as the scanner finds it. -/
def field : Source.Field :=
  ⟨[], String.ofList b.text, none, ⟨0, 0⟩⟩

theorem ofWord_not_literal (w : List Char) :
    (Source.Token.Kind.ofWord w).isStringLiteral = false := by
  unfold Source.Token.Kind.ofWord
  split <;> rfl

theorem fieldLine : FieldLine (.tab :: b.lexemes) b.field := by
  rw [field, ← b.written_lexemes]
  refine Source.fieldLine_embedded b.nested b.inked ?_ ?_
  · intro k hk
    have : (b.lexemes.filterMap Lexeme.kind).getLast? = some (.ofWord b.name.text) := by
      simp [lexemes, Lexeme.word]
    rw [this] at hk
    cases hk
    exact ofWord_not_literal _
  · unfold lexemes
    cases b.pointer with
    | true => exact .inl (by simp [Lexeme.star])
    | false =>
      cases b.package with
      | none => exact .inr (.inl rfl)
      | some p => exact .inr (.inr rfl)

theorem dropStar_of_ident (n : Identifier) (rest : List Char) :
    dropStar (n.text ++ rest) = n.text ++ rest := by
  obtain ⟨c, cs, h, hc, -⟩ := n.isIdent
  rw [h, List.cons_append]
  unfold dropStar
  split
  · rename_i he
    cases he
    cases hc
  · rfl

/-- Star and package left out, the embedded type is the base. -/
theorem embeddedName_text : embeddedName (String.ofList b.text) = b.name.name := by
  have htrim : Text.trim b.text = b.text := by
    rw [← b.written_lexemes]
    exact Text.trim_of_trimmed b.inked.trimmed
  obtain ⟨n, more, hn⟩ : ∃ (n : Identifier) (more : List Char),
      b.packageText ++ b.name.text = n.text ++ more := by
    unfold packageText
    cases b.package with
    | none => exact ⟨b.name, [], by simp⟩
    | some p => exact ⟨p, '.' :: b.name.text, by simp⟩
  have hstar : dropStar b.text = b.packageText ++ b.name.text := by
    unfold text
    cases b.pointer with
    | true => rfl
    | false => rw [hn]; simpa [hn] using dropStar_of_ident n more
  have hstart : Text.trimStart (b.packageText ++ b.name.text) = b.packageText ++ b.name.text := by
    apply Text.trimStart_of_head
    intro c hc
    rw [hn, List.head?_append_of_ne_nil _ n.isIdent.ne_nil] at hc
    exact Text.isBlank_of_isIdentPart (Source.isIdentPart_of_mem n.isIdent (List.mem_of_head? hc))
  have hdot : '.' ∉ b.name.text := fun h =>
    Text.isIdentPart_ne (Source.isIdentPart_of_mem b.name.isIdent h) rfl rfl
  have hlast : Text.afterLast '.' (b.packageText ++ b.name.text) = b.name.text := by
    unfold packageText
    cases b.package with
    | none => exact Text.afterLast_of_not_mem hdot
    | some p => simpa using Text.afterLast_append p.text hdot
  rw [embeddedName, String.toList_ofList, htrim, hstar, hstart, hlast, Identifier.name]

end HostBase

namespace Source

namespace StructDecl

variable (s : StructDecl)

theorem base_unplaced : s.unplaced.base = s.base := by
  simp only [base, unplaced, List.filter_map, List.getLast?_map, Option.map_map]
  rfl

theorem shell_unplaced : s.unplaced.shell = s.shell := by
  rw [shell, shell, base_unplaced]
  rfl

theorem members_unplaced (r : Registry) : s.unplaced.members r = s.members r := by
  simp only [members, unplaced, List.filter_map, List.filterMap_map]
  rfl

end StructDecl

end Source

namespace HostClass

variable (c : HostClass)

def fieldLines : List (List Lexeme) :=
  (c.base.toList.map fun b => .tab :: b.lexemes) ++ c.members.map HostMember.lexemes

def lexemes : List Lexeme :=
  .line :: .word "type".toList :: .space :: (structSpec c.name.text c.fieldLines ++ [.line])

/-- The struct as the scanner finds it. -/
def struct : Source.StructDecl :=
  ⟨c.name.name, c.base.toList.map HostBase.field ++ c.members.map HostMember.field⟩

theorem written_lexemes : written c.lexemes = c.text := by
  have hfields : c.fieldLines.map written = c.fieldTexts := by
    rw [fieldLines, fieldTexts, List.map_append, List.map_map, List.map_map]
    congr 1
    · exact List.map_congr_left fun b _ => by simp [b.written_lexemes, Lexeme.tab]
    · exact List.map_congr_left fun m _ => m.written_lexemes
  rw [text, ← hfields]
  exact Source.written_structLexemes c.name.text c.fieldLines

theorem forall₂_map {α β γ : Type} {R : β → γ → Prop} {f : α → β} {g : α → γ} {xs : List α}
    (h : ∀ x ∈ xs, R (f x) (g x)) : List.Forall₂ R (xs.map f) (xs.map g) :=
  List.forall₂_map_left_iff.mpr (List.forall₂_map_right_iff.mpr (List.forall₂_same.mpr h))

theorem ofWord_name : Source.Token.Kind.ofWord c.name.text = .ident := by
  rw [Source.Token.Kind.ofWord, c.notKeyword]

theorem structLines : StructLines c.lexemes c.struct := by
  refine ⟨c.name.text, c.fieldLines, c.ofWord_name, ?_, rfl, rfl⟩
  exact List.rel_append (forall₂_map fun b _ => b.fieldLine) (forall₂_map fun m _ => m.fieldLine)

theorem spaced {rest : List Char} : Spaced c.lexemes rest := by
  apply Source.spaced_structLexemes c.name.isIdent
  intro line hl rest
  rcases List.mem_append.mp hl with hl | hl
  · obtain ⟨b, -, rfl⟩ := List.mem_map.mp hl
    exact ⟨Source.readBefore_blank rfl b.inked.endsBlank, b.spaced (Source.endsWord_cons.mpr rfl)⟩
  · obtain ⟨m, -, rfl⟩ := List.mem_map.mp hl
    exact m.spaced

/-- The struct declares the base and the members that were written. -/
theorem shell_struct (r : Registry) :
    { c.struct.shell with members := c.struct.members r } = c.metaClass := by
  have hbases : ∀ f ∈ c.base.toList.map HostBase.field, f.isEmbedded = true := by
    intro f hf
    obtain ⟨b, -, rfl⟩ := List.mem_map.mp hf
    rfl
  have hmembers : ∀ f ∈ c.members.map HostMember.field, f.isEmbedded = false := by
    intro f hf
    obtain ⟨m, -, rfl⟩ := List.mem_map.mp hf
    rfl
  have hbase : c.struct.base = c.base.map fun b => b.name.name := by
    rw [Source.StructDecl.base, struct, List.filter_append, List.filter_eq_self.mpr hbases,
      List.filter_eq_nil_iff.mpr fun f hf => by simp [hmembers f hf], List.append_nil]
    cases c.base with
    | none => rfl
    | some b => simp [HostBase.field, b.embeddedName_text]
  have hfields : c.struct.members r = c.members.map (·.member c.name.name) := by
    rw [Source.StructDecl.members, struct, List.filter_append,
      List.filter_eq_nil_iff.mpr fun f hf => by simp [hbases f hf],
      List.filter_eq_self.mpr fun f hf => by simp [hmembers f hf], List.nil_append,
      List.filterMap_map]
    refine (List.filterMap_congr fun m _ => ?_).trans (congrFun List.filterMap_eq_map c.members)
    simp only [Function.comp_apply, m.tagText_field, Option.bind_some]
    exact m.fieldMember?_field r c.name.name
  rw [Source.StructDecl.shell, hbase, hfields]
  rfl

end HostClass

end SignalBridge
