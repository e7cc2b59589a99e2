import SignalBridge.Proofs.Host.Class

namespace SignalBridge

open Source (Lexeme Spaced StructDecl SourceFile written)

/-- A source file of one package. -/
structure HostSource where
  package : Identifier
  notKeyword : Source.Keyword.ofText? package.text = none
  classes : List HostClass

namespace HostSource

def text (file : HostSource) : List Char :=
  'p' :: 'a' :: 'c' :: 'k' :: 'a' :: 'g' :: 'e' :: ' ' ::
    (file.package.text ++ '\n' :: file.classes.flatMap HostClass.text)

def source (file : HostSource) : String :=
  String.ofList file.text

def lexemes (file : HostSource) : List Lexeme :=
  .word "package".toList :: .space :: .word file.package.text :: .line ::
    (file.classes.map HostClass.lexemes).flatten

variable (file : HostSource)

theorem written_lexemes : written file.lexemes = file.text := by
  have hclasses : (file.classes.map HostClass.lexemes).map written =
      file.classes.map HostClass.text := by
    rw [List.map_map]
    exact List.map_congr_left fun c _ => c.written_lexemes
  rw [lexemes, text, List.flatMap_def, Source.written_cons, Source.written_cons,
    Source.written_cons, Source.written_cons, Source.written_flatten, hclasses]
  rfl

theorem spaced : Spaced file.lexemes [] := by
  apply Source.spaced_fileLexemes file.package.isIdent
  intro ls hl rest
  obtain ⟨c, -, rfl⟩ := List.mem_map.mp hl
  exact c.spaced

/-- The scanner accepts the file and finds its classes. -/
theorem scan_source : ∃ scanned, Source.scan file.source = .ok scanned ∧
    scanned.structs.map StructDecl.unplaced = file.classes.map HostClass.struct := by
  have hword : Source.Token.Kind.ofWord file.package.text = .ident := by
    rw [Source.Token.Kind.ofWord, file.notKeyword]
  obtain ⟨scanned, hscan, -, hstructs⟩ := Source.scan_structs hword
    (HostClass.forall₂_map fun c _ => c.structLines) file.spaced
  refine ⟨scanned, ?_, Source.structs_of_declares hstructs⟩
  rw [source, ← file.written_lexemes]
  exact hscan

end HostSource

variable {r : Registry} {files : List HostSource}

theorem scan_sources (files : List HostSource) : ∃ scanned : List SourceFile,
    List.Forall₂ (fun (file : HostSource) s => Source.scan file.source = .ok s) files scanned ∧
      (scanned.flatMap SourceFile.structs).map StructDecl.unplaced =
        (files.flatMap HostSource.classes).map HostClass.struct := by
  induction files with
  | nil => exact ⟨[], .nil, rfl⟩
  | cons file files ih =>
    obtain ⟨scanned, hscan, hstructs⟩ := file.scan_source
    obtain ⟨rest, hrest, hmap⟩ := ih
    refine ⟨scanned :: rest, .cons hscan hrest, ?_⟩
    rw [List.flatMap_cons, List.map_append, hstructs, hmap, List.flatMap_cons, List.map_append]

/-- Classes with different names, written to any number of files, are scanned and built again: in
order, each as it was written, and no other name stands for anything new. -/
theorem build_of_written (hr : r.declared = [])
    (hn : ((files.flatMap HostSource.classes).map fun c => c.name.name).Nodup) :
    ∃ scanned,
      List.Forall₂ (fun (file : HostSource) s => Source.scan file.source = .ok s) files scanned ∧
      ∃ built, r.build scanned =
        .ok (built, (files.flatMap HostSource.classes).map fun c => c.name.name) ∧
      (∀ c ∈ files.flatMap HostSource.classes, built.find? c.name.name = some c.metaClass) ∧
      ∀ name, name ∉ (files.flatMap HostSource.classes).map (fun c => c.name.name) →
        built.find? name = r.find? name := by
  obtain ⟨scanned, hscan, hstructs⟩ := scan_sources files
  refine ⟨scanned, hscan, ?_⟩
  have hnames : (scanned.flatMap SourceFile.structs).map StructDecl.name =
      (files.flatMap HostSource.classes).map fun c => c.name.name := by
    have := congrArg (List.map StructDecl.name) hstructs
    rw [List.map_map, List.map_map] at this
    exact this
  have hnd : ((scanned.flatMap SourceFile.structs).map StructDecl.name).Nodup := hnames ▸ hn
  obtain ⟨registered, hreg⟩ := Registry.declare_ok_iff.mpr
    ⟨hnd, fun s _ => Registry.any_isDeclared_of_declared_nil hr s.name⟩
  refine ⟨registered.attach (scanned.flatMap SourceFile.structs),
    Registry.build_ok_iff.mpr ⟨registered, hreg, rfl, hnames.symm⟩, ?_, ?_⟩
  · intro c hc
    obtain ⟨s, hs, he⟩ := List.mem_map.mp (hstructs ▸ List.mem_map_of_mem hc)
    have hname : s.name = c.name.name := congrArg StructDecl.name he
    have hfind := (Keyed.find?_eq_some_iff hnd).mpr ⟨hs, hname⟩
    rw [Registry.find?_attach hreg, hfind, ← c.shell_struct registered, ← he,
      s.members_unplaced, s.shell_unplaced]
    rfl
  · intro name hname
    rw [← hnames] at hname
    rw [Registry.find?_attach hreg, Keyed.find?_eq_none_iff.mpr hname]
    rfl

section Rows

def mainPackage : Identifier :=
  ⟨['m', 'a', 'i', 'n'], 'm', ['a', 'i', 'n'], rfl, rfl, List.all_eq_true.mp rfl⟩

def rowName : Identifier :=
  ⟨['R', 'o', 'w'], 'R', ['o', 'w'], rfl, rfl, List.all_eq_true.mp rfl⟩

def cellName : Identifier :=
  ⟨['C', 'e', 'l', 'l'], 'C', ['e', 'l', 'l'], rfl, rfl, List.all_eq_true.mp rfl⟩

def toName : Identifier :=
  ⟨['t', 'o'], 't', ['o'], rfl, rfl, List.all_eq_true.mp rfl⟩

/-- A class with a signal and a slot, whose base another file declares. -/
def rowClass : HostClass where
  name := rowName
  notKeyword := by decide
  base := some ⟨true, none, cellName⟩
  members := [
    ⟨['m', 'o', 'v', 'e', 'd'], rfl, [⟨toName, .func [.name cellName, .chan (.name rowName)] none⟩],
      .signal⟩,
    ⟨['p', 'i', 'c', 'k'], rfl, [], .slot (some (.map (.name rowName) (.slice .emptyStruct)))⟩]

def cellClass : HostClass :=
  ⟨cellName, by decide, some ⟨false, some mainPackage, rowName⟩, []⟩

def rowSource : HostSource :=
  ⟨mainPackage, by decide, [rowClass]⟩

def cellSource : HostSource :=
  ⟨mainPackage, by decide, [cellClass]⟩

theorem build_of_written_rows : ∃ scanned,
    List.Forall₂ (fun (file : HostSource) s => Source.scan file.source = .ok s)
      [rowSource, cellSource] scanned ∧
    ∃ built, Registry.empty.build scanned = .ok (built, ["Row", "Cell"]) ∧
      built.find? "Row" = some rowClass.metaClass ∧
      built.find? "Cell" = some cellClass.metaClass := by
  obtain ⟨scanned, hscan, built, hbuild, hfind, -⟩ :=
    @build_of_written Registry.empty [rowSource, cellSource] rfl (by decide)
  have hrow : rowClass ∈ [rowSource, cellSource].flatMap HostSource.classes := .head _
  have hcell : cellClass ∈ [rowSource, cellSource].flatMap HostSource.classes := .tail _ (.head _)
  exact ⟨scanned, hscan, built, hbuild, hfind rowClass hrow, hfind cellClass hcell⟩

end Rows

end SignalBridge
