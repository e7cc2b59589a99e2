import SignalBridge.Proofs.Artifact.Halves

namespace SignalBridge

/-- The conversions between lists and texts in Go. -/
def listCodec : List String :=
  ["mocJoinList", "mocSplitList"]

/-- Whether some of the calls convert between lists and texts. -/
def convertLists (calls : List HostCall) : Bool :=
  calls.any (·.function ∈ listCodec)

/-- Whether the function converts a value with the list codec. -/
def HostFunction.convertsList (g : HostFunction) : Bool :=
  convertLists g.hostCalls

section Calls

variable (call : HostCall) (calls calls' : List HostCall) (arity : Nat)

@[simp] theorem convertLists_nil : convertLists [] = false := rfl

@[simp] theorem convertLists_cons :
    convertLists (call :: calls) = (decide (call.function ∈ listCodec) || convertLists calls) := rfl

@[simp] theorem convertLists_append :
    convertLists (calls ++ calls') = (convertLists calls || convertLists calls') :=
  List.any_append

@[simp] theorem convertLists_reverse : convertLists calls.reverse = convertLists calls :=
  List.any_reverse

theorem convertLists_flatMap {α : Type} (f : α → List HostCall) (xs : List α) :
    convertLists (xs.flatMap f) = xs.any fun x => convertLists (f x) :=
  List.any_flatMap

theorem HostFunction.convertsList_iff {g : HostFunction} : g.convertsList ↔
    ∃ call ∈ g.hostCalls, call.function ∈ listCodec := by
  simp only [convertsList, convertLists, List.any_eq_true, decide_eq_true_eq]

-- What Go defines itself besides, and what it calls of C and of the handlers.

@[simp] theorem not_mem_listCodec_own : "mocCallback" ∉ listCodec ∧ "mocConnect" ∉ listCodec ∧
    "mocDisconnect" ∉ listCodec ∧ "mocForget" ∉ listCodec ∧ "unsafe.Pointer" ∉ listCodec := by
  decide

@[simp] theorem not_mem_listCodec_native (name : String) : "C." ++ name ∉ listCodec := by
  simp [listCodec, ← String.toList_inj]

@[simp] theorem not_mem_listCodec_handler (types result : String) :
    s!"f.(func({types}){result})" ∉ listCodec := by
  simp [listCodec, ← String.toList_inj, toString]

@[simp] theorem convertLists_goToC (boundary : Boundary) :
    convertLists (boundary.goToC.filterMap Code.Conversion.hostCall?) = boundary.isList := by
  cases boundary <;> rfl

@[simp] theorem convertLists_goFromC (boundary : Boundary) :
    convertLists (boundary.goFromC.filterMap Code.Conversion.hostCall?) = boundary.isList := by
  cases boundary <;> rfl

@[simp] theorem convertLists_freeLater (name : String) :
    convertLists (freeLater name).hostCalls = false :=
  rfl

end Calls

theorem Boundary.isCString_of_isList {boundary : Boundary} (h : boundary.isList) :
    boundary.isCString := by
  cases boundary <;> first | rfl | cases h

namespace Binding

variable (b : Binding)

/-- Whether a list is among the parameters. -/
def takesList : Bool :=
  b.parameters.any (·.boundary.isList)

/-- A list among the parameters is written into a C string beforehand. -/
@[simp] theorem convertLists_cStrings :
    convertLists (b.cStrings.flatMap HostStatement.hostCalls) = b.takesList := by
  rw [cStrings, List.flatMap_assoc, convertLists_flatMap, List.any_filter, takesList]
  congr 1
  funext p
  cases hl : p.boundary.isList with
  | true => simp [hl, Boundary.isCString_of_isList hl]
  | false => simp [hl]

@[simp] theorem convertLists_cArguments :
    convertLists (b.cArguments.flatMap Code.Argument.hostCalls) = false := by
  rw [cArguments, List.flatMap_map, convertLists_flatMap, List.any_eq_false]
  intro p hp
  cases hl : p.boundary.isList with
  | true => simp [Boundary.isCString_of_isList hl]
  | false =>
    split
    · simp
    · simp [hl]

@[simp] theorem convertLists_handlerCall :
    convertLists b.handlerCall.hostCalls = b.takesList := by
  rw [handlerCall, hostCalls_call, convertLists_cons,
    decide_eq_false (not_mem_listCodec_handler _ _), Bool.false_or, List.flatMap_map, convertLists_flatMap, takesList]
  congr 1
  funext p
  rw [hostCalls_argument, convertLists_reverse, convertLists_goFromC]

theorem convertsList_createFunction : b.createFunction.convertsList = b.takesList := by
  simp [HostFunction.convertsList, HostFunction.hostCalls_eq, createFunction]

theorem convertsList_deleteFunction : b.deleteFunction.convertsList = false := by
  simp [HostFunction.convertsList, HostFunction.hostCalls_eq, deleteFunction, Code.Expression.call]

theorem convertsList_forgetFunction : b.forgetFunction.convertsList = false := by
  simp [HostFunction.convertsList, HostFunction.hostCalls_eq, forgetFunction, Code.Expression.call]

theorem convertsList_connectFunction : b.connectFunction.convertsList = false := by
  cases h : b.isSignal <;>
    simp [HostFunction.convertsList, HostFunction.hostCalls_eq, connectFunction, linkCall, h,
      Code.Expression.call, keyArgument]

theorem convertsList_disconnectFunction : b.disconnectFunction.convertsList = false := by
  cases h : b.isSignal <;>
    simp [HostFunction.convertsList, HostFunction.hostCalls_eq, disconnectFunction, linkCall, h,
      Code.Expression.call, keyArgument]

theorem convertsList_callFunction : b.callFunction.convertsList = b.passesList := by
  cases hv : b.returnsValue <;> cases hs : b.result.isCString <;>
    simp [HostFunction.convertsList, HostFunction.hostCalls_eq, callFunction, wrapperResult,
      wrapperCall, hv, hs, passesList, takesList, Bool.or_comm]

theorem convertsList_callbackFunction : b.callbackFunction.convertsList = b.passesList := by
  cases hv : b.returnsValue <;>
    simp [HostFunction.convertsList, HostFunction.hostCalls_eq, callbackFunction, hv,
      Code.Expression.named, passesList, takesList, Bool.or_comm]

/-- Some function of a member converts a list exactly if a list passes. The functions of a
destructor pass nothing but the object. -/
theorem any_convertsList (h : b.member.category = .destructor → b.parameters = []) :
    b.hostFunctions.any HostFunction.convertsList = b.passesList := by
  cases hk : b.member.category with
  | constructor =>
    simp [hostFunctions, hk, convertsList_createFunction, passesList, returnsValue, takesList]
  | destructor =>
    simp [hostFunctions, hk, convertsList_deleteFunction, convertsList_forgetFunction, passesList,
      returnsValue, h hk]
  | signal | slot =>
    simp [hostFunctions, hk, convertsList_connectFunction, convertsList_disconnectFunction,
      convertsList_callFunction, convertsList_callbackFunction]

end Binding

section Lines

/-- The first lines of the list codec, and the lines that import what it needs. -/
def codecLines : List String :=
  ["func mocJoinList(list []string) string \x7b", "func mocSplitList(data string) []string \x7b",
    "\t\"strconv\"", "\t\"strings\""]

/-- Characters of which each line of a function has one, but no line that imports anything. -/
def signs : List Char :=
  [' ', '(', '\x7d']

theorem paren_mem_conversions {value : String} (conversions : List Code.Conversion)
    (h : '(' ∈ value.toList) : '(' ∈ (conversions.foldl Code.Conversion.apply value).toList := by
  induction conversions generalizing value with
  | nil => exact h
  | cons conversion conversions ih =>
    apply ih
    cases conversion <;> simp [Code.Conversion.apply, toString, h]

/-- A statement that gives nothing has to call something. -/
def Code.Statement.Acts : Statement → Prop
  | .run e => ∃ function arguments, e.subject = .call function arguments
  | .give _ => True

def HostStatement.Acts : HostStatement → Prop
  | .act s | .withHandler _ s => s.Acts
  | .assign .. | .defer _ | .declare .. => True

theorem Code.Statement.exists_sign {s : Statement} (h : s.Acts) :
    ∃ c ∈ signs, c ∈ s.text.toList := by
  cases s with
  | run e =>
    obtain ⟨function, arguments, he⟩ := h
    refine ⟨'(', by decide, ?_⟩
    rw [text, Expression.text, he]
    apply paren_mem_conversions
    simp [Subject.text, toString]
  | give e => exact ⟨' ', by decide, by simp [text]⟩

theorem HostStatement.exists_sign {s : HostStatement} (h : s.Acts) {line : String}
    (hl : line ∈ s.lines) : ∃ c ∈ signs, c ∈ line.toList := by
  cases s with
  | act s =>
    obtain rfl := List.mem_singleton.mp hl
    exact s.exists_sign h
  | assign name value | defer e | declare name type =>
    obtain rfl := List.mem_singleton.mp hl
    exact ⟨' ', by decide, by simp [toString]⟩
  | withHandler key s =>
    simp only [lines, Code.block, Code.indent, List.mem_cons, List.mem_append, List.map_cons,
      List.map_nil, List.not_mem_nil, or_false] at hl
    rcases hl with rfl | rfl | rfl
    · exact ⟨' ', by decide, by simp⟩
    · obtain ⟨c, hc, hmem⟩ := s.exists_sign h
      exact ⟨c, hc, by simp [hmem]⟩
    · exact ⟨'\x7d', by decide, by decide⟩

section Bodies

variable {b : Binding} {g : HostFunction} {s : HostStatement}

theorem Binding.acts_cStrings (hs : s ∈ b.cStrings) : s.Acts := by
  obtain ⟨p, -, hs⟩ := List.mem_flatMap.mp hs
  simp only [List.mem_cons, List.not_mem_nil, or_false] at hs
  rcases hs with rfl | rfl <;> trivial

theorem Binding.acts_linkCall {name : String} (hs : s ∈ b.linkCall name) : s.Acts := by
  unfold linkCall at hs
  split at hs
  · obtain rfl := List.mem_singleton.mp hs
    exact ⟨_, _, rfl⟩
  · cases hs

theorem Binding.acts_wrapperResult (hs : s ∈ b.wrapperResult) : s.Acts := by
  unfold wrapperResult at hs
  split at hs
  · split at hs <;> simp only [List.mem_cons, List.not_mem_nil, or_false] at hs
    · rcases hs with rfl | rfl | rfl <;> trivial
    · subst hs
      trivial
  · obtain rfl := List.mem_singleton.mp hs
    exact ⟨_, _, rfl⟩

theorem Binding.acts_callbackFunction (hs : s ∈ b.callbackFunction.body) : s.Acts := by
  unfold callbackFunction at hs
  split at hs <;> simp only [List.mem_cons, List.not_mem_nil, or_false] at hs
  · rcases hs with rfl | rfl | rfl <;> trivial
  · subst hs
    exact ⟨_, _, rfl⟩

theorem Binding.acts_of_mem (hg : g ∈ b.hostFunctions) (hs : s ∈ g.body) : s.Acts := by
  unfold hostFunctions at hg
  split at hg <;> simp only [List.mem_cons, List.not_mem_nil, or_false] at hg
  · subst hg
    rcases List.mem_append.mp hs with hs | hs
    · exact acts_cStrings hs
    · obtain rfl := List.mem_singleton.mp hs
      trivial
  · rcases hg with rfl | rfl <;> obtain rfl := List.mem_singleton.mp hs <;> exact ⟨_, _, rfl⟩
  all_goals
    rcases hg with rfl | rfl | rfl | rfl
    · rcases List.mem_cons.mp hs with rfl | hs
      · exact ⟨_, _, rfl⟩
      · exact acts_linkCall hs
    · rcases List.mem_append.mp hs with hs | hs
      · exact acts_linkCall hs
      · obtain rfl := List.mem_singleton.mp hs
        exact ⟨_, _, rfl⟩
    · rcases List.mem_append.mp hs with hs | hs
      · exact acts_cStrings hs
      · exact acts_wrapperResult hs
    · exact acts_callbackFunction hs

end Bodies

section Members

variable {r : Registry} {c : MetaClass} {g : HostFunction} {line : String}

/-- Where a line of a function stands. -/
theorem HostFunction.mem_lines_iff : line ∈ g.lines ↔ line ∈ g.marker ∨ line = g.opening ∨
    (∃ s ∈ g.body, ∃ inner ∈ s.lines, line = "\t" ++ inner) ∨ line = "\x7d" := by
  rw [← g.map_text_marked, marked, List.map_append, List.map_append, List.map_append,
    Code.Marked.map_text_plain, Code.Marked.map_text_indented, List.map_flatMap]
  simp only [HostStatement.map_text_marked, Code.indent, List.mem_append, List.mem_map,
    List.mem_flatMap, List.map_cons, List.map_nil, Code.Marked.text_plain, List.mem_singleton]
  constructor
  · rintro (((h | h) | ⟨inner, ⟨s, hs, hi⟩, rfl⟩) | h)
    · exact .inl h
    · exact .inr (.inl h)
    · exact .inr (.inr (.inl ⟨s, hs, inner, hi, rfl⟩))
    · exact .inr (.inr (.inr h))
  · rintro (h | h | ⟨s, hs, inner, hi, rfl⟩ | h)
    · exact .inl (.inl (.inl h))
    · exact .inl (.inl (.inr h))
    · exact .inl (.inr ⟨inner, ⟨s, hs, hi⟩, rfl⟩)
    · exact .inr h

theorem HostFunction.head_marker (h : line ∈ g.marker) : line.toList.head? = some '/' := by
  obtain ⟨heading, name, parameters, result, body⟩ := g
  cases heading with
  | bare => cases h
  | remark text | exported =>
    obtain rfl := List.mem_singleton.mp h
    simp

/-- Functions of classes are not named as those of the list codec. -/
theorem opening_not_mem (hg : g.name ∈ (r.boundClass c).hostNames) : g.opening ∉ codecLines := by
  have hcodec : ∀ line ∈ codecLines, '_' ∉ line.toList ∧ line.toList[5]? ≠ some 'N' ∧
      line.toList[5]? ≠ some 'D' := by decide
  intro hmem
  obtain ⟨hunderscore, hcreate, hdelete⟩ := hcodec _ hmem
  rcases cases_of_mem_hostNames hg with ⟨s, he⟩ | ⟨s, he⟩ | ⟨i, he⟩ | he
  · apply hunderscore
    simp [HostFunction.opening, he, underscore_mem]
  · apply hunderscore
    simp [HostFunction.opening, he, underscore_mem]
  · apply hcreate
    simp [HostFunction.opening, he, toList_createName]
  · apply hdelete
    simp [HostFunction.opening, he, deleteName]

/-- No line of a function of a class belongs to the list codec or imports anything for it. -/
theorem line_not_mem_of_codecLines (hg : g ∈ (r.boundClass c).hostFunctions)
    (hl : line ∈ codecLines) : line ∉ g.lines := by
  have hcodec : ∀ line ∈ codecLines, line.toList.head? ≠ some '/' ∧ line ≠ "\x7d" := by decide
  have hsigns : ∀ line ∈ codecLines,
      line.toList.head? = some '\t' → ∀ c ∈ signs, c ∉ line.toList := by
    simp [codecLines, signs]
  obtain ⟨hmarker, hend⟩ := hcodec line hl
  rw [HostFunction.mem_lines_iff]
  rintro (h | rfl | ⟨s, hs, inner, hi, rfl⟩ | h)
  · exact hmarker (HostFunction.head_marker h)
  · exact opening_not_mem (List.mem_map_of_mem hg) hl
  · obtain ⟨b, -, hb⟩ := List.mem_flatMap.mp hg
    obtain ⟨ch, hc, hmem⟩ := s.exists_sign (Binding.acts_of_mem hb hs) hi
    exact hsigns _ hl (by simp) ch hc (by simp [hmem])
  · exact hend h

/-- A line of the list codec, or one that imports something for it, is in the Go file only if lists
pass. -/
theorem mem_lines_iff_passLists {cs : List MetaClass} (package : String) (pkgConfig : List String)
    (hl : line ∈ codecLines) : line ∈ (HostFile.ofClasses package pkgConfig
      (cs.map r.boundClass)).lines ↔ HostFile.passLists (cs.map r.boundClass) := by
  have htitle : line ∉ HostFile.title package pkgConfig := by
    have hcodec : ∀ line ∈ codecLines,
        line.toList.head? = some 'f' ∨ line.toList.head? = some '\t' := by decide
    have htitle : ∀ line ∈ HostFile.title package pkgConfig,
        line.toList.head? ≠ some 'f' ∧ line.toList.head? ≠ some '\t' := by
      simp [HostFile.title]
    intro hmem
    exact (hcodec line hl).elim (htitle line hmem).1 (htitle line hmem).2
  have hcommon : ∀ line ∈ codecLines, ∀ lists, (line ∈ HostFile.importLines lists ++
      HostFile.handlerLines ++ HostFile.listLines lists ↔ lists) := by decide +kernel
  have hfunctions : line ∉ ((cs.map r.boundClass).flatMap BoundClass.hostFunctions).flatMap
      fun g => "" :: g.marked.map Code.Marked.text := by
    have hempty : "" ∉ codecLines := by decide
    intro hmem
    obtain ⟨g, hg, hmem⟩ := List.mem_flatMap.mp hmem
    rw [HostFunction.map_text_marked] at hmem
    rcases List.mem_cons.mp hmem with rfl | hmem
    · exact hempty hl
    · obtain ⟨_, hc, hg⟩ := List.mem_flatMap.mp hg
      obtain ⟨c, -, rfl⟩ := List.mem_map.mp hc
      exact line_not_mem_of_codecLines hg hl hmem
  rw [HostFile.lines_ofClasses, List.mem_append, or_iff_left hfunctions, List.append_assoc,
    List.append_assoc, List.mem_append, or_iff_right htitle, ← List.append_assoc,
    hcommon line hl]

end Members

end Lines

section Classes

variable {r : Registry} {cs : List MetaClass} {package : String} {pkgConfig : List String}

/-- Some function of the Go file converts a list exactly if a list passes in some class. -/
theorem exists_convertsList_iff (package : String) (pkgConfig : List String)
    (h : ∀ c ∈ cs, ∀ m ∈ c.members, m.category = .destructor → m.parameters = []) :
    (∃ g ∈ (HostFile.ofClasses package pkgConfig (cs.map r.boundClass)).functions,
        g.convertsList) ↔
      (cs.map r.boundClass).any fun c => c.bindings.any Binding.passesList := by
  have hbinding : ∀ c ∈ cs, ∀ b ∈ (r.boundClass c).bindings,
      ((∃ g ∈ b.hostFunctions, g.convertsList) ↔ b.passesList) := by
    intro c hc b hb
    rw [← b.any_convertsList (parameters_of_mem_bindAll (h c hc) hb), List.any_eq_true]
  rw [List.any_map, List.any_eq_true]
  simp only [HostFile.ofClasses, List.mem_flatMap, List.mem_map, BoundClass.hostFunctions,
    Function.comp_apply, List.any_eq_true]
  constructor
  · rintro ⟨g, ⟨-, ⟨c, hc, rfl⟩, b, hb, hg⟩, hconverts⟩
    exact ⟨c, hc, b, hb, (hbinding c hc b hb).mp ⟨g, hg, hconverts⟩⟩
  · rintro ⟨c, hc, b, hb, hpasses⟩
    obtain ⟨g, hg, hconverts⟩ := (hbinding c hc b hb).mpr hpasses
    exact ⟨g, ⟨_, ⟨c, hc, rfl⟩, b, hb, hg⟩, hconverts⟩

/-- Where destructors take no parameters, some function of a member converts a value with one of the
functions that write and read lists, or none does. In the first case the Go file has these functions
and imports the packages for them, in the other none of that. -/
theorem Registry.listCodec_present_iff (r : Registry) (cs : List MetaClass) (package : String)
    (pkgConfig : List String)
    (h : ∀ c ∈ cs, ∀ m ∈ c.members, m.category = .destructor → m.parameters = []) :
    let file := HostFile.ofClasses package pkgConfig (cs.map r.boundClass)
    let used := ∃ g ∈ file.functions, ∃ call ∈ g.hostCalls, call.function ∈ listCodec
    (∃ lists, (lists = true ↔ used) ∧
      file.lines = HostFile.title package pkgConfig ++ HostFile.importLines lists ++
        HostFile.handlerLines ++ HostFile.listLines lists ++
        file.functions.flatMap fun g => "" :: g.marked.map Code.Marked.text) ∧
      (HostFile.joinList <:+: file.lines ↔ used) ∧ (HostFile.splitList <:+: file.lines ↔ used) ∧
      ∀ line ∈ codecLines, line ∈ file.lines ↔ used := by
  intro file used
  have hused : used ↔ HostFile.passLists (cs.map r.boundClass) := by
    rw [HostFile.passLists, ← exists_convertsList_iff package pkgConfig h]
    simp only [used, HostFunction.convertsList_iff]
    rfl
  have hlines := HostFile.lines_ofClasses package pkgConfig (cs.map r.boundClass)
  have hmem : ∀ line ∈ codecLines, line ∈ file.lines ↔ used := by
    intro line hl
    rw [hused, mem_lines_iff_passLists package pkgConfig hl]
  have hboth (hu : used) :
      [""] ++ HostFile.joinList ++ [""] ++ HostFile.splitList <:+: file.lines := by
    rw [hlines, HostFile.listLines, if_pos (hused.mp hu)]
    exact List.infix_append _ _ _
  refine ⟨⟨_, hused.symm, hlines⟩, ⟨?_, ?_⟩, ⟨?_, ?_⟩, hmem⟩
  · intro hjoin
    exact (hmem _ (by decide)).mp (hjoin.subset List.mem_cons_self)
  · intro hu
    exact List.IsInfix.trans ⟨[""], [""] ++ HostFile.splitList, rfl⟩ (hboth hu)
  · intro hsplit
    exact (hmem _ (by decide)).mp (hsplit.subset List.mem_cons_self)
  · intro hu
    exact List.IsInfix.trans ⟨[""] ++ HostFile.joinList ++ [""], [], rfl⟩ (hboth hu)

/-- A class whose slot gives a list. -/
def tagBox : MetaClass :=
  ⟨"TagBox", .publicAccess, mainModule, some rootClass,
    [⟨"tags", "TagBox::tags", .slot, "QStringList", some "[]string", [], .nonvirtual⟩,
      ⟨"~TagBox", "TagBox::~TagBox", .destructor, "void", none, [], .nonvirtual⟩]⟩

theorem listCodec_present_tagBox :
    (∀ c ∈ [dial, tagBox], ∀ m ∈ c.members, m.category = .destructor → m.parameters = []) ∧
      (let file := HostFile.ofClasses "main" [] ([dial, tagBox].map dialRegistry.boundClass);
        HostFile.splitList <:+: file.lines ∧ "\t\"strconv\"" ∈ file.lines) ∧
      (let file := HostFile.ofClasses "main" [] ([dial].map dialRegistry.boundClass);
        ¬ HostFile.joinList <:+: file.lines ∧ "\t\"strings\"" ∉ file.lines) := by
  have hplain : ∀ c ∈ [dial, tagBox], ∀ m ∈ c.members,
      m.category = .destructor → m.parameters = [] := by decide
  obtain ⟨-, -, hsplit, hlines⟩ :=
    dialRegistry.listCodec_present_iff [dial, tagBox] "main" [] hplain
  obtain ⟨-, hjoin', -, hlines'⟩ := dialRegistry.listCodec_present_iff [dial] "main" []
    fun c hc => hplain c (List.mem_cons.mpr (.inl (List.mem_singleton.mp hc)))
  refine ⟨hplain, ⟨hsplit.mpr ?_, (hlines _ (by decide)).mpr ?_⟩,
    mt hjoin'.mp ?_, mt (hlines' _ (by decide)).mp ?_⟩
  all_goals decide +kernel

end Classes

end SignalBridge
