import Mathlib.Data.List.Basic
import SignalBridge.Library.Format
import SignalBridge.Proofs.Json.Printed

namespace SignalBridge

namespace Json

theorem wellWritten_optional (s : Option String) : ((s.map ofString).getD .null).WellWritten := by
  cases s with
  | none => exact .null
  | some s => exact .string (some s)

theorem wellWritten_list {α : Type} {toJson : α → Json} (h : ∀ x, (toJson x).WellWritten)
    (xs : List α) : (array (xs.map toJson)).WellWritten :=
  .array (List.forall_mem_map.mpr fun x _ => h x)

theorem list?_map {α : Type} {item? : Json → Option α} {toJson : α → Json}
    (h : ∀ x, item? (toJson x) = some x) (xs : List α) :
    list? item? (.array (xs.map toJson)) = some xs := by
  induction xs with
  | nil => rfl
  | cons x xs ih =>
    rw [list?] at ih ⊢
    rw [List.map_cons, List.mapM_cons, h, ih]
    rfl

@[simp] theorem text?_ofString (s : String) : text? (ofString s) = some s := rfl

@[simp] theorem optionalText?_optional (s : Option String) :
    optionalText? ((s.map ofString).getD .null) = some s := by
  cases s <;> rfl

/-- All entries of a written record are written well. -/
theorem wellWritten_record {entries : List (Option String × Json)}
    (h : (entries.map Prod.snd).Forall WellWritten) : (object entries).WellWritten :=
  .object (List.forall_mem_map.mp (List.forall_iff_forall_mem.mp h))

end Json

@[simp] theorem Visibility.choice?_text (v : Visibility) :
    Json.choice? Visibility.names (.ofString v.text) = some v := by
  cases v <;> rfl

@[simp] theorem Category.choice?_text (k : Category) :
    Json.choice? Category.names (.ofString k.text) = some k := by
  cases k <;> rfl

@[simp] theorem Virtuality.choice?_text (v : Virtuality) :
    Json.choice? Virtuality.names (.ofString v.text) = some v := by
  cases v <;> rfl

namespace Parameter

theorem wellWritten_toJson (p : Parameter) : p.toJson.WellWritten :=
  Json.wellWritten_record ⟨.string _, .string _, .string _⟩

theorem ofJson?_toJson (p : Parameter) : ofJson? p.toJson = some p := by
  have hrecord : p.toJson.record? fields = some [("name", .ofString p.name),
      ("host_type", .ofString p.hostType), ("native_type", .ofString p.nativeType)] := rfl
  simp [ofJson?, hrecord, required, optional, List.lookup_cons]

end Parameter

namespace Member

theorem wellWritten_toJson (m : Member) : m.toJson.WellWritten :=
  Json.wellWritten_record ⟨.string _, .string _, .string _, .string _,
    Json.wellWritten_optional m.hostReturn,
    Json.wellWritten_list Parameter.wellWritten_toJson m.parameters, .string _⟩

theorem ofJson?_toJson (m : Member) : ofJson? m.toJson = some m := by
  have hrecord : m.toJson.record? fields = some [("name", .ofString m.name),
      ("fullname", .ofString m.fullName), ("category", .ofString m.category.text),
      ("return_type", .ofString m.returnType),
      ("host_return", (m.hostReturn.map Json.ofString).getD .null),
      ("params", .array (m.parameters.map Parameter.toJson)),
      ("virtuality", .ofString m.virtuality.text)] := rfl
  have hparameters := Json.list?_map Parameter.ofJson?_toJson m.parameters
  simp [ofJson?, hrecord, required, optional, List.lookup_cons, hparameters]

end Member

namespace MetaClass

theorem wellWritten_toJson (c : MetaClass) : c.toJson.WellWritten :=
  Json.wellWritten_record ⟨.string _, .string _, .string _, Json.wellWritten_optional c.base,
    Json.wellWritten_list Member.wellWritten_toJson c.members⟩

theorem ofJson?_toJson (c : MetaClass) : ofJson? c.toJson = some c := by
  have hrecord : c.toJson.record? fields = some [("name", .ofString c.name),
      ("visibility", .ofString c.visibility.text), ("module", .ofString c.moduleName),
      ("base", (c.base.map Json.ofString).getD .null),
      ("members", .array (c.members.map Member.toJson))] := rfl
  have hmembers := Json.list?_map Member.ofJson?_toJson c.members
  simp [ofJson?, hrecord, required, optional, List.lookup_cons, hmembers]

end MetaClass

namespace LibraryModule

theorem wellWritten_toJson (m : LibraryModule) : m.toJson.WellWritten :=
  Json.wellWritten_record ⟨.string _, Json.wellWritten_list MetaClass.wellWritten_toJson m.classes⟩

theorem ofJson?_toJson (m : LibraryModule) : ofJson? m.toJson = some m := by
  have hrecord : m.toJson.record? fields = some [("name", .ofString m.name),
      ("classes", .array (m.classes.map MetaClass.toJson))] := rfl
  have hclasses := Json.list?_map MetaClass.ofJson?_toJson m.classes
  simp [ofJson?, hrecord, optional, List.lookup_cons, hclasses]

/-- What is written for a module is read back as that module. -/
theorem ofText?_toText (m : LibraryModule) : ofText? m.toText = some m := by
  rw [ofText?, toText, Json.ofText?_of_wellWritten m.wellWritten_toJson, Option.bind_some,
    m.ofJson?_toJson]

end LibraryModule

end SignalBridge
