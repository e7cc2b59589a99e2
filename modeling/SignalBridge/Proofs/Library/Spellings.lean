import Mathlib.Data.List.Count
import Mathlib.Data.List.Nodup
import SignalBridge.Proofs.Json.Accepted
import SignalBridge.Proofs.Library.RoundTrip

/-!
The spellings of a library module. Each of its records is written as an object, with its fields in
any order and with other keys between them, or as an array of its fields; fields that equal their
default may be left out. All these are read as the same module, and a record that gives a field
twice or goes on behind its last field is refused (`ofText?_of_spelling`).
-/

namespace SignalBridge

open List (Forall₂)

namespace Json

def WritesText (s : String) (v : Json) : Prop :=
  v = ofString s

def WritesOptionalText (s : Option String) (v : Json) : Prop :=
  v = (s.map ofString).getD .null

/-- A name, or an object with the name as only key and null beside it. -/
def WritesChoice (name : String) (v : Json) : Prop :=
  v = ofString name ∨ v = .object [(some name, .null)]

def WritesList {α : Type} (Writes : α → Json → Prop) (xs : List α) (v : Json) : Prop :=
  ∃ vs, v = .array vs ∧ Forall₂ Writes xs vs

/-- A field of a record to be written: its name, the values that write it, and whether it may be
left out. -/
structure FieldForm where
  name : String
  Writes : Json → Prop
  omissible : Prop

/-- The values that write a record with these fields, in declared order. -/
inductive WritesRecord (forms : List FieldForm) : Json → Prop where
  /-- Fields in any order, each at most once, and other keys with any values anywhere. -/
  | object {entries : List (String × Json)}
      (once : ((entries.map Prod.fst).filter (· ∈ forms.map FieldForm.name)).Nodup)
      (given : ∀ form ∈ forms, ∀ v, (form.name, v) ∈ entries → form.Writes v)
      (left : ∀ form ∈ forms, form.name ∉ entries.map Prod.fst → form.omissible) :
      WritesRecord forms (.object (entries.map fun e => (some e.1, e.2)))
  /-- The first fields in declared order, the rest being left out. -/
  | array {given left : List FieldForm} {vs : List Json} (he : forms = given ++ left)
      (hgiven : Forall₂ FieldForm.Writes given vs) (hleft : ∀ form ∈ left, form.omissible) :
      WritesRecord forms (.array vs)

/-- What a value is read as. -/
inductive Schema where
  | text
  | choice
  | list (item : Schema)
  | record (fields : List (String × Schema))

/-- Somewhere in the value a key is repeated that should be there once, or a record goes on behind
its last field. -/
inductive Overfull : Schema → Json → Prop where
  | repeated {fields : List (String × Schema)} {entries : List (Option String × Json)}
      {name : String} (hf : name ∈ fields.map Prod.fst)
      (h : 2 ≤ (entries.map Prod.fst).count (some name)) :
      Overfull (.record fields) (.object entries)
  | beyond {fields : List (String × Schema)} {vs : List Json} (h : fields.length < vs.length) :
      Overfull (.record fields) (.array vs)
  | choice {e e' : Option String × Json} {es : List (Option String × Json)} :
      Overfull .choice (.object (e :: e' :: es))
  | entry {fields : List (String × Schema)} {entries : List (Option String × Json)}
      {name : String} {schema : Schema} {v : Json} (hf : (name, schema) ∈ fields)
      (hv : (some name, v) ∈ entries) (h : Overfull schema v) :
      Overfull (.record fields) (.object entries)
  | position {fields : List (String × Schema)} {vs : List Json} {i : Nat} {name : String}
      {schema : Schema} {v : Json} (hf : fields[i]? = some (name, schema)) (hv : vs[i]? = some v)
      (h : Overfull schema v) : Overfull (.record fields) (.array vs)
  | item {schema : Schema} {vs : List Json} {v : Json} (hv : v ∈ vs) (h : Overfull schema v) :
      Overfull (.list schema) (.array vs)

section Records

variable {forms given left : List FieldForm} {r : List (String × Json)} {v : Json} {name : String}
  {α : Type} {read? : Json → Option α} {a default : α} {Writes : Json → Prop} {omissible : Prop}

/-- What a record gives of its fields: each is written or may be left out. -/
def Covers (r : List (String × Json)) (forms : List FieldForm) : Prop :=
  ∀ form ∈ forms, (∀ v, r.lookup form.name = some v → form.Writes v) ∧
    (r.lookup form.name = none → form.omissible)

theorem mem_of_lookup (h : r.lookup name = some v) : (name, v) ∈ r := by
  obtain ⟨front, back, rfl, -⟩ := List.lookup_eq_some_iff.mp h
  simp

theorem lookup_eq_none_iff_notMem : r.lookup name = none ↔ name ∉ r.map Prod.fst := by
  rw [List.lookup_eq_none_iff, List.mem_map, not_exists]
  simp only [bne_iff_ne, not_and]
  exact forall₂_congr fun _ _ => ne_comm

theorem mapM_some (entries : List (String × Json)) :
    (entries.map fun e => (some e.1, e.2)).mapM
      (fun e : Option String × Json => e.1.map fun k => (k, e.2)) = some entries := by
  induction entries with
  | nil => rfl
  | cons e es ih =>
    rw [List.map_cons, List.mapM_cons, ih]
    rfl

theorem covers_zip {vs : List Json} (hgiven : Forall₂ FieldForm.Writes given vs)
    (hleft : ∀ form ∈ left, form.omissible) (hn : ((given ++ left).map FieldForm.name).Nodup) :
    Covers (((given ++ left).map FieldForm.name).zip vs) (given ++ left) := by
  induction hgiven with
  | nil =>
    intro form hf
    exact ⟨by simp, fun _ => hleft form hf⟩
  | @cons form v given vs hv _ ih =>
    obtain ⟨hnew, hn⟩ := List.nodup_cons.mp hn
    rintro form' hf
    rw [List.cons_append, List.map_cons, List.zip_cons_cons, List.lookup_cons]
    rcases List.mem_cons.mp hf with rfl | hf
    · simpa using hv
    · have hne : form'.name ≠ form.name := by
        rintro he
        exact hnew (he ▸ List.mem_map_of_mem hf)
      simpa [beq_false_of_ne hne] using ih hn form' hf

theorem WritesRecord.record? (h : WritesRecord forms v)
    (hn : (forms.map FieldForm.name).Nodup) :
    ∃ r, v.record? (forms.map FieldForm.name) = some r ∧ Covers r forms := by
  cases h with
  | @object entries once given left =>
    refine ⟨entries.filter (·.1 ∈ forms.map FieldForm.name), ?_, fun form hf => ⟨?_, ?_⟩⟩
    · rw [List.filter_map] at once
      simp only [Json.record?, mapM_some, Option.bind_eq_bind, Option.bind_some]
      exact if_pos once
    · intro v hv
      exact given form hf v (List.mem_of_mem_filter (mem_of_lookup hv))
    · intro hv
      refine left form hf fun hm => ?_
      obtain ⟨e, he, hname⟩ := List.mem_map.mp hm
      have hfield : e.1 ∈ forms.map FieldForm.name := hname ▸ List.mem_map_of_mem hf
      have hin : e ∈ entries.filter (·.1 ∈ forms.map FieldForm.name) :=
        List.mem_filter.mpr ⟨he, decide_eq_true hfield⟩
      exact lookup_eq_none_iff_notMem.mp hv (hname ▸ List.mem_map_of_mem hin)
  | @array given left vs he hgiven hleft =>
    subst he
    refine ⟨_, if_pos ?_, covers_zip hgiven hleft hn⟩
    rw [← hgiven.length_eq, List.length_map, List.length_append]
    exact Nat.le_add_right _ _

theorem required_of_covers (h : Covers r forms) (hf : ⟨name, Writes, False⟩ ∈ forms)
    (hread : ∀ v, Writes v → read? v = some a) : required r name read? = some a := by
  obtain ⟨hgiven, hleft⟩ := h _ hf
  unfold required
  cases hv : r.lookup name with
  | none => exact absurd hv hleft
  | some v => exact hread v (hgiven v hv)

theorem optional_of_covers (h : Covers r forms) (hf : ⟨name, Writes, omissible⟩ ∈ forms)
    (hread : ∀ v, Writes v → read? v = some a) (hd : omissible → a = default) :
    optional r name default read? = some a := by
  obtain ⟨hgiven, hleft⟩ := h _ hf
  unfold optional
  cases hv : r.lookup name with
  | none => rw [hd (hleft hv)]
  | some v => exact hread v (hgiven v hv)

/-- Where no key comes twice, an entry is found under its key. -/
theorem lookup_of_mem (hn : (r.map Prod.fst).Nodup) (h : (name, v) ∈ r) :
    r.lookup name = some v := by
  induction r with
  | nil => cases h
  | cons e r ih =>
    obtain ⟨hnew, hn⟩ := List.nodup_cons.mp hn
    rw [List.lookup_cons]
    rcases List.mem_cons.mp h with rfl | h
    · simp
    · have hne : name ≠ e.1 := by
        rintro rfl
        exact hnew (List.mem_map.mpr ⟨_, h, rfl⟩)
      simpa [beq_false_of_ne hne] using ih hn h

/-- Entries with different keys write a record if they hold what its fields need. -/
theorem writesRecord_of_covers (hn : (r.map Prod.fst).Nodup) (h : Covers r forms) :
    WritesRecord forms (.object (r.map fun e => (some e.1, e.2))) := by
  refine .object (hn.filter _) (fun form hf v hv => ?_) fun form hf hm => ?_
  · exact (h form hf).1 v (lookup_of_mem hn hv)
  · exact (h form hf).2 (lookup_eq_none_iff_notMem.mpr hm)

theorem eq_map_of_mapM {entries : List (Option String × Json)} {named : List (String × Json)}
    (h : entries.mapM (fun e => e.1.map fun k => (k, e.2)) = some named) :
    entries = named.map fun e => (some e.1, e.2) := by
  induction entries generalizing named with
  | nil =>
    cases h
    rfl
  | cons e es ih =>
    obtain ⟨k, v⟩ := e
    simp only [List.mapM_cons, Option.bind_eq_bind, Option.bind_eq_some_iff, Option.pure_def,
      Option.map_eq_some_iff, Option.some.injEq] at h
    obtain ⟨_, ⟨k, rfl, rfl⟩, named, hnamed, rfl⟩ := h
    rw [List.map_cons, ih hnamed]

end Records

section Refusals

variable {fields : List (String × Schema)} {names : List String} {r : List (String × Json)}
  {v w : Json} {α : Type} {schema : Schema}

theorem record?_object {entries : List (Option String × Json)}
    (h : (object entries).record? names = some r) :
    ∃ named : List (String × Json), entries = named.map (fun e => (some e.1, e.2)) ∧
      r = named.filter (·.1 ∈ names) ∧ (r.map Prod.fst).Nodup := by
  simp only [record?, Option.bind_eq_bind, Option.bind_eq_some_iff] at h
  obtain ⟨named, hnamed, h⟩ := h
  split at h
  · cases h
    exact ⟨named, eq_map_of_mapM hnamed, rfl, ‹_›⟩
  · cases h

theorem record?_array {vs : List Json} (h : (array vs).record? names = some r) :
    vs.length ≤ names.length ∧ r = names.zip vs := by
  rw [record?] at h
  split at h
  · cases h
    exact ⟨‹_›, rfl⟩
  · cases h

theorem nodup_keys_zip (hn : names.Nodup) (vs : List Json) :
    ((names.zip vs).map Prod.fst).Nodup := by
  induction names generalizing vs with
  | nil => simp
  | cons name names ih =>
    obtain ⟨hnew, hn⟩ := List.nodup_cons.mp hn
    cases vs with
    | nil => simp
    | cons v vs =>
      refine List.nodup_cons.mpr ⟨fun hm => hnew ?_, ih hn vs⟩
      obtain ⟨e, he, rfl⟩ := List.mem_map.mp hm
      exact (List.of_mem_zip he).1

theorem nodup_keys_of_record? (hn : names.Nodup) (h : v.record? names = some r) :
    (r.map Prod.fst).Nodup := by
  cases v with
  | object entries =>
    obtain ⟨_, -, -, hr⟩ := record?_object h
    exact hr
  | array vs =>
    obtain ⟨-, rfl⟩ := record?_array h
    exact nodup_keys_zip hn vs
  | _ => cases h

theorem count_named (named : List (String × Json)) (name : String) :
    ((named.map fun e => (some e.1, e.2)).map Prod.fst).count (some name) =
      (named.map Prod.fst).count name := by
  have hkeys : (named.map fun e => (some e.1, e.2)).map Prod.fst =
      (named.map Prod.fst).map some := by
    rw [List.map_map, List.map_map]
    rfl
  rw [hkeys, List.count_map_of_injective _ _ fun _ _ => Option.some.inj]

/-- What is read of an overfull record, if anything, holds a field that is overfull. -/
theorem overfull_of_record? (h : Overfull (.record fields) v)
    (hn : (fields.map Prod.fst).Nodup) (hr : v.record? (fields.map Prod.fst) = some r) :
    ∃ name schema w, (name, schema) ∈ fields ∧ r.lookup name = some w ∧ Overfull schema w := by
  have hkeys := nodup_keys_of_record? hn hr
  cases h with
  | @repeated _ entries name hf h =>
    obtain ⟨named, rfl, rfl, -⟩ := record?_object hr
    -- Of the keys that are fields none is dropped, so one that is repeated stays repeated.
    have hfilter : (named.filter (·.1 ∈ fields.map Prod.fst)).map Prod.fst =
        (named.map Prod.fst).filter (· ∈ fields.map Prod.fst) := by
      rw [List.filter_map]
      rfl
    have hcount := List.nodup_iff_count_le_one.mp hkeys name
    rw [hfilter, @List.count_filter _ _ _ (· ∈ fields.map Prod.fst) _ _ (decide_eq_true hf)]
      at hcount
    rw [count_named] at h
    omega
  | beyond h =>
    obtain ⟨hlen, -⟩ := record?_array hr
    rw [List.length_map] at hlen
    omega
  | @entry _ entries name schema w hf hw h =>
    obtain ⟨named, rfl, rfl, -⟩ := record?_object hr
    obtain ⟨e, he, heq⟩ := List.mem_map.mp hw
    cases heq
    have hfield : e.1 ∈ fields.map Prod.fst := List.mem_map.mpr ⟨_, hf, rfl⟩
    have hin : e ∈ named.filter (·.1 ∈ fields.map Prod.fst) :=
      List.mem_filter.mpr ⟨he, decide_eq_true hfield⟩
    exact ⟨_, _, _, hf, lookup_of_mem hkeys hin, h⟩
  | @position _ vs i name schema w hf hw h =>
    obtain ⟨-, rfl⟩ := record?_array hr
    have hin : (name, w) ∈ (fields.map Prod.fst).zip vs := by
      refine List.mem_of_getElem? (List.getElem?_zip_eq_some.mpr ⟨?_, hw⟩)
      rw [List.getElem?_map, hf]
      rfl
    exact ⟨_, _, _, List.mem_of_getElem? hf, lookup_of_mem hkeys hin, h⟩

/-- The reader gives nothing for overfull values. -/
def Refuses (schema : Schema) (read? : Json → Option α) : Prop :=
  ∀ v, Overfull schema v → read? v = none

theorem refuses_choice (names : List (String × α)) : Refuses .choice (choice? names) := by
  rintro v ⟨⟩
  rw [choice?]
  · simp
  · simp

theorem refuses_list {item? : Json → Option α} (h : Refuses schema item?) :
    Refuses (.list schema) (list? item?) := by
  intro v hover
  cases hover with
  | @item _ vs v hv hover =>
    have hnone := h v hover
    rw [list?]
    induction vs with
    | nil => cases hv
    | cons w vs ih =>
      rw [List.mapM_cons]
      rcases List.mem_cons.mp hv with rfl | hv
      · rw [hnone]
        rfl
      · rw [ih hv]
        cases item? w <;> rfl

/-- A record is refused where a field is, and where the reader of records finds too much. -/
theorem refuses_record {ofRecord? : List (String × Json) → Option α}
    (hn : (fields.map Prod.fst).Nodup)
    (h : ∀ name schema, (name, schema) ∈ fields → ∀ r w, r.lookup name = some w →
      Overfull schema w → ofRecord? r = none) :
    Refuses (.record fields) fun v => v.record? (fields.map Prod.fst) >>= ofRecord? := by
  intro v hover
  simp only
  cases hr : v.record? (fields.map Prod.fst) with
  | none => rfl
  | some r =>
    obtain ⟨name, schema, w, hf, hlookup, hw⟩ := overfull_of_record? hover hn hr
    exact h name schema hf r w hlookup hw

end Refusals

section Readings

variable {α : Type} {v : Json} {s : String} {forms : List FieldForm} {r : List (String × Json)}
  {name default : String}

theorem text?_of_writes (h : WritesText s v) : text? v = some s := by
  rw [h, text?_ofString]

theorem optionalText?_of_writes {s : Option String} (h : WritesOptionalText s v) :
    optionalText? v = some s := by
  rw [h, optionalText?_optional]

/-- Both forms of a choice are read alike. -/
theorem choice?_of_writes {names : List (String × α)} {a : α}
    (hs : choice? names (.ofString s) = some a) (h : WritesChoice s v) :
    choice? names v = some a := by
  rcases h with rfl | rfl
  · exact hs
  · exact hs

theorem list?_of_writes {Writes : α → Json → Prop} {item? : Json → Option α} {xs : List α}
    (hread : ∀ x v, Writes x v → item? v = some x) (h : WritesList Writes xs v) :
    list? item? v = some xs := by
  obtain ⟨vs, rfl, hs⟩ := h
  rw [list?]
  induction hs with
  | nil => rfl
  | cons h _ ih =>
    rw [List.mapM_cons, hread _ _ h, ih]
    rfl

theorem required_text (h : Covers r forms) (hf : ⟨name, WritesText s, False⟩ ∈ forms) :
    required r name text? = some s :=
  required_of_covers h hf fun _ => text?_of_writes

theorem optional_text (h : Covers r forms) (hf : ⟨name, WritesText s, s = default⟩ ∈ forms) :
    optional r name default text? = some s :=
  optional_of_covers h hf (fun _ => text?_of_writes) id

theorem optional_optionalText {s : Option String} (h : Covers r forms)
    (hf : ⟨name, WritesOptionalText s, s = none⟩ ∈ forms) :
    optional r name none optionalText? = some s :=
  optional_of_covers h hf (fun _ => optionalText?_of_writes) id

theorem optional_list {Writes : α → Json → Prop} {item? : Json → Option α} {xs : List α}
    (h : Covers r forms) (hf : ⟨name, WritesList Writes xs, xs = []⟩ ∈ forms)
    (hread : ∀ x v, Writes x v → item? v = some x) :
    optional r name [] (list? item?) = some xs :=
  optional_of_covers h hf (fun _ => list?_of_writes hread) id

end Readings

end Json

open Json (FieldForm WritesText WritesOptionalText WritesChoice WritesList WritesRecord Schema
  Refuses)

namespace Parameter

def forms (p : Parameter) : List FieldForm :=
  [⟨"name", WritesText p.name, False⟩,
    ⟨"host_type", WritesText p.hostType, p.hostType = ""⟩,
    ⟨"native_type", WritesText p.nativeType, p.nativeType = ""⟩]

/-- The value writes the parameter. -/
def Writes (p : Parameter) : Json → Prop :=
  WritesRecord p.forms

def schema : Schema :=
  .record [("name", .text), ("host_type", .text), ("native_type", .text)]

theorem ofJson?_of_writes (p : Parameter) (v : Json) (h : p.Writes v) : ofJson? v = some p := by
  obtain ⟨r, hr, hcovers⟩ := WritesRecord.record? h (by decide : fields.Nodup)
  have hrecord : v.record? fields = some r := hr
  have hname : required r "name" Json.text? = some p.name :=
    Json.required_text hcovers (by simp [forms])
  have hhost : optional r "host_type" "" Json.text? = some p.hostType :=
    Json.optional_text hcovers (by simp [forms])
  have hnative : optional r "native_type" "" Json.text? = some p.nativeType :=
    Json.optional_text hcovers (by simp [forms])
  simp [ofJson?, hrecord, hname, hhost, hnative]

theorem refuses : Refuses schema ofJson? := by
  refine Json.refuses_record (by decide) fun name s hf r w hlookup hover => ?_
  simp only [List.mem_cons, Prod.mk.injEq, List.not_mem_nil, or_false] at hf
  obtain ⟨rfl, rfl⟩ | ⟨rfl, rfl⟩ | ⟨rfl, rfl⟩ := hf <;> cases hover

end Parameter

namespace Member

def forms (m : Member) : List FieldForm :=
  [⟨"name", WritesText m.name, False⟩,
    ⟨"fullname", WritesText m.fullName, m.fullName = ""⟩,
    ⟨"category", WritesChoice m.category.text, False⟩,
    ⟨"return_type", WritesText m.returnType, m.returnType = "void"⟩,
    ⟨"host_return", WritesOptionalText m.hostReturn, m.hostReturn = none⟩,
    ⟨"params", WritesList Parameter.Writes m.parameters, m.parameters = []⟩,
    ⟨"virtuality", WritesChoice m.virtuality.text, m.virtuality = .nonvirtual⟩]

/-- The value writes the member. -/
def Writes (m : Member) : Json → Prop :=
  WritesRecord m.forms

def schema : Schema :=
  .record [("name", .text), ("fullname", .text), ("category", .choice), ("return_type", .text),
    ("host_return", .text), ("params", .list Parameter.schema), ("virtuality", .choice)]

theorem ofJson?_of_writes (m : Member) (v : Json) (h : m.Writes v) : ofJson? v = some m := by
  obtain ⟨r, hr, hcovers⟩ := WritesRecord.record? h (by decide : fields.Nodup)
  have hrecord : v.record? fields = some r := hr
  have hname : required r "name" Json.text? = some m.name :=
    Json.required_text hcovers (by simp [forms])
  have hfull : optional r "fullname" "" Json.text? = some m.fullName :=
    Json.optional_text hcovers (by simp [forms])
  have hcategory : required r "category" (Json.choice? Category.names) = some m.category :=
    Json.required_of_covers hcovers (by simp [forms])
      fun _ => Json.choice?_of_writes m.category.choice?_text
  have hreturn : optional r "return_type" "void" Json.text? = some m.returnType :=
    Json.optional_text hcovers (by simp [forms])
  have hhost : optional r "host_return" none Json.optionalText? = some m.hostReturn :=
    Json.optional_optionalText hcovers (by simp [forms])
  have hparameters : optional r "params" [] (Json.list? Parameter.ofJson?) = some m.parameters :=
    Json.optional_list hcovers (by simp [forms]) Parameter.ofJson?_of_writes
  have hvirtuality : optional r "virtuality" .nonvirtual (Json.choice? Virtuality.names) =
      some m.virtuality :=
    Json.optional_of_covers hcovers (by simp [forms])
      (fun _ => Json.choice?_of_writes m.virtuality.choice?_text) id
  simp [ofJson?, hrecord, hname, hfull, hcategory, hreturn, hhost, hparameters, hvirtuality]

theorem refuses : Refuses schema ofJson? := by
  refine Json.refuses_record (by decide) fun name s hf r w hlookup hover => ?_
  simp only [List.mem_cons, Prod.mk.injEq, List.not_mem_nil, or_false] at hf
  obtain ⟨rfl, rfl⟩ | ⟨rfl, rfl⟩ | ⟨rfl, rfl⟩ | ⟨rfl, rfl⟩ | ⟨rfl, rfl⟩ | ⟨rfl, rfl⟩ | ⟨rfl, rfl⟩ :=
    hf
  case inl | inr.inl | inr.inr.inr.inl | inr.inr.inr.inr.inl => cases hover
  · simp [required, hlookup, Json.refuses_choice Category.names w hover]
  · simp [optional, hlookup, Json.refuses_list Parameter.refuses w hover]
  · simp [optional, hlookup, Json.refuses_choice Virtuality.names w hover]

end Member

namespace MetaClass

def forms (c : MetaClass) : List FieldForm :=
  [⟨"name", WritesText c.name, False⟩,
    ⟨"visibility", WritesChoice c.visibility.text, c.visibility = .publicAccess⟩,
    ⟨"module", WritesText c.moduleName, c.moduleName = ""⟩,
    ⟨"base", WritesOptionalText c.base, c.base = none⟩,
    ⟨"members", WritesList Member.Writes c.members, c.members = []⟩]

/-- The value writes the class. -/
def Writes (c : MetaClass) : Json → Prop :=
  WritesRecord c.forms

def schema : Schema :=
  .record [("name", .text), ("visibility", .choice), ("module", .text), ("base", .text),
    ("members", .list Member.schema)]

theorem ofJson?_of_writes (c : MetaClass) (v : Json) (h : c.Writes v) : ofJson? v = some c := by
  obtain ⟨r, hr, hcovers⟩ := WritesRecord.record? h (by decide : fields.Nodup)
  have hrecord : v.record? fields = some r := hr
  have hname : required r "name" Json.text? = some c.name :=
    Json.required_text hcovers (by simp [forms])
  have hvisibility : optional r "visibility" .publicAccess (Json.choice? Visibility.names) =
      some c.visibility :=
    Json.optional_of_covers hcovers (by simp [forms])
      (fun _ => Json.choice?_of_writes c.visibility.choice?_text) id
  have hmodule : optional r "module" "" Json.text? = some c.moduleName :=
    Json.optional_text hcovers (by simp [forms])
  have hbase : optional r "base" none Json.optionalText? = some c.base :=
    Json.optional_optionalText hcovers (by simp [forms])
  have hmembers : optional r "members" [] (Json.list? Member.ofJson?) = some c.members :=
    Json.optional_list hcovers (by simp [forms]) Member.ofJson?_of_writes
  simp [ofJson?, hrecord, hname, hvisibility, hmodule, hbase, hmembers]

theorem refuses : Refuses schema ofJson? := by
  refine Json.refuses_record (by decide) fun name s hf r w hlookup hover => ?_
  simp only [List.mem_cons, Prod.mk.injEq, List.not_mem_nil, or_false] at hf
  obtain ⟨rfl, rfl⟩ | ⟨rfl, rfl⟩ | ⟨rfl, rfl⟩ | ⟨rfl, rfl⟩ | ⟨rfl, rfl⟩ := hf
  case inl | inr.inr.inl | inr.inr.inr.inl => cases hover
  · simp [optional, hlookup, Json.refuses_choice Visibility.names w hover]
  · simp [optional, hlookup, Json.refuses_list Member.refuses w hover]

end MetaClass

namespace LibraryModule

def forms (m : LibraryModule) : List FieldForm :=
  [⟨"name", WritesText m.name, m.name = ""⟩,
    ⟨"classes", WritesList MetaClass.Writes m.classes, m.classes = []⟩]

/-- The value writes the module. -/
def Writes (m : LibraryModule) : Json → Prop :=
  WritesRecord m.forms

def schema : Schema :=
  .record [("name", .text), ("classes", .list MetaClass.schema)]

theorem ofJson?_of_writes {m : LibraryModule} {v : Json} (h : m.Writes v) :
    ofJson? v = some m := by
  obtain ⟨r, hr, hcovers⟩ := WritesRecord.record? h (by decide : fields.Nodup)
  have hrecord : v.record? fields = some r := hr
  have hname : optional r "name" "" Json.text? = some m.name :=
    Json.optional_text hcovers (by simp [forms])
  have hclasses : optional r "classes" [] (Json.list? MetaClass.ofJson?) = some m.classes :=
    Json.optional_list hcovers (by simp [forms]) MetaClass.ofJson?_of_writes
  simp [ofJson?, hrecord, hname, hclasses]

theorem refuses : Refuses schema ofJson? := by
  refine Json.refuses_record (by decide) fun name s hf r w hlookup hover => ?_
  simp only [List.mem_cons, Prod.mk.injEq, List.not_mem_nil, or_false] at hf
  obtain ⟨rfl, rfl⟩ | ⟨rfl, rfl⟩ := hf
  · cases hover
  · simp [optional, hlookup, Json.refuses_list MetaClass.refuses w hover]

/-- However a module is spelled, it is read as that module; and what repeats a key of a record, or
goes on behind the last field of one, is refused. -/
theorem ofText?_of_spelling :
    (∀ (m : LibraryModule) v text, m.Writes v → v.SpelledBy text → ofText? text = some m) ∧
    ∀ v text, Json.Overfull schema v → v.SpelledBy text → ofText? text = none := by
  constructor
  · intro m v text hwrites hspelled
    rw [ofText?, Json.ofText?_of_spelledBy hspelled, Option.bind_some, ofJson?_of_writes hwrites]
  · intro v text hover hspelled
    rw [ofText?, Json.ofText?_of_spelledBy hspelled, Option.bind_some, refuses v hover]

def rung : Member :=
  ⟨"rung", "", .signal, "void", none, [⟨"times", "", ""⟩], .nonvirtual⟩

def rungEntries : List (String × Json) :=
  [("category", .object [(some "signal", .null)]), ("since", .number "-1.5e+3"),
    ("params", .array [.array [.ofString "times"]]), ("name", .ofString "rung")]

/-- The member as an object, its fields in another order. -/
def rungJson : Json :=
  .object (rungEntries.map fun e => (some e.1, e.2))

def bell : MetaClass :=
  ⟨"Bell", .protectedAccess, "", none, [rung]⟩

/-- The class as an array of all its fields. -/
def bellJson : Json :=
  .array [.ofString "Bell", .object [(some "protected", .null)], .ofString "", .null,
    .array [rungJson]]

def bellEntries : List (String × Json) :=
  [("note", .array [.string none, .bool true]), ("classes", .array [bellJson])]

def bellsJson : Json :=
  .object (bellEntries.map fun e => (some e.1, e.2))

def bellText : String :=
  "\x7b \"note\" : [ \"\\ud800\",true ],\n\t\"classes\":[[\"B\\u0065ll\"," ++
    "\x7b\"protected\":null\x7d,\"\",null,[\x7b\"category\":\x7b\"signal\":null\x7d,\r\n" ++
    "\"since\" :-1.5e+3, \"params\":[[\"times\"]],\"n\\u0061me\":\"rung\"\x7d]]]\x7d "

theorem writes_rung : rung.Writes rungJson := by
  have hparameter : (Parameter.mk "times" "" "").Writes (.array [.ofString "times"]) :=
    @WritesRecord.array _ [⟨"name", _, False⟩] _ _ rfl (.cons rfl .nil) (by simp)
  have hparameters : WritesList Parameter.Writes [⟨"times", "", ""⟩]
      (.array [.array [.ofString "times"]]) := ⟨_, rfl, .cons hparameter .nil⟩
  refine Json.writesRecord_of_covers (by decide) ?_
  simp [Json.Covers, Member.forms, rung, rungEntries, List.lookup_cons, WritesText, WritesChoice,
    hparameters, Category.text]

theorem writes_bell : bell.Writes bellJson := by
  have hmembers : WritesList Member.Writes bell.members (.array [rungJson]) :=
    ⟨_, rfl, .cons writes_rung .nil⟩
  exact .array (List.append_nil _).symm
    (.cons rfl (.cons (.inr rfl) (.cons rfl (.cons rfl (.cons hmembers .nil))))) (by simp)

theorem writes_bells : (LibraryModule.mk "" [bell]).Writes bellsJson := by
  have hclasses : WritesList MetaClass.Writes [bell] (.array [bellJson]) :=
    ⟨_, rfl, .cons writes_bell .nil⟩
  refine Json.writesRecord_of_covers (by decide) ?_
  simp [Json.Covers, forms, bellEntries, List.lookup_cons, hclasses]

/-- A module whose class is given two names. -/
def renamedJson : Json :=
  .array [.ofString "", .array [.object [(some "name", .ofString "Bell"),
    (some "name", .ofString "Gong")]]]

def renamedText : String :=
  "[\"\", [\x7b\"name\": \"Bell\", \"n\\u0061me\": \"Gong\"\x7d]]"

theorem overfull_renamed : Json.Overfull schema renamedJson :=
  @Json.Overfull.position _ _ 1 _ _ _ rfl rfl
    (.item List.mem_cons_self (@Json.Overfull.repeated _ _ "name" (by decide) (by decide)))

theorem ofText?_of_spelling_bell :
    ofText? bellText = some ⟨"", [bell]⟩ ∧ ofText? renamedText = none := by
  have hbell : bellsJson.SpelledBy bellText :=
    Json.spaced_of_tokens? (by decide +kernel)
  have hrenamed : renamedJson.SpelledBy renamedText :=
    Json.spaced_of_tokens? (by decide +kernel)
  exact ⟨ofText?_of_spelling.1 _ _ _ writes_bells hbell,
    ofText?_of_spelling.2 _ _ overfull_renamed hrenamed⟩

end LibraryModule

end SignalBridge
