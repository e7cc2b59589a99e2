import SignalBridge.Disk.Basic
import SignalBridge.Proofs.Keyed
import SignalBridge.Proofs.Text.Pieces

/-!
Where paths lead. Above a place that a path leads to there are only folders, and the place is no
link (`reached_of_locate`). So a file put there is put into a folder: at every other place is what
was there before (`node?_put`), and every path leads where it led (`sameWays_put`).
-/

namespace SignalBridge.Disk

variable {d after : Disk} {folder place stop names : List String} {name path : String} {node : Node}

section Nodes

/-- What lies on the way to something is there, even if nothing was put at the place itself. -/
def OnWay (d : Disk) (place : List String) : Prop :=
  place = [] ∨ ∃ below ∈ d.nodes.map Prod.fst, place <+: below

instance (d : Disk) (place : List String) : Decidable (d.OnWay place) :=
  inferInstanceAs (Decidable (_ ∨ _))

theorem node?_eq (d : Disk) (place : List String) :
    d.node? place = ((d.nodes.find? fun x => x.1 = place).map Prod.snd).or
      (if d.OnWay place then some .folder else none) := by
  have hway : (place.isEmpty || d.nodes.any fun x => place.isPrefixOf x.1) ↔ d.OnWay place := by
    simp [OnWay]
  cases hf : d.nodes.find? fun x => x.1 = place with
  | some x => simp [node?, hf]
  | none =>
    rw [node?, hf, Option.map_none, Option.none_or]
    exact if_congr hway rfl rfl

theorem isFolder_iff : d.isFolder place ↔ d.node? place = some .folder := by
  unfold isFolder
  split <;> simp_all

theorem onWay_of_isFolder (h : d.isFolder place) : d.OnWay place := by
  rw [isFolder_iff, node?_eq] at h
  cases hf : d.nodes.find? fun x => x.1 = place with
  | some x =>
    have hx : x.1 = place := by simpa using List.find?_some hf
    exact .inr ⟨x.1, List.mem_map_of_mem (List.mem_of_find?_eq_some hf), hx ▸ List.prefix_rfl⟩
  | none =>
    rw [hf] at h
    by_cases hw : d.OnWay place
    · exact hw
    · simp [hw] at h

theorem mem_places_put {p : List String} :
    p ∈ (d.put place node).nodes.map Prod.fst ↔ p ∈ d.nodes.map Prod.fst ∨ p = place := by
  rw [put, Keyed.map_key_put]
  split
  · rename_i hp
    exact ⟨.inl, fun h => h.elim id fun h => h ▸ hp⟩
  · rw [List.mem_append, List.mem_singleton]

/-- A node in a folder brings nothing new onto the way but its own place. -/
theorem onWay_put_entry (hd : d.isFolder folder) (hp : place ≠ folder ++ [name]) :
    (d.put (folder ++ [name]) node).OnWay place ↔ d.OnWay place := by
  constructor
  · rintro (h | ⟨below, hb, hw⟩)
    · exact .inl h
    · rcases mem_places_put.mp hb with hb | rfl
      · exact .inr ⟨below, hb, hw⟩
      · have hw := (List.prefix_concat_iff.mp hw).resolve_left hp
        rcases onWay_of_isFolder hd with rfl | ⟨below, hb, hf⟩
        · exact .inl (List.prefix_nil.mp hw)
        · exact .inr ⟨below, hb, hw.trans hf⟩
  · rintro (h | ⟨below, hb, hw⟩)
    · exact .inl h
    · exact .inr ⟨below, mem_places_put.mpr (.inl hb), hw⟩

theorem node?_put_entry (hd : d.isFolder folder) (place : List String) :
    (d.put (folder ++ [name]) node).node? place =
      if place = folder ++ [name] then some node else d.node? place := by
  have hf : (d.put (folder ++ [name]) node).nodes.find? (fun x => x.1 = place) = _ :=
    Keyed.find?_put (folder ++ [name], node) d.nodes place
  rw [node?_eq, hf]
  by_cases hp : place = folder ++ [name]
  · simp [hp]
  · rw [if_neg (Ne.symm hp), if_neg hp, node?_eq]
    congr 1
    exact if_congr (onWay_put_entry hd hp) rfl rfl

/-- Files and links are among the nodes, other than folders. -/
theorem node?_eq_some_iff (hn : node ≠ .folder) :
    d.node? place = some node ↔ (place, node) ∈ d.nodes := by
  rw [node?_eq]
  constructor
  · intro h
    cases hf : d.nodes.find? fun x => x.1 = place with
    | some x =>
      rw [hf] at h
      have hx : x.2 = node := Option.some.inj h
      have hp : x.1 = place := by simpa using List.find?_some hf
      rw [← hp, ← hx]
      exact List.mem_of_find?_eq_some hf
    | none =>
      rw [hf, Option.map_none, Option.none_or] at h
      split at h
      · exact absurd (Option.some.inj h).symm hn
      · cases h
  · intro h
    rw [(Keyed.find?_eq_some_iff d.places_nodup).mpr ⟨h, rfl⟩]
    rfl

end Nodes

section Ways

/-- The path that a link stands for. -/
def target? (d : Disk) (place : List String) : Option String :=
  match d.node? place with
  | some (.link target) => some target
  | _ => none

theorem target?_eq_none_of_isFolder (h : d.isFolder place) : d.target? place = none := by
  rw [target?, isFolder_iff.mp h]

/-- The way to `stop` from a place, along names and through that many links at most. -/
inductive Way (d : Disk) (stop : List String) : Nat → List String → List String → Prop where
  | here {links : Nat} : Way d stop links stop []
  | stay {links : Nat} {place names : List String} {name : String} (folder : d.isFolder place)
      (stays : name = "" ∨ name = ".") (rest : Way d stop links place names) :
      Way d stop links place (name :: names)
  | up {links : Nat} {place names : List String} (folder : d.isFolder place)
      (rest : Way d stop links place.dropLast names) : Way d stop links place (".." :: names)
  | down {links : Nat} {place names : List String} {name : String} (folder : d.isFolder place)
      (inner : name ≠ "" ∧ name ≠ "." ∧ name ≠ "..") (noLink : d.target? (place ++ [name]) = none)
      (rest : Way d stop links (place ++ [name]) names) : Way d stop links place (name :: names)
  | link {links : Nat} {place names : List String} {name target : String}
      (folder : d.isFolder place) (inner : name ≠ "" ∧ name ≠ "." ∧ name ≠ "..")
      (leads : d.target? (place ++ [name]) = some target) (somewhere : target ≠ "")
      (rest : Way d stop links (linkStart place target) (pathSteps target ++ names)) :
      Way d stop (links + 1) place (name :: names)

variable {links : Nat}

theorem follow_nil (d : Disk) (links : Nat) (place : List String) :
    d.follow links place [] = .ok place := by
  cases links <;> rfl

/-- Names can be followed from a folder only. -/
theorem isFolder_of_follow (h : d.follow links place (name :: names) = .ok stop) :
    d.isFolder place := by
  cases links <;> unfold follow followWith at h <;> split at h
  all_goals first | cases h | exact isFolder_iff.mpr ‹_›

theorem follow_cons (h : d.isFolder place) : d.follow links place (name :: names) =
    if name = "" ∨ name = "." then d.follow links place names
    else if name = ".." then d.follow links place.dropLast names
    else
      match d.target? (place ++ [name]), links with
      | none, links => d.follow links (place ++ [name]) names
      | some target, 0 => if target = "" then .error .notFound else .error .tooManyLinks
      | some target, links + 1 =>
        if target = "" then .error .notFound
        else d.follow links (linkStart place target) (pathSteps target ++ names) := by
  cases links
  all_goals
    rw [follow, followWith, isFolder_iff.mp h, target?]
    split_ifs
    · rfl
    · rfl
    · rcases d.node? (place ++ [name]) with _ | (_ | _ | _) <;> rfl

theorem way_of_follow {links : Nat} {place names : List String}
    (h : d.follow links place names = .ok stop) : d.Way stop links place names := by
  match links, names with
  | links, [] =>
    obtain rfl := Except.ok.inj ((follow_nil d links place).symm.trans h)
    exact .here
  | links, name :: names =>
    have hd := isFolder_of_follow h
    rw [follow_cons hd] at h
    split_ifs at h with hstay hup
    · exact .stay hd hstay (way_of_follow h)
    · exact hup ▸ .up hd (way_of_follow h)
    · have hinner : name ≠ "" ∧ name ≠ "." ∧ name ≠ ".." :=
        ⟨fun he => hstay (.inl he), fun he => hstay (.inr he), hup⟩
      split at h
      · exact .down hd hinner ‹_› (way_of_follow h)
      · split_ifs at h
      · split_ifs at h with hne
        exact .link hd hinner ‹_› hne (way_of_follow h)
termination_by (links, names.length)

theorem Way.follow (h : d.Way stop links place names) : d.follow links place names = .ok stop := by
  induction h with
  | here => exact follow_nil d _ stop
  | stay folder stays _ ih => rw [follow_cons folder, if_pos stays, ih]
  | up folder _ ih => rw [follow_cons folder, if_neg (by decide), if_pos rfl, ih]
  | down folder inner noLink _ ih =>
    rw [follow_cons folder, if_neg (by simp [inner]), if_neg inner.2.2, noLink]
    exact ih
  | link folder inner leads somewhere _ ih =>
    rw [follow_cons folder, if_neg (by simp [inner]), if_neg inner.2.2, leads]
    simpa only [if_neg somewhere] using ih

theorem locate_eq_ok_iff :
    d.locate path = .ok place ↔ path ≠ "" ∧ d.Way place linkLimit [] (pathSteps path) := by
  unfold locate
  split_ifs with h
  · simp [h]
  · exact ⟨fun hf => ⟨h, way_of_follow hf⟩, fun hw => hw.2.follow⟩

/-- Disks with the same folders and the same links. -/
structure SameWays (d after : Disk) : Prop where
  folders : ∀ place, after.isFolder place = d.isFolder place
  links : ∀ place, after.target? place = d.target? place

theorem SameWays.refl (d : Disk) : SameWays d d :=
  ⟨fun _ => rfl, fun _ => rfl⟩

theorem SameWays.symm (h : SameWays d after) : SameWays after d :=
  ⟨fun place => (h.folders place).symm, fun place => (h.links place).symm⟩

theorem SameWays.trans {final : Disk} (h : SameWays d after) (h' : SameWays after final) :
    SameWays d final :=
  ⟨fun place => (h'.folders place).trans (h.folders place),
    fun place => (h'.links place).trans (h.links place)⟩

theorem SameWays.way (h : SameWays d after) (hw : d.Way stop links place names) :
    after.Way stop links place names := by
  induction hw with
  | here => exact .here
  | stay folder stays _ ih => exact .stay ((h.folders _).trans folder) stays ih
  | up folder _ ih => exact .up ((h.folders _).trans folder) ih
  | down folder inner noLink _ ih =>
    exact .down ((h.folders _).trans folder) inner ((h.links _).trans noLink) ih
  | link folder inner leads somewhere _ ih =>
    exact .link ((h.folders _).trans folder) inner ((h.links _).trans leads) somewhere ih

theorem SameWays.locate (h : SameWays d after) (hp : d.locate path = .ok place) :
    after.locate path = .ok place :=
  locate_eq_ok_iff.mpr ((locate_eq_ok_iff.mp hp).imp_right h.way)

/-- Where folders and links are the same, paths lead to the same places. -/
theorem SameWays.locate_iff (h : SameWays d after) :
    after.locate path = .ok place ↔ d.locate path = .ok place :=
  ⟨h.symm.locate, h.locate⟩

end Ways

section Reached

/-- Places to which a path can lead. -/
structure Reached (d : Disk) (place : List String) : Prop where
  above : ∀ p, p <+: place → p ≠ place → d.isFolder p
  noLink : d.target? place = none

variable {links : Nat}

theorem reached_nil (h : d.isFolder []) : d.Reached [] where
  above _ hp hne := absurd (List.prefix_nil.mp hp) hne
  noLink := target?_eq_none_of_isFolder h

theorem Reached.entry (h : d.Reached place) (hd : d.isFolder place)
    (ht : d.target? (place ++ [name]) = none) : d.Reached (place ++ [name]) where
  above p hp hne := by
    have hp := (List.prefix_concat_iff.mp hp).resolve_left hne
    by_cases he : p = place
    · exact he ▸ hd
    · exact h.above p hp he
  noLink := ht

theorem Reached.up (h : d.Reached place) : d.Reached place.dropLast := by
  by_cases hnil : place = []
  · rw [hnil, List.dropLast_nil]
    exact hnil ▸ h
  · have hne (p : List String) (hp : p <+: place.dropLast) : p ≠ place := by
      rintro rfl
      have := hp.length_le
      rw [List.length_dropLast] at this
      have := List.length_pos_of_ne_nil hnil
      omega
    have hup (p : List String) (hp : p <+: place.dropLast) : d.isFolder p :=
      h.above p (hp.trans place.dropLast_prefix) (hne p hp)
    exact ⟨fun p hp _ => hup p hp, target?_eq_none_of_isFolder (hup _ List.prefix_rfl)⟩

theorem Way.reached (hw : d.Way stop links place names) (hroot : d.isFolder [])
    (h : d.Reached place) : d.Reached stop := by
  induction hw with
  | here => exact h
  | stay _ _ _ ih => exact ih h
  | up _ _ ih => exact ih h.up
  | down folder _ noLink _ ih => exact ih (h.entry folder noLink)
  | link _ _ _ _ _ ih =>
    apply ih
    unfold linkStart
    split_ifs
    · exact reached_nil hroot
    · exact h

theorem pathSteps_ne_nil (path : String) : pathSteps path ≠ [] := by
  simpa [pathSteps] using Text.splitAt_ne_nil '/' path.toList

/-- A path that leads anywhere starts at a folder. -/
theorem isFolder_root (h : d.locate path = .ok place) : d.isFolder [] := by
  unfold locate at h
  split_ifs at h
  obtain ⟨name, names, hsteps⟩ := List.exists_cons_of_ne_nil (pathSteps_ne_nil path)
  rw [hsteps] at h
  exact isFolder_of_follow h

theorem reached_of_locate (h : d.locate path = .ok place) : d.Reached place :=
  have hroot := isFolder_root h
  (locate_eq_ok_iff.mp h).2.reached hroot (reached_nil hroot)

/-- A path that leads to no folder leads into one. -/
theorem exists_entry_of_locate (h : d.locate path = .ok place) (hf : d.isFolder place = false) :
    ∃ folder name, place = folder ++ [name] ∧ d.isFolder folder := by
  rcases List.eq_nil_or_concat place with rfl | ⟨folder, name, rfl⟩
  · rw [isFolder_root h] at hf
    cases hf
  · refine ⟨folder, name, List.concat_eq_append, ?_⟩
    rw [List.concat_eq_append] at h
    exact (reached_of_locate h).above folder (List.prefix_append _ _) (by simp)

end Reached

section Putting

theorem node?_put (h : d.locate path = .ok place) (hf : d.isFolder place = false)
    (p : List String) :
    (d.put place node).node? p = if p = place then some node else d.node? p := by
  obtain ⟨folder, name, rfl, hd⟩ := exists_entry_of_locate h hf
  exact node?_put_entry hd p

/-- A file that is written where a path leads makes no other way. -/
theorem sameWays_put (h : d.locate path = .ok place) (hf : d.isFolder place = false)
    (content : ByteArray) : SameWays d (d.put place (.file content)) where
  folders p := by
    unfold isFolder
    rw [node?_put h hf]
    by_cases hp : p = place
    · rw [if_pos hp, hp]
      exact hf.symm
    · rw [if_neg hp]
  links p := by
    unfold target?
    rw [node?_put h hf]
    by_cases hp : p = place
    · rw [if_pos hp, hp]
      exact (reached_of_locate h).noLink.symm
    · rw [if_neg hp]

end Putting

section Entries

/-- A name that takes a path one step down: it neither stays in place, nor steps up, nor has steps
of its own. -/
def IsEntryName (name : String) : Prop :=
  name ≠ "" ∧ name ≠ "." ∧ name ≠ ".." ∧ '/' ∉ name.toList

instance (name : String) : Decidable (IsEntryName name) :=
  inferInstanceAs (Decidable (_ ∧ _))

variable {links : Nat}

/-- After a path to a folder, the name of an entry leads to the entry, unless that is a link. -/
theorem Way.concat (hw : d.Way folder links place names) (hn : IsEntryName name)
    (hd : d.isFolder folder) (ht : d.target? (folder ++ [name]) = none) :
    d.Way (folder ++ [name]) links place (names ++ [name]) := by
  obtain ⟨hempty, hstay, hup, -⟩ := hn
  induction hw with
  | here => exact .down hd ⟨hempty, hstay, hup⟩ ht .here
  | stay folder stays _ ih => exact .stay folder stays ih
  | up folder _ ih => exact .up folder ih
  | down folder inner noLink _ ih => exact .down folder inner noLink ih
  | link folder inner leads somewhere _ ih =>
    rw [List.append_assoc] at ih
    exact .link folder inner leads somewhere ih

/-- An empty name at the end stays where it is. -/
theorem Way.of_concat_empty (hw : d.Way stop links place (names ++ [""])) :
    d.Way stop links place names := by
  generalize hsteps : names ++ [""] = steps at hw
  induction hw generalizing names with
  | here => simp at hsteps
  | stay folder stays rest ih =>
    rcases List.append_eq_cons_iff.mp hsteps with ⟨rfl, h⟩ | ⟨names, rfl, h⟩
    · obtain ⟨rfl, rfl⟩ := List.cons.inj h
      exact rest
    · exact .stay folder stays (ih h.symm)
  | up folder _ ih =>
    rcases List.append_eq_cons_iff.mp hsteps with ⟨-, h⟩ | ⟨names, rfl, h⟩
    · simp at h
    · exact .up folder (ih h.symm)
  | down folder inner noLink _ ih =>
    rcases List.append_eq_cons_iff.mp hsteps with ⟨-, h⟩ | ⟨names, rfl, h⟩
    · exact absurd (List.cons.inj h).1.symm inner.1
    · exact .down folder inner noLink (ih h.symm)
  | link folder inner leads somewhere _ ih =>
    rcases List.append_eq_cons_iff.mp hsteps with ⟨-, h⟩ | ⟨names, rfl, h⟩
    · exact absurd (List.cons.inj h).1.symm inner.1
    · exact .link folder inner leads somewhere (ih (by rw [h, List.append_assoc]))

/-- The path of a name in a directory leads to the entry of that name, unless that is a link. -/
theorem locate_joinPath {directory : String} (hn : IsEntryName name)
    (hp : d.locate directory = .ok folder) (hd : d.isFolder folder)
    (ht : d.target? (folder ++ [name]) = none) :
    d.locate (joinPath directory name) = .ok (folder ++ [name]) := by
  obtain ⟨hne, hw⟩ := locate_eq_ok_iff.mp hp
  -- a slash at the end of the directory is the one before the name
  obtain ⟨before, hj, hb⟩ : ∃ before, (joinPath directory name).toList =
      before ++ '/' :: name.toList ∧
      d.Way folder linkLimit [] ((Text.splitAt '/' before).map String.ofList) := by
    unfold joinPath
    by_cases hl : directory.toList.getLast? = some '/'
    · obtain ⟨before, hb⟩ := List.getLast?_eq_some_iff.mp hl
      refine ⟨before, by simp [hb], ?_⟩
      rw [pathSteps, hb, Text.splitAt_append before List.not_mem_nil, List.map_append] at hw
      exact hw.of_concat_empty
    · exact ⟨directory.toList, by simp [hl, hne], hw⟩
  have hnil : joinPath directory name ≠ "" := by
    intro he
    rw [he] at hj
    simp at hj
  have hsteps : pathSteps (joinPath directory name) =
      (Text.splitAt '/' before).map String.ofList ++ [name] := by
    rw [pathSteps, hj, Text.splitAt_append before hn.2.2.2, List.map_append]
    simp
  exact locate_eq_ok_iff.mpr ⟨hnil, hsteps ▸ hb.concat hn hd ht⟩

theorem fileName?_eq_some_iff {x : List String × Node} :
    fileName? place x = some name ↔ x.1 = place ++ [name] ∧ x.2 ≠ .folder := by
  have hentry (p : List String) :
      (if p.dropLast = place then p.getLast? else none) = some name ↔ p = place ++ [name] := by
    constructor
    · intro h
      split at h
      · rename_i hp
        rw [← hp, List.dropLast_append_getLast? name h]
      · cases h
    · rintro rfl
      simp
  obtain ⟨p, node⟩ := x
  cases node with
  | folder => simp [fileName?]
  | file content | link target => simp only [fileName?, hentry, ne_eq, reduceCtorEq,
      not_false_eq_true, and_true]

/-- The names in a folder are those of the entries that are files or links. -/
theorem mem_fileNames_iff : name ∈ d.fileNames place ↔
    ∃ node, node ≠ .folder ∧ d.node? (place ++ [name]) = some node := by
  rw [fileNames, List.mem_filterMap]
  constructor
  · rintro ⟨⟨p, node⟩, hx, hn⟩
    obtain ⟨rfl, hnode⟩ := fileName?_eq_some_iff.mp hn
    exact ⟨node, hnode, (node?_eq_some_iff hnode).mpr hx⟩
  · rintro ⟨node, hnode, h⟩
    exact ⟨_, (node?_eq_some_iff hnode).mp h, fileName?_eq_some_iff.mpr ⟨rfl, hnode⟩⟩

theorem nodup_fileNames (d : Disk) (place : List String) : (d.fileNames place).Nodup := by
  rw [fileNames, List.Nodup, List.pairwise_filterMap]
  refine (List.pairwise_map.mp d.places_nodup).imp ?_
  rintro x y hne name hx other hy he
  apply hne
  rw [(fileName?_eq_some_iff.mp hx).1, (fileName?_eq_some_iff.mp hy).1, he]

end Entries

end SignalBridge.Disk
