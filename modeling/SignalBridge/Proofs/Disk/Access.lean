import SignalBridge.Disk.Machine
import SignalBridge.Outcome
import SignalBridge.Proofs.Disk.Lookup

namespace SignalBridge

variable {m : Machine} {d after : Disk} {path : String} {place : List String}
  {content : ByteArray} {fs : List NamedFile}

theorem Disk.find_eq_ok_iff : d.find path = .ok place ↔
    d.locate path = .ok place ∧ (d.node? place).isSome := by
  rw [find, bind_eq_ok_iff]
  constructor
  · rintro ⟨p, hp, h⟩
    split at h
    · cases h
      exact ⟨hp, ‹_›⟩
    · cases h
  · rintro ⟨hp, hs⟩
    exact ⟨place, hp, by rw [if_pos hs]; rfl⟩

namespace Machine

theorem read_eq_ok_iff : m.read d path = .ok content ↔
    ∃ place, d.locate path = .ok place ∧ m.readFault? place = none ∧
      d.node? place = some (.file content) := by
  rw [read, bind_eq_ok_iff]
  refine exists_congr fun place => and_congr_right fun _ => ?_
  cases m.readFault? place with
  | some cause => cases d.node? place <;> simp
  | none =>
    rcases d.node? place with _ | (content | _ | target) <;> simp

theorem list_eq_ok_iff : m.list d path = .ok fs ↔ ∃ place, d.find path = .ok place ∧
    (d.isFolder place ∧ m.listFault? place = none ∧
        fs = (d.fileNames place).map (fun name => ⟨name, m.read d (joinPath path name)⟩) ∨
      d.isFolder place = false ∧ fs = []) := by
  rw [list, bind_eq_ok_iff]
  refine exists_congr fun place => and_congr_right fun _ => ?_
  cases d.isFolder place with
  | true => cases m.listFault? place <;> simp [eq_comm]
  | false => simp [eq_comm]

/-- The files that a listing finds have different names. -/
theorem nodup_list (h : m.list d path = .ok fs) : (fs.map NamedFile.name).Nodup := by
  obtain ⟨place, -, ⟨-, -, rfl⟩ | ⟨-, rfl⟩⟩ := list_eq_ok_iff.mp h
  · rw [List.map_map]
    exact (List.map_id _).symm ▸ d.nodup_fileNames place
  · exact List.nodup_nil

theorem write_eq_ok_iff : m.write d path content = .ok after ↔
    ∃ place, d.locate path = .ok place ∧ d.isFolder place = false ∧
      m.writeFault? place content = none ∧ after = d.put place (.file content) := by
  rw [write, bind_eq_ok_iff]
  refine exists_congr fun place => and_congr_right fun _ => ?_
  cases d.isFolder place with
  | true => simp
  | false => cases m.writeFault? place content <;> simp [eq_comm]

end Machine

end SignalBridge
