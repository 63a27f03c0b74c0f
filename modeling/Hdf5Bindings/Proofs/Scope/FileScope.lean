/-
Hdf5Bindings/Proofs/Scope/FileScope.lean

What analysing a unit gives.

A unit that is not refused gives the registry of its tree, seen from its header
(`FileScope.of_analyse`); the only message of its own that the analysis adds to those of the build
is a summary (`FileScope.messages_analyse`).  The types of a kind that the header has are those of
the registry whose file is the header's.
-/
import Hdf5Bindings.Proofs.Registry.Build
import Hdf5Bindings.Scope.FileScope

namespace Hdf5Bindings

/-! ### Types of one kind -/

namespace Registry

variable {r : Registry}

theorem mem_compounds_iff {record : RecordType} :
    record ∈ r.compounds ↔ .compound record ∈ r.descriptors := by
  refine List.mem_filterMap.trans ⟨?_, fun h => ⟨_, h, rfl⟩⟩
  rintro ⟨_ | _ | _ | _, hd, ⟨⟩⟩
  exact hd

theorem mem_enumerations_iff {type : EnumType} :
    type ∈ r.enumerations ↔ .enumeration type ∈ r.descriptors := by
  refine List.mem_filterMap.trans ⟨?_, fun h => ⟨_, h, rfl⟩⟩
  rintro ⟨_ | _ | _ | _, hd, ⟨⟩⟩
  exact hd

theorem mem_unions_iff {record : RecordType} :
    record ∈ r.unions ↔ .union record ∈ r.descriptors := by
  refine List.mem_filterMap.trans ⟨?_, fun h => ⟨_, h, rfl⟩⟩
  rintro ⟨_ | _ | _ | _, hd, ⟨⟩⟩
  exact hd

/-- The files of a registry are those of its types. -/
theorem mem_files_iff {file : Path} :
    file ∈ r.files ↔ ∃ d ∈ r.descriptors, d.file? = some file := by
  simp only [files, List.mem_append, List.mem_map, mem_compounds_iff, mem_enumerations_iff,
    mem_unions_iff]
  constructor
  · rintro ((⟨record, hd, rfl⟩ | ⟨type, hd, rfl⟩) | ⟨record, hd, rfl⟩) <;> exact ⟨_, hd, rfl⟩
  · rintro ⟨_ | record | type | record, hd, ⟨⟩⟩
    · exact .inl (.inl ⟨record, hd, rfl⟩)
    · exact .inl (.inr ⟨type, hd, rfl⟩)
    · exact .inr ⟨record, hd, rfl⟩

end Registry

namespace FileScope

variable {s : FileScope}

theorem mem_compounds_iff {record : RecordType} :
    record ∈ s.compounds ↔ .compound record ∈ s.registry.descriptors ∧ s.isLocal record.file := by
  rw [compounds, List.mem_filter, Registry.mem_compounds_iff]

theorem mem_enumerations_iff {type : EnumType} :
    type ∈ s.enumerations ↔ .enumeration type ∈ s.registry.descriptors ∧ s.isLocal type.file := by
  rw [enumerations, List.mem_filter, Registry.mem_enumerations_iff]

theorem mem_unions_iff {record : RecordType} :
    record ∈ s.unions ↔ .union record ∈ s.registry.descriptors ∧ s.isLocal record.file := by
  rw [unions, List.mem_filter, Registry.mem_unions_iff]

/-! ### The analysis -/

variable {disk : FileTree} {dirs : List Path} {u : TranslationUnit}

/-- A unit that is analysed gives the registry of its tree, seen from its header. -/
theorem of_analyse (h : (u.analyse disk dirs).outcome = .ok s) :
    (Registry.build u.root).outcome = .ok s.registry ∧ s = view disk dirs s.registry u.file := by
  unfold TranslationUnit.analyse at h
  obtain ⟨-, -, h⟩ := Logged.outcome_bind_eq_ok_iff.mp h
  obtain ⟨r, hbuild, h⟩ := Logged.outcome_bind_eq_ok_iff.mp h
  obtain ⟨-, -, h⟩ := Logged.outcome_bind_eq_ok_iff.mp h
  obtain rfl := Except.ok.inj h
  exact ⟨hbuild, rfl⟩

theorem messages_analyse (h : (u.analyse disk dirs).outcome = .ok s) :
    (u.analyse disk dirs).messages =
      (Registry.build u.root).messages ++ [⟨.info, s.registry.foundText u.file⟩] := by
  have hbuild := (of_analyse h).1
  unfold TranslationUnit.analyse at h ⊢
  obtain ⟨_, hcheck, -⟩ := Logged.outcome_bind_eq_ok_iff.mp h
  rw [Logged.messages_bind_of_ok hcheck, Logged.messages_bind_of_ok hbuild,
    Logged.messages_bind_of_ok (Logged.outcome_announce _ _)]
  rfl

theorem registry_eq_ofVisits (h : (u.analyse disk dirs).outcome = .ok s) :
    s.registry = Registry.ofVisits u.root.visited :=
  Registry.eq_ofVisits_of_build (of_analyse h).1

theorem nodup_names (h : (u.analyse disk dirs).outcome = .ok s) : s.registry.names.Nodup :=
  Registry.nodup_names_of_build (of_analyse h).1

end FileScope

end Hdf5Bindings
