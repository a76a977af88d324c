import AppAdmission.Admission.ReleaseLookup
import AppAdmission.Proofs.Transcript
import AppAdmission.Proofs.Version.Written
import AppAdmission.Store.Environment

/-!
# Labels and the records of releases

A label names a release by a version that is read from it, and the record of the release is named by what
is written for that version. The name is read as the version again, so two labels lead to one record
exactly if they denote one version. White space around a label and one `v` in front of it are not part of
the version.
-/

namespace AppAdmission

namespace Version

theorem read_eq_ok_iff {raw : String} {v : Version} : read raw = .ok v ↔ parse raw = .ok v := by
  unfold read
  cases parse raw with
  | error fault => exact ⟨nofun, nofun⟩
  | ok v' => exact ⟨fun same => by cases same; rfl, fun same => by cases same; rfl⟩

/-- A version that was read is sound. -/
theorem sound_of_read {raw : String} {v : Version} (reads : read raw = .ok v) : v.Sound :=
  sound_of_parseBare (read_eq_ok_iff.1 reads)

/-- The name of the record of a release is read as the version of the release. -/
theorem Sound.read_objectName {v : Version} (sound : v.Sound) : read (Release.objectName v) = .ok v := by
  have solid : ∀ c ∈ 'v' :: v.renderChars, Text.isBlank c = false :=
    List.forall_mem_cons.2 ⟨rfl, sound.solid_renderChars⟩
  rw [read_eq_ok_iff, parse, Release.objectName, String.toList_ofList, Text.trim_of_solid solid]
  exact sound.parseBare_renderChars

/-- Sound versions have one record each. -/
theorem Sound.objectName_inj {v v' : Version} (sound : v.Sound) (sound' : v'.Sound) :
    Release.objectName v = Release.objectName v' ↔ v = v' := by
  constructor
  · intro same
    have reads := sound.read_objectName
    rw [same, sound'.read_objectName] at reads
    exact (Except.ok.inj reads).symm
  · rintro rfl
    rfl

/-- White space around a text does not change the version. -/
theorem parse_surrounded (raw : String) {pad pad' : List Char}
    (blank : ∀ c ∈ pad, Text.isBlank c = true) (blank' : ∀ c ∈ pad', Text.isBlank c = true) :
    parse (String.ofList (pad ++ raw.toList ++ pad')) = parse raw := by
  rw [parse, String.toList_ofList, Text.trim_surrounded blank blank', parse]

theorem dropMark_of_head {cs : List Char} (unmarked : cs.head? ≠ some 'v') : dropMark cs = cs := by
  unfold dropMark
  split
  · exact absurd rfl unmarked
  · rfl

/-- Nor does a mark in front of a text that has none. -/
theorem parse_marked {raw : String} (trimmed : Text.trim raw.toList = raw.toList)
    (unmarked : raw.toList.head? ≠ some 'v') : parse ("v" ++ raw) = parse raw := by
  have dressed : ("v" ++ raw).toList = 'v' :: raw.toList := by simp
  have solid : Text.isBlank 'v' = false := rfl
  rw [parse, dressed, Text.trim_cons solid trimmed, parse, trimmed, dropMark_of_head unmarked]
  rfl

end Version

namespace ReleaseLookup

open Version

/-- The version of a component is read off a release without asking for anything. -/
theorem immediate_component (v : Version) (component : String) (release : Release) :
    Decision.Immediate (match release.componentVersion? component with
      | some version => return version
      | none => throw (.missingVersion ("release '" ++ Release.objectName v ++ "'")
          (component ++ " component")) : Decision String) := by
  split
  · exact .pure _
  · exact .throw _

/-- What is looked up for a version is the record of its name, unless the request is no longer wanted. -/
theorem calls_componentVersion {σ : Type} (env : Environment σ) (v : Version) (component : String) (s : σ) :
    Event.calls ((componentVersion v component).transcript env s) =
      if (env.poll s).1 then [] else [.get .release none (Release.objectName v)] := by
  have decided (o : StoredObject) := Decision.Immediate.bind (.converted (o.toTyped? Release.decode))
    (immediate_component v component)
  exact (congrArg Event.calls (Decision.transcript_bind_of_immediate env _ decided s)).trans
    (Decision.calls_storeCall env _ _ s)

/-- Labels that denote versions lead to the records of these versions, however they are written: the name of
a record denotes its version again, so that one record is asked for exactly if the versions are equal. -/
theorem labels_lead_to_records {raw raw' : String} {v v' : Version} (reads : Version.read raw = .ok v)
    (reads' : Version.read raw' = .ok v') :
    Version.read (Release.objectName v) = .ok v ∧
      (∀ (σ : Type) (env : Environment σ) (component : String) (s : σ),
        Event.calls ((componentVersion v component).transcript env s) =
          if (env.poll s).1 then [] else [.get .release none (Release.objectName v)]) ∧
      (Release.objectName v = Release.objectName v' ↔ v = v') ∧
      (∀ pad pad' : List Char, (∀ c ∈ pad, Text.isBlank c = true) → (∀ c ∈ pad', Text.isBlank c = true) →
        Version.read (String.ofList (pad ++ raw.toList ++ pad')) = .ok v) ∧
      (Text.trim raw.toList = raw.toList → raw.toList.head? ≠ some 'v' →
        Version.read ("v" ++ raw) = .ok v) := by
  have sound := sound_of_read reads
  have parses := read_eq_ok_iff.1 reads
  refine ⟨sound.read_objectName, fun σ env component s => calls_componentVersion env v component s,
    sound.objectName_inj (sound_of_read reads'), fun pad pad' blank blank' => ?_,
    fun trimmed unmarked => ?_⟩
  · exact read_eq_ok_iff.2 ((parse_surrounded raw blank blank').trans parses)
  · exact read_eq_ok_iff.2 ((parse_marked trimmed unmarked).trans parses)

/-- Two labels that differ in a zero of the build metadata lead to two records. -/
theorem labels_lead_to_records_zero :
    Version.read "19.2.0+01" = .ok ⟨19, 2, 0, [], [['0', '1']]⟩ ∧
      Version.read " v19.2.0+1" = .ok ⟨19, 2, 0, [], [['1']]⟩ ∧
      Event.calls ((componentVersion ⟨19, 2, 0, [], [['0', '1']]⟩ "app-operator").transcript
        MemoryStore.environment {}) = [.get .release none "v19.2.0+01"] ∧
      Version.read "v19.2.0+01" = .ok ⟨19, 2, 0, [], [['0', '1']]⟩ ∧
      Version.read "\u00a019.2.0+01\n" = .ok ⟨19, 2, 0, [], [['0', '1']]⟩ ∧
      Release.objectName ⟨19, 2, 0, [], [['0', '1']]⟩ ≠ Release.objectName ⟨19, 2, 0, [], [['1']]⟩ := by
  have reads : Version.read "19.2.0+01" = .ok ⟨19, 2, 0, [], [['0', '1']]⟩ := by decide +kernel
  have reads' : Version.read " v19.2.0+1" = .ok ⟨19, 2, 0, [], [['1']]⟩ := by decide +kernel
  obtain ⟨-, asked, one, padded, marked⟩ := labels_lead_to_records reads reads'
  refine ⟨reads, reads', asked _ MemoryStore.environment "app-operator" {}, ?_, ?_, ?_⟩
  · exact marked (by decide +kernel) (by decide +kernel)
  · exact padded ['\u00a0'] ['\n'] (List.all_eq_true.1 rfl) (List.all_eq_true.1 rfl)
  · exact fun same => absurd (one.1 same) (by decide)

end ReleaseLookup

end AppAdmission
