import Mathlib.Data.List.Infix
import AppAdmission.Policy

/-!
# What the policy refuses

The policy as it is meant: which actors it trusts, which namespaces it protects, which charts it bars
and where an App takes its configuration from, each said by the entries of one list and without the
filters that are drawn from the lists. Main statement: the policy refuses exactly those whom nothing lets
through and who ask for a barred chart or for a protected namespace, and it says which.
-/

namespace AppAdmission

namespace Policy

/-- The entry begins or ends with a hyphen. -/
def Hyphenated (entry : String) : Prop :=
  entry.toList.head? = some '-' ∨ entry.toList.getLast? = some '-'

instance (entry : String) : Decidable (Hyphenated entry) :=
  inferInstanceAs (Decidable (_ ∨ _))

theorem startsB_iff {entry text : String} : startsB entry text = true ↔ entry.toList <+: text.toList :=
  List.isPrefixOf_iff_prefix

theorem endsB_iff {entry text : String} : endsB entry text = true ↔ entry.toList <:+ text.toList :=
  List.isSuffixOf_iff_suffix

theorem isWildcard_iff {entry : String} : isWildcard entry = true ↔ Hyphenated entry := by
  have first : ['-'] <+: entry.toList ↔ entry.toList.head? = some '-' := by
    cases entry.toList with
    | nil => simp
    | cons c rest => simp [List.cons_prefix_cons, eq_comm]
  have last : ['-'] <:+ entry.toList ↔ entry.toList.getLast? = some '-' := by
    rw [List.suffix_iff_eq_append, List.getLast?_eq_some_iff]
    constructor
    · intro h
      exact ⟨_, h.symm⟩
    · rintro ⟨front, same⟩
      simp [same]
  unfold isWildcard Hyphenated
  rw [Bool.or_eq_true, startsB_iff, endsB_iff]
  exact or_congr first last

theorem Hyphenated.ne_empty {entry : String} (h : Hyphenated entry) : entry ≠ "" := by
  rintro rfl
  revert h
  decide

end Policy

namespace PolicyConfig

open Policy

variable {c : PolicyConfig}

/-- The actor is trusted: an entry begins the name, or a group is listed. An empty entry begins every
name and does not count. -/
def Trusts (c : PolicyConfig) (actor : Actor) : Prop :=
  (∃ entry ∈ c.userWhitelist, entry ≠ "" ∧ entry.toList <+: actor.username.toList) ∨
    ∃ group ∈ actor.groups, group ∈ c.groupWhitelist

/-- The namespace is listed as it is, and it belongs to the platform. -/
def Fixes (c : PolicyConfig) (space : String) : Prop :=
  space ∈ c.namespaceBlacklist ∧ space ≠ "" ∧ ¬Hyphenated space

/-- The namespace is protected: it is listed, or it begins or ends with an entry that has a hyphen at
one of its own ends. -/
def Protects (c : PolicyConfig) (space : String) : Prop :=
  c.Fixes space ∨ ∃ entry ∈ c.namespaceBlacklist,
    Hyphenated entry ∧ (entry.toList <+: space.toList ∨ entry.toList <:+ space.toList)

/-- The chart is listed, and so is its catalog. -/
def Bars (c : PolicyConfig) (spec : AppSpec) : Prop :=
  spec.name ∈ c.appBlacklist ∧ spec.catalog ∈ c.catalogBlacklist

theorem isWhitelisted_iff {actor : Actor} : c.isWhitelisted actor = true ↔ c.Trusts actor := by
  simp only [isWhitelisted, Trusts, Bool.or_eq_true, List.any_eq_true, Bool.and_eq_true,
    bne_iff_ne, startsB_iff, List.contains_iff_mem]

theorem fixedNamespaces_iff {space : String} :
    c.fixedNamespaces.contains space = true ↔ c.Fixes space := by
  have plain : (!isWildcard space) = true ↔ ¬Hyphenated space := by
    rw [← isWildcard_iff]
    simp
  rw [List.contains_iff_mem, fixedNamespaces, List.mem_filter, Bool.and_eq_true, bne_iff_ne, plain]
  exact Iff.rfl

theorem mem_wildcards_iff {entry : String} :
    entry ∈ c.wildcards ↔ entry ∈ c.namespaceBlacklist ∧ Hyphenated entry := by
  rw [wildcards, List.mem_filter, Bool.and_eq_true, bne_iff_ne, isWildcard_iff]
  constructor
  · rintro ⟨listed, -, marked⟩
    exact ⟨listed, marked⟩
  · rintro ⟨listed, marked⟩
    exact ⟨listed, marked.ne_empty, marked⟩

theorem isBlacklisted_iff {space : String} : c.isBlacklisted space = true ↔ c.Protects space := by
  rw [isBlacklisted, Bool.or_eq_true, fixedNamespaces_iff, List.any_eq_true]
  refine or_congr Iff.rfl (exists_congr fun entry => ?_)
  rw [mem_wildcards_iff, Bool.or_eq_true, startsB_iff, endsB_iff, and_assoc]

end PolicyConfig

namespace Policy

variable {c : PolicyConfig} {actor : Actor} {app : App}

/-- The namespaces that the references of an App name, in the order of their slots: the map and the
secret of its configuration, those of the user's configuration, and the extra sources. -/
def slots (app : App) : List String :=
  [app.spec.config.bind AppConfig.configMap, app.spec.config.bind AppConfig.secret,
    app.spec.userConfig.bind AppConfig.configMap, app.spec.userConfig.bind AppConfig.secret].filterMap
      (Option.map NamespacedRef.space) ++ app.extraConfigs.map ExtraConfig.space

/-- A reference to the namespace is one that the policy refuses. An empty name refers to nothing. -/
def Offends (c : PolicyConfig) (space : String) : Prop := space ≠ "" ∧ c.Protects space

/-- The namespace offends and none in an earlier slot does. -/
def FirstOffending (c : PolicyConfig) (app : App) (space : String) : Prop :=
  ∃ before after, slots app = before ++ space :: after ∧ Offends c space ∧
    ∀ earlier ∈ before, ¬Offends c earlier

/-- Why an App is refused to those whom nothing lets through: for its chart, or else for the first
namespace that offends. -/
def Grounds (c : PolicyConfig) (app : App) (reason : String) : Prop :=
  c.Bars app.spec ∧
      reason = "installing " ++ app.spec.name ++ " from " ++ app.spec.catalog ++ " catalog is not allowed" ∨
    ¬c.Bars app.spec ∧ ∃ space, FirstOffending c app space ∧
      reason = "references to " ++ space ++ " namespace not allowed"

theorem configNamespaces_eq (config : Option AppConfig) : configNamespaces config =
    [config.bind AppConfig.configMap, config.bind AppConfig.secret].filterMap
      (Option.map NamespacedRef.space) := by
  rcases config with _ | ⟨_ | configMap, _ | secret⟩ <;> rfl

theorem referencedNamespaces_eq (app : App) :
    referencedNamespaces app = (slots app).filter (· != "") := by
  unfold referencedNamespaces slots
  rw [configNamespaces_eq, configNamespaces_eq, ← List.filterMap_append]
  rfl

/-- Of the namespaces that are looked at, the first protected one is the first that offends. -/
theorem find?_referencedNamespaces_iff {space : String} :
    (referencedNamespaces app).find? c.isBlacklisted = some space ↔ FirstOffending c app space := by
  have offends (other : String) :
      ((other != "") = true ∧ c.isBlacklisted other = true) ↔ Offends c other := by
    rw [bne_iff_ne, PolicyConfig.isBlacklisted_iff]
    exact Iff.rfl
  rw [referencedNamespaces_eq, List.find?_filter, List.find?_eq_some_iff_append]
  simp only [Bool.not_eq_true', decide_eq_true_iff, decide_eq_false_iff_not, offends]
  unfold FirstOffending
  constructor
  · rintro ⟨own, before, after, split, earlier⟩
    exact ⟨before, after, split, own, earlier⟩
  · rintro ⟨before, after, split, own, earlier⟩
    exact ⟨own, before, after, split, earlier⟩

theorem bars_iff : (c.appBlacklist.contains app.spec.name && c.catalogBlacklist.contains app.spec.catalog)
    = true ↔ c.Bars app.spec := by
  rw [Bool.and_eq_true, List.contains_iff_mem, List.contains_iff_mem]
  exact Iff.rfl

/-- The policy refuses with a reason exactly if nothing lets the actor or the App through and there are
grounds for it. -/
theorem inspect_eq_deny_iff {reason : String} : inspect c actor app = .deny reason ↔
    ¬c.Trusts actor ∧ ¬c.Fixes app.space ∧ Grounds c app reason := by
  unfold inspect
  by_cases trusted : c.Trusts actor
  · simp [PolicyConfig.isWhitelisted_iff.2 trusted, trusted]
  rw [if_neg (mt PolicyConfig.isWhitelisted_iff.1 trusted)]
  by_cases own : c.Fixes app.space
  · rw [if_pos (PolicyConfig.fixedNamespaces_iff.2 own)]
    simp [own]
  rw [if_neg (mt PolicyConfig.fixedNamespaces_iff.1 own)]
  -- from here on the ruling follows the grounds
  simp only [trusted, own, not_false_eq_true, true_and, Grounds, ← find?_referencedNamespaces_iff]
  by_cases barred : c.Bars app.spec
  · rw [if_pos (bars_iff.2 barred)]
    simp [barred, chartReason, eq_comm]
  rw [if_neg (mt bars_iff.1 barred)]
  cases found : (referencedNamespaces app).find? c.isBlacklisted with
  | some space => simp [barred, referenceReason, eq_comm]
  | none => simp [barred]

/-- There are grounds if the chart is barred or a slot offends. -/
theorem exists_grounds_iff :
    (∃ reason, Grounds c app reason) ↔ c.Bars app.spec ∨ ∃ space ∈ slots app, Offends c space := by
  constructor
  · rintro ⟨reason, ⟨barred, -⟩ | ⟨-, space, ⟨before, after, split, offends, -⟩, -⟩⟩
    · exact .inl barred
    · exact .inr ⟨space, by simp [split], offends⟩
  · rintro (barred | ⟨space, there, offends⟩)
    · exact ⟨_, .inl ⟨barred, rfl⟩⟩
    · by_cases barred : c.Bars app.spec
      · exact ⟨_, .inl ⟨barred, rfl⟩⟩
      · obtain ⟨first, found⟩ : ∃ first, (referencedNamespaces app).find? c.isBlacklisted = some first := by
          refine Option.isSome_iff_exists.1 (List.find?_isSome.2 ⟨space, ?_, ?_⟩)
          · rw [referencedNamespaces_eq]
            exact List.mem_filter.2 ⟨there, bne_iff_ne.2 offends.1⟩
          · exact PolicyConfig.isBlacklisted_iff.2 offends.2
        exact ⟨_, .inr ⟨barred, first, find?_referencedNamespaces_iff.1 found, rfl⟩⟩

/-- **What the policy refuses.** Whatever its lists hold, the policy refuses an App exactly if it does
not trust the actor, the App is not in a namespace of the platform, and the chart is barred with its
catalog or a reference leads to a protected namespace. The reason names the chart if that is barred, and
otherwise the first namespace that offends in the order of the slots. -/
theorem inspect_refuses (c : PolicyConfig) (actor : Actor) (app : App) :
    ((∃ reason, inspect c actor app = .deny reason) ↔
      ¬c.Trusts actor ∧ ¬c.Fixes app.space ∧
        (c.Bars app.spec ∨ ∃ space ∈ slots app, Offends c space)) ∧
    ∀ reason, inspect c actor app = .deny reason → Grounds c app reason := by
  refine ⟨?_, fun reason refused => (inspect_eq_deny_iff.1 refused).2.2⟩
  rw [← exists_grounds_iff]
  simp only [inspect_eq_deny_iff, exists_and_left]

end Policy

end AppAdmission
