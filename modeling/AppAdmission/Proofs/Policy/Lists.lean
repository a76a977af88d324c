import AppAdmission.Proofs.Policy.Ruling

/-!
# Changing the lists of a policy

The lists of a policy are sets: only what is listed counts. Longer lists of whom to trust refuse less,
and longer lists of what to bar or to guard refuse more. The one exception is a namespace that is listed
as it is: references to it are refused, and the Apps in it are let through.
-/

namespace AppAdmission.Policy

variable {c d : PolicyConfig} {actor other : Actor} {app : App}

/-- The policies list the same entries, in whatever order and however often; empty entries of the lists
of users and of namespaces do not count. -/
structure SameLists (c d : PolicyConfig) : Prop where
  apps : ∀ name, name ∈ c.appBlacklist ↔ name ∈ d.appBlacklist
  catalogs : ∀ name, name ∈ c.catalogBlacklist ↔ name ∈ d.catalogBlacklist
  groups : ∀ group, group ∈ c.groupWhitelist ↔ group ∈ d.groupWhitelist
  users : ∀ entry, entry ≠ "" → (entry ∈ c.userWhitelist ↔ entry ∈ d.userWhitelist)
  spaces : ∀ entry, entry ≠ "" → (entry ∈ c.namespaceBlacklist ↔ entry ∈ d.namespaceBlacklist)

/-- The actors have the same name and are in the same groups. -/
structure SameActor (actor other : Actor) : Prop where
  username : actor.username = other.username
  groups : ∀ group, group ∈ actor.groups ↔ group ∈ other.groups

theorem SameLists.trusts (h : SameLists c d) (same : SameActor actor other) :
    c.Trusts actor ↔ d.Trusts other := by
  unfold PolicyConfig.Trusts
  rw [same.username]
  refine or_congr (exists_congr fun entry => ?_) (exists_congr fun group => ?_)
  · constructor
    · rintro ⟨listed, solid, begins⟩
      exact ⟨(h.users entry solid).1 listed, solid, begins⟩
    · rintro ⟨listed, solid, begins⟩
      exact ⟨(h.users entry solid).2 listed, solid, begins⟩
  · rw [same.groups, h.groups]

theorem SameLists.fixes (h : SameLists c d) (space : String) : c.Fixes space ↔ d.Fixes space := by
  constructor
  · rintro ⟨listed, solid, plain⟩
    exact ⟨(h.spaces space solid).1 listed, solid, plain⟩
  · rintro ⟨listed, solid, plain⟩
    exact ⟨(h.spaces space solid).2 listed, solid, plain⟩

theorem SameLists.protects (h : SameLists c d) (space : String) : c.Protects space ↔ d.Protects space := by
  refine or_congr (h.fixes space) (exists_congr fun entry => ?_)
  constructor
  · rintro ⟨listed, marked, fits⟩
    exact ⟨(h.spaces entry marked.ne_empty).1 listed, marked, fits⟩
  · rintro ⟨listed, marked, fits⟩
    exact ⟨(h.spaces entry marked.ne_empty).2 listed, marked, fits⟩

theorem SameLists.bars (h : SameLists c d) (spec : AppSpec) : c.Bars spec ↔ d.Bars spec :=
  and_congr (h.apps spec.name) (h.catalogs spec.catalog)

/-- The grounds for a refusal depend on what is barred and what is protected. -/
theorem grounds_congr (bars : c.Bars app.spec ↔ d.Bars app.spec)
    (protects : ∀ space, c.Protects space ↔ d.Protects space) (reason : String) :
    Grounds c app reason ↔ Grounds d app reason := by
  have offends (space : String) : Offends c space ↔ Offends d space :=
    and_congr Iff.rfl (protects space)
  unfold Grounds FirstOffending
  simp only [bars, offends]

/-- Rulings with the same refusals are the same. -/
theorem Ruling.ext_deny {r r' : Ruling} (h : ∀ reason, r = .deny reason ↔ r' = .deny reason) :
    r = r' := by
  cases r with
  | deny reason => exact ((h reason).1 rfl).symm
  | allow =>
    cases r' with
    | allow => rfl
    | deny reason => exact (h reason).2 rfl

theorem SameLists.inspect (h : SameLists c d) (same : SameActor actor other) (app : App) :
    inspect c actor app = inspect d other app := by
  refine Ruling.ext_deny fun reason => ?_
  rw [inspect_eq_deny_iff, inspect_eq_deny_iff, h.trusts same, h.fixes,
    grounds_congr (h.bars app.spec) h.protects]

theorem eq_allow_iff {r : Ruling} : r = .allow ↔ ¬∃ reason, r = .deny reason := by
  cases r with
  | allow => simp
  | deny reason => simp

/-- With more to bar and more to protect there are still grounds. -/
theorem exists_grounds_mono (bars : c.Bars app.spec → d.Bars app.spec)
    (protects : ∀ space, c.Protects space → d.Protects space) (h : ∃ reason, Grounds c app reason) :
    ∃ reason, Grounds d app reason := by
  rw [exists_grounds_iff] at h ⊢
  rcases h with barred | ⟨space, there, solid, guarded⟩
  · exact .inl (bars barred)
  · exact .inr ⟨space, there, solid, protects space guarded⟩

/-- With more namespaces listed more are protected. -/
theorem protects_mono {spaces : List String} (more : c.namespaceBlacklist ⊆ spaces) {space : String}
    (h : c.Protects space) :
    PolicyConfig.Protects { c with namespaceBlacklist := spaces } space := by
  rcases h with ⟨listed, plain⟩ | ⟨entry, listed, fits⟩
  · exact .inl ⟨more listed, plain⟩
  · exact .inr ⟨entry, more listed, fits⟩

/-- Who is trusted is trusted with longer lists. -/
theorem inspect_trusting {users groups : List String} (moreUsers : c.userWhitelist ⊆ users)
    (moreGroups : c.groupWhitelist ⊆ groups) (allowed : inspect c actor app = .allow) :
    inspect { c with userWhitelist := users, groupWhitelist := groups } actor app = .allow := by
  rw [eq_allow_iff] at allowed ⊢
  rintro ⟨reason, refused⟩
  refine allowed ⟨reason, ?_⟩
  rw [inspect_eq_deny_iff] at refused ⊢
  refine ⟨fun trusted => refused.1 ?_, refused.2⟩
  rcases trusted with ⟨entry, listed, fits⟩ | ⟨group, member, listed⟩
  · exact .inl ⟨entry, moreUsers listed, fits⟩
  · exact .inr ⟨group, member, moreGroups listed⟩

/-- What is refused is refused, perhaps for another reason, with longer lists of what to bar and what to
guard; provided that no namespace is listed anew as it is. -/
theorem inspect_strict {apps catalogs spaces : List String} (moreApps : c.appBlacklist ⊆ apps)
    (moreCatalogs : c.catalogBlacklist ⊆ catalogs) (moreSpaces : c.namespaceBlacklist ⊆ spaces)
    (wild : ∀ entry ∈ spaces, entry ∈ c.namespaceBlacklist ∨ Hyphenated entry)
    (refused : ∃ reason, inspect c actor app = .deny reason) :
    ∃ reason, inspect { c with
      appBlacklist := apps, catalogBlacklist := catalogs, namespaceBlacklist := spaces } actor app =
        .deny reason := by
  simp only [inspect_eq_deny_iff, exists_and_left] at refused ⊢
  obtain ⟨unknown, foreign, grounds⟩ := refused
  refine ⟨unknown, ?_, exists_grounds_mono ?_ (fun space => ?_) grounds⟩
  · rintro ⟨listed, solid, plain⟩
    rcases wild app.space listed with before | marked
    · exact foreign ⟨before, solid, plain⟩
    · exact plain marked
  · rintro ⟨chart, catalog⟩
    exact ⟨moreApps chart, moreCatalogs catalog⟩
  · exact protects_mono (c := c) moreSpaces

/-- With one more namespace listed, what is refused is refused unless the App lives there. -/
theorem space_of_inspect_fixed {space : String} {spaces : List String}
    (one : ∀ entry, entry ∈ spaces ↔ entry = space ∨ entry ∈ c.namespaceBlacklist)
    (refused : ∃ reason, inspect c actor app = .deny reason)
    (allowed : inspect { c with namespaceBlacklist := spaces } actor app = .allow) :
    app.space = space := by
  simp only [inspect_eq_deny_iff, exists_and_left] at refused
  rw [eq_allow_iff] at allowed
  simp only [inspect_eq_deny_iff, exists_and_left] at allowed
  obtain ⟨unknown, foreign, grounds⟩ := refused
  have more : c.namespaceBlacklist ⊆ spaces := fun entry listed => (one entry).2 (.inr listed)
  by_contra elsewhere
  refine allowed ⟨unknown, ?_, exists_grounds_mono (c := c) id (fun _ => protects_mono more) grounds⟩
  rintro ⟨listed, solid, plain⟩
  rcases (one app.space).1 listed with here | before
  · exact elsewhere here
  · exact foreign ⟨before, solid, plain⟩

/-- **The lists of a policy are sets with a direction.** The order and the repetition of entries do not
matter to the ruling, nor do those of an actor's groups and empty entries in the lists of users and of
namespaces. More users or groups to trust never turn an admission into a refusal. More charts, catalogs
or hyphenated namespace entries never turn a refusal into an admission. A namespace that is listed anew
as it is turns a refusal into an admission only for the Apps in it, and for these it always does. -/
theorem inspect_lists (c : PolicyConfig) (actor : Actor) (app : App) :
    (∀ d other, SameLists c d → SameActor actor other → inspect d other app = inspect c actor app) ∧
    (∀ users groups, c.userWhitelist ⊆ users → c.groupWhitelist ⊆ groups →
      inspect c actor app = .allow →
      inspect { c with userWhitelist := users, groupWhitelist := groups } actor app = .allow) ∧
    (∀ apps catalogs spaces, c.appBlacklist ⊆ apps → c.catalogBlacklist ⊆ catalogs →
      c.namespaceBlacklist ⊆ spaces →
      (∀ entry ∈ spaces, entry ∈ c.namespaceBlacklist ∨ Hyphenated entry) →
      (∃ reason, inspect c actor app = .deny reason) →
      ∃ reason, inspect { c with
        appBlacklist := apps, catalogBlacklist := catalogs, namespaceBlacklist := spaces } actor app =
          .deny reason) ∧
    (∀ space spaces, space ≠ "" → ¬Hyphenated space →
      (∀ entry, entry ∈ spaces ↔ entry = space ∨ entry ∈ c.namespaceBlacklist) →
      (∃ reason, inspect c actor app = .deny reason) →
      (inspect { c with namespaceBlacklist := spaces } actor app = .allow ↔ app.space = space)) := by
  refine ⟨fun d other lists same => (lists.inspect same app).symm,
    fun users groups => inspect_trusting, fun apps catalogs spaces => inspect_strict, ?_⟩
  intro space spaces solid plain one refused
  constructor
  · exact space_of_inspect_fixed one refused
  · intro here
    rw [eq_allow_iff]
    rintro ⟨reason, denied⟩
    refine (inspect_eq_deny_iff.1 denied).2.1 ⟨(one app.space).2 (.inl here), ?_⟩
    rw [here]
    exact ⟨solid, plain⟩

/-- An App in `team` that takes configuration from `kube-system`. -/
def strayApp : App where
  metadata := { namespaceName := some "team" }
  spec := { userConfig := some { secret := some { name := "s", space := "kube-system" } } }

/-- The App is refused for its reference, also with entries repeated; once its own namespace is listed it
is let through. -/
theorem inspect_lists_sample :
    inspect { namespaceBlacklist := ["kube-"] } {} strayApp = .deny (referenceReason "kube-system") ∧
    inspect { namespaceBlacklist := ["", "kube-", "kube-"] } {} strayApp =
      .deny (referenceReason "kube-system") ∧
    inspect { namespaceBlacklist := ["kube-", "team"] } {} strayApp = .allow := by
  have refused : inspect { namespaceBlacklist := ["kube-"] } {} strayApp =
      .deny (referenceReason "kube-system") := by decide +kernel
  obtain ⟨same, -, -, fixed⟩ := inspect_lists { namespaceBlacklist := ["kube-"] } {} strayApp
  refine ⟨refused, ?_, ?_⟩
  · rw [← refused]
    refine same _ _ ⟨by simp, by simp, by simp, by simp, ?_⟩ ⟨rfl, by simp⟩
    intro entry solid
    simp [solid]
  · exact (fixed "team" ["kube-", "team"] (by decide) (by decide) (by simp [or_comm])
      ⟨_, refused⟩).2 rfl

end AppAdmission.Policy
