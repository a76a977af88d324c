import AppAdmission.Proofs.Admission.Compliance
import AppAdmission.Proofs.Admission.ReleaseLookup
import AppAdmission.Proofs.Transcript

/-!
# How an evaluation deals with its store

An evaluation asks at most four things, in one order, and each at most once: the record of the cluster,
the creation of the artifact, the artifact that is there already, and its replacement. Nothing is
assumed of the answers, nor of the moment at which the request is given up. What can go wrong is said
of single events, and an evaluation fails exactly if one of them went wrong.
-/

namespace AppAdmission

/-- A call fails, other than a creation because the object is there already. -/
def Event.Failed : Event → Prop
  | .called (.create _ _) (some (.error (.alreadyExists _ _))) => False
  | .called _ (some (.error _)) => True
  | _ => False

namespace ReleaseLookup

/-- The objects found for a cluster tell its release: there is one, it reads as a cluster, and its label
reads as a version. -/
def Names (found : List StoredObject) (v : Version) : Prop :=
  ∃ o record raw, found = [o] ∧ o.toTyped? Cluster.decode = some record ∧
    record.releaseLabel? = some raw ∧ Version.read raw = .ok v

end ReleaseLookup

/-- A list is answered, but not with objects that tell a release. -/
def Event.Unclear : Event → Prop
  | .called (.list _ _) (some (.ok found)) => ¬∃ v, ReleaseLookup.Names found v
  | _ => False

/-- Something goes wrong. -/
def Event.Trouble (event : Event) : Prop := event.Failed ∨ event.Cancelled ∨ event.Unclear

namespace Event

theorem cancelling_trouble : Decision.Cancelling Trouble where
  unwanted := Or.inr (Or.inl rfl)
  wanted := by simp [Trouble, Failed, Cancelled, Unclear]
  abandoned _ := Or.inr (Or.inl rfl)

/-- An answer that is no list is no trouble. -/
theorem not_trouble_answer {c : StoreCall} (single : c.op ≠ .list) (answer : c.Answer) :
    ¬Trouble (called c (some (.ok answer))) := by
  cases c with
  | list => exact absurd rfl single
  | get | create | update => simp [Trouble, Failed, Cancelled, Unclear]

/-- A failure is trouble, except for a creation. -/
theorem trouble_error {c : StoreCall} (other : c.op ≠ .create) (e : StoreError) :
    Trouble (called c (some (.error e))) := by
  cases c with
  | create => exact absurd rfl other
  | get | list | update => exact Or.inl trivial

end Event

namespace ReleaseLookup

variable {name : String} {found : List StoredObject} {h : List Event}

theorem heeds_releaseVersion (name : String) : Decision.Heeds (releaseVersion name) :=
  .bind (.bind (.storeCall _ _) fun found => .immediate (immediate_single name found))
    fun record => .immediate (immediate_releaseOf name record)

/-- The lookup goes through if and only if what is found tells a release. -/
theorem names_iff (name : String) {v : Version} : Names found v ↔
    ∃ record, single name found = pure record ∧ releaseOf name record = pure v := by
  simp only [single_eq_pure_iff, releaseOf_eq_pure_iff]
  constructor
  · rintro ⟨o, record, raw, only, typed, labelled, read⟩
    exact ⟨record, ⟨o, only, typed⟩, raw, labelled, read⟩
  · rintro ⟨record, ⟨o, only, typed⟩, raw, labelled, read⟩
    exact ⟨o, record, raw, only, typed, labelled, read⟩

/-- How a lookup of a release goes. -/
inductive Looked (name : String) : List Event → Except AdmissionError Version → Prop where
  | unanswered {h : List Event} {e : AdmissionError}
      (asked : Decision.Asked "list clusters" (.list .cluster (.named name)) h (.error e)) :
      Looked name h (.error e)
  | unclear {found : List StoredObject} (none : ¬∃ v, Names found v) (e : AdmissionError) :
      Looked name
        [.polled false, .called (.list .cluster (.named name)) (some (.ok found))] (.error e)
  | named {found : List StoredObject} {v : Version} (names : Names found v) :
      Looked name [.polled false, .called (.list .cluster (.named name)) (some (.ok found))] (.ok v)

theorem Looked.of_plays {result : Except AdmissionError Version}
    (play : (releaseVersion name).Plays h result) : Looked name h result := by
  rcases Decision.Plays.of_bind play with ⟨e, search, rfl⟩ | ⟨first, record, rest, search, told, rfl⟩
  · rcases Decision.Plays.of_bind search with ⟨_, asked, same⟩ | ⟨listing, found, rest, asked, one, rfl⟩
    · cases same
      exact .unanswered (.of_plays asked)
    · obtain ⟨rfl, failed⟩ := (immediate_single name found).plays_iff.1 one
      have unclear : ¬∃ v, Names found v := by
        rintro ⟨v, names⟩
        obtain ⟨record, single, -⟩ := (names_iff name).1 names
        exact Decision.throw_ne_pure (failed.symm.trans single)
      cases Decision.Asked.of_plays asked with
      | answered => exact .unclear unclear e
  · rcases Decision.Plays.of_bind search with ⟨_, _, same⟩ | ⟨listing, found, rest', asked, one, rfl⟩
    · cases same
    · obtain ⟨rfl, single⟩ := (immediate_single name found).plays_iff.1 one
      obtain ⟨rfl, ending⟩ := (immediate_releaseOf name record).plays_iff.1 told
      cases Decision.Asked.of_plays asked with
      | answered =>
        cases result with
        | ok v => exact .named ((names_iff name).2 ⟨record, single, ending⟩)
        | error e =>
          refine .unclear ?_ e
          rintro ⟨v, names⟩
          obtain ⟨record', single', ending'⟩ := (names_iff name).1 names
          obtain rfl := Decision.pure_inj.1 (single.symm.trans single')
          exact Decision.throw_ne_pure (ending.symm.trans ending')

theorem failsBy_releaseVersion (name : String) :
    Decision.FailsBy Event.Trouble (releaseVersion name) := by
  intro h result play
  cases Looked.of_plays play with
  | unanswered asked =>
    cases asked with
    | unwanted => simp [Event.Trouble, Event.Cancelled]
    | abandoned => simp [Event.Trouble, Event.Cancelled]
    | failed e => simp [Event.Trouble, Event.Failed]
  | unclear none e => simp [Event.Trouble, Event.Unclear, not_exists.1 none]
  | @named found v names =>
    have clear : ∃ v, Names found v := ⟨v, names⟩
    simp [Event.Trouble, Event.Failed, Event.Cancelled, Event.Unclear, clear]

end ReleaseLookup

namespace Compliance

open Event (calls)

variable {settings : ComplianceSettings} {space : String} {a : App} {dryRun : Bool} {h : List Event}

/-- The creation of the artifact. -/
def creation (settings : ComplianceSettings) (space : String) : StoreCall :=
  .create .configMap (artifact settings space)

/-- The request for the artifact that is there. -/
def fetch (settings : ComplianceSettings) (space : String) : StoreCall :=
  .get .configMap (some space) settings.artifactName

/-- The replacement of the artifact that is there. -/
def replacement (settings : ComplianceSettings) (space : String) (current : StoredObject) : StoreCall :=
  .update .configMap (refreshed (artifact settings space) current)

/-- The calls that see to the artifact, all of them. -/
def upkeep (settings : ComplianceSettings) (space : String) (current : StoredObject) : List StoreCall :=
  [creation settings space, fetch settings space, replacement settings space current]

/-- The call that looks up the release, which is not made if the reference is in its place already. -/
def lookup (settings : ComplianceSettings) (a : App) (cluster : String) : List StoreCall :=
  if a.extraConfigs.getLast? = some (canonicalRef settings a.space) then []
  else [.list .cluster (.named cluster)]

/-- The calls of an evaluation that makes them all. -/
def plan (settings : ComplianceSettings) (a : App) (cluster : String) (current : StoredObject) :
    List StoreCall :=
  lookup settings a cluster ++ upkeep settings a.space current

/-- How it goes when the artifact is there already. -/
inductive Renewed (settings : ComplianceSettings) (space : String) :
    List Event → Except AdmissionError Unit → Prop where
  | unread {h : List Event} {e : AdmissionError}
      (asked : Decision.Asked "get compliance artifact" (fetch settings space) h (.error e)) :
      Renewed settings space h (.error e)
  | replaced {current : StoredObject} {h : List Event}
      {result : Except AdmissionError (replacement settings space current).Answer}
      (asked : Decision.Asked "update compliance artifact" (replacement settings space current) h result) :
      Renewed settings space
        (.polled false :: .called (fetch settings space) (some (.ok current)) :: h)
        (result.map fun _ => ())

theorem Renewed.of_plays {result : Except AdmissionError Unit}
    (play : (refreshArtifact (artifact settings space) space).Plays h result) :
    Renewed settings space h result := by
  rcases Decision.Plays.of_bind play with ⟨e, asked, rfl⟩ | ⟨_, current, rest, asked, renewing, rfl⟩
  · exact .unread (.of_plays asked)
  cases Decision.Asked.of_plays asked with
  | answered =>
    rcases Decision.Plays.of_bind renewing with ⟨e, put, rfl⟩ | ⟨_, o, _, put, ending, rfl⟩
    · exact .replaced (.of_plays put)
    · obtain ⟨rfl, rfl⟩ := Decision.plays_pure_iff.1 ending
      rw [List.append_nil]
      exact .replaced (.of_plays put)

/-- How the upkeep of the artifact goes. -/
inductive Kept (settings : ComplianceSettings) (space : String) :
    List Event → Except AdmissionError Unit → Prop where
  | unwanted (e : AdmissionError) : Kept settings space [.polled true] (.error e)
  | uncreated {h : List Event} {e : AdmissionError}
      (tried : Decision.Tried "create compliance artifact" (creation settings space) h (.error e)) :
      Kept settings space (.polled false :: h) (.error e)
  | created (o : StoredObject) :
      Kept settings space
        [.polled false, .polled false, .called (creation settings space) (some (.ok o))] (.ok ())
  | refused {e : StoreError} (other : ∀ k n, e ≠ .alreadyExists k n) (e' : AdmissionError) :
      Kept settings space
        [.polled false, .polled false, .called (creation settings space) (some (.error e))] (.error e')
  | renewed {k : ResourceKind} {n : String} {h : List Event} {result : Except AdmissionError Unit}
      (renewed : Renewed settings space h result) :
      Kept settings space (.polled false :: .polled false ::
        .called (creation settings space) (some (.error (.alreadyExists k n))) :: h) result

theorem Kept.of_plays {result : Except AdmissionError Unit}
    (play : (ensureArtifact settings space false).Plays h result) : Kept settings space h result := by
  unfold ensureArtifact at play
  simp only [Bool.false_eq_true, if_false] at play
  rcases Decision.Plays.of_bind play with ⟨e, active, rfl⟩ | ⟨first, _, rest, active, creating, rfl⟩
  · rcases Decision.plays_ensureActive active with ⟨rfl, -⟩ | ⟨-, same⟩
    · exact .unwanted e
    · cases same
  rcases Decision.plays_ensureActive active with ⟨-, same⟩ | ⟨rfl, -⟩
  · cases same
  rcases Decision.Plays.of_bind creating with ⟨e, tried, rfl⟩ | ⟨_, reply, rest, tried, going, rfl⟩
  · exact .uncreated (.of_plays tried)
  cases Decision.Tried.of_plays tried with
  | answered =>
    cases reply with
    | ok o =>
      obtain ⟨rfl, rfl⟩ := Decision.plays_pure_iff.1 going
      exact .created o
    | error e =>
      cases e with
      | notFound | backend =>
        obtain ⟨rfl, rfl⟩ := Decision.plays_throw_iff.1 going
        exact .refused (by simp) _
      | alreadyExists k n => exact .renewed (.of_plays going)

theorem heeds_ensureArtifact (space : String) (dryRun : Bool) :
    Decision.Heeds (ensureArtifact settings space dryRun) := by
  unfold ensureArtifact
  split
  · exact .pure ()
  · refine .bind (.ensureActive _) fun _ => .bind (.tryCall _ _) fun reply => ?_
    split
    · exact .pure ()
    · exact .bind (.storeCall _ _) fun _ => .bind (.storeCall _ _) fun _ => .pure ()
    · exact .throw _

theorem failsBy_refreshArtifact (desired : StoredObject) (space : String) :
    Decision.FailsBy Event.Trouble (refreshArtifact desired space) := by
  refine .bind ?_ fun current => .bind ?_ fun _ => .pure ()
  · exact .storeCall Event.cancelling_trouble _ (Event.trouble_error nofun)
      (Event.not_trouble_answer nofun)
  · exact .storeCall Event.cancelling_trouble _ (Event.trouble_error nofun)
      (Event.not_trouble_answer nofun)

theorem failsBy_ensureArtifact (space : String) (dryRun : Bool) :
    Decision.FailsBy Event.Trouble (ensureArtifact settings space dryRun) := by
  unfold ensureArtifact
  split
  · exact .pure ()
  refine .bind (.ensureActive Event.cancelling_trouble _) fun _ =>
    .tryCall_bind Event.cancelling_trouble fun reply h result play => ?_
  cases reply with
  | ok o =>
    obtain ⟨rfl, rfl⟩ := Decision.plays_pure_iff.1 play
    have calm := Event.not_trouble_answer (c := .create .configMap (artifact settings space)) nofun o
    simp [calm]
  | error e =>
    cases e with
    | notFound | backend =>
      obtain ⟨rfl, rfl⟩ := Decision.plays_throw_iff.1 play
      simp [Event.Trouble, Event.Failed]
    | alreadyExists k n =>
      rw [failsBy_refreshArtifact _ _ h result play]
      simp [Event.Trouble, Event.Failed, Event.Cancelled, Event.Unclear]

theorem Renewed.planned {result : Except AdmissionError Unit} (renewed : Renewed settings space h result) :
    ∃ current, calls h <+: [fetch settings space, replacement settings space current] := by
  cases renewed with
  | unread asked =>
    refine ⟨{}, ?_⟩
    rcases asked.calls_eq with none | one
    · simp [none]
    · simp [one]
  | @replaced current _ _ asked =>
    refine ⟨current, ?_⟩
    rcases asked.calls_eq with none | one
    · simp [none]
    · simp [one]

/-- What is put in place of the artifact has the metadata of the one that was fetched. -/
theorem Renewed.of_update {result : Except AdmissionError Unit} (renewed : Renewed settings space h result)
    {k : ResourceKind} {o : StoredObject} (there : .update k o ∈ calls h) : ∃ current,
      .called (fetch settings space) (some (.ok current)) ∈ h ∧
        o = refreshed (artifact settings space) current := by
  cases renewed with
  | unread asked =>
    rcases asked.calls_eq with none | one
    · simp [none] at there
    · simp [one, fetch] at there
  | @replaced current _ _ asked =>
    refine ⟨current, by simp, ?_⟩
    rcases asked.calls_eq with none | one
    · simp [none, fetch] at there
    · simp only [Event.calls_polled, Event.calls_called, one, fetch, replacement, List.mem_cons,
        reduceCtorEq, StoreCall.update.injEq, List.not_mem_nil, or_false, false_or] at there
      exact there.2

theorem Renewed.placed (renewed : Renewed settings space h (.ok ())) :
    ∃ current o, .called (replacement settings space current) (some (.ok o)) ∈ h := by
  generalize same : Except.ok () = result at renewed
  cases renewed with
  | unread => cases same
  | @replaced current _ _ asked =>
    cases asked with
    | unwanted | abandoned | failed => cases same
    | answered o => exact ⟨current, o, by simp⟩

/-- What is seen of the upkeep of the artifact, and of its success. -/
structure Upkept (settings : ComplianceSettings) (space : String) (dryRun : Bool) (h : List Event)
    (result : Except AdmissionError Unit) : Prop where
  planned : ∃ current, calls h <+: upkeep settings space current
  spared : dryRun = true → calls h = []
  fetched : ∀ c ∈ calls h, c.op = .get →
    ∃ k n, .called (creation settings space) (some (.error (.alreadyExists k n))) ∈ h
  replaced : ∀ k o, .update k o ∈ calls h → ∃ current,
    .called (fetch settings space) (some (.ok current)) ∈ h ∧
      o = refreshed (artifact settings space) current
  placed : dryRun = false → result = .ok () →
    (∃ o, .called (creation settings space) (some (.ok o)) ∈ h) ∨
      ∃ current o, .called (replacement settings space current) (some (.ok o)) ∈ h

/-- Nothing happens, and if the artifact was to be put in place then that is no success. -/
theorem Upkept.nothing {result : Except AdmissionError Unit}
    (unplaced : dryRun = false → result ≠ .ok ()) : Upkept settings space dryRun [] result where
  planned := ⟨{}, List.nil_prefix⟩
  spared _ := rfl
  fetched _ there := absurd there List.not_mem_nil
  replaced _ _ there := absurd there List.not_mem_nil
  placed wet ok := absurd ok (unplaced wet)

/-- The upkeep that comes to nothing but the creation. -/
theorem Upkept.early {result : Except AdmissionError Unit}
    (early : calls h = [] ∨ calls h = [creation settings space])
    (placed : result = .ok () → ∃ o, .called (creation settings space) (some (.ok o)) ∈ h) :
    Upkept settings space false h result := by
  have only : ∀ c ∈ calls h, c = creation settings space := by
    rcases early with none | one
    · simp [none]
    · simp [one]
  constructor
  · refine ⟨{}, ?_⟩
    rcases early with none | one
    · simp [none]
    · simp [one, upkeep]
  · nofun
  · intro c there get
    cases only c there
    cases get
  · intro k o there
    cases only _ there
  · exact fun _ ok => Or.inl (placed ok)

theorem Kept.upkept {result : Except AdmissionError Unit} (kept : Kept settings space h result) :
    Upkept settings space false h result := by
  cases kept with
  | unwanted => exact .early (Or.inl rfl) nofun
  | uncreated tried => exact .early (by simpa using tried.calls_eq) nofun
  | created o => exact .early (Or.inr rfl) fun _ => ⟨o, by simp⟩
  | refused => exact .early (Or.inr rfl) nofun
  | @renewed k n h result renewed =>
    constructor
    · obtain ⟨current, upTo⟩ := renewed.planned
      refine ⟨current, ?_⟩
      simpa [upkeep] using upTo
    · nofun
    · exact fun _ _ _ => ⟨k, n, by simp⟩
    · intro k o there
      have later : .update k o ∈ calls h := by simpa [creation] using there
      obtain ⟨current, got, same⟩ := renewed.of_update later
      exact ⟨current, by simp [got], same⟩
    · rintro - rfl
      obtain ⟨current, o, put⟩ := renewed.placed
      exact Or.inr ⟨current, o, by simp [put]⟩

theorem Upkept.of_plays {result : Except AdmissionError Unit}
    (play : (ensureArtifact settings space dryRun).Plays h result) :
    Upkept settings space dryRun h result := by
  cases dryRun with
  | false => exact (Kept.of_plays play).upkept
  | true =>
    obtain ⟨rfl, rfl⟩ := Decision.plays_pure_iff.1 play
    exact .nothing fun wet => absurd wet (by decide)

/-- How an evaluation goes. -/
inductive Course (settings : ComplianceSettings) (a : App) (dryRun : Bool) :
    List Event → Except AdmissionError State → Prop where
  | outside (outside : applicableCluster? settings a = none) :
      Course settings a dryRun [] (.ok .notApplicable)
  | sought {cluster : String} {h : List Event} {result : Except AdmissionError State}
      (inside : applicableCluster? settings a = some cluster)
      (looked : calls h <+: lookup settings a cluster)
      (unkept : ∀ state, result = .ok state → ∃ release, state = .belowCutoff release) :
      Course settings a dryRun h result
  | kept {cluster : String} {first rest : List Event} {result : Except AdmissionError Unit}
      (inside : applicableCluster? settings a = some cluster)
      (looked : calls first = lookup settings a cluster)
      (upkept : Upkept settings a.space dryRun rest result) (state : State) :
      Course settings a dryRun (first ++ rest) (result.map fun _ => state)

/-- The upkeep of the artifact and the state after it. -/
theorem Course.of_upkeep {cluster : String} {first rest : List Event}
    {result : Except AdmissionError State} {state : State}
    (inside : applicableCluster? settings a = some cluster)
    (looked : calls first = lookup settings a cluster)
    (play : (ensureArtifact settings a.space dryRun >>= fun _ => pure state).Plays rest result) :
    Course settings a dryRun (first ++ rest) result := by
  rcases Decision.Plays.of_bind play with ⟨e, keeping, rfl⟩ | ⟨_, _, _, keeping, ending, rfl⟩
  · exact .kept inside looked (.of_plays keeping) state
  · obtain ⟨rfl, rfl⟩ := Decision.plays_pure_iff.1 ending
    rw [List.append_nil]
    exact .kept inside looked (.of_plays keeping) state

theorem Course.of_plays {result : Except AdmissionError State}
    (play : (evaluate settings a dryRun).Plays h result) : Course settings a dryRun h result := by
  unfold evaluate at play
  cases inside : applicableCluster? settings a with
  | none =>
    rw [inside] at play
    obtain ⟨rfl, rfl⟩ := Decision.plays_pure_iff.1 play
    exact .outside inside
  | some cluster =>
    simp only [inside] at play
    split at play
    · next last =>
      have none : calls [] = lookup settings a cluster := (if_pos last).symm
      exact .of_upkeep inside none play
    · next other =>
      have list : lookup settings a cluster = [.list .cluster (.named cluster)] := if_neg other
      rcases Decision.Plays.of_bind play with ⟨e, looking, rfl⟩ | ⟨_, release, _, looking, going, rfl⟩
      · refine .sought inside ?_ nofun
        rw [list]
        cases ReleaseLookup.Looked.of_plays looking with
        | unanswered asked =>
          rcases asked.calls_eq with none | one
          · simp [none]
          · simp [one]
        | unclear => exact List.prefix_rfl
      · cases ReleaseLookup.Looked.of_plays looking with
        | named =>
          split at going
          · obtain ⟨rfl, rfl⟩ := Decision.plays_pure_iff.1 going
            refine .sought inside ?_ fun state same => ⟨release, by cases same; rfl⟩
            rw [list]
            exact List.prefix_rfl
          · exact .of_upkeep inside list.symm going

theorem heeds_evaluate (settings : ComplianceSettings) (a : App) (dryRun : Bool) :
    Decision.Heeds (evaluate settings a dryRun) :=
  evaluate_of_composable Decision.Heeds.composable ReleaseLookup.heeds_releaseVersion
    (heeds_ensureArtifact _ _)

theorem failsBy_evaluate (settings : ComplianceSettings) (a : App) (dryRun : Bool) :
    Decision.FailsBy Event.Trouble (evaluate settings a dryRun) :=
  evaluate_of_composable (Decision.FailsBy.composable _) ReleaseLookup.failsBy_releaseVersion
    (failsBy_ensureArtifact _ _)

/-- An evaluation makes each of its calls once at most. -/
theorem plan_nodup (settings : ComplianceSettings) (a : App) (cluster : String) (current : StoredObject) :
    ((plan settings a cluster current).map StoreCall.op).Nodup := by
  unfold plan lookup upkeep
  split
  · simp [creation, fetch, replacement, StoreCall.op]
  · simp [creation, fetch, replacement, StoreCall.op]

theorem ops_lookup {cluster : String} {c : StoreCall} (there : c ∈ lookup settings a cluster) :
    c.op = .list := by
  unfold lookup at there
  split at there
  · cases there
  · obtain rfl := List.mem_singleton.1 there
    rfl

theorem Course.idle {result : Except AdmissionError State} (course : Course settings a dryRun h result)
    (outside : applicableCluster? settings a = none) : h = [] := by
  cases course with
  | outside => rfl
  | sought inside | kept inside =>
    rw [inside] at outside
    cases outside

theorem Course.planned {result : Except AdmissionError State} {cluster : String}
    (course : Course settings a dryRun h result)
    (inside : applicableCluster? settings a = some cluster) :
    ∃ current, calls h <+: plan settings a cluster current := by
  cases course with
  | outside outside =>
    rw [outside] at inside
    cases inside
  | sought inside' looked =>
    cases inside.symm.trans inside'
    exact ⟨{}, looked.trans (List.prefix_append _ _)⟩
  | kept inside' looked upkept =>
    cases inside.symm.trans inside'
    obtain ⟨current, upTo⟩ := upkept.planned
    refine ⟨current, ?_⟩
    rw [Event.calls_append, looked]
    exact (List.prefix_append_right_inj _).2 upTo

theorem Course.once {result : Except AdmissionError State} (course : Course settings a dryRun h result) :
    ((calls h).map StoreCall.op).Nodup := by
  cases inside : applicableCluster? settings a with
  | none =>
    obtain rfl := course.idle inside
    exact .nil
  | some cluster =>
    obtain ⟨current, upTo⟩ := course.planned inside
    exact (upTo.sublist.map StoreCall.op).nodup (plan_nodup settings a cluster current)

/-- The evaluation counts on the artifact. -/
def Counts (result : Except AdmissionError State) : Prop :=
  result = .ok .alreadyPatched ∨ ∃ ops, result = .ok (.patchRequired ops)

/-- After a lookup, all that an evaluation does is the upkeep of the artifact. -/
theorem Course.upkept {result : Except AdmissionError State} (course : Course settings a dryRun h result) :
    ∃ first rest r, h = first ++ rest ∧ (∀ c ∈ calls first, c.op = .list) ∧
      Upkept settings a.space dryRun rest r ∧ (Counts result → r = .ok ()) := by
  have nothing : ∀ e, Upkept settings a.space dryRun [] (.error e) :=
    fun _ => .nothing fun _ same => by cases same
  cases course with
  | outside =>
    refine ⟨[], [], .error .serialization, rfl, fun _ there => absurd there List.not_mem_nil,
      nothing _, ?_⟩
    rintro (same | ⟨_, same⟩)
    · cases same
    · cases same
  | sought inside looked unkept =>
    refine ⟨h, [], .error .serialization, (List.append_nil h).symm, fun c there => ?_, nothing _, ?_⟩
    · exact ops_lookup (looked.subset there)
    · rintro (same | ⟨_, same⟩)
      · obtain ⟨_, same⟩ := unkept _ same
        cases same
      · obtain ⟨_, same⟩ := unkept _ same
        cases same
  | @kept cluster first rest r inside looked upkept state =>
    refine ⟨first, rest, r, rfl, fun c there => ops_lookup (looked ▸ there), upkept, ?_⟩
    cases r with
    | ok => exact fun _ => rfl
    | error =>
      rintro (same | ⟨_, same⟩)
      · cases same
      · cases same

/-- What the store gets to see of an evaluation, and what the evaluation comes to.

* `idle`, `planned`, `once`, `spared`: the calls are the first ones of the plan, none made twice, and a
  dry run writes nothing;
* `heeded`: no call follows the cancellation;
* `fetched`, `replaced`: the artifact is fetched only if its creation found it there, and replaced only by
  its desired form with the metadata that was fetched, without a revision;
* `failed`, `placed`: it fails exactly if something went wrong, and if it counts on the artifact then the
  artifact was put in place. -/
structure Conduct (settings : ComplianceSettings) (a : App) (dryRun : Bool) (h : List Event)
    (result : Except AdmissionError State) : Prop where
  idle : applicableCluster? settings a = none → h = []
  planned : ∀ cluster, applicableCluster? settings a = some cluster →
    ∃ current, calls h <+: plan settings a cluster current
  once : ((calls h).map StoreCall.op).Nodup
  spared : dryRun = true → ∀ c ∈ calls h, c.op = .list
  heeded : Heeded h
  fetched : ∀ c ∈ calls h, c.op = .get →
    ∃ k n, .called (creation settings a.space) (some (.error (.alreadyExists k n))) ∈ h
  replaced : ∀ k o, .update k o ∈ calls h → ∃ current,
    .called (fetch settings a.space) (some (.ok current)) ∈ h ∧
      o = { artifact settings a.space with
        metadata := { current.metadata with resourceVersion := none } }
  failed : (∃ e, result = .error e) ↔ ∃ event ∈ h, event.Failed ∨ event.Cancelled ∨ event.Unclear
  placed : dryRun = false → Counts result →
    (∃ o, .called (creation settings a.space) (some (.ok o)) ∈ h) ∨
      ∃ current o, .called (replacement settings a.space current) (some (.ok o)) ∈ h

/-- **An evaluation keeps its discipline against any store.** Whatever the store answers and whenever
the request is given up, the calls are made in the order of the plan, none is repeated or follows the
cancellation, the writes are the ones that the settings and the fetched metadata give, and the
evaluation fails exactly if a call failed, the cancellation came in between, or the list told no release. -/
theorem evaluate_conduct {σ : Type} (env : Environment σ) (settings : ComplianceSettings) (a : App)
    (dryRun : Bool) (s : σ) :
    Conduct settings a dryRun (Decision.transcript env (evaluate settings a dryRun) s)
      (Decision.eval env (evaluate settings a dryRun) s).1 := by
  have play := Decision.plays_eval env (evaluate settings a dryRun) s
  generalize Decision.transcript env (evaluate settings a dryRun) s = h at play
  generalize (Decision.eval env (evaluate settings a dryRun) s).1 = result at play
  have heeded := (heeds_evaluate settings a dryRun h result play).1
  have failed := failsBy_evaluate settings a dryRun h result play
  have course := Course.of_plays play
  obtain ⟨first, rest, r, rfl, lists, upkept, counts⟩ := course.upkept
  -- Any call that is no list belongs to the upkeep.
  have later : ∀ c ∈ calls (first ++ rest), c.op = .list ∨ c ∈ calls rest := by
    intro c there
    rw [Event.calls_append] at there
    exact (List.mem_append.1 there).imp_left (lists c)
  refine ⟨course.idle, fun cluster => course.planned, course.once, ?_, heeded, ?_, ?_, failed, ?_⟩
  · intro dry c there
    rcases later c there with list | there
    · exact list
    · rw [upkept.spared dry] at there
      cases there
  · intro c there get
    rcases later c there with list | there
    · cases get.symm.trans list
    · obtain ⟨k, n, found⟩ := upkept.fetched c there get
      exact ⟨k, n, List.mem_append_right first found⟩
  · intro k o there
    rcases later _ there with list | there
    · cases list
    · obtain ⟨current, got, same⟩ := upkept.replaced k o there
      exact ⟨current, List.mem_append_right first got, same⟩
  · intro wet ok
    rcases upkept.placed wet (counts ok) with ⟨o, created⟩ | ⟨current, o, put⟩
    · exact Or.inl ⟨o, List.mem_append_right first created⟩
    · exact Or.inr ⟨current, o, List.mem_append_right first put⟩

end Compliance

end AppAdmission
