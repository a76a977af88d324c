import AppAdmission.Admission.Defaults
import AppAdmission.Proofs.Store.Concur

/-!
# What a store tells about releases

A lookup that succeeds went through two answers of the store: the one record of a cluster, whose label
names a release, and the record of that release, which lists the component. Lookups only look.
-/

namespace AppAdmission.ReleaseLookup

variable {σ : Type} {env : Environment σ} {cluster component version : String} {s t : σ}

/-- The store tells the version of a component for a cluster. -/
inductive Tells (env : Environment σ) (cluster component : String) : σ → String → σ → Prop where
  | told {o o' : StoredObject} {record : Cluster} {raw version : String} {v : Version}
      {release : Release} {s u t : σ}
      (listed : Decision.eval env
        (Decision.storeCall "list clusters" (.list .cluster (.named cluster))) s = (.ok [o], u))
      (one : o.toTyped? Cluster.decode = some record) (labelled : record.releaseLabel? = some raw)
      (reads : Version.read raw = .ok v)
      (got : Decision.eval env
        (Decision.storeCall "get release" (.get .release none (Release.objectName v))) u = (.ok o', t))
      (typed : o'.toTyped? Release.decode = some release)
      (lists : release.componentVersion? component = some version) :
      Tells env cluster component s version t

/-- The record of a cluster is decided upon at once. -/
theorem immediate_single (name : String) (found : List StoredObject) :
    (single name found).Immediate := by
  match found with
  | [] => exact .throw _
  | [_] => exact .converted _
  | _ :: _ :: _ => exact .throw _

/-- So is the release that it names. -/
theorem immediate_releaseOf (name : String) (record : Cluster) :
    (releaseOf name record).Immediate := by
  unfold releaseOf
  split
  · exact .throw _
  · split
    · exact .pure _
    · exact .throw _

theorem single_eq_pure_iff {os : List StoredObject} {record : Cluster} :
    single cluster os = pure record ↔ ∃ o, os = [o] ∧ o.toTyped? Cluster.decode = some record := by
  match os with
  | [] => exact ⟨fun h => absurd h Decision.throw_ne_pure, fun ⟨_, same, _⟩ => nomatch same⟩
  | [o] =>
    constructor
    · intro h
      exact ⟨o, rfl, Decision.converted_eq_pure_iff.1 h⟩
    · rintro ⟨_, same, typed⟩
      cases same
      exact Decision.converted_eq_pure_iff.2 typed
  | _ :: _ :: _ => exact ⟨fun h => absurd h Decision.throw_ne_pure, fun ⟨_, same, _⟩ => nomatch same⟩

theorem releaseOf_eq_pure_iff {record : Cluster} {v : Version} :
    releaseOf cluster record = pure v ↔
      ∃ raw, record.releaseLabel? = some raw ∧ Version.read raw = .ok v := by
  unfold releaseOf
  cases record.releaseLabel? with
  | none => exact ⟨fun h => absurd h Decision.throw_ne_pure, fun ⟨_, same, _⟩ => nomatch same⟩
  | some raw =>
    dsimp only
    cases read : Version.read raw with
    | error e =>
      refine ⟨fun h => absurd h Decision.throw_ne_pure, ?_⟩
      rintro ⟨_, same, read'⟩
      cases same
      cases read.symm.trans read'
    | ok v' =>
      constructor
      · intro h
        obtain rfl := Decision.pure_inj.1 h
        exact ⟨raw, rfl, read⟩
      · rintro ⟨_, same, read'⟩
        cases same
        cases read.symm.trans read'
        rfl

/-- A cluster that is found has one record. -/
theorem eval_single_ok {os : List StoredObject} {record : Cluster}
    (h : Decision.eval env (single cluster os) s = (.ok record, t)) :
    ∃ o, os = [o] ∧ o.toTyped? Cluster.decode = some record ∧ s = t := by
  obtain ⟨one, left⟩ := (immediate_single cluster os).eval_iff.1 h
  obtain ⟨o, only, typed⟩ := single_eq_pure_iff.1 one
  exact ⟨o, only, typed, left⟩

/-- A release that is found is the one on the label of the record. -/
theorem eval_releaseOf_ok {record : Cluster} {v : Version}
    (h : Decision.eval env (releaseOf cluster record) s = (.ok v, t)) :
    ∃ raw, record.releaseLabel? = some raw ∧ Version.read raw = .ok v ∧ s = t := by
  obtain ⟨named, left⟩ := (immediate_releaseOf cluster record).eval_iff.1 h
  obtain ⟨raw, labelled, read⟩ := releaseOf_eq_pure_iff.1 named
  exact ⟨raw, labelled, read, left⟩

/-- A version that is found is one that the store tells. -/
theorem Tells.of_eval (h : Decision.eval env (Defaults.operatorVersion cluster) s = (.ok version, t)) :
    Tells env cluster Defaults.operatorComponent s version t := by
  obtain ⟨v, u, found, h⟩ := Decision.eval_bind_ok_iff.1 h
  obtain ⟨record, _, single, named⟩ := Decision.eval_bind_ok_iff.1 found
  obtain ⟨os, _, listed, single⟩ := Decision.eval_bind_ok_iff.1 single
  obtain ⟨o, rfl, one, rfl⟩ := eval_single_ok single
  obtain ⟨raw, labelled, reads, rfl⟩ := eval_releaseOf_ok named
  obtain ⟨o', _, got, h⟩ := Decision.eval_bind_ok_iff.1 h
  obtain ⟨release, _, typed, h⟩ := Decision.eval_bind_ok_iff.1 h
  obtain ⟨decoded, rfl⟩ := Decision.eval_converted_ok_iff.1 typed
  cases lists : release.componentVersion? Defaults.operatorComponent with
  | none =>
    simp only [lists] at h
    cases h
  | some version' =>
    simp only [lists] at h
    obtain ⟨rfl, rfl⟩ := Decision.eval_pure_ok_iff.1 h
    exact .told listed one labelled reads got decoded lists

theorem looking_releaseVersion (name : String) : (releaseVersion name).Looking :=
  .bind (.bind (.look _ ⟨Or.inr rfl, nofun⟩) fun found => .immediate (immediate_single name found))
    fun record => .immediate (immediate_releaseOf name record)

theorem looking_operatorVersion (name : String) : (Defaults.operatorVersion name).Looking := by
  refine .bind (looking_releaseVersion name) fun v => ?_
  refine .bind (.look _ ⟨Or.inl rfl, nofun⟩) fun o => .bind (.immediate (.converted _)) fun release => ?_
  split
  · exact .pure _
  · exact .throw _

end AppAdmission.ReleaseLookup
