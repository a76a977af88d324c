import AppAdmission.Admission.Catalog
import AppAdmission.ApiServer.Client
import AppAdmission.Proofs.ApiServer.FieldSelector
import AppAdmission.Proofs.Store.Memory
import AppAdmission.Proofs.Text.FormEncoded

/-!
# Looking objects up by name at an API server

A name that is to be looked up goes into the field selector of a query as it is. What a server reads
there is a requirement on exactly this name as long as the name is plain; then the catalog of an App is
found at the server if and only if it is found in a store in memory with the same catalogs. A name with
a comma is read as several requirements, and an App can be let through whose catalog does not exist.
-/

namespace AppAdmission

open Json (Source)
open FieldSelector (Requirement Plain)

namespace ApiServer

namespace Request

/-- The path of a request. -/
def path (r : Request) : List Char := r.uri.toList.takeWhile (· != '?')

/-- The names and values in its query. -/
def parameters (r : Request) : List (String × String) :=
  FormEncoded.pairs ((r.uri.toList.dropWhile (· != '?')).drop 1)

/-- The value of a name in its query. -/
def parameter? (r : Request) (name : String) : Option String :=
  (r.parameters.find? fun p => p.1 == name).map Prod.snd

/-- The requirements that are read in its field selector. -/
def requirements? (r : Request) : Option (List Requirement) :=
  (r.parameter? "fieldSelector").bind FieldSelector.read?

end Request

/-- The characters of a query that end neither it nor one of its parts. -/
theorem isQueryChar_of_writtenB {c : Char} (written : FormEncoded.writtenB c = true) :
    isQueryChar c = true := by
  have all : ∀ n < 128, FormEncoded.writtenB (Char.ofNat n) = true → isQueryChar (Char.ofNat n) = true := by
    decide
  have small : c.toNat < 128 := by
    simp only [FormEncoded.writtenB, Bool.and_eq_true, decide_eq_true_eq] at written
    exact written.1
  have back := Char.ofNat_toNat c
  have here := all c.toNat small
  rw [back] at here
  exact here written

section Query

open FormEncoded ListFilter

/-- A selector in a query is read back, and what follows it too. -/
theorem pairs_queryPart (key : String) (fresh : '&' ∉ key.toList ∧ '=' ∉ key.toList)
    (itself : decode key.toList = key) (value : Option String) {rest : List Char}
    (apart : rest = [] ∨ ∃ more, rest = '&' :: more) :
    pairs (queryPart key value ++ rest) = value.toList.map (key, ·) ++ pairs rest := by
  cases value with
  | none => rfl
  | some v =>
    have inside : '&' ∉ key.toList ++ '=' :: encode v := by
      simp only [List.mem_append, List.mem_cons, not_or]
      exact ⟨fresh.1, by decide, not_mem_encode (by decide)⟩
    have full : (!(key.toList ++ '=' :: encode v).isEmpty) = true := by simp
    have one : pair (key.toList ++ '=' :: encode v) = (key, v) := by rw [pair_append fresh.2, itself]
    have begun : queryPart key (some v) ++ rest = '&' :: (key.toList ++ '=' :: encode v ++ rest) := by
      simp [queryPart]
    have first : Text.splitOn '&' ('&' :: (key.toList ++ '=' :: encode v ++ rest)) =
        [] :: Text.splitOn '&' (key.toList ++ '=' :: encode v ++ rest) :=
      Text.splitOn_append List.not_mem_nil _
    rcases apart with rfl | ⟨more, rfl⟩
    · rw [begun, pairs_eq, first, List.append_nil, Text.splitOn_of_not_mem inside]
      simp [full, one, pairs_eq, Text.splitOn]
    · have next : Text.splitOn '&' ('&' :: more) = [] :: Text.splitOn '&' more :=
        Text.splitOn_append List.not_mem_nil more
      rw [begun, pairs_eq, first, Text.splitOn_append inside, pairs_eq, next]
      simp [full, one]

/-- The selectors of a filter are read back. -/
theorem pairs_query (filter : ListFilter) : pairs filter.query =
    filter.fieldSelector?.toList.map ("fieldSelector", ·) ++
      filter.labelSelector?.toList.map ("labelSelector", ·) := by
  have later : pairs (queryPart "labelSelector" filter.labelSelector?) =
      filter.labelSelector?.toList.map ("labelSelector", ·) := by
    have whole := pairs_queryPart "labelSelector" (by decide) (by decide +kernel)
      filter.labelSelector? (Or.inl rfl)
    simpa [pairs_eq, Text.splitOn] using whole
  unfold query
  rw [pairs_queryPart "fieldSelector" (by decide) (by decide +kernel), later]
  cases filter.labelSelector? with
  | none => exact Or.inl rfl
  | some v => exact Or.inr ⟨_, rfl⟩

/-- A query is made of characters that may stand there, and does not end before its end. -/
theorem isQueryChar_query (filter : ListFilter) :
    ∀ c ∈ filter.query, isQueryChar c = true ∧ (c != '#') = true := by
  have part {key : String} (known : (key.toList.all fun c => isQueryChar c && c != '#') = true)
      (value : Option String) :
      ∀ c ∈ queryPart key value, isQueryChar c = true ∧ (c != '#') = true := by
    intro c there
    cases value with
    | none => cases there
    | some v =>
      simp only [queryPart, List.cons_append, List.mem_cons, List.mem_append] at there
      rcases there with rfl | there | rfl | there
      · decide
      · exact (Bool.and_eq_true _ _).mp (List.all_eq_true.1 known c there)
      · decide
      · refine ⟨isQueryChar_of_writtenB (writtenB_encode there), ?_⟩
        rw [bne_iff_ne]
        rintro rfl
        exact not_mem_encode (by decide) there
  intro c there
  rcases List.mem_append.1 there with there | there
  · exact part (by decide) _ c there
  · exact part (by decide) _ c there

end Query

/-- The field selector of a name is a requirement on exactly this name if the name is plain, and only then. -/
theorem read?_fieldSelector_iff {filter : ListFilter} {name : String} (given : filter.name = some name) :
    filter.fieldSelector?.bind FieldSelector.read? = some [FieldSelector.named name] ↔ Plain name := by
  rw [ListFilter.fieldSelector?, given, Option.map_some, Option.bind_some]
  exact FieldSelector.read?_named_iff name

/-- The path of the objects of a kind is made of characters that may stand there, and does not end
before its end. -/
theorem isPathChar_path (kind : ResourceKind) :
    ∀ c ∈ kind.path none, isPathChar c = true ∧ (c != '#') = true ∧ (c != '?') = true := by
  have all : ((kind.path none).all fun c => isPathChar c && (c != '#' && c != '?')) = true := by
    cases kind <;> decide
  intro c there
  simpa only [Bool.and_eq_true] using List.all_eq_true.1 all c there

/-- The address of the objects that a filter asks for in all namespaces is short enough to be sent. -/
def Fits (kind : ResourceKind) (filter : ListFilter) : Prop :=
  (Utf8.encode (kind.path none ++ '?' :: filter.query)).length ≤ addressLimit

/-- What is sent for a list, and what can be read of it. -/
theorem prepare_list {kind : ResourceKind} {filter : ListFilter} (everywhere : filter.space = none)
    (fits : Fits kind filter) :
    ∃ request, prepare (.list kind filter) = .ok request ∧ request.method = "GET" ∧
      request.path = kind.path none ∧ request.parameters =
        filter.fieldSelector?.toList.map ("fieldSelector", ·) ++
          filter.labelSelector?.toList.map ("labelSelector", ·) := by
  have paths := isPathChar_path kind
  have queries := isQueryChar_query filter
  have noFragment : ∀ c ∈ kind.path none ++ '?' :: filter.query, (c != '#') = true := by
    intro c there
    rcases List.mem_append.1 there with there | there
    · exact (paths c there).2.1
    · rcases List.mem_cons.1 there with rfl | there
      · decide
      · exact (queries c there).2
  have whole : (kind.path none ++ '?' :: filter.query).takeWhile (· != '#') =
      kind.path none ++ '?' :: filter.query := by
    have all : (kind.path none ++ '?' :: filter.query ++ []).takeWhile (· != '#') = _ :=
      List.takeWhile_append_of_pos noFragment
    simpa using all
  have path : (kind.path none ++ '?' :: filter.query).takeWhile (· != '?') = kind.path none := by
    rw [List.takeWhile_append_of_pos fun c there => (paths c there).2.2]
    simp
  have query : ((kind.path none ++ '?' :: filter.query).dropWhile (· != '?')).drop 1 = filter.query := by
    rw [List.dropWhile_append_of_pos fun c there => (paths c there).2.2]
    simp
  have inOrder : ((kind.path none).all isPathChar && filter.query.all isQueryChar) = true := by
    rw [Bool.and_eq_true, List.all_eq_true, List.all_eq_true]
    exact ⟨fun c there => (paths c there).1, fun c there => (queries c there).1⟩
  have sent : sendable (kind.path none ++ '?' :: filter.query) =
      .ok (String.ofList (kind.path none ++ '?' :: filter.query)) := by
    unfold sendable
    simp only [whole, path, query, inOrder, if_true]
    rw [if_neg (Nat.not_lt.2 fits)]
  refine ⟨⟨"GET", String.ofList (kind.path none ++ '?' :: filter.query), none⟩, ?_, rfl, ?_, ?_⟩
  · show requestTo "GET" (kind.path filter.space ++ '?' :: filter.query) none = _
    unfold requestTo
    rw [everywhere, sent]
  · unfold Request.path
    rw [String.toList_ofList, path]
  · unfold Request.parameters
    rw [String.toList_ofList, query, pairs_query]

/-- A server reads in the request for a list the field selector that was written. -/
theorem requirements?_list {kind : ResourceKind} {filter : ListFilter} (everywhere : filter.space = none)
    (fits : Fits kind filter) :
    ∃ request, prepare (.list kind filter) = .ok request ∧
      request.requirements? = filter.fieldSelector?.bind FieldSelector.read? := by
  obtain ⟨request, sent, -, -, parameters⟩ := prepare_list everywhere fits
  refine ⟨request, sent, ?_⟩
  unfold Request.requirements? Request.parameter?
  rw [parameters]
  cases filter.fieldSelector? with
  | none => cases filter.labelSelector? <;> rfl
  | some _ => rfl

/-- An object meets a requirement on its name. -/
def metB (o : StoredObject) (r : Requirement) : Bool :=
  match r.comparison with
  | .equal => o.name == r.value
  | .notEqual => o.name != r.value

/-- The objects that a reply lists. -/
def Reply.objects? (r : Reply) : Option (List StoredObject) := do
  let text ← Utf8.decode? r.body
  let items ← (Source.ofChars? text).bind objects
  items.mapM StoredObject.ofJson?

/-- The reply is a list of some objects. -/
structure Reply.Lists (r : Reply) (os : List StoredObject) : Prop where
  status : r.status = 200
  objects : r.objects? = some os

/-- A server holds some objects of a kind: asked for those with certain names, it lists the ones that meet
all requirements that it reads in the field selector. -/
def Serves (server : Request → Reply) (kind : ResourceKind) (os : List StoredObject) : Prop :=
  ∀ request requirements, request.method = "GET" → request.path = kind.path none →
    request.parameter? "labelSelector" = none → request.requirements? = some requirements →
    (∀ r ∈ requirements, r.field = "metadata.name") →
    (server request).Lists (os.filter fun o => requirements.all (metB o))

/-- Calls go to a server; the requests that were sent are kept. -/
def environment (server : Request → Reply) : Environment (List Request) where
  poll log := (false, log)
  answer log c := (some (perform server c).2, log ++ (perform server c).1)

theorem mapM_incoming {items : List Json} {os : List StoredObject}
    (read : items.mapM StoredObject.ofJson? = some os) : items.mapM incoming = .ok os := by
  induction items generalizing os with
  | nil =>
    cases read
    rfl
  | cons j rest ih =>
    rw [List.mapM_cons] at read
    obtain ⟨o, first, read⟩ := Option.bind_eq_some_iff.1 read
    obtain ⟨others, later, same⟩ := Option.bind_eq_some_iff.1 read
    cases same
    have here : incoming j = .ok o := by
      unfold incoming
      rw [first]
    rw [List.mapM_cons, here, ih later]
    rfl

/-- A list that a server gives is taken as it is. -/
theorem interpret_lists {kind : ResourceKind} {filter : ListFilter} {r : Reply} {os : List StoredObject}
    (lists : r.Lists os) : interpret (.list kind filter) r = .ok os := by
  obtain ⟨text, spelt, h⟩ := Option.bind_eq_some_iff.1 lists.objects
  obtain ⟨items, read, each⟩ := Option.bind_eq_some_iff.1 h
  have settled : settle kind (filter.name.getD "") r = .ok text := by
    unfold settle
    simp [spelt, lists.status]
  have expected : expect objects text = .ok items := by
    unfold expect
    rw [read]
  show (do (← expect objects (← settle kind (filter.name.getD "") r)).mapM incoming) = _
  rw [settled]
  show (do (← expect objects text).mapM incoming) = _
  rw [expected]
  exact mapM_incoming each

/-- A server finds the objects that meet all requirements it reads. -/
theorem perform_list {server : Request → Reply} {kind : ResourceKind} {os : List StoredObject}
    (serves : Serves server kind os) {filter : ListFilter} (everywhere : filter.space = none)
    (unlabelled : filter.labelSelector? = none) (fits : Fits kind filter) {requirements : List Requirement}
    (read : filter.fieldSelector?.bind FieldSelector.read? = some requirements)
    (fields : ∀ r ∈ requirements, r.field = "metadata.name") :
    (perform server (.list kind filter)).2 = .ok (os.filter fun o => requirements.all (metB o)) := by
  obtain ⟨request, sent, method, path, parameters⟩ := prepare_list everywhere fits
  have labels : request.parameter? "labelSelector" = none := by
    unfold Request.parameter?
    rw [parameters, unlabelled]
    cases filter.fieldSelector? <;> rfl
  have found : request.requirements? = some requirements := by
    obtain ⟨request', sent', asWritten⟩ := requirements?_list everywhere fits
    rw [sent] at sent'
    cases sent'
    rw [asWritten, read]
  unfold perform
  rw [sent]
  exact interpret_lists (serves request _ method path labels found fields)

end ApiServer

/-- A list that is answered decides on the catalog of an App. -/
theorem eval_catalogValidator {σ : Type} {env : Environment σ} {s t u : σ} {request : AdmissionRequest App}
    {found : List StoredObject} (wanted : env.poll s = (false, t))
    (answered : env.answer t (.list .catalog (.named request.object.spec.catalog)) = (some (.ok found), u)) :
    (Decision.eval env (catalogValidator.validate request) s).1 =
      .ok (catalogVerdict request.object.spec.catalog found) := by
  have listed : Decision.eval env (Decision.storeCall "list catalogs"
      (.list .catalog (.named request.object.spec.catalog))) s = (.ok found, u) :=
    Decision.eval_storeCall_of_answer wanted answered
  exact congrArg Prod.fst (Decision.eval_bind_of_ok listed)

/-- The objects of a name in a store in memory. -/
theorem MemoryStore.mem_select_named {s : MemoryStore} {kind : ResourceKind} {name : String}
    {o : StoredObject} : o ∈ s.select kind (.named name) ↔ o ∈ s.select kind {} ∧ o.name = name := by
  simp only [select, List.mem_map, List.mem_filter, ListFilter.named, ListFilter.matchesB,
    ListFilter.admitsB, OrderedMap.empty, List.all_nil, Bool.and_true, Bool.true_and, Bool.and_eq_true,
    beq_iff_eq]
  constructor
  · rintro ⟨e, ⟨there, kind, name⟩, rfl⟩
    exact ⟨⟨e, ⟨there, kind⟩, rfl⟩, name⟩
  · rintro ⟨⟨e, ⟨there, kind⟩, rfl⟩, name⟩
    exact ⟨e, ⟨there, kind, name⟩, rfl⟩

/-- The verdict on an App of a catalog, when these are the catalogs that exist. -/
def existenceVerdict (catalogs : List StoredObject) (catalog : String) : Verdict :=
  if ∃ o ∈ catalogs, o.name = catalog then .abstain
  else .deny ("validation error: catalog '" ++ catalog ++ "' not found")

theorem catalogVerdict_eq {catalogs found : List StoredObject} {catalog : String}
    (same : ∀ o, o ∈ found ↔ o ∈ catalogs ∧ o.name = catalog) :
    catalogVerdict catalog found = existenceVerdict catalogs catalog := by
  unfold existenceVerdict
  cases found with
  | nil =>
    have none : ¬∃ o ∈ catalogs, o.name = catalog := by
      rintro ⟨o, there, name⟩
      cases (same o).2 ⟨there, name⟩
    rw [if_neg none]
    rfl
  | cons o rest =>
    have one : ∃ o ∈ catalogs, o.name = catalog := ⟨o, (same o).1 List.mem_cons_self⟩
    rw [if_pos one]
    rfl

/-- The catalog of an App is looked up in a store in memory. -/
theorem eval_catalogValidator_memory {s : MemoryStore} (healthy : s.Healthy)
    (request : AdmissionRequest App) :
    (Decision.eval MemoryStore.environment (catalogValidator.validate request) s).1 =
      .ok (catalogVerdict request.object.spec.catalog
        (s.select .catalog (.named request.object.spec.catalog))) := by
  have performed := healthy.answer (.list .catalog (.named request.object.spec.catalog))
  have answered : MemoryStore.environment.answer s (.list .catalog (.named request.object.spec.catalog)) =
      (some (.ok (s.select .catalog (.named request.object.spec.catalog))), s.count .list .catalog) :=
    congrArg (fun p => (some p.1, p.2)) performed
  exact eval_catalogValidator rfl answered

namespace ApiServer

/-- The catalog of an App is looked up at a server. -/
theorem eval_catalogValidator_server {server : Request → Reply} {catalogs : List StoredObject}
    (serves : Serves server .catalog catalogs) (request : AdmissionRequest App)
    (fits : Fits .catalog (.named request.object.spec.catalog)) {requirements : List Requirement}
    (read : (ListFilter.named request.object.spec.catalog).fieldSelector?.bind FieldSelector.read? =
      some requirements)
    (fields : ∀ r ∈ requirements, r.field = "metadata.name") (log : List Request) :
    (Decision.eval (environment server) (catalogValidator.validate request) log).1 =
      .ok (catalogVerdict request.object.spec.catalog
        (catalogs.filter fun o => requirements.all (metB o))) := by
  have performed := perform_list serves rfl rfl fits read fields
  have answered : (environment server).answer log (.list .catalog (.named request.object.spec.catalog)) =
      (some (.ok (catalogs.filter fun o => requirements.all (metB o))),
        log ++ (perform server (.list .catalog (.named request.object.spec.catalog))).1) := by
    show (some (perform server _).2, _) = _
    rw [performed]
  exact eval_catalogValidator rfl answered

/-- **Plain names are looked up exactly.** The field selector of a name is read as one requirement, that
the name be this one, if and only if the name is plain, and it is what a server finds in the request. Over
a store in memory an App is denied for its catalog exactly if no catalog has its name, and with a plain name
that is not too long the verdict over a server with the same catalogs is the same. -/
theorem lookup_exact (name : String) :
    (∀ filter : ListFilter, filter.name = some name →
      (filter.fieldSelector?.bind FieldSelector.read? = some [FieldSelector.named name] ↔ Plain name) ∧
      ∀ kind : ResourceKind, filter.space = none → Fits kind filter →
        ∃ request, prepare (.list kind filter) = .ok request ∧
          request.requirements? = filter.fieldSelector?.bind FieldSelector.read?) ∧
    ∀ (server : Request → Reply) (catalogs : List StoredObject) (s : MemoryStore)
      (request : AdmissionRequest App), request.object.spec.catalog = name →
      Serves server .catalog catalogs → s.Healthy → (∀ o, o ∈ s.select .catalog {} ↔ o ∈ catalogs) →
      (Decision.eval MemoryStore.environment (catalogValidator.validate request) s).1 =
          .ok (existenceVerdict catalogs name) ∧
        (Plain name → Fits .catalog (.named name) →
          ∀ log, (Decision.eval (environment server) (catalogValidator.validate request) log).1 =
            .ok (existenceVerdict catalogs name)) := by
  constructor
  · exact fun filter given => ⟨read?_fieldSelector_iff given, fun kind => requirements?_list⟩
  · rintro server catalogs s request rfl serves healthy same
    constructor
    · rw [eval_catalogValidator_memory healthy]
      refine congrArg Except.ok (catalogVerdict_eq fun o => ?_)
      rw [MemoryStore.mem_select_named, same]
    · intro plain fits log
      have fields : ∀ r ∈ [FieldSelector.named request.object.spec.catalog], r.field = "metadata.name" := by
        intro r there
        rw [List.mem_singleton.1 there]
        rfl
      rw [eval_catalogValidator_server serves request fits ((read?_fieldSelector_iff rfl).2 plain) fields]
      refine congrArg Except.ok (catalogVerdict_eq fun o => ?_)
      simp [FieldSelector.named, metB]

/-- A catalog. -/
def sampleCatalog : StoredObject where
  apiVersion := "application.giantswarm.io/v1alpha1"
  kind := "Catalog"
  metadata := { ObjectMeta.namespaced "default" "community" with resourceVersion := some "1" }

/-- The reply with some objects. -/
def listing (found : List StoredObject) : Reply :=
  ⟨200, Utf8.encode (Json.obj [("items", .arr (found.map StoredObject.toJson))]).renderChars⟩

/-- A server with this catalog. -/
def sampleServer (request : Request) : Reply :=
  match request.requirements? with
  | some requirements => listing ([sampleCatalog].filter fun o => requirements.all (metB o))
  | none => ⟨400, []⟩

theorem lists_listing : ∀ found ∈ [[], [sampleCatalog]], (listing found).Lists found := by
  intro found there
  refine ⟨rfl, ?_⟩
  revert found
  decide +kernel

theorem serves_sampleServer : Serves sampleServer .catalog [sampleCatalog] := by
  intro request requirements _ _ _ read _
  unfold sampleServer
  rw [read]
  refine lists_listing _ ?_
  cases met : requirements.all (metB sampleCatalog) with
  | true => simp [met]
  | false => simp [met]

/-- A request to create an App from a catalog. -/
def sampleRequestFrom (catalog : String) : AdmissionRequest App where
  uid := "u"
  operation := .create
  actor := {}
  object := { spec := { catalog := catalog } }
  dryRun := false

/-- A store in memory with this catalog. -/
def sampleStore : MemoryStore := ({} : MemoryStore).insert .catalog sampleCatalog

theorem healthy_sampleStore : sampleStore.Healthy := fun _ _ => rfl

theorem select_sampleStore (o : StoredObject) : o ∈ sampleStore.select .catalog {} ↔ o ∈ [sampleCatalog] := by
  have there : sampleStore.select .catalog {} = [sampleCatalog] := by decide +kernel
  rw [there]

theorem lookup_exact_sample :
    (∀ log, (Decision.eval (environment sampleServer)
      (catalogValidator.validate (sampleRequestFrom "community")) log).1 = .ok .abstain) ∧
    ∀ log, (Decision.eval (environment sampleServer)
      (catalogValidator.validate (sampleRequestFrom "other")) log).1 =
        .ok (.deny "validation error: catalog 'other' not found") := by
  have verdict (catalog : String) := (lookup_exact catalog).2 sampleServer [sampleCatalog] sampleStore
    (sampleRequestFrom catalog) rfl serves_sampleServer healthy_sampleStore select_sampleStore
  constructor
  · intro log
    rw [(verdict "community").2 (by decide +kernel) (by show _ ≤ _; decide +kernel) log]
    decide +kernel
  · intro log
    rw [(verdict "other").2 (by decide +kernel) (by show _ ≤ _; decide +kernel) log]
    decide +kernel

/-- A name that is read as two requirements, and no catalog's. -/
def craftedName : String := "community,metadata.name!=other"

/-- An App with such a name is denied over a store in memory and let through over a server with the same
catalogs. -/
theorem lookup_inexact :
    (ListFilter.named craftedName).fieldSelector?.bind FieldSelector.read? =
      some [FieldSelector.named "community", ⟨"metadata.name", .notEqual, "other"⟩] ∧
    Serves sampleServer .catalog [sampleCatalog] ∧ sampleStore.Healthy ∧
    (∀ o, o ∈ sampleStore.select .catalog {} ↔ o ∈ [sampleCatalog]) ∧
    (Decision.eval MemoryStore.environment (catalogValidator.validate (sampleRequestFrom craftedName))
      sampleStore).1 = .ok (.deny "validation error: catalog 'community,metadata.name!=other' not found") ∧
    (Decision.eval (environment sampleServer) (catalogValidator.validate (sampleRequestFrom craftedName))
      []).1 = .ok .abstain := by
  have read : (ListFilter.named craftedName).fieldSelector?.bind FieldSelector.read? =
      some [FieldSelector.named "community", ⟨"metadata.name", .notEqual, "other"⟩] := by
    decide +kernel
  refine ⟨read, serves_sampleServer, healthy_sampleStore, select_sampleStore, ?_, ?_⟩
  · rw [eval_catalogValidator_memory healthy_sampleStore]
    decide +kernel
  · have fits : Fits .catalog (.named craftedName) := by
      show _ ≤ _
      decide +kernel
    rw [eval_catalogValidator_server serves_sampleServer (sampleRequestFrom craftedName) fits read
      (by decide)]
    decide +kernel

end ApiServer

end AppAdmission
