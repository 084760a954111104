import QueryFabric.Demo.Prepare

/-!
# Imports that a dry run has shown

A dry run answers with the digest of a plan and the path of its staging object, and an apply comes
back with both. The server keeps nothing else between the two: an apply is let through when its own
bundle and artifact give the same path, and when the object is there.

`calls_shown` says that this is enough. In every run of the server, whatever fails and in whatever
order the requests take their steps, the database is only asked for imports that some dry run of the
run has prepared, in all that they commit. An object is written by dry runs alone, so that what an
apply has read was written for its path by one; and the path tells the import.
-/

namespace QueryFabric.Demo

open Lib

/-! ## What the steps keep -/

/-- A dry run was accepted that has staged a text under a path. -/
def IsShown (prepare : ImportRequest → Except ApiError Prepared) (dryRuns : Set ImportRequest)
    (path text : String) : Prop :=
  ∃ request ∈ dryRuns, ∃ prepared, prepare request = .ok prepared ∧ prepared.stagedPath = path ∧
    request.artifact = text

/-- Whether a dry run has still to look for its object or to write it. -/
def RequestPhase.isDryRun : RequestPhase → Bool
  | .looking | .writing => true
  | _ => false

/-- What holds between steps, of requests among some and dry runs among some. -/
structure Shown (prepare : ImportRequest → Except ApiError Prepared)
    (dryRuns requests : Set ImportRequest) (s : Server) : Prop where
  prepared : ∀ r ∈ s.requests, r.request ∈ requests ∧ prepare r.request = .ok r.prepared
  running : ∀ r ∈ s.requests, r.phase.isDryRun = true → r.request ∈ dryRuns
  objects : ∀ path text, s.store path = some text → IsShown prepare dryRuns path text
  calls : ∀ call ∈ s.db.calls, ∃ request ∈ requests, ∃ prepared, prepare request = .ok prepared ∧
    call.request = prepared.commit ∧ IsShown prepare dryRuns prepared.stagedPath request.artifact

/-- An action brings in requests of some only. -/
def Among (dryRuns requests : Set ImportRequest) : ServerAction → Prop
  | .dryRun request subject => request ∈ requests ∧ (subject = .ok () → request ∈ dryRuns)
  | .apply request _ => request ∈ requests
  | _ => True

section Steps

variable {env : Environment} {prepare : ImportRequest → Except ApiError Prepared}
  {dryRuns requests : Set ImportRequest} {s t : Server} {index : Nat} {r : Request}

/-- At the start no request is under way. -/
theorem shown_start (seeded : List Reading) :
    Shown prepare dryRuns requests (.start seeded fun _ => none) where
  prepared := List.forall_mem_nil _
  running := List.forall_mem_nil _
  objects _ _ h := nomatch h
  calls := List.forall_mem_nil _

/-- The calls of a database that takes a step are those that it had, in other phases. -/
theorem exists_call_of_database {db db' : System} {action : Action}
    (h : db.step env action = some db')
    (hcall : ∀ request, action ≠ .call request) {call : Call} (hmem : call ∈ db'.calls) :
    ∃ old ∈ db.calls, old.request = call.request := by
  obtain ⟨i, hi⟩ := List.getElem?_of_mem hmem
  obtain hold | ⟨hlast, -⟩ | ⟨old, hold, hrequest, -⟩ := System.step_call h hi
  · exact ⟨call, List.mem_of_getElem? hold, rfl⟩
  · have hlength := (List.getElem?_eq_some_iff.mp hi).1
    cases System.step_moves h with
    | called request => exact absurd rfl (hcall request)
    | _ => simp [System.setPhase, hlast] at hlength
  · exact ⟨old, List.mem_of_getElem? hold, hrequest.symm⟩

/-- A request that moves to another phase stays a dry run or stops being one, and the rest changes
as it may. -/
theorem Shown.setPhase (hs : Shown prepare dryRuns requests s) (hr : s.requests[index]? = some r)
    {phase : RequestPhase}
    {store : String → Option String} {db : System}
    (hphase : phase.isDryRun = true → r.phase.isDryRun = true)
    (hstore : ∀ path text, store path = some text → IsShown prepare dryRuns path text)
    (hcalls : ∀ call ∈ db.calls, ∃ old ∈ s.db.calls, old.request = call.request) :
    Shown prepare dryRuns requests
      { s with db, store, requests := s.requests.set index { r with phase } } := by
  have hmem : r ∈ s.requests := List.mem_of_getElem? hr
  refine ⟨Server.forall_mem_set hs.prepared (hs.prepared r hmem),
    Server.forall_mem_set hs.running fun h => hs.running r hmem (hphase h), hstore,
      fun call hcall => ?_⟩
  obtain ⟨old, hold, hrequest⟩ := hcalls call hcall
  rw [← hrequest]
  exact hs.calls old hold

/-- A request that goes on shows nothing new. -/
theorem Shown.leave (hs : Shown prepare dryRuns requests s) (hr : s.requests[index]? = some r)
    {phase : RequestPhase} (hphase : phase.isDryRun = true → r.phase.isDryRun = true) :
    Shown prepare dryRuns requests (s.setPhase index r phase) :=
  hs.setPhase hr hphase hs.objects fun call hcall => ⟨call, hcall, rfl⟩

/-- A response shows what was prepared. -/
theorem Shown.respond (hs : Shown prepare dryRuns requests s) (hr : s.requests[index]? = some r)
    (response : Except ApiError ImportResponse) :
    Shown prepare dryRuns requests (s.respond index r response) :=
  hs.leave hr fun h => nomatch h

/-- An apply makes its call when the object under its path is its artifact. -/
theorem Shown.callDatabase (hs : Shown prepare dryRuns requests s)
    (hr : s.requests[index]? = some r) (hfound : s.store r.stagedPath = some r.request.artifact) :
    Shown prepare dryRuns requests (s.callDatabase index r) := by
  have hmem : r ∈ s.requests := List.mem_of_getElem? hr
  obtain ⟨hrequest, hprepared⟩ := hs.prepared r hmem
  refine ⟨Server.forall_mem_set hs.prepared ⟨hrequest, hprepared⟩,
    Server.forall_mem_set hs.running (fun h => nomatch h),
    hs.objects, List.forall_mem_append.mpr ⟨hs.calls, List.forall_mem_singleton.mpr ?_⟩⟩
  exact ⟨r.request, hrequest, r.prepared, hprepared, rfl, hs.objects _ _ hfound⟩

/-- Reading the staged object shows nothing new. -/
theorem Shown.get (hs : Shown prepare dryRuns requests s) (hr : s.requests[index]? = some r)
    {error : Option String}
    (h : s.get index r error = some t) : Shown prepare dryRuns requests t := by
  unfold Server.get at h
  dsimp only at h
  split at h
  -- A dry run that found the object answers with it, or with the conflict.
  · split_ifs at h <;> cases h
    · exact hs.respond hr _
    · exact hs.respond hr _
  · rename_i hphase _
    cases h
    exact hs.leave hr fun _ => by rw [hphase]; rfl
  -- An apply compares the stored artifact with the request's before it goes on.
  · rename_i bytes hphase hfound
    split_ifs at h with hdiffer <;> cases h
    · exact hs.respond hr _
    · have hstored : s.store r.stagedPath = some r.request.artifact := by
        rw [← of_not_not hdiffer]
        cases error with
        | none => exact hfound
        | some error => cases hfound
      exact hs.callDatabase hr hstored
  · cases h
    exact hs.respond hr _
  · cases h

/-- What a dry run writes it has shown. -/
theorem Shown.put (hs : Shown prepare dryRuns requests s) (hr : s.requests[index]? = some r)
    {outcome : StoreOutcome}
    (h : s.put index r outcome = some t) : Shown prepare dryRuns requests t := by
  have hmem : r ∈ s.requests := List.mem_of_getElem? hr
  unfold Server.put at h
  dsimp only at h
  split at h
  · rename_i hphase
    have hshown : IsShown prepare dryRuns r.stagedPath r.request.artifact :=
      ⟨r.request, hs.running r hmem (by rw [hphase]; rfl), r.prepared,
        (hs.prepared r hmem).2, rfl, rfl⟩
    cases h
    split_ifs
    · refine hs.setPhase hr (fun h => nomatch h) (fun path text htext => ?_) fun call hcall =>
        ⟨call, hcall, rfl⟩
      rw [Server.store_setObject] at htext
      split_ifs at htext with hpath
      · rw [hpath, ← Option.some.inj htext]
        exact hshown
      · exact hs.objects path text htext
    · exact hs.respond hr _
  · cases h

/-- A resumed request shows nothing new. -/
theorem Shown.resume (hs : Shown prepare dryRuns requests s) (hr : s.requests[index]? = some r)
    (h : s.resume index r = some t) : Shown prepare dryRuns requests t := by
  unfold Server.resume at h
  split at h
  case h_1 => cases h; exact hs.respond hr _
  case h_4 => cases h
  case h_2 | h_3 =>
    cases h
    exact hs.leave hr fun h => nomatch h

/-- Deleting the staged object shows nothing new. -/
theorem Shown.delete (hs : Shown prepare dryRuns requests s) (hr : s.requests[index]? = some r)
    {outcome : StoreOutcome}
    (h : s.delete index r outcome = some t) : Shown prepare dryRuns requests t := by
  unfold Server.delete at h
  dsimp only at h
  split at h
  · cases h
    split_ifs
    · refine hs.setPhase hr (fun h => nomatch h) (fun path text htext => ?_) fun call hcall =>
        ⟨call, hcall, rfl⟩
      rw [Server.store_setObject] at htext
      split_ifs at htext
      exact hs.objects path text htext
    · exact hs.respond hr _
  · cases h

/-- A dropped request shows nothing new. -/
theorem Shown.drop (hs : Shown prepare dryRuns requests s) (hr : s.requests[index]? = some r)
    (h : s.drop env index r = some t) : Shown prepare dryRuns requests t := by
  unfold Server.drop at h
  split at h
  case h_5 =>
    cases h
    refine hs.setPhase hr (fun h => nomatch h) hs.objects fun call hcall => ?_
    cases hdb : r.call.bind fun call => s.db.step env (.drop call) with
    | none =>
      rw [hdb] at hcall
      exact ⟨call, hcall, rfl⟩
    | some db =>
      rw [hdb] at hcall
      obtain ⟨i, -, hstep⟩ := Option.bind_eq_some_iff.mp hdb
      exact exists_call_of_database hstep (fun request heq => nomatch heq) hcall
  case h_6 | h_7 => cases h
  all_goals
    cases h
    exact hs.leave hr fun h => nomatch h

/-- An accepted request is kept in its first phase. -/
theorem Shown.accept (hs : Shown prepare dryRuns requests s) {accepted : Except ApiError Request}
    (h : ∀ r, accepted = .ok r → (r.request ∈ requests ∧ prepare r.request = .ok r.prepared) ∧
      (r.phase.isDryRun = true → r.request ∈ dryRuns)) :
      Shown prepare dryRuns requests (s.accept accepted) := by
  cases accepted with
  | error error => exact hs
  | ok r =>
    obtain ⟨hprepared, hrunning⟩ := h r rfl
    exact ⟨List.forall_mem_append.mpr ⟨hs.prepared, List.forall_mem_singleton.mpr hprepared⟩,
      List.forall_mem_append.mpr ⟨hs.running, List.forall_mem_singleton.mpr hrunning⟩,
        hs.objects, hs.calls⟩

/-- An accepted dry run is of its request, by an allowed subject. -/
theorem request_of_acceptDryRun {request : ImportRequest} {subject : Except ApiError Unit}
    (h : Server.acceptDryRun prepare request subject = .ok r) : r.request = request ∧
    subject = .ok () := by
  obtain ⟨⟨⟩, hsubject, h⟩ := bind_eq_ok.mp h
  obtain ⟨prepared, -, h⟩ := bind_eq_ok.mp h
  obtain rfl := Except.ok.inj h
  exact ⟨rfl, hsubject⟩

/-- An accepted apply is of its request. -/
theorem request_of_acceptApply {request : ImportRequest} {subject : Except ApiError Unit}
    (h : Server.acceptApply prepare request subject = .ok r) : r.request = request := by
  obtain ⟨⟨⟩, -, h⟩ := bind_eq_ok.mp h
  cases hdigest : request.planDigest with
  | none =>
    rw [hdigest] at h
    cases h
  | some digest =>
    cases hobject : request.stagedObject with
    | none =>
      rw [hdigest, hobject] at h
      cases h
    | some path =>
      rw [hdigest, hobject] at h
      obtain ⟨_, -, h⟩ := bind_eq_ok.mp h
      obtain ⟨_, -, h⟩ := bind_eq_ok.mp h
      obtain ⟨prepared, -, h⟩ := bind_eq_ok.mp h
      split_ifs at h
      obtain rfl := Except.ok.inj h
      rfl

/-- Every step keeps what was shown. -/
theorem Shown.step (hs : Shown prepare dryRuns requests s) {action : ServerAction}
    (hamong : Among dryRuns requests action) (h : s.step env prepare action = some t) :
    Shown prepare dryRuns requests t := by
  -- Only a request that is accepted and a call of the database bring in something new to be shown.
  cases action with
  -- What a dry run answers was prepared from its own request.
  | dryRun request subject =>
    cases h
    refine hs.accept fun r hr => ?_
    obtain ⟨hrequest, hsubject⟩ := request_of_acceptDryRun hr
    rw [hrequest]
    exact ⟨⟨hamong.1, hrequest ▸ (Server.acceptDryRun_ok hr).1⟩, fun _ => hamong.2 hsubject⟩
  | apply request subject =>
    cases h
    refine hs.accept fun r hr => ?_
    obtain ⟨hprepared, -, hphase⟩ := Server.acceptApply_ok hr
    refine ⟨⟨(request_of_acceptApply hr).symm ▸ hamong, hprepared⟩, fun hrunning => ?_⟩
    rw [hphase] at hrunning
    cases hrunning
  | database action =>
    change (if Server.isCallStep action = true then _ else _) = _ at h
    split_ifs at h with hstep
    obtain ⟨db, hdb, rfl⟩ := Option.map_eq_some_iff.mp h
    refine ⟨hs.prepared, hs.running, hs.objects, fun call hcall => ?_⟩
    -- The database starts no call of its own, so each call was there before with its request.
    obtain ⟨old, hold, hrequest⟩ :=
      exists_call_of_database hdb (fun request heq => by rw [heq] at hstep; cases hstep) hcall
    rw [← hrequest]
    exact hs.calls old hold
  | get index error =>
    obtain ⟨r, hr, hget⟩ := Option.bind_eq_some_iff.mp h
    exact hs.get hr hget
  | put index outcome =>
    obtain ⟨r, hr, hput⟩ := Option.bind_eq_some_iff.mp h
    exact hs.put hr hput
  | resume index =>
    obtain ⟨r, hr, hresume⟩ := Option.bind_eq_some_iff.mp h
    exact hs.resume hr hresume
  | delete index outcome =>
    obtain ⟨r, hr, hdelete⟩ := Option.bind_eq_some_iff.mp h
    exact hs.delete hr hdelete
  | drop index =>
    obtain ⟨r, hr, hdrop⟩ := Option.bind_eq_some_iff.mp h
    exact hs.drop hr hdrop

end Steps

/-! ## Runs -/

/-- The requests that a trace brings in. -/
def requestsOf (actions : List ServerAction) : Set ImportRequest :=
  {request | ∃ subject, .dryRun request subject ∈ actions ∨ .apply request subject ∈ actions}

/-- The requests of the dry runs of a trace that are let in. -/
def dryRunsOf (actions : List ServerAction) : Set ImportRequest :=
  {request | .dryRun request (.ok ()) ∈ actions}

/-- Steps among requests are guarded. -/
theorem guarded_among {step : Server → ServerAction → Option Server}
    {dryRuns requests : Set ImportRequest} (s : Server) :
    ∀ {actions : List ServerAction}, (∀ action ∈ actions, Among dryRuns requests action) →
      Guarded step (fun _ action => Among dryRuns requests action) s actions
  | [], _ => trivial
  | _ :: _, h => ⟨h _ List.mem_cons_self, fun t _ => guarded_among t fun action haction =>
      h action (List.mem_cons_of_mem _ haction)⟩

/-- Every step is among the requests of its run. -/
theorem among_of_mem {actions : List ServerAction} {action : ServerAction} (h : action ∈ actions) :
    Among (dryRunsOf actions) (requestsOf actions) action := by
  cases action with
  | dryRun request subject =>
    refine ⟨⟨subject, .inl h⟩, fun hsubject => ?_⟩
    rw [hsubject] at h
    exact h
  | apply request subject => exact ⟨subject, .inr h⟩
  | _ => trivial

/-- Dry runs are requests. -/
theorem dryRunsOf_subset (actions : List ServerAction) : dryRunsOf actions ⊆ requestsOf actions :=
  fun _ h => ⟨.ok (), .inl h⟩

/-- What a run shows is of its own requests. -/
theorem shown_run {env : Environment} {prepare : ImportRequest → Except ApiError Prepared}
    (seeded : List Reading) {actions : List ServerAction} {s : Server}
    (h : run (Server.step env prepare) (.start seeded fun _ => none) actions = some s) :
    Shown prepare (dryRunsOf actions) (requestsOf actions) s :=
  run_invariant (fun _ _ _ hs hamong hstep => Shown.step hs hamong hstep)
    (guarded_among _ fun _ haction => among_of_mem haction) (shown_start seeded) h

/-- Whatever the database is asked to import, a dry run of the trace was let in that has prepared
the same import, of the same artifact. -/
theorem calls_shown {φ : Type} (host : Host φ) (env : Environment) (seeded : List Reading)
    {actions : List ServerAction}
    {s : Server}
    (h : run (Server.step env host.prepare) (.start seeded fun _ => none) actions = some s)
    (happart : host.TellsApart (requestsOf actions)) :
    ∀ call ∈ s.db.calls, ∃ request, .dryRun request (.ok ()) ∈ actions ∧
      ∃ shown, host.prepare request = .ok shown ∧ call.request = shown.commit := by
  intro call hcall
  obtain ⟨apply, happly, applied, hprepared, hcommit, request, hrequest, shown, hshown, hpath, -⟩ :=
    (shown_run seeded h).calls call hcall
  obtain ⟨x, hx, rfl⟩ := Host.exists_prepareImport hprepared
  obtain ⟨y, hy, rfl⟩ := Host.exists_prepareImport hshown
  rw [Host.stagedPath_eq hx, Host.stagedPath_eq hy] at hpath
  have hagree :=
    (Host.commit_eq_of_stagedPath happart (dryRunsOf_subset actions hrequest) happly hy hx hpath).2
  exact ⟨request, hrequest, _, hshown, hcommit.trans hagree.symm⟩

/-! An import into a station -/

namespace Station

open Portability

/-- A host with one station. -/
def host : Host Empty where
  codec := { Portability.Station.codec with parsers := ⟨fun _ => true, fun _ => true⟩ }
  newV5 := fun namespaceId name => namespaceId + name.size
  operator := 42
  importFailure := none

/-- The rows of the import. -/
def rows : List Json :=
  [.object [("measured_at", .string "2026-01-01T00:00:00Z"), ("pm25", .number "8.5"),
    ("no2", .number "14"),
    ("ozone", .number "31.2")]]

/-- The artifact of the import. -/
def artifact : String := String.ofList (encodeRecords [["measured_at", "pm25", "no2", "ozone"],
  ["2026-01-01T00:00:00Z", "8.5", "14", "31.2"]])

/-- The rows are written as the artifact. -/
theorem writeTabularCsv_rows : writeTabularCsv host.codec.parsers readingsSchema rows =
    .ok artifact.toUTF8 :=
  writeTabularCsv_eq_ok_iff.mpr ⟨rfl, by decide, by decide +kernel, rfl⟩

/-- A bundle without artifacts. -/
def bundle : ExportBundle Empty where
  exportBundle := ⟨importBundleVersion, ⟨1, 7⟩, 0⟩
  metadataJsonld := .null
  citations := ⟨"", "", .null, "", "", ""⟩
  provenance := ⟨⟨1, 7⟩, []⟩
  license := none
  dataUseRestriction := none
  artifacts :=
    [tableManifest host.codec readingsSchema "exports/lis-baixa/readings.csv" artifact.toUTF8 1]

/-- What the bundle serializes to. -/
def value : JsonValue Empty := Write.exportBundle host.codec.uuids bundle

/-- A dry run of the bundle. -/
def dryRun : ImportRequest where
  bundle := host.codec.canonicalJsonStringV2 value
  artifact := artifact
  expectedBundleDigest := typedDigest host.codec (utf8 (host.codec.canonicalJsonStringV2 value))
  target := "lis-baixa"
  targetRevision := none
  planDigest := none
  stagedObject := none

/-- The bundle is well formed. -/
theorem wellFormed_bundle : bundle.WellFormed :=
  ⟨trivial, trivial, List.forall_mem_nil _,
    List.forall_mem_singleton.mpr (sorted_tabularSchema readingsSchema)⟩

/-- The text of the bundle is short. -/
theorem length_value : (writeCanonical host.codec.reader.toValueText value).length ≤ 2 ^ 20 := by
  decide +kernel

/-- The bundle is accepted. -/
theorem bundleAccepted :
    BundleAccepted host.codec {} dryRun.bundle.toUTF8 dryRun.expectedBundleDigest value bundle := by
  have hsize : artifact.toUTF8.size < 2 ^ 64 := by decide +kernel
  have hsorted := sorted_exportBundle host.codec.uuids wellFormed_bundle
  have hlimits : enforceJsonLimits {} 0 value = true := by decide +kernel
  refine ⟨?_, ⟨value, ?_, distinct_of_sorted value hsorted, hsorted, rfl⟩,
    enforceJsonLimits_iff.mp hlimits, host.codec.readBundle_write _ wellFormed_bundle, rfl,
    by decide +kernel, rfl, List.cons_ne_nil _ _, by decide, List.forall_mem_singleton.mpr ?_, ?_,
    List.nodup_singleton _⟩
  · have hbytes : dryRun.bundle.utf8ByteSize ≤ 4 * 2 ^ 20 :=
      (utf8ByteSize_ofList_le (writeCanonical _ value)).trans (Nat.mul_le_mul_left 4 length_value)
    exact hbytes.trans (by decide)
  · have hfits : value.fits 127 = true := by decide +kernel
    have hnumbers := Lib.Json.Value.numbers_of_forall Plain.roundTrips_number value
    exact (document_writeCanonical Plain.reader hsorted hnumbers).trans (if_pos hfits)
  · exact (artifactAccepted_tableManifest_iff host.codec hsize 1).mpr
      ⟨by decide +kernel, by decide +kernel, by decide +kernel, rfl⟩
  · have htotal : (bundle.artifacts.map declaredBytes).sum = artifact.toUTF8.size :=
      UInt64.toNat_ofNat_of_lt hsize
    rw [htotal]
    exact ⟨hsize, by decide +kernel⟩

/-- The dry run can be prepared. -/
theorem exists_prepareImport : ∃ prepared, host.prepareImport dryRun = .ok prepared := by
  have hstation : host.lookupStation "lis-baixa" = .ok "lis-baixa" := by decide +kernel
  have htarget : (host.planTarget "lis-baixa" none).Takes readingsSchema :=
    ⟨rfl, by decide, by decide⟩
  have hvalidated :=
    (validateImportBundle_ok_iff host.codec).mpr ⟨value, bundle, bundleAccepted, rfl⟩
  have hartifacts : (validated host.codec value bundle).artifacts = bundle.artifacts := rfl
  have hmax : artifact.toUTF8.size ≤ ({} : BundleLimits).maxArtifactBytes := by decide +kernel
  obtain ⟨plan, hplan, hrows⟩ :=
    (planTabularImport_exported_iff host.codec writeTabularCsv_rows hmax rfl hartifacts).mpr
    ⟨htarget, ⟨by decide, by decide, by decide⟩, by decide⟩
  have htable :
    importTable host.codec dryRun.bundle.toUTF8 dryRun.expectedBundleDigest artifact.toUTF8
      (host.planTarget "lis-baixa" none) {} = .ok (_, _, plan) :=
    bind_eq_ok.mpr ⟨_, hvalidated,
      bind_eq_ok.mpr ⟨plan, hplan, bind_eq_ok.mpr ⟨_, mapError_eq_ok.mpr hrows, rfl⟩⟩⟩
  exact ⟨_, bind_eq_ok.mpr ⟨_, hstation, bind_eq_ok.mpr ⟨_, mapError_eq_ok.mpr htable, rfl⟩⟩⟩

/-- A dry run, and the apply that comes back with its answer. -/
def importOnce (prepared : PreparedImport Empty) : List ServerAction :=
  [.dryRun dryRun (.ok ()), .get 0 none, .put 0 .answered,
    .apply { dryRun with planDigest := some prepared.plan.planDigest,
                         stagedObject := some prepared.stagedPath } (.ok ()),
    .get 1 none]

end Station

/-- An apply that comes back with the answer of a dry run makes its call. -/
theorem exists_run_apply {env : Environment} {prepare : ImportRequest → Except ApiError Prepared}
    {dryRun apply : ImportRequest} {prepared : Prepared} (hdryRun : prepare dryRun = .ok prepared)
    (happly : prepare apply = .ok prepared) (hdigest : apply.planDigest = some prepared.planDigest)
    (hobject : apply.stagedObject = some prepared.stagedPath)
    (hartifact : apply.artifact = dryRun.artifact) :
    ∃ s, run (Server.step env prepare) (.start [] fun _ => none)
      [.dryRun dryRun (.ok ()), .get 0 none, .put 0 .answered, .apply apply (.ok ()), .get 1 none] =
        some s ∧
      s.db.calls = [⟨prepared.commit, .connecting⟩] := by
  have haccept : Server.acceptDryRun prepare dryRun (.ok ()) =
      .ok ⟨dryRun, prepared, none, .looking⟩ := by
    rw [Server.acceptDryRun, hdryRun]
    rfl
  have haccept' : Server.acceptApply prepare apply (.ok ()) =
      .ok ⟨apply, prepared, none, .reading⟩ := by
    unfold Server.acceptApply
    rw [hdigest, hobject, happly]
    change (if _ then _ else if _ then _ else _) = _
    rw [if_neg (not_not.mpr rfl), if_neg (not_not.mpr rfl)]
  simp [run, Server.step, haccept, haccept', Server.accept, Server.start, Server.get, Server.put,
    Server.setPhase, Server.respond, Server.setObject, Server.callDatabase,
    StoreOutcome.takesEffect, Request.stagedPath, hartifact, System.start]

open Station in
/-- What the dry run showed is what the apply imports. -/
theorem calls_shown_importOnce : ∃ prepared s, host.prepareImport dryRun = .ok prepared ∧
    run (Server.step System.plainEnvironment host.prepare) (.start [] fun _ => none)
      (importOnce prepared) = some s ∧
    s.db.calls ≠ [] ∧ ∀ call ∈ s.db.calls, call.request = host.commit dryRun prepared := by
  obtain ⟨prepared, hprepared⟩ := exists_prepareImport
  -- The apply sends back the digest and the path that its dry run answered.
  let apply : ImportRequest :=
    { dryRun with planDigest := some prepared.plan.planDigest,
                  stagedObject := some prepared.stagedPath }
  have happly : host.prepareImport apply = .ok prepared := hprepared
  have hpath := Host.stagedPath_eq hprepared
  have hdry : host.prepare dryRun =
      .ok ⟨prepared.plan.artifactDigest, host.commit dryRun prepared⟩ := by
    rw [Host.prepare, hprepared]
    rfl
  have hprepare : host.prepare apply =
      .ok ⟨prepared.plan.artifactDigest, host.commit dryRun prepared⟩ := by
    rw [Host.prepare, happly]
    rfl
  have hrun : ∃ s, run (Server.step System.plainEnvironment host.prepare) (.start [] fun _ => none)
    (importOnce prepared) =
      some s ∧ s.db.calls = [⟨host.commit dryRun prepared, .connecting⟩] :=
    exists_run_apply hdry hprepare rfl (congrArg some hpath.symm) rfl
  obtain ⟨s, hrun, hcalls⟩ := hrun
  -- The run has one artifact and one bundle, so there is nothing that its digests could mix up.
  have hsame : ∀ request ∈ requestsOf (importOnce prepared), request.artifact = artifact ∧
      request.bundle = dryRun.bundle ∧ host.prepareImport request = .ok prepared := by
    rintro request ⟨subject, hmem | hmem⟩
    · obtain ⟨rfl, -⟩ : request = dryRun ∧ subject = .ok () := by simpa [importOnce] using hmem
      exact ⟨rfl, rfl, hprepared⟩
    · obtain ⟨rfl, -⟩ : request = apply ∧ subject = .ok () := by simpa [importOnce] using hmem
      exact ⟨rfl, rfl, happly⟩
  have happart : host.TellsApart (requestsOf (importOnce prepared)) := by
    refine ⟨?_, ?_, ?_⟩
    · rintro _ ⟨r, hr, rfl⟩ _ ⟨r', hr', rfl⟩ -
      rw [(hsame r hr).1, (hsame r' hr').1]
    · rintro _ ⟨r, hr, x, hx, rfl⟩ _ ⟨r', hr', x', hx', rfl⟩ -
      rw [← Except.ok.inj ((hsame r hr).2.2.symm.trans hx),
        ← Except.ok.inj ((hsame r' hr').2.2.symm.trans hx')]
    · rintro a ⟨r, hr, ha⟩ b ⟨r', hr', hb⟩ -
      rw [(hsame r hr).2.1] at ha
      rw [(hsame r' hr').2.1] at hb
      exact Except.ok.inj (ha.symm.trans hb)
  refine ⟨prepared, s, hprepared, hrun, by simp [hcalls], fun call hcall => ?_⟩
  -- The general theorem, applied to this run.
  obtain ⟨request, hrequest, shown, hshown, hcommit⟩ :=
    calls_shown host System.plainEnvironment [] hrun happart call hcall
  obtain ⟨rfl, -⟩ : request = dryRun ∧ (.ok () : Except ApiError Unit) = .ok () := by
    simpa [importOnce] using hrequest
  rw [hcommit, Except.ok.inj (hshown.symm.trans hdry)]

end QueryFabric.Demo
