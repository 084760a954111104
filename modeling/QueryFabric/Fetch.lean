import QueryFabric.Lib.Runs
import Mathlib.Data.List.Infix

/-!
# Downloads to a file

`download_file` of `crates/queryfabric-fetch/src/lib.rs`. A call finds the file there and skips the
download, or requests the URL, with retries for transient errors, and writes the body in place,
chunk by chunk. What the server, the network and the file system do to a call is part of the call.

Calls are made one after the other for one path. A call that fails after it has created the file
leaves there what was written; `System.complete_of_run` says that a call that returns `Ok` leaves
the complete body of a response, as long as no call without `overwrite` comes upon such a file.

The progress bar, the log and the delays between the attempts are left out.
-/

namespace QueryFabric.Fetch

open Lib

/-- `FetchError`. -/
inductive FetchError
  | http (message : String)
  | download (message : String)
  | io (message : String)
deriving DecidableEq, Repr

/-- A file's contents. -/
abbrev Bytes := List UInt8

/-- A response. After the chunks its stream ends, or it fails, and then the body is not complete. -/
structure Response where
  status : UInt16
  contentType : Option String
  chunks : List Bytes
  failure : Option String
deriving DecidableEq, Repr

/-- The body, if it is complete. -/
def Response.body (response : Response) : Option Bytes :=
  if response.failure = none then some response.chunks.flatten else none

/-- How URLs and statuses are printed. -/
structure Texts where
  redactUrl : String → String
  status : UInt16 → String

/-- The arguments of a call, and what it meets: the replies to its requests, the errors of the file
system, and how many of the bytes that it writes get into the file if it fails. -/
structure Call where
  url : String
  overwrite : Bool
  metadata : Option String := none
  replies : Nat → Except String Response
  createDirs : Option String := none
  create : Option String := none
  write : Nat → Option String := fun _ => none
  flush : Option String := none
  reached : Nat := 0

/-! ## Requests -/

/-- `MAX_RETRIES`. -/
def maxRetries : Nat := 3

/-- `TRANSIENT_STATUS_CODES`. -/
def transientStatusCodes : List UInt16 := [429, 500, 502, 503, 504]

/-- `StatusCode::is_success`. -/
def isSuccess (status : UInt16) : Bool := 200 ≤ status && status < 300

section Request

variable (texts : Texts) (call : Call)

/-- The attempts of `send_with_retry`. -/
def sendAttempts : List Nat → Except FetchError Response
  | [] => .error (.download ("retry loop exhausted unexpectedly for " ++ texts.redactUrl call.url))
  | attempt :: attempts =>
    match call.replies attempt with
    | .error message => .error (.http message)
    | .ok response =>
      if isSuccess response.status then .ok response
      else if !transientStatusCodes.contains response.status || attempt == maxRetries then
        .error (.download ("HTTP " ++ texts.status response.status ++ " downloading " ++
          texts.redactUrl call.url ++ " (after " ++ toString attempt ++ " retries)"))
      else sendAttempts attempts

/-- `send_with_retry`. -/
def sendWithRetry : Except FetchError Response :=
  sendAttempts texts call (List.range (maxRetries + 1))

/-- `ct_str.contains("text/html")`. -/
def isHtml (contentType : String) : Bool := decide ("text/html".toList <:+: contentType.toList)

/-- The response that is written to the file. -/
def acceptedResponse : Except FetchError Response :=
  match sendWithRetry texts call with
  | .error error => .error error
  | .ok response =>
    match response.contentType with
    | none => .ok response
    | some contentType =>
      if isHtml contentType then
        .error
          (.download ("Server returned HTML instead of data for " ++ texts.redactUrl call.url ++
          " (content-type: " ++ contentType ++
          "). The URL may require authentication or has changed."))
      else .ok response

end Request

/-! ## The file -/

/-- The loop over the chunks: the bytes that were handed to the file, and the error that ended
it. -/
def writeChunks (write : Nat → Option String) (failure : Option String) :
    List Bytes → Nat → Bytes → Bytes × Option FetchError
  | [], _, written => (written, failure.map .http)
  | chunk :: chunks, index, written =>
    match write index with
    | some message => (written ++ chunk, some (.io message))
    | none => writeChunks write failure chunks (index + 1) (written ++ chunk)

/-- The loop and the flush: the result, and what is in the file afterwards. -/
def writeBody (call : Call) (response : Response) : Except FetchError UInt64 × Bytes :=
  let loop := writeChunks call.write response.failure response.chunks 0 []
  match loop.2 with
  -- Of what was handed to the file, the last part may not be in it.
  | some error => (.error error, loop.1.take call.reached)
  | none =>
    match call.flush with
    | some message => (.error (.io message), loop.1.take call.reached)
    | none => (.ok (UInt64.ofNat loop.1.length), loop.1)

/-- What a call does to the file: it leaves it, or it creates it anew with a response. -/
inductive Effect
  | kept
  | created (response : Response) (content : Bytes)
deriving DecidableEq, Repr

/-- `download_file`. -/
def downloadFile (texts : Texts) (file : Option Bytes) (call : Call) :
    Except FetchError UInt64 × Effect :=
  match file, call.overwrite with
  | some content, false =>
    match call.metadata with
    | some message => (.error (.io message), .kept)
    | none => (.ok (UInt64.ofNat content.length), .kept)
  | _, _ =>
    match acceptedResponse texts call with
    | .error error => (.error error, .kept)
    | .ok response =>
      -- The file is created before the first chunk is read, and what was in it is lost.
      match call.createDirs.or call.create with
      | some message => (.error (.io message), .kept)
      | none =>
        let (result, content) := writeBody call response
        (result, .created response content)

/-- A loop that ends without an error has handed all chunks to the file. -/
theorem writeChunks_eq_none {write : Nat → Option String} {failure : Option String} :
    ∀ {chunks : List Bytes} {index : Nat} {written : Bytes},
    (writeChunks write failure chunks index written).2 = none →
      failure = none ∧ (writeChunks write failure chunks index written).1 = written ++
        chunks.flatten
  | [], index, written, h => by
    refine ⟨Option.map_eq_none_iff.mp h, ?_⟩
    rw [writeChunks, List.flatten_nil, List.append_nil]
  | chunk :: chunks, index, written, h => by
    rw [writeChunks] at h ⊢
    cases hwrite : write index with
    | some message => simp [hwrite] at h
    | none =>
      simp only [hwrite] at h ⊢
      obtain ⟨hfailure, hwritten⟩ := writeChunks_eq_none h
      refine ⟨hfailure, ?_⟩
      rw [hwritten, List.flatten_cons, List.append_assoc]

/-- A body that was written without an error is complete. -/
theorem writeBody_ok {call : Call} {response : Response} {size : UInt64}
    (h : (writeBody call response).1 = .ok size) :
    response.body = some (writeBody call response).2 ∧
    size = UInt64.ofNat (writeBody call response).2.length := by
  unfold writeBody at h ⊢
  dsimp only at h ⊢
  cases hloop : (writeChunks call.write response.failure response.chunks 0 []).2 with
  | some error => simp [hloop] at h
  | none =>
    obtain ⟨hfailure, hwritten⟩ := writeChunks_eq_none hloop
    cases hflush : call.flush with
    | some message => simp [hloop, hflush] at h
    | none =>
      simp only [hloop, hflush] at h ⊢
      refine ⟨?_, (Except.ok.inj h).symm⟩
      rw [Response.body, if_pos hfailure, hwritten, List.nil_append]

/-! ## Calls one after the other -/

/-- The file, the result of the last call, whether the last call that created the file failed, and
the complete bodies of the responses that were written. -/
structure System where
  file : Option Bytes := none
  result : Option (Except FetchError UInt64) := none
  unfinished : Bool := false
  bodies : List Bytes := []

namespace System

variable (texts : Texts)

/-- Whether a call succeeded. -/
def isOk {ε α : Type} : Except ε α → Bool
  | .ok _ => true
  | .error _ => false

/-- One call of `download_file`. -/
def step (s : System) (call : Call) : Option System :=
  match downloadFile texts s.file call with
  | (result, .kept) => some { s with result := some result }
  | (result, .created response content) =>
    some { file := some content, result := some result, unfinished := !isOk result
           bodies := response.body.toList ++ s.bodies }

/-- The file holds the complete body of a response, and the result is its length. -/
def Complete (s : System) : Prop :=
  ∀ size, s.result = some (.ok size) → ∃ body ∈ s.bodies, s.file = some body ∧
    size = UInt64.ofNat body.length

/-- A call without `overwrite` does not come upon a file that a failed call has created. -/
def Resumable (s : System) (call : Call) : Prop :=
  call.overwrite = false → s.file.isSome → s.unfinished = false

/-- What a call does: it finds the file there, it fails before it creates the file, or it writes a
response. -/
theorem downloadFile_cases (file : Option Bytes) (call : Call) :
    (∃ content, file = some content ∧ call.overwrite = false ∧
      downloadFile texts file call =
        (match call.metadata with
          | some message => .error (.io message)
          | none => .ok (UInt64.ofNat content.length), .kept)) ∨
    (∃ error, downloadFile texts file call = (.error error, .kept)) ∨
    ∃ response, downloadFile texts file call =
      ((writeBody call response).1, .created response (writeBody call response).2) := by
  -- A file that is there and is not to be overwritten is answered from its size.
  by_cases hskip : ∃ content, file = some content ∧ call.overwrite = false
  · obtain ⟨content, rfl, hoverwrite⟩ := hskip
    refine .inl ⟨content, rfl, hoverwrite, ?_⟩
    rw [downloadFile]
    · cases call.metadata <;> rfl
    · exact hoverwrite
  · refine .inr ?_
    -- Otherwise the response decides, and then whether the file can be made.
    have hrequest : downloadFile texts file call =
        (match acceptedResponse texts call with
          | .error error => (.error error, .kept)
          | .ok response =>
            match call.createDirs.or call.create with
            | some message => (.error (.io message), .kept)
            | none =>
              ((writeBody call response).1, .created response (writeBody call response).2)) := by
      unfold downloadFile
      split
      · rename_i content hoverwrite
        exact absurd ⟨content, rfl, hoverwrite⟩ hskip
      · rfl
    rw [hrequest]
    cases acceptedResponse texts call with
    | error error => exact .inl ⟨error, rfl⟩
    | ok response =>
      cases call.createDirs.or call.create with
      | some message => exact .inl ⟨_, rfl⟩
      | none => exact .inr ⟨response, rfl⟩

variable {texts}

/-- What the calls keep: a file whose last call has not failed is complete. -/
structure Kept (s : System) : Prop where
  finished : s.unfinished = false → ∀ content, s.file = some content → content ∈ s.bodies
  complete : s.Complete

/-- The file that is not there is kept. -/
theorem kept_start : Kept {} := ⟨nofun, nofun⟩

/-- A call succeeded where it returned a value. -/
theorem isOk_iff {ε α : Type} {result : Except ε α} : isOk result = true ↔ ∃ a, result = .ok a := by
  cases result <;> simp [isOk]

/-- One call keeps it. -/
theorem Kept.step {s t : System} {call : Call} (h : Kept s) (hguard : s.Resumable call)
    (hstep : System.step texts s call = some t) : Kept t := by
  rw [System.step] at hstep
  obtain ⟨content, hfile, hoverwrite, heq⟩ | ⟨error, heq⟩ | ⟨response, heq⟩ :=
    downloadFile_cases texts s.file call
  · -- The file is there, and it is the one of a call that has not failed.
    have hfinished := hguard hoverwrite (by rw [hfile]; rfl)
    rw [heq] at hstep
    cases hstep
    refine ⟨h.finished, fun size hsize => ?_⟩
    cases hmetadata : call.metadata with
    | some message => simp [hmetadata] at hsize
    | none =>
      simp only [hmetadata, Option.some_inj, Except.ok.injEq] at hsize
      exact ⟨content, h.finished hfinished content hfile, hfile, hsize.symm⟩
  -- The call fails before it creates the file.
  · rw [heq] at hstep
    cases hstep
    exact ⟨h.finished, nofun⟩
  · rw [heq] at hstep
    cases hstep
    -- The call creates the file, and this is complete unless the result is an error.
    have hwritten : ∀ size, (writeBody call response).1 = .ok size →
        (writeBody call response).2 ∈ response.body.toList ++ s.bodies := by
      intro size hsize
      rw [(writeBody_ok hsize).1]
      exact List.mem_cons_self
    constructor
    · intro hfinished content hcontent
      obtain rfl := Option.some_inj.mp hcontent
      obtain ⟨size, hsize⟩ := isOk_iff.mp (by simpa using hfinished)
      exact hwritten size hsize
    · intro size hsize
      have hok := Option.some_inj.mp hsize
      exact ⟨_, hwritten size hok, rfl, (writeBody_ok hok).2⟩

/-- A call that comes upon the file of a failed one reports success. -/
theorem reported_of_not_resumable {s : System} {call : Call} (h : ¬ s.Resumable call)
    (hmetadata : call.metadata = none) : ∃ content, s.file = some content ∧ s.unfinished = true ∧
      downloadFile texts s.file call = (.ok (UInt64.ofNat content.length), .kept) := by
  have hparts : call.overwrite = false ∧ s.file.isSome ∧ s.unfinished = true := by
    simpa [Resumable] using h
  obtain ⟨hoverwrite, hfile, hunfinished⟩ := hparts
  obtain ⟨content, hcontent⟩ := Option.isSome_iff_exists.mp hfile
  refine ⟨content, hcontent, hunfinished, ?_⟩
  rw [hcontent, downloadFile, hmetadata]
  exact hoverwrite

/-- In a run of calls that do not come upon the file of a failed one, a call that returns `Ok`
leaves the complete body of a response in the file. One that does come upon it reports success. -/
theorem complete_of_run (texts : Texts) {calls : List Call} {s : System}
    (hguard : Guarded (System.step texts) Resumable {} calls)
    (hs : run (System.step texts) {} calls = some s) :
    s.Complete ∧ ∀ call, ¬ s.Resumable call → call.metadata = none →
      ∃ content, s.file = some content ∧ s.unfinished = true ∧
        downloadFile texts s.file call = (.ok (UInt64.ofNat content.length), .kept) :=
  ⟨(run_invariant (fun _ _ _ => Kept.step) hguard kept_start hs).complete,
    fun _ => reported_of_not_resumable⟩

/-- Texts that say nothing but the message and the status. -/
def plainTexts : Texts := ⟨id, fun status => toString status⟩

/-- A download whose connection is reset after two bytes. -/
def reset : Call where
  url := "https://example.test/file"
  overwrite := false
  replies _ := .ok ⟨200, none, [[1, 2]], some "connection reset"⟩
  reached := 2

/-- A download of three bytes. -/
def retried (overwrite : Bool) : Call where
  url := "https://example.test/file"
  overwrite
  replies attempt := .ok ⟨if attempt = 0 then 503 else 200, none, [[1, 2], [3]], none⟩

/-- The state after three bytes were downloaded. -/
def downloaded : System where
  file := some [1, 2, 3]
  result := some (.ok 3)
  bodies := [[1, 2, 3]]

/-- The download is tried again with `overwrite`, and is then found there. -/
theorem complete_retried :
    downloaded.Complete ∧ ∀ call, ¬ downloaded.Resumable call → call.metadata = none →
      ∃ content, downloaded.file = some content ∧ downloaded.unfinished = true ∧
        downloadFile plainTexts downloaded.file call =
          (.ok (UInt64.ofNat content.length), .kept) := by
  have hguard : Guarded (step plainTexts) Resumable {} [reset, retried true, retried false] := by
    refine ⟨nofun, fun t ht => ⟨nofun, fun u hu => ⟨fun _ _ => ?_, fun _ _ => trivial⟩⟩⟩
    cases ht
    cases hu
    rfl
  exact complete_of_run plainTexts hguard rfl

/-- The two bytes of a download that failed are what a later call without `overwrite` reports. -/
theorem partial_file_reported :
    ∃ s, run (step plainTexts) {} [reset, retried false] = some s ∧ s.result = some (.ok 2) ∧
      s.file = some [1, 2] ∧ s.bodies = [] ∧ ¬ s.Complete := by
  refine ⟨{ file := some [1, 2], result := some (.ok 2), unfinished := true, bodies := [] }, rfl,
    rfl, rfl, rfl, ?_⟩
  intro h
  obtain ⟨body, hbody, -⟩ := h 2 rfl
  cases hbody

end System

end QueryFabric.Fetch
