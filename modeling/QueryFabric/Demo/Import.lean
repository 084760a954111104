import QueryFabric.Lib.Runs
import QueryFabric.Portability.Tabular

/-!
# Imports into the database of the demonstrator

`Database::apply_import` of `crates/queryfabric-demo/src/db.rs`: a call opens a transaction, looks
for the receipt of its idempotency key, inserts its rows and its receipt, and commits. Any number of
calls run on one database; a step takes one of them to its next `await`, and the others may take
steps in between. Any statement may fail, a call may be dropped, and the answer to a commit that
took effect may be lost.

Of the database, a transaction sees what is committed and what it has inserted itself, and one that
is dropped leaves nothing. An insert waits while another transaction holds its key, and fails if a
committed row has it; `ON CONFLICT (reading_id) DO NOTHING` then inserts nothing instead. What
`chrono` makes of a time and what a `JSONB` column gives back are parameters. A number is kept as
the text that it was read from, and the identifiers of rows and receipts come with the actions.

Every row and every receipt is marked with the call that inserted it; no step reads the marks.
-/

namespace QueryFabric.Demo

open Portability

/-! ## Requests and tables -/

/-- The 128 bits of a UUID. -/
abbrev Uuid := BitVec 128

/-- The hyphenated text of an identifier. -/
def uuidText (id : Uuid) : String :=
  let digits := (List.range 32).map fun i => Nat.digitChar ((id.toNat >>> (4 * (31 - i))) % 16)
  String.ofList
    (digits.take 8 ++ '-' :: ((digits.drop 8).take 4 ++ '-' :: ((digits.drop 12).take 4 ++
    '-' :: ((digits.drop 16).take 4 ++ '-' :: digits.drop 20))))

/-- `ImportFailureStage`. -/
inductive ImportFailureStage
  | beforeRows
  | duringRows
  | beforeCommit
deriving DecidableEq, Repr

/-- `DbError`. -/
inductive DbError
  | connect (error : String)
  | statement (error : String)
  | invalidImport (message : String)
  | conflictingReplay (key : String)
  | injectedFailure (stage : String)
deriving DecidableEq, Repr

/-- `ImportCommit`. -/
structure ImportCommit where
  stationId : Uuid
  rows : List (List String)
  bundleDigest : String
  planDigest : String
  targetRevision : String
  sourceResource : Json
  targetResource : Json
  localOwner : Uuid
  localPolicy : Json
  sourceEvidence : Json
  mapping : Json
  byteCount : UInt64
  failureStage : Option ImportFailureStage

/-- What the code takes from `chrono` and from the `JSONB` columns of the database. -/
structure Environment where
  parseRfc3339 : String → Except String Int
  jsonb : Json → Json

/-- A row of `readings`. Rows that were there before have no call. -/
structure Reading where
  readingId : Uuid
  stationId : Uuid
  measuredAt : Int
  pm25 : String
  no2 : String
  ozone : String
  call : Option Nat
deriving DecidableEq

/-- The values of a row that come from the artifact. -/
def Reading.values (reading : Reading) : Int × String × String × String :=
  (reading.measuredAt, reading.pm25, reading.no2, reading.ozone)

/-- A row of `queryfabric_import_receipts`. -/
structure ReceiptRow where
  receiptId : Uuid
  idempotencyKey : String
  bundleDigest : String
  planDigest : String
  sourceResource : Json
  targetResource : Json
  targetRelation : String
  targetRevision : String
  localOwner : Uuid
  localPolicy : Json
  sourceEvidence : Json
  mapping : Json
  receiptJson : Json
  rowCount : Int64
  byteCount : Int64
  call : Nat

namespace ImportCommit

variable (request : ImportCommit)

/-- The key of an import. -/
def idempotencyKey : String :=
  request.bundleDigest ++ ":" ++ uuidText request.stationId ++ ":" ++ request.targetRevision

/-- The receipt that the caller gets. -/
def receipt (receiptId : Uuid) : Json :=
  .object
    [("receiptId", .string (uuidText receiptId)),
      ("idempotencyKey", .string request.idempotencyKey),
      ("bundleDigest", .string request.bundleDigest), ("planDigest", .string request.planDigest),
      ("sourceResource", request.sourceResource), ("targetResource", request.targetResource),
      ("targetRelation", .string "readings"), ("targetRevision", .string request.targetRevision),
      ("localOwner", .string (uuidText request.localOwner)), ("localPolicy", request.localPolicy),
      ("sourceEvidence", request.sourceEvidence), ("mapping", request.mapping),
      ("rowCount", .number (toString request.rows.length)),
      ("byteCount", .number (toString request.byteCount.toNat)), ("event", .string "Imported")]

/-- The receipt as it is inserted. -/
def receiptRow (env : Environment) (receiptId : Uuid) (call : Nat) : ReceiptRow :=
  { receiptId, idempotencyKey := request.idempotencyKey, bundleDigest := request.bundleDigest
    planDigest := request.planDigest, sourceResource := env.jsonb request.sourceResource
    targetResource := env.jsonb request.targetResource, targetRelation := "readings"
    targetRevision := request.targetRevision, localOwner := request.localOwner
    localPolicy := env.jsonb request.localPolicy, sourceEvidence := env.jsonb request.sourceEvidence
    mapping := env.jsonb request.mapping, receiptJson := env.jsonb (request.receipt receiptId)
    rowCount := Int64.ofNat request.rows.length, byteCount := request.byteCount.toInt64, call }

/-- Whether a receipt does not match the request. -/
def conflictsWith (existing : ReceiptRow) : Bool :=
  existing.planDigest ≠ request.planDigest || existing.bundleDigest ≠ request.bundleDigest ||
    existing.localOwner ≠ request.localOwner || existing.mapping ≠ request.mapping ||
    existing.byteCount ≠ request.byteCount.toInt64 || existing.targetRevision ≠
      request.targetRevision

end ImportCommit

/-- A number of an artifact. -/
def readNumber (name text : String) : Except DbError String :=
  match parseF64 text.toList with
  | some _ => .ok text
  | none =>
    .error (.invalidImport (name ++ ": " ++
      if text = "" then "cannot parse float from empty string" else "invalid float literal"))

/-- The values of a row of an artifact. -/
def readRow (env : Environment) : List String → Except DbError (Int × String × String × String)
  | [measuredAt, pm25, no2, ozone] => do
    let measuredAt ← match env.parseRfc3339 measuredAt with
      | .ok time => .ok time
      | .error error => .error (.invalidImport ("timestamp: " ++ error))
    let pm25 ← readNumber "pm25" pm25
    let no2 ← readNumber "no2" no2
    let ozone ← readNumber "ozone" ozone
    return (measuredAt, pm25, no2, ozone)
  | _ => .error (.invalidImport "expected four readings fields")

/-! ## Calls -/

/-- Where a call stands, with what its transaction has inserted. -/
inductive CallPhase
  | connecting
  | looking
  | preparing
  | inserting (ordinal : Nat) (rows : List Reading)
  | committing (rows : List Reading) (receipt : ReceiptRow)
  | returned (receipt : Json) (replayed : Bool)
  | failed (error : DbError)
  /-- The commit took effect, and the call returned an error. -/
  | unanswered (error : DbError)
  | dropped

namespace CallPhase

/-- The rows that a transaction has inserted. -/
def rows : CallPhase → List Reading
  | .inserting _ rows | .committing rows _ => rows
  | _ => []

/-- The receipt that a transaction has inserted. -/
def receipt? : CallPhase → Option ReceiptRow
  | .committing _ receipt => some receipt
  | _ => none

/-- Whether the call still runs. -/
def isRunning : CallPhase → Bool
  | .connecting | .looking | .preparing | .inserting .. | .committing .. => true
  | _ => false

end CallPhase

/-- A call under way. -/
structure Call where
  request : ImportCommit
  phase : CallPhase

/-- What a connection may answer. -/
inductive ConnectAnswer
  | connected
  | refused (error : String)
  | noTransaction (error : String)

/-- What becomes of a commit. It takes effect unless it is refused; the call may no longer be there
when it does. -/
inductive CommitOutcome
  | answered
  | lost (error : String)
  | abandoned
  | refused (error : String)

/-- The tables with the calls on them. -/
structure System where
  receipts : List ReceiptRow
  readings : List Reading
  calls : List Call

/-- What may happen next. -/
inductive Action
  | call (request : ImportCommit)
  | connect (index : Nat) (answer : ConnectAnswer)
  | lookup (index : Nat) (error : Option String)
  | prepare (index : Nat) (error : Option String)
  | insertRow (index : Nat) (readingId : Uuid) (error : Option String)
  | insertReceipt (index : Nat) (receiptId : Uuid) (error : Option String)
  | commit (index : Nat) (outcome : CommitOutcome)
  | drop (index : Nat)

namespace System

/-- A database with the rows that were seeded. -/
def start (seeded : List Reading) : System :=
  { receipts := [], readings := seeded.map fun reading => { reading with call := none },
    calls := [] }

/-- The call at an index moves to another phase. -/
def setPhase (s : System) (index : Nat) (call : Call) (phase : CallPhase) : System :=
  { s with calls := s.calls.set index { call with phase } }

/-- The committed receipt of a key. -/
def receiptOf? (s : System) (key : String) : Option ReceiptRow :=
  s.receipts.find? fun receipt => receipt.idempotencyKey = key

/-- The phase after an answer to the connection. -/
def connect : ConnectAnswer → CallPhase
  | .connected => .looking
  | .refused error => .failed (.connect error)
  | .noTransaction error => .failed (.statement error)

/-- The lookup of the receipt, and the check of one that is there. -/
def lookup (s : System) (request : ImportCommit) : Option String → CallPhase
  | some error => .failed (.statement error)
  | none =>
    match s.receiptOf? request.idempotencyKey with
    | some existing =>
      if request.conflictsWith existing then .failed (.conflictingReplay request.idempotencyKey)
      else .returned existing.receiptJson true
    | none =>
      if request.failureStage = some .beforeRows then .failed (.injectedFailure "before-rows")
      else .preparing

/-- The phase after the statements that prepare an import. -/
def prepare : Option String → CallPhase
  | some error => .failed (.statement error)
  | none => .inserting 0 []

/-- The rows of a table that have an identifier. -/
def hasReading (readings : List Reading) (id : Uuid) : Bool :=
  readings.any fun reading => reading.readingId = id

/-- One turn of the loop over the rows. It waits for a transaction that has inserted the
identifier. -/
def insertRow (env : Environment) (s : System) (index : Nat) (request : ImportCommit)
    (ordinal : Nat)
    (rows : List Reading) (row : List String) (readingId : Uuid) (error : Option String) :
    Option CallPhase :=
  match readRow env row, error with
  | .error failure, _ => some (.failed failure)
  | .ok _, some error =>
    some (.failed (.invalidImport
      ("row " ++ toString ordinal ++ " could not be inserted: " ++ error)))
  | .ok (measuredAt, pm25, no2, ozone), none =>
    if hasReading (s.calls.eraseIdx index |>.flatMap fun call => call.phase.rows) readingId then
      none
    else
      let reading : Reading :=
        { readingId, stationId := request.stationId, measuredAt, pm25, no2, ozone,
          call := some index }
      let inserted := if hasReading (s.readings ++ rows) readingId then rows else rows ++ [reading]
      if request.failureStage = some .duringRows ∧ ordinal = 0 then
        some (.failed (.injectedFailure "during-rows"))
      else some (.inserting (ordinal + 1) inserted)

/-- The error of a key that is there already. -/
def uniqueViolation : String := "db error: ERROR: duplicate key value violates unique constraint"

/-- Whether a receipt has the key or the identifier of another. -/
def clashes (receipt other : ReceiptRow) : Bool :=
  other.idempotencyKey = receipt.idempotencyKey || other.receiptId = receipt.receiptId

/-- The insertion of the receipt. It waits for a transaction that has inserted one with its key. -/
def insertReceipt (env : Environment) (s : System) (index : Nat) (request : ImportCommit)
    (rows : List Reading) (receiptId : Uuid) (error : Option String) : Option CallPhase :=
  let receipt := request.receiptRow env receiptId index
  match error with
  | some error => some (.failed (.statement error))
  | none =>
    if s.receipts.any (clashes receipt) then some (.failed (.statement uniqueViolation))
    else if s.calls.any fun call => call.phase.receipt?.any (clashes receipt) then none
    else if request.failureStage = some .beforeCommit then
      some (.failed (.injectedFailure "before-commit"))
    else some (.committing rows receipt)

/-- The phase of a call whose commit took effect. -/
def committed (request : ImportCommit) (receiptId : Uuid) : CommitOutcome → CallPhase
  | .lost error => .unanswered (.statement error)
  | .abandoned => .dropped
  | _ => .returned (request.receipt receiptId) false

/-- The end of a commit. -/
def commit (s : System) (index : Nat) (call : Call) (rows : List Reading) (receipt : ReceiptRow) :
    CommitOutcome → System
  | .refused error => s.setPhase index call (.failed (.statement error))
  | outcome =>
    { s with receipts := s.receipts ++ [receipt],
             readings := s.readings ++ rows }.setPhase index call
      (committed call.request receipt.receiptId outcome)

/-- The phase that a step of a call leads to, if it does not end a commit. -/
def nextPhase (env : Environment) (s : System) (call : Call) (action : Action) : Option CallPhase :=
  match action, call.phase with
  | .connect _ answer, .connecting => some (connect answer)
  | .lookup _ error, .looking => some (s.lookup call.request error)
  | .prepare _ error, .preparing => some (prepare error)
  | .insertRow index readingId error, .inserting ordinal rows =>
    match call.request.rows[ordinal]? with
    | some row => s.insertRow env index call.request ordinal rows row readingId error
    | none => none
  | .insertReceipt index receiptId error, .inserting ordinal rows =>
    match call.request.rows[ordinal]? with
    | some _ => none
    | none => s.insertReceipt env index call.request rows receiptId error
  | .drop _, phase => if phase.isRunning then some .dropped else none
  | _, _ => none

/-- The call that an action is a step of. -/
def caller? : Action → Option Nat
  | .call _ => none
  | .connect index _ | .lookup index _ | .prepare index _ | .insertRow index _ _
  | .insertReceipt index _ _ | .commit index _ | .drop index => some index

/-- A step of the system, if it can be taken. -/
def step (env : Environment) (s : System) (action : Action) : Option System :=
  match action with
  | .call request => some { s with calls := s.calls ++ [⟨request, .connecting⟩] }
  | .commit index outcome => do
    let call ← s.calls[index]?
    match call.phase with
    | .committing rows receipt => some (s.commit index call rows receipt outcome)
    | _ => none
  | action => do
    let index ← caller? action
    let call ← s.calls[index]?
    let phase ← s.nextPhase env call action
    return s.setPhase index call phase

end System

end QueryFabric.Demo
