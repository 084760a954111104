import QueryFabric.Portability.Tabular
import Mathlib.Data.Vector.Basic

/-!
# Access and delegation tokens

The tokens of `crates/queryfabric-paseto/src/typed.rs`: the claims that each kind carries, and the
two validators. Access tokens are minted by hosts, and delegation tokens here; both are sealed with
the key that the first 32 bytes of the secret make.

The libraries that the crate rests on are a record of their functions, of which `Libraries.Lawful`
says what is relied on: the texts of UUIDs and of lists of strings are read back, a PASETO token
that was built can be parsed under its key while it is valid, and no parse of it gives other claims.
A token is an opaque value. The clock and the nonce of a token are arguments; the minted expiry and
the default claims of the builder are from one reading of the clock.
-/

namespace QueryFabric.Paseto

open Portability (Json digitsValue)

/-- The members of a JSON object, of which a token's claims are one. -/
abbrev Claims := List (String × Json)

/-- The 128 bits of a UUID. -/
abbrev Uuid := BitVec 128

/-- `Key<32>`. -/
abbrev Key := List.Vector UInt8 32

/-- The functions of other crates. `parse` is given the time. -/
structure Libraries (Token : Type) where
  formatUuid : Uuid → String
  parseUuid : String → Option Uuid
  encodeStrings : List String → String
  decodeStrings : String → Option (List String)
  formatTime : Int → String
  build : Nat → Key → Claims → Except String Token
  parse : Int → Key → Token → Except String Json

/-- `Index<&str>` of a JSON value. -/
def index (value : Json) (name : String) : Json :=
  match value with
  | .object entries => ((entries.find? fun entry => entry.1 = name).map Prod.snd).getD .null
  | _ => .null

/-- `as_str`. -/
def asStr : Json → Option String
  | .string value => some value
  | _ => none

/-- `as_bool`. -/
def asBool : Json → Option Bool
  | .bool value => some value
  | _ => none

/-- The number that an optional sign and decimal digits stand for. -/
def parseInteger (text : List Char) : Option Int :=
  let (negative, digits) : Bool × List Char := match text with
    | '-' :: digits => (true, digits)
    | '+' :: digits => (false, digits)
    | digits => (false, digits)
  if digits.isEmpty || ¬ digits.all Char.isDigit then none
  else if negative then some (-digitsValue digits)
  else some (digitsValue digits)

/-- `str::parse::<i32>`. -/
def parseI32 (text : List Char) : Option Int32 :=
  (parseInteger text).bind fun value =>
    if -2147483648 ≤ value ∧ value < 2147483648 then some (Int32.ofInt value) else none

/-! ## The validators -/

/-- The texts that the libraries give for invalid UUIDs, lists and numbers are left out. -/
inductive AuthError
  | secretTooShort
  | tokenParse (message : String)
  | missingSub
  | missingEmail
  | invalidUuid
  | invalidScope (expected actual : String)
  | missingDelegationClaim (claim : String)
  | invalidDelegationClaim (field : String)
deriving DecidableEq, Repr

/-- `UserType`. -/
inductive UserType
  | human
  | service
deriving DecidableEq, Repr

/-- `UserType::from_str`. No other character has one of these letters as its lower case. -/
def UserType.fromStr (s : String) : Option UserType :=
  if toAsciiLowercase s = "human" then some .human
  else if toAsciiLowercase s = "service" then some .service
  else none

/-- `AuthUser`. -/
structure AuthUser where
  id : Uuid
  email : String
  isActive : Bool
  isSuperuser : Bool
  isVerified : Bool
  userType : UserType
  roles : List String
deriving DecidableEq, Repr

/-- `DelegationClaims`. -/
structure DelegationClaims where
  sub : Uuid
  email : String
  datasetIds : List Uuid
  tableId : Int32
deriving DecidableEq, Repr

/-- `v4_local_key`. -/
def v4LocalKey (secret : String) : Except AuthError Key :=
  let bytes := secret.toUTF8.data.toList
  if h : 32 ≤ bytes.length then .ok ⟨bytes.take 32, by simpa using h⟩ else .error .secretTooShort

section Tokens

variable {Token : Type} (L : Libraries Token)

/-- `parse_paseto_v4_local`. -/
def parsePasetoV4Local (now : Int) (token : Token) (secret : String) : Except AuthError Json := do
  let key ← v4LocalKey secret
  match L.parse now key token with
  | .ok claims => .ok claims
  | .error message => .error (.tokenParse message)

/-- The claims that are a truth value, as a text or as a JSON value. -/
def flagFromClaim (value : Json) (default : Bool) : Bool :=
  match asStr value with
  | some text => text = "true"
  | none => (asBool value).getD default

/-- `roles_from_claim`. -/
def rolesFromClaim (value : Json) : List String :=
  match value with
  | .array items => items.filterMap asStr
  | _ => ((asStr value).bind L.decodeStrings).getD []

/-- `validate_paseto_token`. -/
def validatePasetoToken (now : Int) (token : Token) (secret : String) :
    Except AuthError AuthUser := do
  let claims ← parsePasetoV4Local L now token secret
  let idStr ← (asStr (index claims "sub")).elim (.error .missingSub) .ok
  let id ← (L.parseUuid idStr).elim (.error .invalidUuid) .ok
  let email ← (asStr (index claims "email")).elim (.error .missingEmail) .ok
  return {
    id
    email
    isActive := flagFromClaim (index claims "is_active") true
    isSuperuser := flagFromClaim (index claims "is_superuser") false
    isVerified := flagFromClaim (index claims "is_verified") false
    userType := ((asStr (index claims "user_type")).bind UserType.fromStr).getD .human
    roles := rolesFromClaim L (index claims "roles") }

/-- `validate_delegation_token`. -/
def validateDelegationToken (now : Int) (token : Token) (secret : String) :
    Except AuthError DelegationClaims := do
  let claims ← parsePasetoV4Local L now token secret
  let scope ← (asStr (index claims "scope")).elim (.error (.missingDelegationClaim "scope")) .ok
  if scope ≠ "delegation" then .error (.invalidScope "delegation" scope)
  let idStr ← (asStr (index claims "sub")).elim (.error .missingSub) .ok
  let sub ← (L.parseUuid idStr).elim (.error .invalidUuid) .ok
  let email ← (asStr (index claims "email")).elim (.error .missingEmail) .ok
  let datasetIdsStr ← (asStr (index claims "dataset_ids")).elim
    (.error (.missingDelegationClaim "dataset_ids")) .ok
  let datasetIdStrings ← (L.decodeStrings datasetIdsStr).elim
    (.error (.invalidDelegationClaim "dataset_ids")) .ok
  let datasetIds ← (datasetIdStrings.mapM L.parseUuid).elim
    (.error (.invalidDelegationClaim "dataset_ids")) .ok
  let tableIdStr ← (asStr (index claims "table_id")).elim
    (.error (.missingDelegationClaim "table_id")) .ok
  let tableId ← (parseI32 tableIdStr.toList).elim (.error (.invalidDelegationClaim "table_id")) .ok
  return { sub, email, datasetIds, tableId }

/-! ## Minting -/

/-- `DELEGATION_TTL_SECS`. -/
def delegationTtlSecs : Int := 30

/-- A number of seconds in the nanoseconds that times are counted in. -/
def seconds (n : Int) : Int := n * 1000000000

/-- The claims of a delegation token that is minted at a time, with those that
`PasetoBuilder::default` adds. -/
def delegationClaims (user : AuthUser) (datasetIds : List Uuid) (tableId : Int32)
    (now : Int) : Claims :=
  [("iat", .string (L.formatTime now)),
    ("nbf", .string (L.formatTime now)),
    ("sub", .string (L.formatUuid user.id)),
    ("exp", .string (L.formatTime (now + seconds delegationTtlSecs))),
    ("email", .string user.email),
    ("scope", .string "delegation"),
    ("dataset_ids", .string (L.encodeStrings (datasetIds.map L.formatUuid))),
    ("table_id", .string (toString tableId.toInt))]

/-- `mint_delegation_token`. The keys of the custom claims are not reserved, and the expiry is an
RFC 3339 text, so that the claims can be made. -/
def mintDelegationToken (nonce : Nat) (now : Int) (user : AuthUser) (datasetIds : List Uuid)
    (tableId : Int32) (secret : String) : Except AuthError Token := do
  let key ← v4LocalKey secret
  match L.build nonce key (delegationClaims L user datasetIds tableId now) with
  | .ok token => .ok token
  | .error message =>
    .error
      (.tokenParse ("build delegation PASETO token for user " ++ L.formatUuid user.id ++ " and " ++
      toString datasetIds.length ++ " dataset ids: " ++ message))

end Tokens

end QueryFabric.Paseto
