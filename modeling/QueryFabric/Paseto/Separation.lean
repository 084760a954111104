import QueryFabric.Lib.Succeeds
import QueryFabric.Paseto.Tokens

/-!
# The separation of token kinds

A delegation token says that it is one in its `scope`, which `validate_delegation_token` reads and
`validate_paseto_token` does not: a delegation token has the two claims that the latter needs, and
it is taken for an access token of the user, active and unverified. `tokens_separated_iff` says that
the kinds are told apart only where no delegation token can be minted at all.
-/

namespace QueryFabric.Paseto

open Portability (Json digitsValue)

variable {Token : Type}

/-- What the crate relies on of its libraries. -/
structure Libraries.Lawful (L : Libraries Token) : Prop where
  /-- `Uuid::parse_str` reads what `to_string` has written. -/
  uuids : ∀ id, L.parseUuid (L.formatUuid id) = some id
  /-- `serde_json` reads the lists of strings that it has written. -/
  strings : ∀ strings, L.decodeStrings (L.encodeStrings strings) = some strings
  /-- Claims with distinct names can be sealed. -/
  builds : ∀ nonce key (claims : Claims), (claims.map Prod.fst).Nodup →
    ∃ token, L.build nonce key claims = .ok token
  /-- A token is opened by its key from the time of its `nbf` claim to that of its `exp` claim. -/
  lossless : ∀ nonce key (claims : Claims) token start stop now,
    L.build nonce key claims = .ok token →
    index (.object claims) "nbf" = .string (L.formatTime start) →
    index (.object claims) "exp" = .string (L.formatTime stop) →
    start ≤ now → now < stop → L.parse now key token = .ok (.object claims)
  /-- Whatever a token is opened with, it gives no other claims than were sealed in it. -/
  authentic : ∀ nonce key key' (claims : Claims) token now opened,
    L.build nonce key claims = .ok token →
    L.parse now key' token = .ok opened → opened = .object claims

/-- The kinds are told apart, for a delegation token that is minted with these arguments: while it
is valid the validator of delegation tokens returns what it was minted from, it rejects every token
whose `scope` is another or missing, and the validator of access tokens rejects the delegation
token. -/
def Separated (L : Libraries Token) (nonce : Nat) (minted : Int) (user : AuthUser)
    (datasetIds : List Uuid) (tableId : Int32) (secret : String) : Prop :=
  (∀ token, mintDelegationToken L nonce minted user datasetIds tableId secret = .ok token →
    (∀ now, minted ≤ now → now < minted + seconds delegationTtlSecs →
      validateDelegationToken L now token secret = .ok ⟨user.id, user.email, datasetIds, tableId⟩) ∧
    ∀ now, ∃ error, validatePasetoToken L now token secret = .error error) ∧
  ∀ nonce key (claims : Claims) token now,
    asStr (index (.object claims) "scope") ≠ some "delegation" →
    L.build nonce key claims = .ok token →
      ∃ error, validateDelegationToken L now token secret = .error error

/-! ## Texts of numbers -/

/-- The digits of a number have its value. -/
theorem digitsValue_toDigits (n : Nat) : digitsValue (Nat.toDigits 10 n) = n := by
  rw [digitsValue, ← Nat.ofDigitChars_eq_foldl]
  exact Nat.ofDigitChars_ten_toDigits

/-- A number is parsed of its digits, with a sign or without. -/
theorem parseInteger_digits {digits : List Char} (hdigits : ∀ c ∈ digits, c.isDigit = true)
    (hne : digits ≠ []) :
    parseInteger digits = some (digitsValue digits : Int) ∧
      parseInteger ('-' :: digits) = some (-(digitsValue digits : Int)) := by
  have hall : digits.all Char.isDigit = true := List.all_eq_true.mpr hdigits
  constructor
  · cases digits with
    | nil => exact absurd rfl hne
    | cons c cs =>
      have hc := hdigits c List.mem_cons_self
      have hminus : c ≠ '-' := by
        rintro rfl
        cases hc
      have hplus : c ≠ '+' := by
        rintro rfl
        cases hc
      simp [parseInteger, hminus, hplus, hall]
  · simp [parseInteger, hne, hall]

/-- A printed number is read back. -/
theorem parseInteger_toString (n : Int) : parseInteger (toString n).toList = some n := by
  have hdigits (m : Nat) : ∀ c ∈ Nat.toDigits 10 m, c.isDigit = true := fun c hc =>
    Nat.isDigit_of_mem_toDigits (by decide) (by decide) hc
  cases n with
  | ofNat m =>
    have htext : (toString (Int.ofNat m)).toList = Nat.toDigits 10 m := Nat.toList_repr
    rw [htext, (parseInteger_digits (hdigits m) Nat.toDigits_ne_nil).1, digitsValue_toDigits]
    rfl
  | negSucc m =>
    have htext : (toString (Int.negSucc m)).toList = '-' :: Nat.toDigits 10 (m + 1) := by
      rw [Int.toString_eq_repr, Int.repr_eq_if, if_neg (by omega)]
      simp [Nat.toList_repr]
    rw [htext, (parseInteger_digits (hdigits _) Nat.toDigits_ne_nil).2, digitsValue_toDigits]
    rfl

/-- A number is parsed of its text. -/
theorem parseI32_toString (n : Int32) : parseI32 (toString n.toInt).toList = some n := by
  have hlower := n.le_toInt
  have hupper := n.toInt_lt
  rw [parseI32, parseInteger_toString, Option.bind_some, if_pos (by omega), Int32.ofInt_toInt]

/-! ## Validation of a minted token -/

section Minted

variable {L : Libraries Token} {secret : String} {key : Key}

/-- UUIDs are parsed of their texts. -/
theorem mapM_parseUuid (hL : L.Lawful) (ids : List Uuid) :
    (ids.map L.formatUuid).mapM L.parseUuid = some ids := by
  induction ids with
  | nil => rfl
  | cons id ids ih => simp [List.mapM_cons, hL.uuids, ih]

/-- What `mint_delegation_token` has sealed, and with what key. -/
theorem mintDelegationToken_eq_ok_iff {nonce : Nat} {now : Int} {user : AuthUser} {ids : List Uuid}
    {tableId : Int32} {token : Token} :
    mintDelegationToken L nonce now user ids tableId secret = .ok token ↔
      ∃ key, v4LocalKey secret = .ok key ∧
        L.build nonce key (delegationClaims L user ids tableId now) = .ok token := by
  unfold mintDelegationToken
  rw [Lib.bind_eq_ok]
  refine exists_congr fun key => and_congr_right fun _ => ?_
  cases L.build nonce key (delegationClaims L user ids tableId now) with
  | error message => simp
  | ok built => simp

/-- A token is parsed with the key of the secret. -/
theorem parse_of_key {now : Int} {token : Token} {claims : Json}
    (hkey : v4LocalKey secret = .ok key)
    (hparse : L.parse now key token = .ok claims) :
    parsePasetoV4Local L now token secret = .ok claims := by
  simp only [parsePasetoV4Local, hkey, hparse, bind, Except.bind]

variable {nonce : Nat} {minted now : Int} {user : AuthUser} {ids : List Uuid} {tableId : Int32}
  {token : Token}

/-- While it is valid, a minted token can be opened. -/
theorem parse_minted (hL : L.Lawful)
    (h : mintDelegationToken L nonce minted user ids tableId secret = .ok token)
    (hstart : minted ≤ now) (hstop : now < minted + seconds delegationTtlSecs) :
    parsePasetoV4Local L now token secret =
      .ok (.object (delegationClaims L user ids tableId minted)) := by
  obtain ⟨key, hkey, hbuild⟩ := mintDelegationToken_eq_ok_iff.mp h
  exact parse_of_key hkey (hL.lossless nonce key _ token minted _ now hbuild rfl rfl hstart hstop)

/-- The validator of delegation tokens returns what the token was minted from. -/
theorem validateDelegationToken_minted (hL : L.Lawful)
    (h : mintDelegationToken L nonce minted user ids tableId secret = .ok token)
    (hstart : minted ≤ now) (hstop : now < minted + seconds delegationTtlSecs) :
    validateDelegationToken L now token secret = .ok ⟨user.id, user.email, ids, tableId⟩ := by
  unfold validateDelegationToken
  rw [parse_minted hL h hstart hstop]
  simp [delegationClaims, index, asStr, hL.uuids, hL.strings, mapM_parseUuid hL, parseI32_toString,
    bind, Except.bind, pure, Except.pure, -Int.toString_eq_repr]

/-- The validator of access tokens takes it for an access token. -/
theorem validatePasetoToken_minted (hL : L.Lawful)
    (h : mintDelegationToken L nonce minted user ids tableId secret = .ok token)
    (hstart : minted ≤ now) (hstop : now < minted + seconds delegationTtlSecs) :
    validatePasetoToken L now token secret =
      .ok { id := user.id, email := user.email, isActive := true, isSuperuser := false
            isVerified := false, userType := .human, roles := [] } := by
  unfold validatePasetoToken
  rw [parse_minted hL h hstart hstop]
  simp [delegationClaims, index, asStr, asBool, flagFromClaim, rolesFromClaim, hL.uuids, bind,
    Except.bind, pure, Except.pure]

/-- A token of another `scope`, or of none, is no delegation token, whatever it is opened with. -/
theorem validateDelegationToken_access (hL : L.Lawful) {claims : Claims} {key : Key}
    (hscope : asStr (index (.object claims) "scope") ≠ some "delegation")
    (hbuild : L.build nonce key claims = .ok token) :
    ∃ error, validateDelegationToken L now token secret = .error error := by
  unfold validateDelegationToken parsePasetoV4Local
  cases hkey : v4LocalKey secret with
  | error error => exact ⟨error, rfl⟩
  | ok key' =>
    cases hparse : L.parse now key' token with
    | error message =>
      refine ⟨.tokenParse message, ?_⟩
      simp [hparse, bind, Except.bind]
    | ok opened =>
      have hopened := hL.authentic nonce key key' claims token now opened hbuild hparse
      cases hread : asStr (index (.object claims) "scope") with
      | none =>
        refine ⟨.missingDelegationClaim "scope", ?_⟩
        simp [hparse, hopened, hread, bind, Except.bind]
      | some scope =>
        have hother : scope ≠ "delegation" := fun heq => hscope (heq ▸ hread)
        refine ⟨.invalidScope "delegation" scope, ?_⟩
        simp [hparse, hopened, hread, hother, bind, Except.bind]

/-- A delegation token can be minted with any secret that is long enough. -/
theorem exists_minted (hL : L.Lawful) (hsecret : 32 ≤ secret.toUTF8.data.toList.length) :
    ∃ token, mintDelegationToken L nonce minted user ids tableId secret = .ok token := by
  obtain ⟨key, hkey⟩ : ∃ key, v4LocalKey secret = .ok key := by
    unfold v4LocalKey
    exact ⟨_, dif_pos hsecret⟩
  obtain ⟨token, hbuild⟩ := hL.builds nonce key (delegationClaims L user ids tableId minted)
    (by simp [delegationClaims])
  exact ⟨token, mintDelegationToken_eq_ok_iff.mpr ⟨key, hkey, hbuild⟩⟩

end Minted

/-- The kinds are told apart exactly when the secret is too short for any token to be minted. -/
theorem tokens_separated_iff (L : Libraries Token) (hL : L.Lawful) (nonce : Nat) (minted : Int)
    (user : AuthUser) (datasetIds : List Uuid) (tableId : Int32) (secret : String) :
    Separated L nonce minted user datasetIds tableId secret ↔
      secret.toUTF8.data.toList.length < 32 := by
  constructor
  · rintro ⟨hminted, -⟩
    by_contra hsecret
    have hlong : 32 ≤ secret.toUTF8.data.toList.length := by omega
    obtain ⟨token, htoken⟩ := exists_minted hL hlong
    obtain ⟨error, herror⟩ := (hminted token htoken).2 minted
    have hvalid : minted < minted + seconds delegationTtlSecs := by
      unfold seconds delegationTtlSecs
      omega
    rw [validatePasetoToken_minted hL htoken le_rfl hvalid] at herror
    cases herror
  · intro hsecret
    refine ⟨fun token htoken => ?_, fun nonce key claims token now hscope hbuild =>
      validateDelegationToken_access hL hscope hbuild⟩
    obtain ⟨key, hkey, -⟩ := mintDelegationToken_eq_ok_iff.mp htoken
    unfold v4LocalKey at hkey
    rw [dif_neg (by omega)] at hkey
    cases hkey

/-! ## An instance of the libraries -/

namespace Ideal

/-- The hexadecimal digits of a number, as many as are asked for. -/
def hexDigits : Nat → Nat → List Char
  | 0, _ => []
  | width + 1, n => hexDigits width (n / 16) ++ [(n % 16).digitChar]

/-- The value of hexadecimal digits. -/
def hexValue? (digits : List Char) : Option Nat :=
  digits.foldlM (fun value c =>
    (List.range 16).find? (fun digit => digit.digitChar = c.toLower) |>.map (16 * value + ·)) 0

/-- The digits of a UUID with its hyphens. -/
def hyphenate (digits : List Char) : List Char :=
  digits.take 8 ++ '-' :: (digits.drop 8).take 4 ++ '-' :: (digits.drop 12).take 4 ++
    '-' :: (digits.drop 16).take 4 ++ '-' :: digits.drop 20

/-- A UUID of its hyphenated digits. -/
def parseUuid (text : String) : Option Uuid :=
  let digits := text.toList.filter (· ≠ '-')
  if digits.length = 32 then (hexValue? digits).map (BitVec.ofNat 128) else none

/-- A JSON string. -/
def writeString (text : String) : List Char :=
  '"' :: text.toList.flatMap (fun c => if c = '"' ∨ c = '\\' then ['\\', c] else [c]) ++ ['"']

/-- A JSON array of strings. -/
def encodeStrings (strings : List String) : String :=
  String.ofList ('[' :: [','].intercalate (strings.map writeString) ++ [']'])

/-- The strings of an array, from the characters after its bracket. `current` holds the characters
of the string that is being read, the last one first. -/
def readStrings : List Char → List String → Option (List Char) → Option (List String)
  | '\\' :: c :: rest, items, some current => readStrings rest items (some (c :: current))
  | '"' :: rest, items, some current =>
    readStrings rest (String.ofList current.reverse :: items) none
  | c :: rest, items, some current => readStrings rest items (some (c :: current))
  | '"' :: rest, items, none => readStrings rest items (some [])
  | ',' :: rest, items, none => readStrings rest items none
  | [']'], items, none => some items.reverse
  | _, _, _ => none

/-- The items of an array of texts. -/
def decodeStrings (text : String) : Option (List String) :=
  match text.toList with
  | '[' :: rest => readStrings rest [] none
  | _ => none

/-- The times of a token that is minted at the epoch, in RFC 3339. -/
def formatTime (time : Int) : String :=
  if time = 0 then "1970-01-01T00:00:00+00:00"
  else if time = seconds 30 then "1970-01-01T00:00:30+00:00"
  else toString time

/-- The times of the epoch and of thirty seconds later, and numbers of nanoseconds. -/
def parseTime (text : String) : Option Int :=
  if text = "1970-01-01T00:00:00+00:00" then some 0
  else if text = "1970-01-01T00:00:30+00:00" then some (seconds 30)
  else parseInteger text.toList

/-- Encryption as it is meant to be: what is sealed is seen only with the key. -/
def libraries : Libraries (Key × Claims) where
  formatUuid id := String.ofList (hyphenate (hexDigits 32 id.toNat))
  parseUuid := parseUuid
  encodeStrings := encodeStrings
  decodeStrings := decodeStrings
  formatTime := formatTime
  build _ key claims :=
    if (claims.map Prod.fst).Nodup then .ok (key, claims) else .error "duplicate claim"
  parse now key token :=
    let time (claim : String) := (asStr (index (.object token.2) claim)).bind parseTime
    if key ≠ token.1 then .error "invalid key"
    else if (time "nbf").any (now < ·) then .error "token is not yet valid"
    else if (time "exp").any (· ≤ now) then .error "token has expired"
    else .ok (.object token.2)

/-- Hexadecimal digits have the value of the number, as far as they go. -/
theorem hexValue?_hexDigits (width n : Nat) :
    hexValue? (hexDigits width n) = some (n % 16 ^ width) := by
  induction width generalizing n with
  | zero => simp [hexDigits, hexValue?, Nat.mod_one]
  | succ width ih =>
    have hdigit : ∀ d < 16,
      (List.range 16).find? (fun digit => digit.digitChar = d.digitChar.toLower) =
        some d := by decide
    unfold hexValue? at ih ⊢
    rw [hexDigits, List.foldlM_append, ih]
    have hlast := hdigit (n % 16) (Nat.mod_lt _ (by decide))
    have hsplit : n % 16 ^ (width + 1) = 16 * (n / 16 % 16 ^ width) + n % 16 := by
      rw [pow_succ, mul_comm (16 ^ width), Nat.mod_mul, add_comm]
    simp [hlast, hsplit]

/-- No hexadecimal digit is a hyphen. -/
theorem hexDigits_ne_hyphen (width n : Nat) : ∀ c ∈ hexDigits width n, c ≠ '-' := by
  have hdigit : ∀ d < 16, d.digitChar ≠ '-' := by decide
  induction width generalizing n with
  | zero => simp [hexDigits]
  | succ width ih =>
    intro c hc
    rw [hexDigits, List.mem_append, List.mem_singleton] at hc
    rcases hc with hc | rfl
    · exact ih _ c hc
    · exact hdigit _ (Nat.mod_lt _ (by decide))

/-- There are as many digits as the width. -/
theorem length_hexDigits (width n : Nat) : (hexDigits width n).length = width := by
  induction width generalizing n with
  | zero => rfl
  | succ width ih => simp [hexDigits, ih]

/-- Without its hyphens a UUID has its digits. -/
theorem filter_hyphenate (digits : List Char) (h : ∀ c ∈ digits, c ≠ '-') :
    (hyphenate digits).filter (· ≠ '-') = digits := by
  have hself (part : List Char) (hpart : part ⊆ digits) : part.filter (· ≠ '-') = part :=
    List.filter_eq_self.mpr fun c hc => by simpa using h c (hpart hc)
  have hgroup (n : Nat) : (digits.drop n).take 4 ++ digits.drop (n + 4) = digits.drop n := by
    rw [← List.drop_drop, List.take_append_drop]
  have hhyphen (rest : List Char) :
      ('-' :: rest).filter (· ≠ '-') = rest.filter (· ≠ '-') := by simp
  have hdrop (n : Nat) : digits.drop n ⊆ digits := List.drop_subset n digits
  have htake (n : Nat) : (digits.drop n).take 4 ⊆ digits :=
    fun _ h => hdrop n (List.take_subset _ _ h)
  unfold hyphenate
  simp only [List.append_assoc, List.cons_append, List.filter_append, hhyphen]
  rw [hself _ (List.take_subset _ _), hself _ (htake 8), hself _ (htake 12), hself _ (htake 16),
    hself _ (hdrop 20), hgroup 16, hgroup 12, hgroup 8, List.take_append_drop]

/-- A UUID is parsed of its text. -/
theorem parseUuid_format (id : Uuid) :
    parseUuid (String.ofList (hyphenate (hexDigits 32 id.toNat))) = some id := by
  have hlt := id.isLt
  unfold parseUuid
  rw [String.toList_ofList, filter_hyphenate _ (hexDigits_ne_hyphen 32 _)]
  dsimp only
  rw [length_hexDigits, if_pos rfl, hexValue?_hexDigits, Option.map_some,
    Nat.mod_eq_of_lt (by omega), BitVec.ofNat_toNat, BitVec.setWidth_eq]

/-- The characters of a string are read up to its closing quote. -/
theorem readStrings_chars (chars rest : List Char) (items : List String) (current : List Char) :
    readStrings
      (chars.flatMap (fun c => if c = '"' ∨ c = '\\' then ['\\', c] else [c]) ++ '"' :: rest)
      items (some current) =
    readStrings rest (String.ofList (current.reverse ++ chars) :: items) none := by
  induction chars generalizing current with
  | nil => simp [readStrings]
  | cons c chars ih =>
    by_cases hc : c = '"' ∨ c = '\\'
    · simp only [List.flatMap_cons, if_pos hc, List.cons_append, List.nil_append, readStrings, ih,
        List.reverse_cons, List.append_assoc]
    · have hquote : c ≠ '"' := fun h => hc (.inl h)
      have hslash : c ≠ '\\' := fun h => hc (.inr h)
      simp only [List.flatMap_cons, if_neg hc, List.cons_append, List.nil_append]
      simp [readStrings, hslash, ih]

/-- The items of an array are read back. -/
theorem readStrings_array (strings items : List String) :
    readStrings ([','].intercalate (strings.map writeString) ++ [']']) items none =
      some (items.reverse ++ strings) := by
  induction strings generalizing items with
  | nil => simp [readStrings]
  | cons text strings ih =>
    have htext (rest : List Char) : readStrings (writeString text ++ rest) items none =
        readStrings rest (text :: items) none := by
      simp only [writeString, List.cons_append, List.append_assoc, List.nil_append, readStrings,
        readStrings_chars, List.reverse_nil, String.ofList_toList]
    cases strings with
    | nil =>
      rw [List.map_singleton, List.intercalate_singleton, htext]
      simp [readStrings]
    | cons next strings =>
      rw [List.map_cons, List.map_cons, List.intercalate_cons_cons, List.append_assoc,
        List.append_assoc, htext, ← List.map_cons]
      simp only [List.cons_append, List.nil_append, readStrings, ih]
      simp

/-- An array of texts is decoded. -/
theorem decodeStrings_encode (strings : List String) :
    decodeStrings (encodeStrings strings) = some strings := by
  unfold decodeStrings encodeStrings
  rw [String.toList_ofList]
  exact readStrings_array strings []

/-- A time is parsed of its text. -/
theorem parseTime_format (time : Int) : parseTime (formatTime time) = some time := by
  unfold formatTime
  split
  · simp [parseTime, *]
  · split
    · simp [parseTime, *]
    · have hparse := parseInteger_toString time
      have hepoch : toString time ≠ "1970-01-01T00:00:00+00:00" := by
        intro h
        rw [h] at hparse
        have hnone : parseInteger "1970-01-01T00:00:00+00:00".toList = none := by decide
        cases hnone.symm.trans hparse
      have hexpiry : toString time ≠ "1970-01-01T00:00:30+00:00" := by
        intro h
        rw [h] at hparse
        have hnone : parseInteger "1970-01-01T00:00:30+00:00".toList = none := by decide
        cases hnone.symm.trans hparse
      rw [parseTime, if_neg hepoch, if_neg hexpiry, hparse]

/-- A token is its key with its claims. -/
theorem build_eq_ok {nonce : Nat} {key : Key} {claims : Claims} {token : Key × Claims}
    (h : libraries.build nonce key claims = .ok token) : token = (key, claims) := by
  simp only [libraries] at h
  split at h
  · cases h
    rfl
  · cases h

/-- The ideal libraries are lawful. -/
theorem lawful : libraries.Lawful where
  uuids id := by
    simp only [libraries]
    exact parseUuid_format id
  strings strings := by
    simp only [libraries]
    exact decodeStrings_encode strings
  builds nonce key claims hnodup := by
    simp only [libraries, if_pos hnodup]
    exact ⟨_, rfl⟩
  lossless nonce key claims token start stop now hbuild hnbf hexp hstart hstop := by
    cases build_eq_ok hbuild
    simp only [libraries] at hnbf hexp ⊢
    simp [hnbf, hexp, asStr, parseTime_format, not_lt.mpr hstart, not_le.mpr hstop]
  authentic nonce key key' claims token now opened hbuild hparse := by
    cases build_eq_ok hbuild
    simp only [libraries] at hparse
    split_ifs at hparse
    cases hparse
    rfl

end Ideal

/-- A user, with a secret of 32 bytes. -/
def researcher : AuthUser :=
  { id := 0x0123456789ab7def8123456789abcdef, email := "researcher@university.edu", isActive := true
    isSuperuser := false, isVerified := true, userType := .human, roles := [] }

/-- The secret of the tests. -/
def testSecret : String := "test_secret_key_1234567890abcdef"

/-- Tokens stay separate when a secret is too short for a key. -/
theorem shortSecret_separated :
    Separated Ideal.libraries 0 0 researcher [0x42] 1 "short" :=
  (tokens_separated_iff Ideal.libraries Ideal.lawful 0 0 researcher [0x42] 1 "short").mpr
    (by decide)

/-- The delegation token of the user is taken for an access token. -/
theorem delegation_taken_for_access :
    ¬Separated Ideal.libraries 0 0 researcher [0x42] 1 testSecret := by
  rintro ⟨hminted, -⟩
  obtain ⟨token, htoken⟩ : ∃ token,
      mintDelegationToken Ideal.libraries 0 0 researcher [0x42] 1 testSecret = .ok token :=
    exists_minted Ideal.lawful (by decide)
  obtain ⟨error, herror⟩ := (hminted token htoken).2 0
  rw [validatePasetoToken_minted Ideal.lawful htoken (by decide) (by decide)] at herror
  cases herror

end QueryFabric.Paseto
