import Mathlib.Data.Option.Basic
import A2ARegistry.Base.Base64
import A2ARegistry.Base.RoundTrip
import A2ARegistry.Base.Text

namespace A2ARegistry.Auth
open Base

/-- `ISSUER`. -/
def issuer : String := "simple-a2a-registry"

/-- `TOKEN_EXPIRY_SECONDS`. -/
def tokenExpirySeconds : Int := 3600

/-- The claims of a token. -/
abbrev Payload := List (String × Json)

/-- What the authentication code takes from outside: `sha256` is the hex digest of a text,
`exceeds` is `now > x` for a float given by its `repr`, `textOf` is the text that `json.loads`
decodes bytes to, `sign` and `verify` are the RSA operations under a key in PEM, and `jwtEncode`
and `jwtDecode` are those of PyJWT under an algorithm and a key. -/
structure Crypto extends Python where
  sha256 : String → String
  exceeds : Rat → String → Bool
  textOf : List UInt8 → Option String
  sign : String → List UInt8 → List UInt8
  verify : String → List UInt8 → List UInt8 → Bool
  jwtEncode : String → String → Payload → String
  jwtDecode : String → String → Rat → String → Option Payload

/-- `int(time.time())`. -/
def truncate (now : Rat) : Int := now.num.tdiv now.den

/-- The arguments of `create_token` besides the key and the algorithm. -/
structure TokenArgs where
  sub : String
  audience : List String := []
  scope : String := ""
  expiry : Int := tokenExpirySeconds
  issuer : String := Auth.issuer
  tenant : String := ""

/-- The payload `create_token` builds; `jti` is what `uuid4` yields. -/
def TokenArgs.payload (args : TokenArgs) (now : Rat) (jti : String) : Payload :=
  [("iss", .str args.issuer), ("sub", .str args.sub), ("iat", .int (truncate now)),
    ("exp", .int (truncate now + args.expiry)), ("jti", .str jti)] ++
  (if args.audience.isEmpty then [] else [("aud", .arr (args.audience.map .str))]) ++
  (if args.scope = "" then [] else [("scope", .str args.scope)]) ++
  (if args.tenant = "" then [] else [("tenant", .str args.tenant)])

/-- A key of the signing operations, and the algorithm it is for. -/
structure SigningKey where
  privateKey : String
  publicKey : String
  algorithm : String := "RS256"

/-- `_b64encode`. -/
def b64encode (bytes : List UInt8) : List Char := Base64.unpad (Base64.encode bytes)

/-- `_b64decode`. -/
def b64decode (data : List Char) : Option (List UInt8) := Base64.decode (Base64.pad data)

/-- The header `_rsa_sign_jwt` writes. -/
def jwtHeader : Json := .obj [("alg", .str "RS256"), ("typ", .str "JWT")]

/-- A JSON value as a segment of a token. -/
def segment (v : Json) : List Char := b64encode (utf8 v.compact)

/-- The bytes that are signed. -/
def signedBytes (headerB64 payloadB64 : List Char) : List UInt8 :=
  utf8 (String.ofList (headerB64 ++ '.' :: payloadB64))

/-- `_rsa_sign_jwt`. -/
def rsaSignJwt (c : Crypto) (payload : Payload) (privateKey : String) : String :=
  let headerB64 := segment jwtHeader
  let payloadB64 := segment (.obj payload)
  let signature := c.sign privateKey (signedBytes headerB64 payloadB64)
  String.ofList (headerB64 ++ '.' :: (payloadB64 ++ '.' :: b64encode signature))

/-- The object a segment decodes to; `none` when decoding raises or `.get` does. -/
def readSegment (c : Crypto) (data : List Char) : Option Payload := do
  let bytes ← b64decode data
  let text ← c.textOf bytes
  match Json.loads c.toPython text with
  | some (.obj fields) => some fields
  | _ => none

/-- `exp and now > exp`; `none` when the comparison raises. -/
def Crypto.expired (c : Crypto) (now : Rat) : Json → Option Bool
  | .null => some false
  | .bool b => some (b && decide (1 < now))
  | .int n => some (n != 0 && decide ((n : Rat) < now))
  | .float r => some ((Json.float r).truthy && c.exceeds now r)
  | v => if v.truthy then none else some false

/-- `any(a in token_aud for a in audience)`, for a token audience that may be one text. -/
def audienceMatches (audience : List String) : Json → Bool
  | .str s => audience.contains s
  | .arr items => audience.any (fun a => items.any (fun v => v.isWord [a]))
  | .obj fields => audience.any (fun a => fields.any (fun f => f.1 == a))
  | _ => false

/-- The checks of `_rsa_verify_jwt` on the claims. One that raises fails. -/
def Crypto.admits (c : Crypto) (now : Rat) (audience : Option (List String)) (iss : String)
    (payload : Payload) : Bool :=
  c.expired now (Json.field payload "exp") == some false &&
    (Json.field payload "iss").isWord [iss] &&
    match audience with
    | none => true
    | some wanted => audienceMatches wanted (Json.get payload "aud" (.arr []))

/-- `_rsa_verify_jwt`. -/
def rsaVerifyJwt (c : Crypto) (now : Rat) (token publicKey : String) (audience : Option (List String))
    (iss : String) : Option Payload :=
  match token.toList.splitOn '.' with
  | [headerB64, payloadB64, sigB64] => do
    let header ← readSegment c headerB64
    guard ((Json.field header "alg").isWord ["RS256"])
    let payload ← readSegment c payloadB64
    guard (c.admits now audience iss payload)
    let signature ← b64decode sigB64
    guard (c.verify publicKey (signedBytes headerB64 payloadB64) signature)
    return payload
  | _ => none

/-- `create_token`, from the payload on. -/
def encodeToken (c : Crypto) (key : SigningKey) (payload : Payload) : String :=
  if key.algorithm = "RS256" then rsaSignJwt c payload key.privateKey
  else c.jwtEncode key.algorithm key.privateKey payload

/-- `verify_token`, for no audience. -/
def verifyToken (c : Crypto) (key : SigningKey) (now : Rat) (token : String) : Option Payload :=
  if key.algorithm = "RS256" then rsaVerifyJwt c now token key.publicKey none issuer
  else c.jwtDecode key.algorithm key.publicKey now token

/-- What the environment promises about a key pair: a signature verifies, and `json.loads`
reads the bytes of a JSON text. -/
structure Crypto.Sound (c : Crypto) (privateKey publicKey : String) : Prop where
  textOf_utf8 : ∀ v : Json, c.textOf (utf8 v.compact) = some v.compact
  verify_sign : ∀ message, c.verify publicKey message (c.sign privateKey message) = true

theorem b64decode_b64encode (bytes : List UInt8) : b64decode (b64encode bytes) = some bytes :=
  Base64.decode_encode bytes

theorem no_dot_b64encode (bytes : List UInt8) : '.' ∉ b64encode bytes := fun h =>
  (Base64.alphabet_plain '.' (Base64.unpad_mem h)).2.1 rfl

section RoundTrip

variable {c : Crypto} {privateKey publicKey : String}

theorem readSegment_segment (h : c.Sound privateKey publicKey) {payload : Payload}
    (hd : (Json.obj payload).Decoded c.toPython) : readSegment c (segment (.obj payload)) = some payload := by
  have hload := Json.loads_compact hd
  simp only [readSegment, segment, b64decode_b64encode, Option.bind_eq_bind, Option.bind_some, h.textOf_utf8, hload]

theorem decoded_str (p : Python) (s : String) : (Json.str s).Decoded p :=
  (Json.every_leaf rfl).mpr trivial

theorem decoded_int (p : Python) (n : Int) : (Json.int n).Decoded p :=
  (Json.every_leaf rfl).mpr trivial

theorem decoded_texts (p : Python) (texts : List String) : (Json.arr (texts.map .str)).Decoded p := by
  refine Json.every_arr.mpr ⟨trivial, fun v hv => ?_⟩
  obtain ⟨s, _, rfl⟩ := List.mem_map.mp hv
  exact decoded_str p s

theorem jwtHeader_decoded (p : Python) : jwtHeader.Decoded p := by
  refine Json.every_obj.mpr ⟨?_, ?_⟩
  · change ["alg", "typ"].Nodup
    decide
  · simp only [List.forall_mem_cons]
    exact ⟨decoded_str p _, decoded_str p _, by simp⟩

/-- A token is its three segments. -/
theorem split_rsaSignJwt (c : Crypto) (payload : Payload) (privateKey : String) :
    (rsaSignJwt c payload privateKey).toList.splitOn '.' = [segment jwtHeader, segment (.obj payload),
      b64encode (c.sign privateKey (signedBytes (segment jwtHeader) (segment (.obj payload))))] := by
  have hsegment : ∀ v, '.' ∉ segment v := fun v => no_dot_b64encode _
  rw [rsaSignJwt, String.toList_ofList, List.splitOn_append_cons_self_of_not_mem (hsegment _),
    List.splitOn_append_cons_self_of_not_mem (hsegment _), List.splitOn_eq_singleton (no_dot_b64encode _)]

/-- What was signed verifies as what it is, if its claims pass the checks. -/
theorem rsaVerifyJwt_rsaSignJwt (h : c.Sound privateKey publicKey) {payload : Payload}
    (hd : (Json.obj payload).Decoded c.toPython) (now : Rat) (audience : Option (List String)) (iss : String) :
    rsaVerifyJwt c now (rsaSignJwt c payload privateKey) publicKey audience iss =
      if c.admits now audience iss payload then some payload else none := by
  have hheader : readSegment c (segment jwtHeader) = some [("alg", .str "RS256"), ("typ", .str "JWT")] :=
    readSegment_segment h (jwtHeader_decoded c.toPython)
  have halg : (Json.field [("alg", .str "RS256"), ("typ", .str "JWT")] "alg").isWord ["RS256"] = true := by
    decide
  rw [rsaVerifyJwt, split_rsaSignJwt]
  dsimp only
  rw [hheader, readSegment_segment h hd, b64decode_b64encode]
  simp only [Option.bind_eq_bind, Option.bind_some, halg, h.verify_sign, guard_true, Option.pure_def]
  by_cases hadmits : c.admits now audience iss payload = true
  · simp [hadmits]
  · simp [hadmits]

theorem TokenArgs.payload_decoded (p : Python) (args : TokenArgs) (now : Rat) (jti : String) :
    (Json.obj (args.payload now jti)).Decoded p := by
  refine Json.every_obj.mpr ⟨?_, fun f hf => ?_⟩
  · change ((args.payload now jti).map Prod.fst).Nodup
    unfold TokenArgs.payload
    by_cases ha : args.audience.isEmpty <;> by_cases hs : args.scope = "" <;>
      by_cases ht : args.tenant = "" <;> simp [ha, hs, ht]
  · unfold TokenArgs.payload at hf
    rcases List.mem_append.mp hf with hf | hf
    · rcases List.mem_append.mp hf with hf | hf
      · rcases List.mem_append.mp hf with hf | hf
        · simp only [List.mem_cons, List.not_mem_nil, or_false] at hf
          rcases hf with rfl | rfl | rfl | rfl | rfl
          · exact decoded_str p _
          · exact decoded_str p _
          · exact decoded_int p _
          · exact decoded_int p _
          · exact decoded_str p _
        · split at hf
          · cases hf
          · cases List.mem_singleton.mp hf
            exact decoded_texts p _
      · split at hf
        · cases hf
        · cases List.mem_singleton.mp hf
          exact decoded_str p _
    · split at hf
      · cases hf
      · cases List.mem_singleton.mp hf
        exact decoded_str p _

end RoundTrip

end A2ARegistry.Auth
