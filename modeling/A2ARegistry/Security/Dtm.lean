import Mathlib.Data.List.Sort
import A2ARegistry.Auth.Jwt
import A2ARegistry.Base.Table
import A2ARegistry.Orchestration.Store.Listing

namespace A2ARegistry.Security
open Base Orchestration Auth

/-- A row of `delegation_tokens`. -/
structure DelegationRow where
  jti : String
  taskId : String
  sub : String
  originAgent : String
  scope : String
  depth : Int
  expiresAt : Int
  usedAt : Option Rat
  createdAt : Rat
deriving DecidableEq, Repr

instance : Keyed String DelegationRow := ⟨DelegationRow.jti⟩

@[simp] theorem key_delegation (r : DelegationRow) : key r = r.jti := rfl

/-- The table of the tokens that were persisted. -/
abbrev DelegationTokens := Table DelegationRow

/-- `DelegatedTaskToken`. -/
structure DelegatedTaskToken where
  jti : String
  iss : String := issuer
  sub : String
  iat : Rat
  exp : Rat
  originAgent : String
  originTenant : String
  delegationChain : List Json
  effectiveScope : String
  attenuatedFrom : String
  maxDepth : Int
  depth : Int
  allowedCallees : Option (List String)
  taskId : String

/-- `DelegatedTokenManager`, with the `repr` of a float. -/
structure Dtm where
  engine : Engine
  crypto : Crypto
  privateKey : String
  publicKey : String
  defaultTtl : Int := 300
  maxDepth : Int := 10
  floatRepr : Rat → String

section Mint

/-- A scope restriction, by the first key of it that `attenuate_scope` knows. -/
inductive Restriction
  | exclude (scopes : List String)
  | reduceTo (scopes : List String)
  | map (mapping : List (String × String))
  | unknown
deriving DecidableEq, Repr

/-- The scopes that a restriction leaves of a set. -/
def Restriction.apply (parents : List String) : Restriction → List String
  | .exclude scopes => parents.filter (fun s => !scopes.contains s)
  | .reduceTo scopes => parents.filter (fun s => scopes.contains s)
  | .map mapping => (parents.map (fun s =>
      let mapped := (mapping.lookup s).getD s
      if parents.contains mapped then mapped else s)).dedup
  | .unknown => parents

/-- `attenuate_scope`; `none` when nothing is left and it raises. -/
def attenuateScope (parentScope : String) : Option Restriction → Option String
  | none => some parentScope
  | some restriction =>
    let attenuated := joinBy " " ((restriction.apply (words parentScope).dedup).insertionSort (· ≤ ·))
    if attenuated = "" then none else some attenuated

/-- The arguments of `mint_delegation_token`. -/
structure MintArgs where
  sub : String
  taskId : String
  originAgent : String
  originTenant : String := ""
  effectiveScope : String
  parentChain : List Json := []
  parentScope : String := ""
  restriction : Option Restriction := none
  depth : Int := 0
  maxDepth : Option Int := none
  ttl : Option Int := none
  allowedCallees : Option (List String) := none

/-- `mint_delegation_token`; `jti` is what `uuid4` yields. Nothing is stored. -/
def mintDelegationToken (dtm : Dtm) (now : Rat) (jti : String) (args : MintArgs) : Option DelegatedTaskToken :=
  (attenuateScope args.effectiveScope args.restriction).map (fun attenuated => {
    jti := jti
    sub := args.sub
    iat := now
    exp := now + args.ttl.getD dtm.defaultTtl
    originAgent := args.originAgent
    originTenant := args.originTenant
    delegationChain := args.parentChain ++ [.obj [("agent", .str args.sub), ("action", .str "delegate"),
      ("scope", .str args.effectiveScope), ("timestamp", .float (dtm.floatRepr now))]]
    effectiveScope := attenuated
    attenuatedFrom := if args.parentScope = "" then args.effectiveScope else args.parentScope
    maxDepth := args.maxDepth.getD dtm.maxDepth
    depth := args.depth
    allowedCallees := args.allowedCallees
    taskId := args.taskId })

/-- The texts in a set that is made of a value; `none` when that raises. Nothing else in it is a scope. -/
def setOf (value : Json) : Option (List String) :=
  value.iterate.bind (fun items =>
    if items.all Json.isLeaf then
      some (items.filterMap (fun item => match item with | .str s => some s | _ => none))
    else none)

/-- What `attenuate_scope` makes of a restriction that is not empty, for the scopes of the parent; `none`
when it raises on it. A mapping is looked at for these scopes alone. -/
def readRestriction (parents : List String) (fields : List (String × Json)) : Option Restriction :=
  if fields.any (fun f => f.1 == "exclude") then (setOf (Json.field fields "exclude")).map .exclude
  else if fields.any (fun f => f.1 == "reduce_to") then (setOf (Json.field fields "reduce_to")).map .reduceTo
  else if fields.any (fun f => f.1 == "map") then
    match Json.field fields "map" with
    | .obj mapping =>
      if parents.all (fun s => (Json.field mapping s).isLeaf) then
        some (.map (parents.filterMap (fun s => match Json.field mapping s with
          | .str t => some (s, t)
          | _ => none)))
      else none
    | _ => if parents.isEmpty then some (.map []) else none
  else some .unknown

/-- `mint_delegation_token`, with the restriction as the dict it is. -/
def mintRestricted (dtm : Dtm) (now : Rat) (jti : String) (args : MintArgs)
    (restriction : Option (List (String × Json))) : Option DelegatedTaskToken :=
  match restriction with
  | none | some [] => mintDelegationToken dtm now jti { args with restriction := none }
  | some fields => (readRestriction (words args.effectiveScope).dedup fields).bind (fun restriction =>
      mintDelegationToken dtm now jti { args with restriction := some restriction })

/-- `to_jwt_payload`. -/
def DelegatedTaskToken.toJwtPayload (dtm : Dtm) (token : DelegatedTaskToken) : Payload :=
  [("jti", .str token.jti), ("iss", .str token.iss), ("sub", .str token.sub),
    ("iat", .float (dtm.floatRepr token.iat)), ("exp", .float (dtm.floatRepr token.exp)),
    ("origin_agent", .str token.originAgent), ("origin_tenant", .str token.originTenant),
    ("delegation_chain", .arr token.delegationChain), ("effective_scope", .str token.effectiveScope),
    ("attenuated_from", .str token.attenuatedFrom), ("max_depth", .int token.maxDepth),
    ("depth", .int token.depth),
    ("allowed_callees", match token.allowedCallees with | none => .null | some names => .arr (names.map .str)),
    ("task_id", .str token.taskId)]

/-- `to_jwt`. -/
def DelegatedTaskToken.toJwt (dtm : Dtm) (token : DelegatedTaskToken) : String :=
  rsaSignJwt dtm.crypto (token.toJwtPayload dtm) dtm.privateKey

end Mint

/-- The row `persist_token_hash` inserts. -/
def DelegatedTaskToken.row (token : DelegatedTaskToken) (now : Rat) : DelegationRow where
  jti := token.jti
  taskId := token.taskId
  sub := token.sub
  originAgent := token.originAgent
  scope := token.effectiveScope
  depth := token.depth
  expiresAt := truncate token.exp
  usedAt := none
  createdAt := now

/-- `persist_token_hash`: a token that is stored already is ignored. A task that is not there, where
the foreign key is enforced, makes it raise. -/
def persistTokenHash (tokens : DelegationTokens) (now : Rat) (token : DelegatedTaskToken) (referenced : Bool) :
    DelegationTokens :=
  if referenced then (tokens.insert? (token.row now)).getD tokens else tokens

/-- What `verify_delegation_token` raises: an error of the harness, or another one. -/
inductive TokenError
  | invalid (message : String)
  | expired (message : String)
  | taskMismatch (message : String)
  | subjectMismatch (message : String)
  | replay (message : String)
  | other
deriving DecidableEq, Repr

/-- `str(e)`, of an error of the harness. -/
def TokenError.message : TokenError → Option String
  | .invalid m | .expired m | .taskMismatch m | .subjectMismatch m | .replay m => some m
  | .other => none

section Verify

variable (dtm : Dtm) (tokens : DelegationTokens) (now : Rat) (tokenStr taskId agentId : String)

/-- `exp < time.time()`; `none` when the comparison raises. -/
def before : Json → Option Bool
  | .bool b => some (decide ((if b then 1 else 0 : Rat) < now))
  | .int n => some (decide ((n : Rat) < now))
  | .float r => some (dtm.crypto.exceeds now r)
  | _ => none

/-- The first part of `from_jwt`: the expiry of a token that decodes, if it is over. -/
def expiredClaim : Option Json :=
  match tokenStr.toList.splitOn '.' with
  | [_, payloadB64, _] => (readSegment dtm.crypto payloadB64).bind (fun payload =>
      let exp := Json.get payload "exp" (.int 0)
      if dtm.crypto.expired now exp = some true then some exp else none)
  | _ => none

/-- `from_jwt`. -/
def fromJwt : Except TokenError Payload :=
  match expiredClaim dtm now tokenStr with
  | some exp => .error (.expired s!"Delegation token expired (exp={Json.strOf dtm.crypto.toPython exp})")
  | none => match rsaVerifyJwt dtm.crypto now tokenStr dtm.publicKey none issuer with
    | none => .error (.invalid "Invalid or malformed delegation token")
    | some payload => .ok payload

/-- The checks on the claims of a full JWT, up to the replay check; the result is its `jti`. -/
def checkClaims (payload : Payload) : Except TokenError (Option String) :=
  let p := dtm.crypto.toPython
  let exp := Json.get payload "exp" (.float "0.0")
  let boundTask := Json.get payload "task_id" (.str "")
  let sub := Json.get payload "sub" (.str "")
  match before dtm now exp with
  | none => .error .other
  | some true => .error (.expired s!"Delegation token expired (exp={Json.strOf p exp})")
  | some false =>
    if !boundTask.isWord [taskId] then
      .error (.taskMismatch s!"Token bound to task '{Json.strOf p boundTask}', expected '{taskId}'")
    else if sub.truthy && !sub.isWord [agentId] then
      .error (.subjectMismatch s!"Token sub='{Json.strOf p sub}', claiming agent='{agentId}'")
    else match dtm.engine.bind (Json.get payload "jti" (.str "")) with
      | none => .error .other
      | some jti => .ok jti

/-- The checks on a stored row, up to the replay check. -/
def checkRow (row : DelegationRow) : Except TokenError (Option String) :=
  if (row.expiresAt : Rat) < now then
    .error (.expired s!"Delegation token expired (exp={row.expiresAt})")
  else if row.taskId ≠ taskId then
    .error (.taskMismatch s!"Token bound to task '{row.taskId}', expected '{taskId}'")
  else if row.sub ≠ "" ∧ row.sub ≠ agentId then
    .error (.subjectMismatch s!"Token sub='{row.sub}', claiming agent='{agentId}'")
  else .ok (some row.jti)

/-- The checks of `verify_delegation_token` up to the replay check. A token without a dot is looked up
as a `jti`, and any other is verified as a JWT. -/
def checkToken : Except TokenError (Option String) :=
  if '.' ∉ tokenStr.toList then
    match tokens.find? tokenStr with
    | none => .error (.invalid s!"Delegation token jti='{tokenStr}' not found")
    | some row => checkRow now taskId agentId row
  else match fromJwt dtm now tokenStr with
    | .error e => .error e
    | .ok payload => checkClaims dtm now taskId agentId payload

/-- A token is stored. -/
def isStored : Option String → Bool
  | none => false
  | some jti => (tokens.find? jti).isSome

/-- A token is stored, and marked as used. -/
def isUsed : Option String → Bool
  | none => false
  | some jti => (tokens.find? jti).any (fun row => row.usedAt.isSome)

/-- `UPDATE ... SET used_at=? WHERE jti=? AND used_at IS NULL`. -/
def markUsed : Option String → DelegationTokens
  | none => tokens
  | some jti => tokens.modify (fun row => row.jti == jti && row.usedAt.isNone)
      (fun row => { row with usedAt := some now })

/-- `verify_delegation_token`; of the token it returns, the `jti`. -/
def verifyDelegationToken (consume : Bool) : Except TokenError (Option String) × DelegationTokens :=
  match checkToken dtm tokens now tokenStr taskId agentId with
  | .error e => (.error e, tokens)
  | .ok jti =>
    if isUsed tokens jti then
      let shown := jti.getD "None"
      (.error (.replay s!"Delegation token jti='{shown}' already used"), tokens)
    else (.ok jti, if consume then markUsed tokens now jti else tokens)

end Verify

section Marks

variable {tokens : DelegationTokens} {now : Rat}

/-- Storing a token marks nothing. -/
@[simp] theorem isUsed_persistTokenHash (token : DelegatedTaskToken) (referenced : Bool) (jti : Option String) :
    isUsed (persistTokenHash tokens now token referenced) jti = isUsed tokens jti := by
  unfold persistTokenHash
  cases hi : tokens.insert? (token.row now) with
  | none => simp
  | some tokens' =>
    cases referenced with
    | false => rfl
    | true =>
      cases jti with
      | none => rfl
      | some jti =>
        obtain ⟨hnew, _⟩ := Table.insert_some hi
        simp only [isUsed, if_true, Option.getD_some, Table.find_insert hi]
        split
        · rename_i hk
          subst hk
          rw [hnew]
          rfl
        · rfl

/-- Marking a token marks the one that is stored, if there is one. -/
theorem isUsed_markUsed (used jti : Option String) :
    isUsed (markUsed tokens now used) jti = true ↔
      isUsed tokens jti = true ∨ jti = used ∧ isStored tokens used = true := by
  cases used with
  | none => simp [markUsed, isStored]
  | some used =>
    cases jti with
    | none => simp [isUsed]
    | some jti =>
      simp only [isUsed, markUsed, isStored, Table.find_modify, Option.some.injEq]
      cases hf : tokens.find? jti with
      | none =>
        have hother : ¬ (jti = used ∧ (tokens.find? used).isSome = true) := by
          rintro ⟨rfl, hs⟩
          simp [hf] at hs
        simp [hother]
      | some row =>
        have hkey : row.jti = jti := Table.find_key hf
        by_cases hk : jti = used
        · subst hk
          cases hu : row.usedAt <;> simp [hf, hkey, hu]
        · have hne : ¬ row.jti = used := hkey ▸ hk
          simp [hk, hne]

/-- A verification succeeds exactly when the token passes the checks and is not marked. -/
theorem verifyDelegationToken_ok {dtm : Dtm} {tokenStr taskId agentId : String} (consume : Bool)
    {jti : Option String} :
    (verifyDelegationToken dtm tokens now tokenStr taskId agentId consume).1 = .ok jti ↔
      checkToken dtm tokens now tokenStr taskId agentId = .ok jti ∧ isUsed tokens jti = false := by
  unfold verifyDelegationToken
  cases hc : checkToken dtm tokens now tokenStr taskId agentId with
  | error e => simp
  | ok jti' =>
    cases hu : isUsed tokens jti' with
    | true =>
      have hne : ¬ (jti' = jti ∧ isUsed tokens jti = false) := by
        rintro ⟨rfl, hn⟩
        simp [hu] at hn
      simpa [hu] using hne
    | false =>
      constructor
      · intro h
        obtain rfl : jti' = jti := by simpa [hu] using h
        exact ⟨rfl, hu⟩
      · rintro ⟨h, _⟩
        simpa [hu] using h

/-- Where it fails, the table is left alone. -/
theorem verifyDelegationToken_error {dtm : Dtm} {tokenStr taskId agentId : String} {consume : Bool}
    {e : TokenError}
    (h : (verifyDelegationToken dtm tokens now tokenStr taskId agentId consume).1 = .error e) :
    (verifyDelegationToken dtm tokens now tokenStr taskId agentId consume).2 = tokens := by
  unfold verifyDelegationToken at h ⊢
  cases hc : checkToken dtm tokens now tokenStr taskId agentId with
  | error e => rfl
  | ok jti =>
    cases hu : isUsed tokens jti with
    | true => simp [hu]
    | false => simp [hc, hu] at h

/-- Where it succeeds, the token is marked if it is to be consumed. -/
theorem verifyDelegationToken_tokens {dtm : Dtm} {tokenStr taskId agentId : String} {consume : Bool}
    {jti : Option String}
    (h : (verifyDelegationToken dtm tokens now tokenStr taskId agentId consume).1 = .ok jti) :
    (verifyDelegationToken dtm tokens now tokenStr taskId agentId consume).2 =
      if consume then markUsed tokens now jti else tokens := by
  obtain ⟨hc, hu⟩ := (verifyDelegationToken_ok consume).mp h
  simp [verifyDelegationToken, hc, hu]

end Marks

end A2ARegistry.Security
