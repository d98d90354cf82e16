import A2ARegistry.Registry.Store
import A2ARegistry.Registry.Validation

namespace A2ARegistry.Registry
open Base Orchestration

/-- The fields of a dataclass, with their defaults. A value of one is kept as `to_dict` writes it. -/
abbrev Dataclass := List (String × Json)

namespace Dataclass

/-- `cls(**data)`: a key that is no field raises, and a field that is not given has its default. -/
def build (cls : Dataclass) (data : List (String × Json)) : Except Raised Json :=
  if data.all (fun f => (cls.map Prod.fst).contains f.1) then
    .ok (.obj (toDict (cls.map (fun field => (field.1, Json.get data field.1 field.2)))))
  else .error .typeError

/-- `cls(**data) if isinstance(data, dict) else None`. -/
def buildDict (cls : Dataclass) : Json → Except Raised Json
  | .obj data => cls.build data
  | _ => .ok .null

end Dataclass

def agentProvider : Dataclass := [("url", .str ""), ("organization", .str "")]

def apiKeySecurityScheme : Dataclass := [("name", .str ""), ("key_format", .null)]

def httpAuthSecurityScheme : Dataclass := [("scheme", .str "")]

def openIdConnectSecurityScheme : Dataclass := [("issuer_url", .str ""), ("discovery_url", .null)]

def mutualTlsSecurityScheme : Dataclass := [("certificate_authority", .null), ("certificate_requirements", .null)]

def authorizationCodeOAuthFlow : Dataclass :=
  [("authorization_url", .str ""), ("token_url", .str ""), ("refresh_url", .null), ("scopes", .obj [])]

def clientCredentialsOAuthFlow : Dataclass := [("token_url", .str ""), ("refresh_url", .null), ("scopes", .obj [])]

def deviceCodeOAuthFlow : Dataclass :=
  [("device_authorization_url", .str ""), ("token_url", .str ""), ("scopes", .obj [])]

def implicitOAuthFlow : Dataclass := [("authorization_url", .str ""), ("refresh_url", .null), ("scopes", .obj [])]

def passwordOAuthFlow : Dataclass := [("token_url", .str ""), ("refresh_url", .null), ("scopes", .obj [])]

/-- `d.get` is there for an object only. -/
def asDict : Json → Except Raised (List (String × Json))
  | .obj d => .ok d
  | _ => .error .attributeError

/-- `[convert(item) for item in items]`. -/
def convertEach (convert : Json → Except Raised Json) (items : Json) : Except Raised Json :=
  match items.iterate with
  | some items => do return .arr (← items.mapM convert)
  | none => .error .typeError

/-- `items or []`. -/
def orEmpty (items : Json) : Json := if items.truthy then items else .arr []

def dictToSecurityRequirement (d : Json) : Except Raised Json := do
  let d ← asDict d
  return .obj (toDict [("schemes", Json.get d "schemes" (.obj []))])

def dictListToSecurityRequirements : Json → Except Raised Json
  | .null => .ok .null
  | items => convertEach dictToSecurityRequirement items

def dictToSkill (d : Json) : Except Raised Json := do
  let d ← asDict d
  let securityRequirements ← dictListToSecurityRequirements (Json.field d "security_requirements")
  return .obj (toDict [("id", Json.get d "id" (.str "")), ("name", Json.get d "name" (.str "")),
    ("description", Json.get d "description" (.str "")), ("tags", Json.get d "tags" (.arr [])),
    ("examples", Json.field d "examples"), ("input_modes", Json.field d "input_modes"),
    ("output_modes", Json.field d "output_modes"), ("security_requirements", securityRequirements),
    ("uri_schemes", Json.get d "uri_schemes" (.arr [])), ("input_schema", Json.field d "input_schema"),
    ("output_schema", Json.field d "output_schema")])

def dictToInterface (d : Json) : Except Raised Json := do
  let d ← asDict d
  return .obj (toDict [("url", Json.get d "url" (.str "")),
    ("protocol_binding", Json.get d "protocol_binding" (.str "JSONRPC")),
    ("protocol_version", Json.get d "protocol_version" (.str "1.0")), ("tenant", Json.field d "tenant")])

def dictToExtension (ex : Json) : Except Raised Json := do
  let ex ← asDict ex
  return .obj (toDict [("name", Json.get ex "name" (.str "")), ("url", Json.get ex "url" (.str "")),
    ("required", Json.field ex "required"), ("properties", Json.field ex "properties")])

def dictToExtensions : Json → Except Raised Json
  | .null => .ok .null
  | extensions => convertEach dictToExtension extensions

def dictToCapabilities (d : List (String × Json)) : Except Raised Json := do
  let extensions ← dictToExtensions (Json.field d "extensions")
  return .obj (toDict [("streaming", Json.field d "streaming"),
    ("push_notifications", Json.field d "push_notifications"), ("extensions", extensions),
    ("extended_agent_card", Json.field d "extended_agent_card")])

/-- Capabilities that are no object are left at their defaults. -/
def readCapabilities : Json → Except Raised Json
  | .obj caps => dictToCapabilities caps
  | _ => .ok (.obj [])

def dictToOauthFlows (d : Json) : Except Raised Json := do
  let d ← asDict d
  let authorizationCode ← authorizationCodeOAuthFlow.buildDict (Json.field d "authorization_code")
  let clientCredentials ← clientCredentialsOAuthFlow.buildDict (Json.field d "client_credentials")
  let deviceCode ← deviceCodeOAuthFlow.buildDict (Json.field d "device_code")
  let implicit ← implicitOAuthFlow.buildDict (Json.field d "implicit")
  let password ← passwordOAuthFlow.buildDict (Json.field d "password")
  return .obj (toDict [("authorization_code", authorizationCode), ("client_credentials", clientCredentials),
    ("device_code", deviceCode), ("implicit", implicit), ("password", password)])

def readFlows (flows : Json) : Except Raised Json := if flows.truthy then dictToOauthFlows flows else .ok .null

def dictToOauth2 : Json → Except Raised Json
  | .obj o2 => do
    let flows ← readFlows (Json.field o2 "flows")
    return .obj (toDict [("flows", flows), ("oauth2_metadata_url", Json.field o2 "oauth2_metadata_url")])
  | _ => .ok .null

/-- The part of a scheme its type stands for; the other four are left `None`. -/
def schemePart (d : List (String × Json)) : Json → Except Raised (List (String × Json))
  | .str "apiKey" => do return [("api_key", ← apiKeySecurityScheme.buildDict (Json.field d "api_key"))]
  | .str "http" => do return [("http_auth", ← httpAuthSecurityScheme.buildDict (Json.field d "http_auth"))]
  | .str "oauth2" => do return [("oauth2", ← dictToOauth2 (Json.field d "oauth2"))]
  | .str "openIdConnect" => do
    return [("open_id_connect", ← openIdConnectSecurityScheme.buildDict (Json.field d "open_id_connect"))]
  | .str "mutualTls" => do return [("mtls", ← mutualTlsSecurityScheme.buildDict (Json.field d "mtls"))]
  | _ => .ok []

def dictToSingleSecurityScheme (d : Json) : Except Raised Json := do
  let d ← asDict d
  let schemeType := Json.get d "scheme_type" (.str "")
  let part ← schemePart d schemeType
  return .obj (toDict ([("scheme_type", schemeType), ("description", Json.field d "description")] ++ part))

def dictToSecuritySchemes (d : Json) : Except Raised Json :=
  if d.truthy then do
    let d ← asDict d
    return .obj (← d.mapM (fun (name, sc) => do return (name, ← dictToSingleSecurityScheme sc)))
  else .ok (.obj [])

def dictToSignature (d : Json) : Except Raised Json := do
  let d ← asDict d
  return .obj (toDict [("alg", Json.get d "alg" (.str "")), ("signature", Json.get d "signature" (.str "")),
    ("key_url", Json.get d "key_url" (.str "")), ("kid", Json.field d "kid")])

/-- The skills of the card, or else those in its capabilities, as they were in v0.x. -/
def skillsRaw (d : List (String × Json)) : Json :=
  match Json.field d "skills" with
  | .null =>
    match Json.get d "capabilities" (.obj []) with
    | .obj caps => Json.field caps "skills"
    | _ => .null
  | skills => skills

/-- `AgentCard.from_dict`. -/
def AgentCard.fromDict (d : Json) : Except Raised AgentCard := do
  let d ← asDict d
  let interfaces ← convertEach dictToInterface (orEmpty (Json.field d "supported_interfaces"))
  let skills ← convertEach dictToSkill (orEmpty (skillsRaw d))
  let capabilities ← readCapabilities (Json.get d "capabilities" (.obj []))
  let provider ← agentProvider.buildDict (Json.field d "provider")
  let signatures ← convertEach dictToSignature (orEmpty (Json.field d "signatures"))
  let securitySchemes ← dictToSecuritySchemes (Json.field d "security_schemes")
  let securityRequirements ← dictListToSecurityRequirements (Json.field d "security_requirements")
  return {
    name := Json.get d "name" (.str "")
    description := Json.get d "description" (.str "")
    supportedInterfaces := interfaces
    provider := provider
    version := Json.get d "version" (.str "1.0.0")
    documentationUrl := Json.field d "documentation_url"
    capabilities := capabilities
    securitySchemes := securitySchemes
    securityRequirements := orEmpty securityRequirements
    defaultInputModes := Json.get d "default_input_modes" (.arr [.str "text/plain"])
    defaultOutputModes := Json.get d "default_output_modes" (.arr [.str "text/plain"])
    skills := skills
    signatures := signatures
    iconUrl := Json.field d "icon_url" }

end A2ARegistry.Registry
