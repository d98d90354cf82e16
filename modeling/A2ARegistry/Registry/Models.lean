import A2ARegistry.Base.Records
import A2ARegistry.Registry.Cards

namespace A2ARegistry.Registry.Models
open Base

section Classes

/-- `AgentInterface`, with the defaults of `_dict_to_interface`. -/
def agentInterface : RecordClass where
  fields := [("url", .str ""), ("protocol_binding", .str "JSONRPC"), ("protocol_version", .str "1.0"), ("tenant", .null)]
  types := [.text, .text, .text, .optional .text]
  defaults := by simp [FieldType.nullable]

def agentExtension : RecordClass where
  fields := [("name", .str ""), ("url", .str ""), ("required", .null), ("properties", .null)]
  types := [.text, .text, .optional .flag, .optional (.dict .anything)]
  defaults := by simp [FieldType.nullable]

def securityRequirement : RecordClass where
  fields := [("schemes", .obj [])]
  types := [.dict (.list .text)]
  defaults := by simp [FieldType.nullable]

def agentCardSignature : RecordClass where
  fields := [("alg", .str ""), ("signature", .str ""), ("key_url", .str ""), ("kid", .null)]
  types := [.text, .text, .text, .optional .text]
  defaults := by simp [FieldType.nullable]

def agentProvider : RecordClass where
  fields := Registry.agentProvider
  types := [.text, .text]
  defaults := by simp [FieldType.nullable, Registry.agentProvider]

def apiKeySecurityScheme : RecordClass where
  fields := Registry.apiKeySecurityScheme
  types := [.text, .optional .text]
  defaults := by simp [FieldType.nullable, Registry.apiKeySecurityScheme]

def httpAuthSecurityScheme : RecordClass where
  fields := Registry.httpAuthSecurityScheme
  types := [.text]
  defaults := by simp [FieldType.nullable, Registry.httpAuthSecurityScheme]

def openIdConnectSecurityScheme : RecordClass where
  fields := Registry.openIdConnectSecurityScheme
  types := [.text, .optional .text]
  defaults := by simp [FieldType.nullable, Registry.openIdConnectSecurityScheme]

def mutualTlsSecurityScheme : RecordClass where
  fields := Registry.mutualTlsSecurityScheme
  types := [.optional .text, .optional (.list .text)]
  defaults := by simp [Registry.mutualTlsSecurityScheme]

def authorizationCodeOAuthFlow : RecordClass where
  fields := Registry.authorizationCodeOAuthFlow
  types := [.text, .text, .optional .text, .dict .text]
  defaults := by simp [FieldType.nullable, Registry.authorizationCodeOAuthFlow]

def clientCredentialsOAuthFlow : RecordClass where
  fields := Registry.clientCredentialsOAuthFlow
  types := [.text, .optional .text, .dict .text]
  defaults := by simp [FieldType.nullable, Registry.clientCredentialsOAuthFlow]

def deviceCodeOAuthFlow : RecordClass where
  fields := Registry.deviceCodeOAuthFlow
  types := [.text, .text, .dict .text]
  defaults := by simp [FieldType.nullable, Registry.deviceCodeOAuthFlow]

def implicitOAuthFlow : RecordClass where
  fields := Registry.implicitOAuthFlow
  types := [.text, .optional .text, .dict .text]
  defaults := by simp [FieldType.nullable, Registry.implicitOAuthFlow]

def passwordOAuthFlow : RecordClass where
  fields := Registry.passwordOAuthFlow
  types := [.text, .optional .text, .dict .text]
  defaults := by simp [FieldType.nullable, Registry.passwordOAuthFlow]

end Classes

section Records

abbrev AgentInterface := Record agentInterface
abbrev AgentExtension := Record agentExtension
abbrev SecurityRequirement := Record securityRequirement
abbrev AgentCardSignature := Record agentCardSignature
abbrev AgentProvider := Record agentProvider
abbrev APIKeySecurityScheme := Record apiKeySecurityScheme
abbrev HTTPAuthSecurityScheme := Record httpAuthSecurityScheme
abbrev OpenIdConnectSecurityScheme := Record openIdConnectSecurityScheme
abbrev MutualTlsSecurityScheme := Record mutualTlsSecurityScheme
abbrev AuthorizationCodeOAuthFlow := Record authorizationCodeOAuthFlow
abbrev ClientCredentialsOAuthFlow := Record clientCredentialsOAuthFlow
abbrev DeviceCodeOAuthFlow := Record deviceCodeOAuthFlow
abbrev ImplicitOAuthFlow := Record implicitOAuthFlow
abbrev PasswordOAuthFlow := Record passwordOAuthFlow

structure AgentCapabilities where
  streaming : Json := .null
  pushNotifications : Json := .null
  extensions : Option (List AgentExtension) := none
  extendedAgentCard : Json := .null

structure AgentSkill where
  id : Json
  name : Json
  description : Json
  tags : Json := .arr []
  examples : Json := .null
  inputModes : Json := .null
  outputModes : Json := .null
  securityRequirements : Option (List SecurityRequirement) := none
  uriSchemes : Json := .arr []
  inputSchema : Json := .null
  outputSchema : Json := .null

structure OAuthFlows where
  authorizationCode : Option AuthorizationCodeOAuthFlow := none
  clientCredentials : Option ClientCredentialsOAuthFlow := none
  deviceCode : Option DeviceCodeOAuthFlow := none
  implicit : Option ImplicitOAuthFlow := none
  password : Option PasswordOAuthFlow := none

structure OAuth2SecurityScheme where
  flows : Option OAuthFlows := none
  oauth2MetadataUrl : Json := .null

structure SecurityScheme where
  schemeType : Json
  description : Json := .null
  apiKey : Option APIKeySecurityScheme := none
  httpAuth : Option HTTPAuthSecurityScheme := none
  oauth2 : Option OAuth2SecurityScheme := none
  openIdConnect : Option OpenIdConnectSecurityScheme := none
  mtls : Option MutualTlsSecurityScheme := none

/-- `AgentCard`. A dict of schemes is the list of its items. -/
structure AgentCard where
  name : Json
  description : Json
  supportedInterfaces : List AgentInterface := []
  provider : Option AgentProvider := none
  version : Json := .str "1.0.0"
  documentationUrl : Json := .null
  capabilities : AgentCapabilities := {}
  securitySchemes : List (String × SecurityScheme) := []
  securityRequirements : List SecurityRequirement := []
  defaultInputModes : Json := .arr [.str "text/plain"]
  defaultOutputModes : Json := .arr [.str "text/plain"]
  skills : List AgentSkill := []
  signatures : List AgentCardSignature := []
  iconUrl : Json := .null

end Records

section Encoder

/-- A nested value, null if there is none. -/
def nested {α : Type} (encode : α → Json) (value : Option α) : Json := (value.map encode).getD .null

/-- A list of nested values. -/
def each {α : Type} (encode : α → Json) (values : List α) : Json := .arr (values.map encode)

/-- `_dataclass_to_dict`, of each class. -/
def AgentCapabilities.toJson (c : AgentCapabilities) : Json :=
  .obj (written [("streaming", c.streaming), ("push_notifications", c.pushNotifications),
    ("extensions", nested (each Record.toJson) c.extensions), ("extended_agent_card", c.extendedAgentCard)])

def AgentSkill.toJson (s : AgentSkill) : Json :=
  .obj (written [("id", s.id), ("name", s.name), ("description", s.description), ("tags", s.tags),
    ("examples", s.examples), ("input_modes", s.inputModes), ("output_modes", s.outputModes),
    ("security_requirements", nested (each Record.toJson) s.securityRequirements), ("uri_schemes", s.uriSchemes),
    ("input_schema", s.inputSchema), ("output_schema", s.outputSchema)])

def OAuthFlows.toJson (f : OAuthFlows) : Json :=
  .obj (written [("authorization_code", nested Record.toJson f.authorizationCode),
    ("client_credentials", nested Record.toJson f.clientCredentials),
    ("device_code", nested Record.toJson f.deviceCode), ("implicit", nested Record.toJson f.implicit),
    ("password", nested Record.toJson f.password)])

def OAuth2SecurityScheme.toJson (o : OAuth2SecurityScheme) : Json :=
  .obj (written [("flows", nested OAuthFlows.toJson o.flows), ("oauth2_metadata_url", o.oauth2MetadataUrl)])

def SecurityScheme.toJson (s : SecurityScheme) : Json :=
  .obj (written [("scheme_type", s.schemeType), ("description", s.description),
    ("api_key", nested Record.toJson s.apiKey), ("http_auth", nested Record.toJson s.httpAuth),
    ("oauth2", nested OAuth2SecurityScheme.toJson s.oauth2),
    ("open_id_connect", nested Record.toJson s.openIdConnect), ("mtls", nested Record.toJson s.mtls)])

/-- `to_dict`. -/
def AgentCard.toJson (card : AgentCard) : Json :=
  .obj (written [("name", card.name), ("description", card.description),
    ("supported_interfaces", each Record.toJson card.supportedInterfaces),
    ("provider", nested Record.toJson card.provider), ("version", card.version),
    ("documentation_url", card.documentationUrl), ("capabilities", card.capabilities.toJson),
    ("security_schemes", .obj (card.securitySchemes.map (fun s => (s.1, s.2.toJson)))),
    ("security_requirements", each Record.toJson card.securityRequirements),
    ("default_input_modes", card.defaultInputModes), ("default_output_modes", card.defaultOutputModes),
    ("skills", each AgentSkill.toJson card.skills), ("signatures", each Record.toJson card.signatures),
    ("icon_url", card.iconUrl)])

end Encoder

section Decoder

/-- `cls(**data)`: a key that is no field raises. -/
def build (cls : RecordClass) (data : List (String × Json)) : Except Raised (Record cls) :=
  if data.all (fun f => (cls.fields.map Prod.fst).contains f.1) then .ok (Record.read cls data) else .error .typeError

/-- `cls(**data) if isinstance(data, dict) else None`. -/
def buildDict (cls : RecordClass) : Json → Except Raised (Option (Record cls))
  | .obj data => (build cls data).map some
  | _ => .ok none

/-- A record out of the fields that `d.get` finds. -/
def readDict (cls : RecordClass) (d : Json) : Except Raised (Record cls) := do
  return Record.read cls (← asDict d)

/-- `[convert(item) for item in items]`. -/
def convertEach {α : Type} (convert : Json → Except Raised α) (items : Json) : Except Raised (List α) :=
  match items.iterate with
  | some items => items.mapM convert
  | none => .error .typeError

def dictToSecurityRequirement : Json → Except Raised SecurityRequirement := readDict securityRequirement

def dictListToSecurityRequirements : Json → Except Raised (Option (List SecurityRequirement))
  | .null => .ok none
  | items => (convertEach dictToSecurityRequirement items).map some

def dictToSkill (d : Json) : Except Raised AgentSkill := do
  let d ← asDict d
  let securityRequirements ← dictListToSecurityRequirements (Json.field d "security_requirements")
  return {
    id := Json.get d "id" (.str "")
    name := Json.get d "name" (.str "")
    description := Json.get d "description" (.str "")
    tags := Json.get d "tags" (.arr [])
    uriSchemes := Json.get d "uri_schemes" (.arr [])
    examples := Json.field d "examples"
    inputModes := Json.field d "input_modes"
    outputModes := Json.field d "output_modes"
    securityRequirements := securityRequirements
    inputSchema := Json.field d "input_schema"
    outputSchema := Json.field d "output_schema" }

def dictToInterface : Json → Except Raised AgentInterface := readDict agentInterface

def dictToExtension : Json → Except Raised AgentExtension := readDict agentExtension

def dictToExtensions : Json → Except Raised (Option (List AgentExtension))
  | .null => .ok none
  | extensions => (convertEach dictToExtension extensions).map some

def dictToCapabilities (d : List (String × Json)) : Except Raised AgentCapabilities := do
  let extensions ← dictToExtensions (Json.field d "extensions")
  return {
    streaming := Json.field d "streaming"
    pushNotifications := Json.field d "push_notifications"
    extensions := extensions
    extendedAgentCard := Json.field d "extended_agent_card" }

/-- Capabilities that are no object are left at their defaults. -/
def readCapabilities : Json → Except Raised AgentCapabilities
  | .obj caps => dictToCapabilities caps
  | _ => .ok {}

def dictToOauthFlows (d : Json) : Except Raised OAuthFlows := do
  let d ← asDict d
  let authorizationCode ← buildDict authorizationCodeOAuthFlow (Json.field d "authorization_code")
  let clientCredentials ← buildDict clientCredentialsOAuthFlow (Json.field d "client_credentials")
  let deviceCode ← buildDict deviceCodeOAuthFlow (Json.field d "device_code")
  let implicit ← buildDict implicitOAuthFlow (Json.field d "implicit")
  let password ← buildDict passwordOAuthFlow (Json.field d "password")
  return ⟨authorizationCode, clientCredentials, deviceCode, implicit, password⟩

/-- `_dict_to_oauth_flows(flows) if flows else None`. -/
def readFlows (flows : Json) : Except Raised (Option OAuthFlows) :=
  if flows.truthy then (dictToOauthFlows flows).map some else .ok none

def dictToOauth2 : Json → Except Raised (Option OAuth2SecurityScheme)
  | .obj o2 => do
    let flows ← readFlows (Json.field o2 "flows")
    return some ⟨flows, Json.field o2 "oauth2_metadata_url"⟩
  | _ => .ok none

/-- A scheme of a type, with the part of it that the type stands for. -/
def dictToSingleSecurityScheme (d : Json) : Except Raised SecurityScheme := do
  let d ← asDict d
  let scheme : SecurityScheme := {
    schemeType := Json.get d "scheme_type" (.str "")
    description := Json.field d "description" }
  match scheme.schemeType with
  | .str "apiKey" => return { scheme with apiKey := ← buildDict apiKeySecurityScheme (Json.field d "api_key") }
  | .str "http" => return { scheme with httpAuth := ← buildDict httpAuthSecurityScheme (Json.field d "http_auth") }
  | .str "oauth2" => return { scheme with oauth2 := ← dictToOauth2 (Json.field d "oauth2") }
  | .str "openIdConnect" =>
    return { scheme with
      openIdConnect := ← buildDict openIdConnectSecurityScheme (Json.field d "open_id_connect") }
  | .str "mutualTls" => return { scheme with mtls := ← buildDict mutualTlsSecurityScheme (Json.field d "mtls") }
  | _ => return scheme

def dictToSecuritySchemes (d : Json) : Except Raised (List (String × SecurityScheme)) :=
  if d.truthy then do
    let d ← asDict d
    d.mapM (fun (name, sc) => do return (name, ← dictToSingleSecurityScheme sc))
  else .ok []

def dictToSignature : Json → Except Raised AgentCardSignature := readDict agentCardSignature

/-- `AgentCard.from_dict`. -/
def AgentCard.fromDict (d : Json) : Except Raised AgentCard := do
  let d ← asDict d
  let interfaces ← convertEach dictToInterface (orEmpty (Json.field d "supported_interfaces"))
  let skills ← convertEach dictToSkill (orEmpty (skillsRaw d))
  let capabilities ← readCapabilities (Json.get d "capabilities" (.obj []))
  let provider ← buildDict agentProvider (Json.field d "provider")
  let signatures ← convertEach dictToSignature (orEmpty (Json.field d "signatures"))
  let securitySchemes ← dictToSecuritySchemes (Json.field d "security_schemes")
  let securityRequirements ← dictListToSecurityRequirements (Json.field d "security_requirements")
  return {
    name := Json.get d "name" (.str "")
    description := Json.get d "description" (.str "")
    supportedInterfaces := interfaces
    provider := provider
    version := Json.get d "version" (.str "1.0.0")
    documentationUrl := Json.field d "documentation_url"
    capabilities := capabilities
    securitySchemes := securitySchemes
    securityRequirements := securityRequirements.getD []
    defaultInputModes := Json.get d "default_input_modes" (.arr [.str "text/plain"])
    defaultOutputModes := Json.get d "default_output_modes" (.arr [.str "text/plain"])
    skills := skills
    signatures := signatures
    iconUrl := Json.field d "icon_url" }

end Decoder

end A2ARegistry.Registry.Models
