import A2ARegistry.Base.Outcomes
import A2ARegistry.Registry.Models

namespace A2ARegistry.Registry.Models
open Base

section WellTyped

/-- Each field has the type its class declares. -/
structure AgentCapabilities.WellTyped (c : AgentCapabilities) : Prop where
  streaming : (FieldType.optional .flag).Holds c.streaming
  pushNotifications : (FieldType.optional .flag).Holds c.pushNotifications
  extensions : ∀ es ∈ c.extensions, ∀ e ∈ es, e.WellTyped
  extendedAgentCard : (FieldType.optional .flag).Holds c.extendedAgentCard

structure AgentSkill.WellTyped (s : AgentSkill) : Prop where
  id : FieldType.text.Holds s.id
  name : FieldType.text.Holds s.name
  description : FieldType.text.Holds s.description
  tags : (FieldType.list .text).Holds s.tags
  examples : (FieldType.optional (.list .text)).Holds s.examples
  inputModes : (FieldType.optional (.list .text)).Holds s.inputModes
  outputModes : (FieldType.optional (.list .text)).Holds s.outputModes
  securityRequirements : ∀ rs ∈ s.securityRequirements, ∀ r ∈ rs, r.WellTyped
  uriSchemes : (FieldType.list .text).Holds s.uriSchemes
  inputSchema : (FieldType.optional (.dict .anything)).Holds s.inputSchema
  outputSchema : (FieldType.optional (.dict .anything)).Holds s.outputSchema

structure OAuthFlows.WellTyped (f : OAuthFlows) : Prop where
  authorizationCode : ∀ r ∈ f.authorizationCode, r.WellTyped
  clientCredentials : ∀ r ∈ f.clientCredentials, r.WellTyped
  deviceCode : ∀ r ∈ f.deviceCode, r.WellTyped
  implicit : ∀ r ∈ f.implicit, r.WellTyped
  password : ∀ r ∈ f.password, r.WellTyped

structure OAuth2SecurityScheme.WellTyped (o : OAuth2SecurityScheme) : Prop where
  flows : ∀ f ∈ o.flows, f.WellTyped
  oauth2MetadataUrl : (FieldType.optional .text).Holds o.oauth2MetadataUrl

structure SecurityScheme.WellTyped (s : SecurityScheme) : Prop where
  schemeType : FieldType.text.Holds s.schemeType
  description : (FieldType.optional .text).Holds s.description
  apiKey : ∀ r ∈ s.apiKey, r.WellTyped
  httpAuth : ∀ r ∈ s.httpAuth, r.WellTyped
  oauth2 : ∀ o ∈ s.oauth2, o.WellTyped
  openIdConnect : ∀ r ∈ s.openIdConnect, r.WellTyped
  mtls : ∀ r ∈ s.mtls, r.WellTyped

/-- Only the part that the type of the scheme stands for is there. -/
structure SecurityScheme.OneOf (s : SecurityScheme) : Prop where
  apiKey : s.apiKey ≠ none → s.schemeType = .str "apiKey"
  httpAuth : s.httpAuth ≠ none → s.schemeType = .str "http"
  oauth2 : s.oauth2 ≠ none → s.schemeType = .str "oauth2"
  openIdConnect : s.openIdConnect ≠ none → s.schemeType = .str "openIdConnect"
  mtls : s.mtls ≠ none → s.schemeType = .str "mutualTls"

structure AgentCard.WellTyped (card : AgentCard) : Prop where
  name : FieldType.text.Holds card.name
  description : FieldType.text.Holds card.description
  supportedInterfaces : ∀ i ∈ card.supportedInterfaces, i.WellTyped
  provider : ∀ p ∈ card.provider, p.WellTyped
  version : FieldType.text.Holds card.version
  documentationUrl : (FieldType.optional .text).Holds card.documentationUrl
  capabilities : card.capabilities.WellTyped
  securitySchemes : ∀ s ∈ card.securitySchemes, s.2.WellTyped ∧ s.2.OneOf
  securityRequirements : ∀ r ∈ card.securityRequirements, r.WellTyped
  defaultInputModes : (FieldType.list .text).Holds card.defaultInputModes
  defaultOutputModes : (FieldType.list .text).Holds card.defaultOutputModes
  skills : ∀ s ∈ card.skills, s.WellTyped
  signatures : ∀ s ∈ card.signatures, s.WellTyped
  iconUrl : (FieldType.optional .text).Holds card.iconUrl

end WellTyped

section Parts

/-- A record of the right types is built from what it is written as. -/
theorem build_written {cls : RecordClass} {r : Record cls} (h : r.WellTyped) :
    build cls (written r.values) = .ok r := by
  have hknown : (written r.values).all (fun f => (cls.fields.map Prod.fst).contains f.1) = true :=
    List.all_eq_true.mpr fun f hf => List.contains_iff_mem.mpr (Record.written_known r f hf)
  rw [build, if_pos hknown, Record.read_written h]

theorem buildDict_nested {cls : RecordClass} {o : Option (Record cls)} (h : ∀ r ∈ o, r.WellTyped) :
    buildDict cls (nested Record.toJson o) = .ok o := by
  cases o with
  | none => rfl
  | some r =>
    change (build cls (written r.values)).map some = _
    rw [build_written (h r rfl)]
    rfl

theorem readDict_toJson {cls : RecordClass} {r : Record cls} (h : r.WellTyped) : readDict cls r.toJson = .ok r := by
  change Except.ok (Record.read cls (written r.values)) = _
  rw [Record.read_written h]

theorem convertEach_each {α : Type} {encode : α → Json} {convert : Json → Except Raised α} {values : List α}
    (h : ∀ a ∈ values, convert (encode a) = .ok a) : convertEach convert (each encode values) = .ok values :=
  (mapM_map h).trans (congrArg Except.ok (List.map_id' values))

theorem convertEach_orEmpty {α : Type} {encode : α → Json} {convert : Json → Except Raised α} {values : List α}
    (h : ∀ a ∈ values, convert (encode a) = .ok a) :
    convertEach convert (orEmpty (each encode values)) = .ok values := by
  have hsame : orEmpty (each encode values) = each encode values := by
    cases values <;> rfl
  rw [hsame]
  exact convertEach_each h

/-- A list of records that may be absent is read from what it is written as, if the reader is `readDict` for each. -/
theorem records_nested {cls : RecordClass} {convert : Json → Except Raised (Option (List (Record cls)))}
    (hnull : convert .null = .ok none)
    (heach : ∀ rs : List (Record cls),
      convert (each Record.toJson rs) = (convertEach (readDict cls) (each Record.toJson rs)).map some)
    {o : Option (List (Record cls))} (h : ∀ rs ∈ o, ∀ r ∈ rs, r.WellTyped) :
    convert (nested (each Record.toJson) o) = .ok o := by
  cases o with
  | none => exact hnull
  | some rs =>
    have hread : convertEach (readDict cls) (each Record.toJson rs) = .ok rs :=
      convertEach_each fun r hr => readDict_toJson (h rs rfl r hr)
    change convert (each Record.toJson rs) = _
    rw [heach, hread]
    rfl

theorem requirements_nested {o : Option (List SecurityRequirement)} (h : ∀ rs ∈ o, ∀ r ∈ rs, r.WellTyped) :
    dictListToSecurityRequirements (nested (each Record.toJson) o) = .ok o :=
  records_nested rfl (fun _ => rfl) h

theorem extensions_nested {o : Option (List AgentExtension)} (h : ∀ es ∈ o, ∀ e ∈ es, e.WellTyped) :
    dictToExtensions (nested (each Record.toJson) o) = .ok o :=
  records_nested rfl (fun _ => rfl) h

theorem capabilities_toJson {c : AgentCapabilities} (h : c.WellTyped) : readCapabilities c.toJson = .ok c := by
  change dictToCapabilities (written _) = _
  simp only [dictToCapabilities, field_eq_get, get_written_self, get_written_nil, orDefault_null, ne_eq,
    String.reduceEq, not_false_eq_true, get_written_ne, extensions_nested h.extensions, ok_bind]
  rfl

theorem skill_toJson {s : AgentSkill} (h : s.WellTyped) : dictToSkill s.toJson = .ok s := by
  simp only [dictToSkill, AgentSkill.toJson, asDict, ok_bind, field_eq_get, get_written_self, get_written_nil,
    orDefault_null, ne_eq, String.reduceEq, not_false_eq_true, get_written_ne,
    requirements_nested h.securityRequirements, orDefault_holds h.id rfl, orDefault_holds h.name rfl,
    orDefault_holds h.description rfl, orDefault_holds h.tags rfl, orDefault_holds h.uriSchemes rfl]
  rfl

end Parts

section Schemes

/-- No flow is there. -/
def OAuthFlows.Empty (f : OAuthFlows) : Prop :=
  f.authorizationCode = none ∧ f.clientCredentials = none ∧ f.deviceCode = none ∧ f.implicit = none ∧ f.password = none

instance (f : OAuthFlows) : Decidable f.Empty := by
  unfold OAuthFlows.Empty
  infer_instance

/-- The scheme as it is read back: flows none of which is there are left out. -/
def OAuth2SecurityScheme.kept (o : OAuth2SecurityScheme) : OAuth2SecurityScheme :=
  { o with flows := o.flows.filter (fun f => decide (¬ f.Empty)) }

def SecurityScheme.kept (s : SecurityScheme) : SecurityScheme :=
  { s with oauth2 := s.oauth2.map OAuth2SecurityScheme.kept }

theorem nested_null {cls : RecordClass} {o : Option (Record cls)} : nested Record.toJson o = .null ↔ o = none := by
  cases o with
  | none => exact iff_of_true rfl rfl
  | some r => exact iff_of_false (fun h => by cases h) (fun h => by cases h)

theorem written_eq_nil {fields : List (String × Json)} : written fields = [] ↔ ∀ f ∈ fields, f.2 = .null := by
  rw [written, List.filter_eq_nil_iff]
  refine forall₂_congr fun f _ => ?_
  cases f.2 <;> simp

/-- Flows are written as an empty object when none of them is there. -/
theorem flows_truthy (f : OAuthFlows) : f.toJson.truthy = true ↔ ¬ f.Empty := by
  have hempty : written [("authorization_code", nested Record.toJson f.authorizationCode),
      ("client_credentials", nested Record.toJson f.clientCredentials),
      ("device_code", nested Record.toJson f.deviceCode), ("implicit", nested Record.toJson f.implicit),
      ("password", nested Record.toJson f.password)] = [] ↔ f.Empty := by
    simp only [written_eq_nil, List.forall_mem_cons, nested_null, OAuthFlows.Empty]
    simp
  rw [← not_iff_not, not_not, ← hempty, OAuthFlows.toJson, Json.truthy]
  simp

theorem flows_toJson {f : OAuthFlows} (h : f.WellTyped) : dictToOauthFlows f.toJson = .ok f := by
  simp only [dictToOauthFlows, OAuthFlows.toJson, asDict, ok_bind, field_eq_get, get_written_self, get_written_nil,
    orDefault_null, ne_eq, String.reduceEq, not_false_eq_true, get_written_ne, buildDict_nested h.authorizationCode,
    buildDict_nested h.clientCredentials, buildDict_nested h.deviceCode, buildDict_nested h.implicit,
    buildDict_nested h.password]
  rfl

/-- The one check of a nested value that asks whether it is truthy. -/
theorem readFlows_nested {o : Option OAuthFlows} (h : ∀ f ∈ o, f.WellTyped) :
    readFlows (nested OAuthFlows.toJson o) = .ok (o.filter (fun f => decide (¬ f.Empty))) := by
  cases o with
  | none => rfl
  | some f =>
    change (if f.toJson.truthy then (dictToOauthFlows f.toJson).map some else .ok none) = _
    by_cases hempty : f.Empty
    · rw [if_neg (fun ht => (flows_truthy f).mp ht hempty), Option.filter_some, if_neg (by simpa using hempty)]
    · rw [if_pos ((flows_truthy f).mpr hempty), flows_toJson (h f rfl), Option.filter_some,
        if_pos (by simpa using hempty)]
      rfl

theorem oauth2_nested {o : Option OAuth2SecurityScheme} (h : ∀ s ∈ o, s.WellTyped) :
    dictToOauth2 (nested OAuth2SecurityScheme.toJson o) = .ok (o.map OAuth2SecurityScheme.kept) := by
  cases o with
  | none => rfl
  | some s =>
    change dictToOauth2 (.obj (written _)) = _
    simp only [dictToOauth2, field_eq_get, get_written_self, get_written_nil, orDefault_null, ne_eq,
      String.reduceEq, not_false_eq_true, get_written_ne, readFlows_nested (h s rfl).flows, ok_bind]
    rfl

/-- A scheme has no part but the one of its type. -/
theorem SecurityScheme.OneOf.parts {s : SecurityScheme} (h : s.OneOf) {schemeType : String}
    (ht : s.schemeType = .str schemeType) :
    (schemeType ≠ "apiKey" → s.apiKey = none) ∧ (schemeType ≠ "http" → s.httpAuth = none) ∧
      (schemeType ≠ "oauth2" → s.oauth2 = none) ∧ (schemeType ≠ "openIdConnect" → s.openIdConnect = none) ∧
      (schemeType ≠ "mutualTls" → s.mtls = none) := by
  have hnone : ∀ {α : Type} {part : Option α} {own : String}, (part ≠ none → s.schemeType = .str own) →
      schemeType ≠ own → part = none := by
    intro α part own hpart hne
    by_contra hsome
    have hboth : Json.str schemeType = .str own := ht.symm.trans (hpart hsome)
    exact hne (by simpa using hboth)
  exact ⟨hnone h.apiKey, hnone h.httpAuth, hnone h.oauth2, hnone h.openIdConnect, hnone h.mtls⟩

theorem scheme_toJson {s : SecurityScheme} (h : s.WellTyped) (hone : s.OneOf) :
    dictToSingleSecurityScheme s.toJson = .ok s.kept := by
  simp only [dictToSingleSecurityScheme, SecurityScheme.toJson, asDict, ok_bind, field_eq_get, get_written_self,
    get_written_nil, orDefault_null, ne_eq, String.reduceEq, not_false_eq_true, get_written_ne,
    orDefault_holds h.schemeType rfl, buildDict_nested h.apiKey, buildDict_nested h.httpAuth, oauth2_nested h.oauth2,
    buildDict_nested h.openIdConnect, buildDict_nested h.mtls]
  split
  · rename_i htype
    simp [SecurityScheme.kept, hone.parts htype, pure, Except.pure]
  · rename_i htype
    simp [SecurityScheme.kept, hone.parts htype, pure, Except.pure]
  · rename_i htype
    simp [SecurityScheme.kept, hone.parts htype, pure, Except.pure]
  · rename_i htype
    simp [SecurityScheme.kept, hone.parts htype, pure, Except.pure]
  · rename_i htype
    simp [SecurityScheme.kept, hone.parts htype, pure, Except.pure]
  · -- a type that none of the parts is for
    rename_i hkey hhttp hoauth hconnect hmtls
    have hparts : s.apiKey = none ∧ s.httpAuth = none ∧ s.oauth2 = none ∧ s.openIdConnect = none ∧ s.mtls = none :=
      ⟨by_contra fun hsome => hkey (hone.apiKey hsome), by_contra fun hsome => hhttp (hone.httpAuth hsome),
        by_contra fun hsome => hoauth (hone.oauth2 hsome), by_contra fun hsome => hconnect (hone.openIdConnect hsome),
        by_contra fun hsome => hmtls (hone.mtls hsome)⟩
    simp [SecurityScheme.kept, hparts, pure, Except.pure]

theorem schemes_toJson {schemes : List (String × SecurityScheme)} (h : ∀ s ∈ schemes, s.2.WellTyped ∧ s.2.OneOf) :
    dictToSecuritySchemes (.obj (schemes.map (fun s => (s.1, s.2.toJson)))) =
      .ok (schemes.map (fun s => (s.1, s.2.kept))) := by
  have hmap : (schemes.map (fun s => (s.1, s.2.toJson))).mapM
      (fun f => do return (f.1, ← dictToSingleSecurityScheme f.2)) =
      (Except.ok (schemes.map (fun s => (s.1, s.2.kept))) : Except Raised _) := by
    refine mapM_map fun s hs => ?_
    obtain ⟨htyped, hone⟩ := h s hs
    simp only [scheme_toJson htyped hone, ok_bind]
    rfl
  cases schemes with
  | nil => rfl
  | cons s schemes => exact hmap

end Schemes

section Cards

variable {card : AgentCard}

/-- The card as it is read back. -/
def AgentCard.kept (card : AgentCard) : AgentCard :=
  { card with securitySchemes := card.securitySchemes.map (fun s => (s.1, s.2.kept)) }

theorem orDefault_capabilities (c : AgentCapabilities) (default : Json) : orDefault c.toJson default = c.toJson := rfl

theorem skillsRaw_of_list {d : List (String × Json)} {skills : List AgentSkill}
    (h : Json.field d "skills" = each AgentSkill.toJson skills) : skillsRaw d = each AgentSkill.toJson skills := by
  rw [skillsRaw, h]
  rfl

/-- A card of the right types is read back but for the flows that are all absent. -/
theorem card_toJson (h : card.WellTyped) : AgentCard.fromDict card.toJson = .ok card.kept := by
  have hinterfaces : convertEach dictToInterface (orEmpty (each Record.toJson card.supportedInterfaces)) =
      .ok card.supportedInterfaces := convertEach_orEmpty fun i hi => readDict_toJson (h.supportedInterfaces i hi)
  have hskills : convertEach dictToSkill (orEmpty (each AgentSkill.toJson card.skills)) = .ok card.skills :=
    convertEach_orEmpty fun s hs => skill_toJson (h.skills s hs)
  have hsignatures : convertEach dictToSignature (orEmpty (each Record.toJson card.signatures)) = .ok card.signatures :=
    convertEach_orEmpty fun s hs => readDict_toJson (h.signatures s hs)
  have hrequirements : dictListToSecurityRequirements (each Record.toJson card.securityRequirements) =
      .ok (some card.securityRequirements) := by
    have hsome : ∀ rs ∈ some card.securityRequirements, ∀ r ∈ rs, r.WellTyped := by
      intro rs hrs
      cases hrs
      exact h.securityRequirements
    exact requirements_nested hsome
  have hfields : ∃ d, card.toJson = .obj d ∧ d = written _ := ⟨_, rfl, rfl⟩
  obtain ⟨d, htoJson, hd⟩ := hfields
  have hraw : skillsRaw d = each AgentSkill.toJson card.skills :=
    skillsRaw_of_list (by simp only [hd, field_eq_get, get_written_self, ne_eq, String.reduceEq, not_false_eq_true,
      get_written_ne, get_written_nil, orDefault_null])
  rw [htoJson, AgentCard.fromDict, asDict, ok_bind, hraw]
  simp only [hd, field_eq_get, get_written_self, get_written_nil, orDefault_null, ne_eq, String.reduceEq,
    not_false_eq_true, get_written_ne, orDefault_capabilities, hinterfaces, hskills, hsignatures, hrequirements,
    ok_bind, capabilities_toJson h.capabilities, buildDict_nested h.provider, schemes_toJson h.securitySchemes,
    orDefault_holds h.name rfl, orDefault_holds h.description rfl, orDefault_holds h.version rfl,
    orDefault_holds h.defaultInputModes rfl, orDefault_holds h.defaultOutputModes rfl]
  rfl

/-- A list that a map leaves as it is has elements that it leaves so. -/
theorem map_eq_self {α : Type} {f : α → α} {values : List α} : values.map f = values ↔ ∀ a ∈ values, f a = a := by
  simpa using (List.map_inj_left : values.map f = values.map id ↔ _)

theorem oauth2_kept_iff (o : OAuth2SecurityScheme) : o.kept = o ↔ ∀ f ∈ o.flows, ¬ f.Empty := by
  obtain ⟨flows, url⟩ := o
  cases flows with
  | none => simp [OAuth2SecurityScheme.kept]
  | some f => simp [OAuth2SecurityScheme.kept, Option.filter_some]

theorem scheme_kept_iff (s : SecurityScheme) : s.kept = s ↔ ∀ o ∈ s.oauth2, ∀ f ∈ o.flows, ¬ f.Empty := by
  obtain ⟨schemeType, description, apiKey, httpAuth, oauth2, openIdConnect, mtls⟩ := s
  cases oauth2 with
  | none => simp [SecurityScheme.kept]
  | some o => simp [SecurityScheme.kept, oauth2_kept_iff]

/-- A card of the right types, each scheme of which has the part of its type only, is read back as it is exactly when
none of its schemes has flows that are all absent. -/
theorem AgentCard.fromDict_toDict_iff (h : card.WellTyped) :
    AgentCard.fromDict card.toJson = .ok card ↔
      ∀ s ∈ card.securitySchemes, ∀ o ∈ s.2.oauth2, ∀ f ∈ o.flows, ¬ f.Empty := by
  have hkept : card.kept = card ↔ card.securitySchemes.map (fun s => (s.1, s.2.kept)) = card.securitySchemes := by
    cases card
    simp [AgentCard.kept]
  rw [card_toJson h, Except.ok.injEq, hkept, map_eq_self]
  refine forall₂_congr fun s _ => ?_
  rw [← scheme_kept_iff, Prod.ext_iff]
  exact and_iff_right rfl

end Cards

theorem absent {α : Type} {q : α → Prop} : ∀ a ∈ (none : Option α), q a := fun _ h => by cases h

/-- A card with a scheme for OAuth. -/
def sampleCard (flows : OAuthFlows) : AgentCard where
  name := .str "echo"
  description := .str ""
  securitySchemes := [("oauth", { schemeType := .str "oauth2", oauth2 := some { flows := some flows } })]

theorem sampleCard_typed {flows : OAuthFlows} (h : flows.WellTyped) : (sampleCard flows).WellTyped where
  name := ⟨_, rfl⟩
  description := ⟨_, rfl⟩
  supportedInterfaces := fun _ hi => absurd hi List.not_mem_nil
  provider := absent
  version := ⟨_, rfl⟩
  documentationUrl := Or.inl rfl
  capabilities := ⟨Or.inl rfl, Or.inl rfl, absent, Or.inl rfl⟩
  securitySchemes := by
    intro s hs
    obtain rfl := List.mem_singleton.mp hs
    have hoauth : ∀ o ∈ some ({ flows := some flows } : OAuth2SecurityScheme), o.WellTyped := by
      intro o ho
      cases ho
      exact ⟨fun f hf => Option.mem_some.mp hf ▸ h, Or.inl rfl⟩
    exact ⟨⟨⟨_, rfl⟩, Or.inl rfl, absent, absent, hoauth, absent,
      absent⟩, ⟨fun hr => absurd rfl hr, fun hr => absurd rfl hr, fun _ => rfl,
      fun hr => absurd rfl hr, fun hr => absurd rfl hr⟩⟩
  securityRequirements := fun _ hr => absurd hr List.not_mem_nil
  defaultInputModes := ⟨_, rfl, fun _ hi => ⟨"text/plain", List.mem_singleton.mp hi⟩⟩
  defaultOutputModes := ⟨_, rfl, fun _ hi => ⟨"text/plain", List.mem_singleton.mp hi⟩⟩
  skills := fun _ hs => absurd hs List.not_mem_nil
  signatures := fun _ hs => absurd hs List.not_mem_nil
  iconUrl := Or.inl rfl

/-- Its flow for client credentials, as it is by default. -/
def sampleFlows : OAuthFlows where
  clientCredentials := some (Record.read clientCredentialsOAuthFlow [])

theorem sampleFlows_typed : sampleFlows.WellTyped where
  authorizationCode := absent
  clientCredentials := by
    intro r hr
    cases hr
    exact .cons ⟨_, rfl⟩ (.cons (Or.inl rfl) (.cons ⟨_, rfl, fun _ hf => absurd hf List.not_mem_nil⟩ .nil))
  deviceCode := absent
  implicit := absent
  password := absent

/-- With that flow the card is read back. -/
theorem sampleCard_read : AgentCard.fromDict (sampleCard sampleFlows).toJson = .ok (sampleCard sampleFlows) := by
  refine (AgentCard.fromDict_toDict_iff (sampleCard_typed sampleFlows_typed)).mpr ?_
  intro s hs o ho f hf
  obtain rfl := List.mem_singleton.mp hs
  cases ho
  cases hf
  exact fun hempty => by cases hempty.2.1

/-- With no flow in it the flows are lost. -/
theorem flows_lost :
    (sampleCard {}).WellTyped ∧ AgentCard.fromDict (sampleCard {}).toJson ≠ .ok (sampleCard {}) := by
  have hflows : OAuthFlows.WellTyped {} :=
    ⟨absent, absent, absent, absent, absent⟩
  have htyped := sampleCard_typed hflows
  refine ⟨htyped, ?_⟩
  rw [card_toJson htyped]
  intro h
  injection h with h
  have hschemes := congrArg AgentCard.securitySchemes h
  simp [AgentCard.kept, sampleCard, SecurityScheme.kept, OAuth2SecurityScheme.kept, OAuthFlows.Empty] at hschemes

section Serialized

theorem convertEach_serialized {α : Type} {convert : Json → Except Raised Json} {convert' : Json → Except Raised α}
    {encode : α → Json} (h : ∀ v, convert v = (convert' v).map encode) (items : Json) :
    Registry.convertEach convert items = (convertEach convert' items).map (each encode) := by
  rw [Registry.convertEach, convertEach]
  cases items.iterate with
  | none => rfl
  | some items =>
    change (items.mapM convert >>= fun vs => pure (Json.arr vs)) = (items.mapM convert').map (each encode)
    rw [mapM_encoded h, bind_map]
    cases items.mapM convert' <;> rfl

theorem buildDict_serialized (cls : RecordClass) (v : Json) :
    Dataclass.buildDict cls.fields v = (buildDict cls v).map (nested Record.toJson) := by
  cases v with
  | obj data =>
    rw [Dataclass.buildDict, Dataclass.build, buildDict, build]
    split <;> rfl
  | _ => rfl

theorem requirement_serialized (d : Json) :
    Registry.dictToSecurityRequirement d = (dictToSecurityRequirement d).map Record.toJson := by
  cases d <;> rfl

theorem requirements_serialized (items : Json) :
    Registry.dictListToSecurityRequirements items =
      (dictListToSecurityRequirements items).map (nested (each Record.toJson)) := by
  cases items with
  | null => rfl
  | _ =>
    rw [Registry.dictListToSecurityRequirements, dictListToSecurityRequirements,
      convertEach_serialized requirement_serialized]
    · cases convertEach dictToSecurityRequirement _ <;> rfl
    · exact fun h => by cases h
    · exact fun h => by cases h

theorem skill_serialized (d : Json) : Registry.dictToSkill d = (dictToSkill d).map AgentSkill.toJson := by
  cases d with
  | obj d =>
    simp only [Registry.dictToSkill, dictToSkill, asDict, ok_bind, requirements_serialized, bind_map, map_bind]
    rfl
  | _ => rfl

theorem interface_serialized (d : Json) : Registry.dictToInterface d = (dictToInterface d).map Record.toJson := by
  cases d <;> rfl

theorem signature_serialized (d : Json) : Registry.dictToSignature d = (dictToSignature d).map Record.toJson := by
  cases d <;> rfl

theorem extension_serialized (d : Json) : Registry.dictToExtension d = (dictToExtension d).map Record.toJson := by
  cases d <;> rfl

theorem extensions_serialized (items : Json) :
    Registry.dictToExtensions items = (dictToExtensions items).map (nested (each Record.toJson)) := by
  cases items with
  | null => rfl
  | _ =>
    rw [Registry.dictToExtensions, dictToExtensions, convertEach_serialized extension_serialized]
    · cases convertEach dictToExtension _ <;> rfl
    · exact fun h => by cases h
    · exact fun h => by cases h

theorem capabilities_serialized (caps : Json) :
    Registry.readCapabilities caps = (readCapabilities caps).map AgentCapabilities.toJson := by
  cases caps with
  | obj caps =>
    simp only [Registry.readCapabilities, readCapabilities, Registry.dictToCapabilities, dictToCapabilities,
      extensions_serialized, bind_map, map_bind]
    rfl
  | _ => rfl

theorem flows_serialized (d : Json) : Registry.dictToOauthFlows d = (dictToOauthFlows d).map OAuthFlows.toJson := by
  have hcode : ∀ v, Registry.authorizationCodeOAuthFlow.buildDict v =
      (buildDict authorizationCodeOAuthFlow v).map (nested Record.toJson) :=
    buildDict_serialized authorizationCodeOAuthFlow
  have hclient : ∀ v, Registry.clientCredentialsOAuthFlow.buildDict v =
      (buildDict clientCredentialsOAuthFlow v).map (nested Record.toJson) :=
    buildDict_serialized clientCredentialsOAuthFlow
  have hdevice : ∀ v, Registry.deviceCodeOAuthFlow.buildDict v =
      (buildDict deviceCodeOAuthFlow v).map (nested Record.toJson) := buildDict_serialized deviceCodeOAuthFlow
  have himplicit : ∀ v, Registry.implicitOAuthFlow.buildDict v =
      (buildDict implicitOAuthFlow v).map (nested Record.toJson) := buildDict_serialized implicitOAuthFlow
  have hpassword : ∀ v, Registry.passwordOAuthFlow.buildDict v =
      (buildDict passwordOAuthFlow v).map (nested Record.toJson) := buildDict_serialized passwordOAuthFlow
  cases d with
  | obj d =>
    simp only [Registry.dictToOauthFlows, dictToOauthFlows, asDict, ok_bind, hcode, hclient, hdevice, himplicit,
      hpassword, bind_map, map_bind]
    rfl
  | _ => rfl

theorem oauth2_serialized (v : Json) :
    Registry.dictToOauth2 v = (dictToOauth2 v).map (nested OAuth2SecurityScheme.toJson) := by
  have hflows : ∀ flows, Registry.readFlows flows = (readFlows flows).map (nested OAuthFlows.toJson) := by
    intro flows
    rw [Registry.readFlows, readFlows, flows_serialized]
    split
    · cases dictToOauthFlows flows <;> rfl
    · rfl
  cases v with
  | obj o2 =>
    simp only [Registry.dictToOauth2, dictToOauth2, hflows, bind_map, map_bind]
    rfl
  | _ => rfl

/-- A scheme is written with the part of its type, if it is there. -/
theorem scheme_serialized (d : Json) :
    Registry.dictToSingleSecurityScheme d = (dictToSingleSecurityScheme d).map SecurityScheme.toJson := by
  have hkey : ∀ v, Registry.apiKeySecurityScheme.buildDict v =
      (buildDict apiKeySecurityScheme v).map (nested Record.toJson) := buildDict_serialized apiKeySecurityScheme
  have hhttp : ∀ v, Registry.httpAuthSecurityScheme.buildDict v =
      (buildDict httpAuthSecurityScheme v).map (nested Record.toJson) := buildDict_serialized httpAuthSecurityScheme
  have hconnect : ∀ v, Registry.openIdConnectSecurityScheme.buildDict v =
      (buildDict openIdConnectSecurityScheme v).map (nested Record.toJson) :=
    buildDict_serialized openIdConnectSecurityScheme
  have hmtls : ∀ v, Registry.mutualTlsSecurityScheme.buildDict v =
      (buildDict mutualTlsSecurityScheme v).map (nested Record.toJson) := buildDict_serialized mutualTlsSecurityScheme
  cases d with
  | obj d =>
    simp only [Registry.dictToSingleSecurityScheme, dictToSingleSecurityScheme, asDict, ok_bind]
    generalize Json.get d "scheme_type" (.str "") = schemeType
    split
    · simp only [schemePart, hkey, bind_map]
      cases buildDict apiKeySecurityScheme (Json.field d "api_key") <;> rfl
    · simp only [schemePart, hhttp, bind_map]
      cases buildDict httpAuthSecurityScheme (Json.field d "http_auth") <;> rfl
    · simp only [schemePart, oauth2_serialized, bind_map]
      cases dictToOauth2 (Json.field d "oauth2") <;> rfl
    · simp only [schemePart, hconnect, bind_map]
      cases buildDict openIdConnectSecurityScheme (Json.field d "open_id_connect") <;> rfl
    · simp only [schemePart, hmtls, bind_map]
      cases buildDict mutualTlsSecurityScheme (Json.field d "mtls") <;> rfl
    · rename_i hkey hhttp hoauth hconnect hmtls
      have hpart : schemePart d schemeType = .ok [] := by
        rw [schemePart]
        all_goals assumption
      rw [hpart]
      rfl
  | _ => rfl

theorem schemes_serialized (d : Json) : Registry.dictToSecuritySchemes d =
    (dictToSecuritySchemes d).map (fun schemes => .obj (schemes.map (fun s => (s.1, s.2.toJson)))) := by
  rw [Registry.dictToSecuritySchemes, dictToSecuritySchemes]
  split
  · cases d with
    | obj d =>
      have hone : ∀ f : String × Json, (do return (f.1, ← Registry.dictToSingleSecurityScheme f.2) : Except Raised _) =
          (do return (f.1, ← dictToSingleSecurityScheme f.2) : Except Raised _).map
            (fun s : String × SecurityScheme => (s.1, s.2.toJson)) := by
        intro f
        simp only [scheme_serialized, bind_map, map_bind]
        rfl
      have hmap := mapM_encoded hone d
      simp only [asDict, ok_bind]
      rw [hmap, bind_map]
      cases d.mapM (fun f => do return (f.1, ← dictToSingleSecurityScheme f.2) : String × Json → Except Raised _) <;>
        rfl
    | _ => rfl
  · rfl

/-- A card, each field as it is serialized. -/
def AgentCard.serialized (card : AgentCard) : Registry.AgentCard where
  name := card.name
  description := card.description
  supportedInterfaces := each Record.toJson card.supportedInterfaces
  provider := nested Record.toJson card.provider
  version := card.version
  documentationUrl := card.documentationUrl
  capabilities := card.capabilities.toJson
  securitySchemes := .obj (card.securitySchemes.map (fun s => (s.1, s.2.toJson)))
  securityRequirements := each Record.toJson card.securityRequirements
  defaultInputModes := card.defaultInputModes
  defaultOutputModes := card.defaultOutputModes
  skills := each AgentSkill.toJson card.skills
  signatures := each Record.toJson card.signatures
  iconUrl := card.iconUrl

/-- A card and its serialized form are written alike. -/
theorem AgentCard.serialized_toDict (card : AgentCard) : Json.obj card.serialized.toDict = card.toJson := rfl

/-- No requirements are written as an empty list of them. -/
theorem orEmpty_nested (o : Option (List SecurityRequirement)) :
    orEmpty (nested (each Record.toJson) o) = each Record.toJson (o.getD []) := by
  cases o with
  | none => rfl
  | some rs => cases rs <;> rfl

/-- The parser of the store reads what this one reads, as it is serialized. -/
theorem AgentCard.fromDict_serialized (d : Json) :
    Registry.AgentCard.fromDict d = (AgentCard.fromDict d).map AgentCard.serialized := by
  have hprovider : ∀ v, Registry.agentProvider.buildDict v = (buildDict agentProvider v).map (nested Record.toJson) :=
    buildDict_serialized agentProvider
  cases d with
  | obj d =>
    simp only [Registry.AgentCard.fromDict, AgentCard.fromDict, asDict, ok_bind,
      convertEach_serialized interface_serialized, convertEach_serialized skill_serialized,
      convertEach_serialized signature_serialized, capabilities_serialized, hprovider, schemes_serialized,
      requirements_serialized, orEmpty_nested, bind_map, map_bind]
    rfl
  | _ => rfl

end Serialized

end A2ARegistry.Registry.Models
