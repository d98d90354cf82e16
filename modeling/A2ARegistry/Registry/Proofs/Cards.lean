import A2ARegistry.Base.Outcomes
import A2ARegistry.Registry.Cards
import A2ARegistry.Registry.Proofs.Models

namespace A2ARegistry.Registry
open Base

section Readable

/-- The value is an object that `q` holds of. -/
def IsDict (q : List (String × Json) → Prop) (v : Json) : Prop := ∃ d, v = .obj d ∧ q d

/-- A loop over the value meets such objects and nothing else. -/
def EachDict (q : List (String × Json) → Prop) (v : Json) : Prop :=
  ∃ items, v.iterate = some items ∧ ∀ item ∈ items, IsDict q item

/-- There is nothing to loop over, or objects. -/
def NoneOrDicts (v : Json) : Prop := v = .null ∨ EachDict (fun _ => True) v

/-- If the value is an object, each key of it is a field of the class. -/
def KnownKeys (cls : Dataclass) (v : Json) : Prop :=
  ∀ data, v = .obj data → ∀ f ∈ data, f.1 ∈ cls.map Prod.fst

/-- The five flows, where they are given. -/
def FlowsReadable (d : List (String × Json)) : Prop :=
  KnownKeys authorizationCodeOAuthFlow (Json.field d "authorization_code") ∧
    KnownKeys clientCredentialsOAuthFlow (Json.field d "client_credentials") ∧
    KnownKeys deviceCodeOAuthFlow (Json.field d "device_code") ∧
    KnownKeys implicitOAuthFlow (Json.field d "implicit") ∧
    KnownKeys passwordOAuthFlow (Json.field d "password")

/-- The part of a scheme that its type stands for can be read; the others are not looked at. -/
def PartReadable (d : List (String × Json)) : Json → Prop
  | .str "apiKey" => KnownKeys apiKeySecurityScheme (Json.field d "api_key")
  | .str "http" => KnownKeys httpAuthSecurityScheme (Json.field d "http_auth")
  | .str "oauth2" => ∀ o2, Json.field d "oauth2" = .obj o2 →
      (Json.field o2 "flows").truthy = true → IsDict FlowsReadable (Json.field o2 "flows")
  | .str "openIdConnect" => KnownKeys openIdConnectSecurityScheme (Json.field d "open_id_connect")
  | .str "mutualTls" => KnownKeys mutualTlsSecurityScheme (Json.field d "mtls")
  | _ => True

def SchemeReadable (d : List (String × Json)) : Prop := PartReadable d (Json.get d "scheme_type" (.str ""))

/-- What the parser takes for granted of a card and the validator does not check. -/
structure Readable (d : List (String × Json)) : Prop where
  skills : (skillsRaw d).truthy = true →
    EachDict (fun skill => NoneOrDicts (Json.field skill "security_requirements")) (skillsRaw d)
  extensions : ∀ caps, Json.get d "capabilities" (.obj []) = .obj caps → NoneOrDicts (Json.field caps "extensions")
  provider : KnownKeys agentProvider (Json.field d "provider")
  signatures : (Json.field d "signatures").truthy = true →
    EachDict (fun _ => True) (Json.field d "signatures")
  securitySchemes : ∀ schemes, Json.field d "security_schemes" = .obj schemes →
    ∀ s ∈ schemes, IsDict SchemeReadable s.2
  securityRequirements : NoneOrDicts (Json.field d "security_requirements")

end Readable

section Parser

variable {q : List (String × Json) → Prop} {v : Json}

theorem asDict_bind_iff {α : Type} {f : List (String × Json) → Except Raised α} :
    Returns (asDict v >>= f) ↔ IsDict (fun d => Returns (f d)) v := by
  rw [Returns.bind_iff]
  cases v with
  | obj d => simp [asDict, IsDict]
  | _ => simp [asDict, IsDict]

theorem isDict_congr {q' : List (String × Json) → Prop} (h : ∀ d, q d ↔ q' d) : IsDict q v ↔ IsDict q' v := by
  rw [funext (fun d => propext (h d))]

/-- A conversion that only takes fields out of an object. -/
theorem asDict_pure_iff {α : Type} (f : List (String × Json) → α) :
    Returns (asDict v >>= fun d => (pure (f d) : Except Raised α)) ↔ IsDict (fun _ => True) v := by
  rw [asDict_bind_iff]
  exact isDict_congr (fun d => iff_of_true (Returns.pure (f d)) trivial)

theorem buildDict_iff (cls : Dataclass) : Returns (cls.buildDict v) ↔ KnownKeys cls v := by
  cases v with
  | obj data =>
    rw [Dataclass.buildDict, Dataclass.build]
    by_cases h : data.all (fun f => (cls.map Prod.fst).contains f.1) = true
    · rw [if_pos h]
      refine iff_of_true (Returns.ok _) ?_
      intro data' he f hf
      cases he
      exact List.contains_iff_mem.mp (List.all_eq_true.mp h f hf)
    · rw [if_neg h]
      refine iff_of_false (Returns.error _) ?_
      intro hknown
      exact h (List.all_eq_true.mpr (fun f hf => List.contains_iff_mem.mpr (hknown data rfl f hf)))
  | _ => simp [Dataclass.buildDict, KnownKeys]

theorem convertEach_iff {convert : Json → Except Raised Json} (h : ∀ item, Returns (convert item) ↔ IsDict q item) :
    Returns (convertEach convert v) ↔ EachDict q v := by
  rw [convertEach, EachDict]
  cases hitems : v.iterate with
  | none => simp
  | some items =>
    simp only [Returns.bind_pure, Returns.mapM_iff, h, Option.some.injEq, exists_eq_left']

theorem convertEach_orEmpty_iff {convert : Json → Except Raised Json}
    (h : ∀ item, Returns (convert item) ↔ IsDict q item) :
    Returns (convertEach convert (orEmpty v)) ↔ (v.truthy = true → EachDict q v) := by
  rw [convertEach_iff h, orEmpty]
  cases htruthy : v.truthy with
  | true => simp
  | false => simp [EachDict, Json.iterate]

theorem dictToSecurityRequirement_iff : Returns (dictToSecurityRequirement v) ↔ IsDict (fun _ => True) v :=
  asDict_pure_iff _

theorem dictListToSecurityRequirements_iff : Returns (dictListToSecurityRequirements v) ↔ NoneOrDicts v := by
  rw [NoneOrDicts]
  cases v with
  | null => simp [dictListToSecurityRequirements]
  | _ => simp [dictListToSecurityRequirements, convertEach_iff (fun _ => dictToSecurityRequirement_iff)]

theorem dictToSkill_iff : Returns (dictToSkill v) ↔
    IsDict (fun skill => NoneOrDicts (Json.field skill "security_requirements")) v := by
  rw [dictToSkill, asDict_bind_iff]
  exact isDict_congr (fun _ => by rw [Returns.bind_pure, dictListToSecurityRequirements_iff])

theorem dictToInterface_iff : Returns (dictToInterface v) ↔ IsDict (fun _ => True) v :=
  asDict_pure_iff _

theorem dictToSignature_iff : Returns (dictToSignature v) ↔ IsDict (fun _ => True) v :=
  asDict_pure_iff _

theorem dictToExtension_iff : Returns (dictToExtension v) ↔ IsDict (fun _ => True) v :=
  asDict_pure_iff _

theorem dictToExtensions_iff : Returns (dictToExtensions v) ↔ NoneOrDicts v := by
  rw [NoneOrDicts]
  cases v with
  | null => simp [dictToExtensions]
  | _ => simp [dictToExtensions, convertEach_iff (fun _ => dictToExtension_iff)]

theorem dictToCapabilities_iff (d : List (String × Json)) :
    Returns (dictToCapabilities d) ↔ NoneOrDicts (Json.field d "extensions") := by
  rw [dictToCapabilities, Returns.bind_pure, dictToExtensions_iff]

theorem readCapabilities_iff : Returns (readCapabilities v) ↔
    ∀ caps, v = .obj caps → NoneOrDicts (Json.field caps "extensions") := by
  cases v with
  | obj caps => simp [readCapabilities, dictToCapabilities_iff]
  | _ => simp [readCapabilities]

theorem dictToOauthFlows_iff : Returns (dictToOauthFlows v) ↔ IsDict FlowsReadable v := by
  rw [dictToOauthFlows, asDict_bind_iff]
  apply isDict_congr
  intro d
  refine Returns.bind_and (buildDict_iff _) (fun _ => ?_)
  refine Returns.bind_and (buildDict_iff _) (fun _ => ?_)
  refine Returns.bind_and (buildDict_iff _) (fun _ => ?_)
  refine Returns.bind_and (buildDict_iff _) (fun _ => ?_)
  rw [Returns.bind_pure, buildDict_iff]

theorem readFlows_iff : Returns (readFlows v) ↔ (v.truthy = true → IsDict FlowsReadable v) := by
  rw [readFlows]
  cases htruthy : v.truthy with
  | true => simp [dictToOauthFlows_iff]
  | false => simp

theorem dictToOauth2_iff : Returns (dictToOauth2 v) ↔
    ∀ o2, v = .obj o2 → (Json.field o2 "flows").truthy = true → IsDict FlowsReadable (Json.field o2 "flows") := by
  cases v with
  | obj o2 =>
    rw [dictToOauth2, Returns.bind_pure, readFlows_iff]
    simp
  | _ => simp [dictToOauth2]

theorem schemePart_iff (d : List (String × Json)) (schemeType : Json) :
    Returns (schemePart d schemeType) ↔ PartReadable d schemeType := by
  unfold schemePart
  split
  · exact (Returns.bind_pure _).trans (buildDict_iff _)
  · exact (Returns.bind_pure _).trans (buildDict_iff _)
  · exact (Returns.bind_pure _).trans dictToOauth2_iff
  · exact (Returns.bind_pure _).trans (buildDict_iff _)
  · exact (Returns.bind_pure _).trans (buildDict_iff _)
  · simp [PartReadable]

theorem dictToSingleSecurityScheme_iff : Returns (dictToSingleSecurityScheme v) ↔ IsDict SchemeReadable v := by
  rw [dictToSingleSecurityScheme, asDict_bind_iff]
  exact isDict_congr (fun d => by rw [Returns.bind_pure, schemePart_iff, SchemeReadable])

theorem dictToSecuritySchemes_iff (h : v = .null ∨ ∃ schemes, v = .obj schemes) :
    Returns (dictToSecuritySchemes v) ↔ ∀ schemes, v = .obj schemes → ∀ s ∈ schemes, IsDict SchemeReadable s.2 := by
  rcases h with rfl | ⟨schemes, rfl⟩
  · simp [dictToSecuritySchemes, Json.truthy]
  · rw [dictToSecuritySchemes]
    split
    · rw [asDict_bind_iff]
      simp only [IsDict, Json.obj.injEq, exists_eq_left', forall_eq']
      rw [Returns.bind_pure, Returns.mapM_iff]
      simp only [Returns.bind_pure, dictToSingleSecurityScheme_iff]
      rfl
    · rename_i hempty
      obtain rfl : schemes = [] := by simpa [Json.truthy] using hempty
      simp

/-- The parser returns a card for what can be read all through. -/
theorem fromDict_iff {d : List (String × Json)}
    (hinterfaces : (Json.field d "supported_interfaces").truthy = true →
      EachDict (fun _ => True) (Json.field d "supported_interfaces"))
    (hschemes : Json.field d "security_schemes" = .null ∨ ∃ schemes, Json.field d "security_schemes" = .obj schemes) :
    Returns (AgentCard.fromDict (.obj d)) ↔ Readable d := by
  rw [AgentCard.fromDict, asDict_bind_iff]
  simp only [IsDict, Json.obj.injEq, exists_eq_left']
  refine (Returns.bind_and (convertEach_orEmpty_iff (fun _ => dictToInterface_iff)) (fun _ =>
    Returns.bind_and (convertEach_orEmpty_iff (fun _ => dictToSkill_iff)) (fun _ =>
    Returns.bind_and readCapabilities_iff (fun _ =>
    Returns.bind_and (buildDict_iff _) (fun _ =>
    Returns.bind_and (convertEach_orEmpty_iff (fun _ => dictToSignature_iff)) (fun _ =>
    Returns.bind_and (dictToSecuritySchemes_iff hschemes) (fun _ =>
    (Returns.bind_pure _).trans dictListToSecurityRequirements_iff))))))).trans ?_
  constructor
  · rintro ⟨_, hskills, hextensions, hprovider, hsignatures, hsecuritySchemes, hrequirements⟩
    exact ⟨hskills, hextensions, hprovider, hsignatures, hsecuritySchemes, hrequirements⟩
  · intro h
    exact ⟨hinterfaces, h.skills, h.extensions, h.provider, h.signatures, h.securitySchemes, h.securityRequirements⟩

end Parser

section Validator

variable {d : List (String × Json)} {field label : String} {expected : JsonType}

theorem checkType_none (h : checkType d field expected label = none) :
    Json.field d field = .null ∨ expected.has (Json.field d field) = true := by
  rw [checkType] at h
  split at h
  · rename_i hnull
    exact Or.inl hnull
  · split at h
    · rename_i htype
      exact Or.inr htype
    · cases h

theorem checkItems_none {i : Nat} {items : List Json} (h : checkItems field expected label i items = none) :
    ∀ item ∈ items, expected.has item = true := by
  induction items generalizing i with
  | nil => simp
  | cons item items ih =>
    rw [checkItems] at h
    split at h
    · rename_i htype
      exact List.forall_mem_cons.mpr ⟨htype, ih h⟩
    · cases h

theorem checkListType_none {maxItems : Nat} (h : checkListType d field expected maxItems label = none) :
    Json.field d field = .null ∨
      ∃ items, Json.field d field = .arr items ∧ ∀ item ∈ items, expected.has item = true := by
  rw [checkListType] at h
  split at h
  · rename_i hnull
    exact Or.inl hnull
  · rename_i items hitems
    split at h
    · cases h
    · exact Or.inr ⟨items, hitems, checkItems_none h⟩
  · cases h

theorem has_dict {v : Json} (h : JsonType.dict.has v = true) : ∃ fields, v = .obj fields := by
  cases v with
  | obj fields => exact ⟨fields, rfl⟩
  | _ => cases h

/-- A body that is accepted is an object that has passed the checks of each table. -/
theorem accepted {p : Python} {data : Json} (h : validateAgentCard p data = .ok []) : ∃ d, data = .obj d ∧
    (∀ c ∈ typeChecks, checkType d c.1 c.2.1 c.2.2 = none) ∧
    ∀ c ∈ listChecks, checkListType d c.1 c.2.1 c.2.2.1 c.2.2.2 = none := by
  cases data with
  | obj d =>
    rw [validateAgentCard] at h
    obtain ⟨schemes, -, herrors⟩ := Returns.bind_ok_iff.mp h
    have hnil := Except.ok.inj herrors
    simp only [List.append_eq_nil_iff, List.filterMap_eq_nil_iff] at hnil
    obtain ⟨⟨⟨⟨⟨⟨-, htypes⟩, hlists⟩, -⟩, -⟩, -⟩, -⟩ := hnil
    exact ⟨d, rfl, htypes, hlists⟩
  | _ => cases h

/-- Of the interfaces the validator checks all that the parser needs. -/
theorem interfaces_readable (hlists : ∀ c ∈ listChecks, checkListType d c.1 c.2.1 c.2.2.1 c.2.2.2 = none)
    (htruthy : (Json.field d "supported_interfaces").truthy = true) :
    EachDict (fun _ => True) (Json.field d "supported_interfaces") := by
  have hcheck := hlists ("supported_interfaces", .dict, maxInterfacesCount, "supported_interfaces") (by simp [listChecks])
  rcases checkListType_none hcheck with hnull | ⟨items, hitems, hdicts⟩
  · rw [hnull] at htruthy
    cases htruthy
  · refine ⟨items, by rw [hitems, Json.iterate], ?_⟩
    intro item hitem
    obtain ⟨fields, hfields⟩ := has_dict (hdicts item hitem)
    exact ⟨fields, hfields, trivial⟩

theorem schemes_dict (htypes : ∀ c ∈ typeChecks, checkType d c.1 c.2.1 c.2.2 = none) :
    Json.field d "security_schemes" = .null ∨ ∃ schemes, Json.field d "security_schemes" = .obj schemes := by
  have hcheck := htypes ("security_schemes", .dict, "security_schemes") (by simp [typeChecks])
  rcases checkType_none hcheck with hnull | hdict
  · exact Or.inl hnull
  · exact Or.inr (has_dict hdict)

end Validator

/-- The parser returns a card for a body the validator accepts if and only if its provider, its
skills, its capabilities, its signatures and its security schemes and requirements are what the
parser takes them for. The card is that of the data classes, each field as it is serialized. -/
theorem accepted_parses_iff {p : Python} {data : Json} (h : validateAgentCard p data = .ok []) :
    ((∃ card, AgentCard.fromDict data = .ok card) ↔ IsDict Readable data) ∧
      ∀ card, AgentCard.fromDict data = .ok card →
        ∃ typed, Models.AgentCard.fromDict data = .ok typed ∧ card = typed.serialized := by
  constructor
  · obtain ⟨d, rfl, htypes, hlists⟩ := accepted h
    have hparses := fromDict_iff (interfaces_readable hlists) (schemes_dict htypes)
    simpa only [IsDict, Json.obj.injEq, exists_eq_left', Returns] using hparses
  · intro card hcard
    rw [Models.AgentCard.fromDict_serialized] at hcard
    cases htyped : Models.AgentCard.fromDict data with
    | error e =>
      rw [htyped] at hcard
      cases hcard
    | ok typed =>
      rw [htyped] at hcard
      cases hcard
      exact ⟨typed, rfl, rfl⟩

section Samples

/-- A card with what is asked for: a name. -/
def plainCard : Json := .obj [("name", .str "echo"), ("provider", .obj [("url", .str "https://echo.example")])]

/-- Its provider is named as other cards name theirs. -/
def namedProviderCard : Json := .obj [("name", .str "echo"), ("provider", .obj [("name", .str "Echo Ltd")])]

theorem plainCard_parses : (∃ card, AgentCard.fromDict plainCard = .ok card) ↔ IsDict Readable plainCard :=
  (accepted_parses_iff (p := ⟨id, fun _ => true⟩) rfl).1

theorem namedProvider_raises : validateAgentCard ⟨id, fun _ => true⟩ namedProviderCard = .ok [] ∧
    ¬ ∃ card, AgentCard.fromDict namedProviderCard = .ok card := by
  refine ⟨rfl, ?_⟩
  intro ⟨card, h⟩
  cases h

end Samples

end A2ARegistry.Registry
