import Mathlib.Data.List.Pairwise
import Mathlib.Data.List.Perm.Basic
import A2ARegistry.Base.Assign
import A2ARegistry.Config.Load

open A2ARegistry.Base

namespace A2ARegistry.Config

section Layers

/-- What a key of a section is the key of. -/
def fieldEntry (name : String) : Yaml × Yaml → Option ((String × String) × Yaml)
  | (.str key, value) => if (fieldOf (name, key)).isSome then some ((name, key), value) else none
  | _ => none

def sectionEntries : Yaml × Yaml → List ((String × String) × Yaml)
  | (.str name, .map data) => data.filterMap (fieldEntry name)
  | _ => []

/-- The fields that a document has values for, in its order. -/
def fileEntries : Option Yaml → List ((String × String) × Yaml)
  | some (.map items) => items.flatMap sectionEntries
  | _ => []

/-- What the configuration file is loaded as, if it can be. No mapping has a key twice. -/
structure Document where
  raw : Option Yaml
  distinct : ((fileEntries raw).map Prod.fst).Nodup

def Document.get (document : Document) (key : String × String) : Option Yaml := (fileEntries document.raw).lookup key

def upper (s : String) : List Char := s.toList.map Char.toUpper

/-- The environment variable of a field. -/
def variableOf (key : String × String) : String :=
  String.ofList (envPrefix.toList ++ upper key.1 ++ "__".toList ++ upper key.2)

/-- The environment. Of the variables with the prefix only those of the fields are set. -/
structure Environment where
  items : List (String × String)
  distinct : (items.map Prod.fst).Nodup
  supported : ∀ item ∈ items, envPrefix.toList.isPrefixOf item.1.toList = true →
    ∃ key field, fieldOf key = some field ∧ item.1 = variableOf key

def Environment.get (environment : Environment) (key : String × String) : Option String :=
  environment.items.lookup (variableOf key)

variable (python : Builtins)

/-- The value as one of the field's type, if it parses. A list is none but a list. -/
def parse : Annotation → Yaml → Option Yaml
  | .bool, value => coerce python value .bool
  | .int, value => coerce python value .int
  | .str, value => coerce python value .str
  | .list, .seq items => some (.seq items)
  | .list, _ => none

/-- The value of the environment if it parses, else that of the file if it does, else the default. -/
def layered (document : Document) (environment : Environment) (key : String × String) (field : ConfigField) : Yaml :=
  (((environment.get key).bind (fun text => parse python field.type (.str text))).or
    ((document.get key).bind (parse python field.type))).getD field.default

/-- The configuration is loaded, each field by its layers. -/
def Layered (document : Document) (environment : Environment) : Prop :=
  ∃ cfg, loadConfig python document.raw environment.items = some cfg ∧
    ∀ key field, fieldOf key = some field → cfg key = layered python document environment key field

/-- How a value of the file is coerced, beside the one it replaces. -/
def coercion (_ : String × String) (current value : Yaml) : Option Yaml := coerce python value (typeOf current)

/-- The entries of the document before the first that `int()` refuses. -/
def appliedEntries (document : Document) : List ((String × String) × Yaml) :=
  applied (coercion python) default (fileEntries document.raw)

/-- Every variable has a text that parses, so the one of a list is not set. And of the fields without a variable, those
before the first value of the file that is refused have one that parses, while what parses behind it is the default. -/
structure Clean (document : Document) (environment : Environment) : Prop where
  texts : ∀ key field text, fieldOf key = some field → environment.get key = some text →
    parse python field.type (.str text) ≠ none
  before : ∀ key field value, fieldOf key = some field → environment.get key = none →
    (key, value) ∈ appliedEntries python document → parse python field.type value ≠ none
  behind : ∀ key field value, fieldOf key = some field → environment.get key = none →
    document.get key = some value → (key, value) ∉ appliedEntries python document →
    ∀ parsed, parse python field.type value = some parsed → parsed = field.default

end Layers

section Fields

variable {key : String × String} {field : ConfigField} (python : Builtins)

def fieldKeys : List (String × String) := sectionMap.flatMap (fun s => s.2.map (fun field => (s.1, field.name)))

theorem fieldOf_mem (h : fieldOf key = some field) :
    ∃ fields, (key.1, fields) ∈ sectionMap ∧ field ∈ fields ∧ field.name = key.2 := by
  obtain ⟨fields, hfields, hfind⟩ := Option.bind_eq_some_iff.mp h
  obtain ⟨front, back, hsections, _⟩ := List.lookup_eq_some_iff.mp hfields
  refine ⟨fields, ?_, List.mem_of_find?_eq_some hfind, ?_⟩
  · rw [hsections]
    exact List.mem_append_right front List.mem_cons_self
  · simpa using List.find?_some hfind

theorem fieldOf_key (h : fieldOf key = some field) : key ∈ fieldKeys := by
  obtain ⟨fields, hsection, hfield, hname⟩ := fieldOf_mem h
  refine List.mem_flatMap.mpr ⟨(key.1, fields), hsection, List.mem_map.mpr ⟨field, hfield, ?_⟩⟩
  rw [hname]

theorem splitDunder_upper (h : key ∈ fieldKeys) :
    splitDunder (lower (upper key.1 ++ "__".toList ++ upper key.2)) = [key.1.toList, key.2.toList] := by
  have hall : ∀ key ∈ fieldKeys,
      splitDunder (lower (upper key.1 ++ "__".toList ++ upper key.2)) = [key.1.toList, key.2.toList] := by
    decide +kernel
  exact hall key h

/-- The path of a variable leads to its field. -/
theorem path_of_variable (h : fieldOf key = some field) :
    envVarToPath (variableOf key) = [key.1, key.2] ∧ envPrefix.toList.isPrefixOf (variableOf key).toList = true := by
  have hchars : (variableOf key).toList = envPrefix.toList ++ (upper key.1 ++ "__".toList ++ upper key.2) := by
    rw [variableOf, String.toList_ofList, List.append_assoc, List.append_assoc, List.append_assoc]
  constructor
  · have hdrop : (envPrefix.toList ++ (upper key.1 ++ "__".toList ++ upper key.2)).drop envPrefix.length =
        upper key.1 ++ "__".toList ++ upper key.2 := List.drop_left
    rw [envVarToPath, hchars, hdrop, splitDunder_upper (fieldOf_key h)]
    simp
  · rw [hchars]
    simp

theorem default_eq (h : fieldOf key = some field) : default key = field.default := by
  rw [default, h]
  rfl

/-- Every default parses as the type of its field, to itself. -/
theorem parse_default (h : fieldOf key = some field) : parse python field.type field.default = some field.default := by
  have hall : ∀ s ∈ sectionMap, ∀ field ∈ s.2, parse python field.type field.default = some field.default := by
    simp [sectionMap, serverConfig, databaseConfig, authConfig, loggingConfig, orchestrationConfig, monitoringConfig,
      rateLimitConfig, auditConfig, securityHarnessConfig, parse, coerce, Builtins.int, Builtins.str]
  obtain ⟨fields, hsection, hfield, -⟩ := fieldOf_mem h
  exact hall _ hsection field hfield

end Fields

section Coercion

variable {key : String × String} {field : ConfigField} (python : Builtins)

/-- The type of a default is that of its annotation. -/
theorem typeOf_default (h : fieldOf key = some field) :
    typeOf field.default = if field.type = .list then .other else target field.type := by
  have hall : ∀ s ∈ sectionMap, ∀ field ∈ s.2,
      typeOf field.default = if field.type = .list then .other else target field.type := by decide
  obtain ⟨fields, hsection, hfield, -⟩ := fieldOf_mem h
  exact hall _ hsection field hfield

theorem parse_target (value : Yaml) (hlist : field.type ≠ .list) :
    parse python field.type value = coerce python value (target field.type) := by
  cases htype : field.type with
  | list => exact absurd htype hlist
  | bool | int | str => rfl

/-- A value of the file is coerced to what it parses as, but anything is taken for a list. -/
theorem coerce_default (h : fieldOf key = some field) (value : Yaml) :
    coerce python value (typeOf field.default) =
      if field.type = .list then some value else parse python field.type value := by
  rw [typeOf_default h]
  split
  · rfl
  · rename_i hlist
    exact (parse_target python value hlist).symm

/-- So is a text of the environment, but it is taken for a text where the field is a list. -/
theorem coerce_text (field : ConfigField) (text : String) :
    coerce python (.str text) (target field.type) =
      if field.type = .list then some (.str text) else parse python field.type (.str text) := by
  split
  · rename_i hlist
    rw [hlist]
    rfl
  · rename_i hlist
    exact (parse_target python (.str text) hlist).symm

/-- What parses as a list is a list. -/
theorem parse_list {value parsed : Yaml} (h : parse python .list value = some parsed) : value = parsed := by
  cases value with
  | seq items => exact Option.some.inj h
  | null | bool | int | float | str | bytes | date | datetime | set | pair | map => cases h

end Coercion

section File

variable (python : Builtins)

theorem fieldEntry_known {name key : String} {field : ConfigField} (h : fieldOf (name, key) = some field)
    (value : Yaml) : fieldEntry name (.str key, value) = some ((name, key), value) := by
  simp [fieldEntry, h]

theorem fieldEntry_unknown {name key : String} (h : fieldOf (name, key) = none) (value : Yaml) :
    fieldEntry name (.str key, value) = none := by
  simp [fieldEntry, h]

theorem mergeSection_eq (name : String) (data : List (Yaml × Yaml)) (cfg : Config) :
    mergeSection python name data cfg = assign (coercion python) (data.filterMap (fieldEntry name)) cfg := by
  fun_induction mergeSection python name data cfg with
  | case1 cfg => rfl
  | case2 key value items cfg hfield ih =>
    rw [List.filterMap_cons_none (fieldEntry_unknown hfield value)]
    exact ih
  | case3 key value items cfg field hfield hcoerce =>
    rw [List.filterMap_cons_some (fieldEntry_known hfield value)]
    simp only [assign, coercion, hcoerce]
  | case4 key value items cfg field hfield coerced hcoerce ih =>
    rw [List.filterMap_cons_some (fieldEntry_known hfield value)]
    simp only [assign, coercion, hcoerce]
    exact ih
  | case5 item items cfg hitem ih =>
    have hnone : fieldEntry name item = none := by
      unfold fieldEntry
      split
      · exact absurd rfl (hitem _ _)
      · rfl
    rw [List.filterMap_cons_none hnone]
    exact ih

/-- A section that is not known has no fields. -/
theorem sectionEntries_unknown {name : String} (h : sectionMap.lookup name = none) (data : List (Yaml × Yaml)) :
    sectionEntries (.str name, .map data) = [] := by
  apply List.filterMap_eq_nil_iff.mpr
  intro item _
  unfold fieldEntry
  split
  · simp [fieldOf, h]
  · rfl

theorem dictToConfig_eq (items : List (Yaml × Yaml)) (cfg : Config) :
    dictToConfig python items cfg = assign (coercion python) (items.flatMap sectionEntries) cfg := by
  fun_induction dictToConfig python items cfg with
  | case1 cfg => rfl
  | case2 name data items cfg hsection ih =>
    rw [List.flatMap_cons, sectionEntries_unknown hsection]
    exact ih
  | case3 name data items cfg fields hsection left hmerge =>
    rw [mergeSection_eq] at hmerge
    rw [List.flatMap_cons, assign_append]
    simp only [sectionEntries, hmerge]
    rfl
  | case4 name data items cfg fields hsection merged hmerge ih =>
    rw [mergeSection_eq] at hmerge
    rw [List.flatMap_cons, assign_append]
    simp only [sectionEntries, hmerge]
    exact ih
  | case5 item items cfg hitem ih =>
    have hnone : sectionEntries item = [] := by
      unfold sectionEntries
      split
      · exact absurd rfl (hitem _ _)
      · rfl
    rw [List.flatMap_cons, hnone]
    exact ih

/-- The file is what its entries assign to the defaults, as far as they go. -/
theorem loadFile_eq (raw : Option Yaml) :
    loadFile python raw = settled (assign (coercion python) (fileEntries raw) default) := by
  cases raw with
  | none => rfl
  | some raw =>
    simp only [loadFile]
    by_cases htruthy : raw.truthy = true
    · rw [if_pos htruthy]
      cases raw with
      | map items =>
        simp only [dictToConfig_eq]
        rfl
      | _ => rfl
    · rw [if_neg htruthy]
      cases raw with
      | map items =>
        have hempty : items = [] := by simpa [Yaml.truthy] using htruthy
        rw [hempty]
        rfl
      | _ => rfl

end File

section Environ

variable (python : Builtins)

/-- How a text of the environment is parsed for a field. -/
def envParse (key : String × String) (_ : Yaml) (text : String) : Option Yaml :=
  (fieldOf key).bind (fun field => coerce python (.str text) (target field.type))

/-- What a variable sets. -/
def envEntry (item : String × String) : Option ((String × String) × String) :=
  if envPrefix.toList.isPrefixOf item.1.toList then
    match envVarToPath item.1 with
    | [name, key] => some ((name, key), item.2)
    | _ => none
  else none

variable {key : String × String} {field : ConfigField}

theorem envEntry_variable (h : fieldOf key = some field) (text : String) :
    envEntry (variableOf key, text) = some (key, text) := by
  obtain ⟨hpath, hprefix⟩ := path_of_variable h
  simp [envEntry, hpath, hprefix]

theorem applyVariable_variable (h : fieldOf key = some field) (text : String) (cfg : Config) :
    applyVariable python cfg (variableOf key, text) =
      (envParse python key (cfg key) text).map (Function.update cfg key) := by
  obtain ⟨hpath, hprefix⟩ := path_of_variable h
  simp [applyVariable, hpath, hprefix, setNested, h, envParse]

/-- The variables of fields are assigned one after the other, and the others are passed over. -/
theorem foldlM_applyVariable {items : List (String × String)} (hsupported : ∀ item ∈ items,
    envPrefix.toList.isPrefixOf item.1.toList = true → ∃ key field, fieldOf key = some field ∧ item.1 = variableOf key)
    (cfg : Config) : items.foldlM (applyVariable python) cfg =
      (assign (envParse python) (items.filterMap envEntry) cfg).toOption := by
  induction items generalizing cfg with
  | nil => rfl
  | cons item items ih =>
    have hrest := ih (fun other hother => hsupported other (List.mem_cons_of_mem item hother))
    rw [List.foldlM_cons]
    by_cases hprefix : envPrefix.toList.isPrefixOf item.1.toList = true
    · obtain ⟨key, field, hfield, hname⟩ := hsupported item List.mem_cons_self hprefix
      obtain ⟨name, text⟩ := item
      simp only at hname
      subst hname
      rw [List.filterMap_cons_some (envEntry_variable hfield text), applyVariable_variable python hfield, assign]
      cases envParse python key (cfg key) text with
      | none => rfl
      | some value => exact hrest (Function.update cfg key value)
    · rw [List.filterMap_cons_none (by simp [envEntry, hprefix])]
      simp only [applyVariable, hprefix]
      exact hrest cfg

/-- The entries that the environment assigns, in the order of its variables' names. -/
def Environment.entries (environment : Environment) : List ((String × String) × String) :=
  (environment.items.mergeSort (fun a b => decide (a.1 ≤ b.1))).filterMap envEntry

variable (environment : Environment)

theorem applyEnvOverrides_eq (cfg : Config) : applyEnvOverrides python environment.items cfg =
    (assign (envParse python) environment.entries cfg).toOption := by
  apply foldlM_applyVariable
  intro item hitem
  exact environment.supported item (List.mem_mergeSort.mp hitem)

theorem entry_supported {item : String × String} (hitem : item ∈ environment.items) {entry : (String × String) × String}
    (h : envEntry item = some entry) :
    ∃ field, fieldOf entry.1 = some field ∧ item = (variableOf entry.1, entry.2) := by
  have hprefix : envPrefix.toList.isPrefixOf item.1.toList = true := by
    by_contra hno
    simp [envEntry, hno] at h
  obtain ⟨key, field, hfield, hname⟩ := environment.supported item hitem hprefix
  obtain ⟨name, text⟩ := item
  simp only at hname
  subst hname
  rw [envEntry_variable hfield] at h
  cases h
  exact ⟨field, hfield, rfl⟩

theorem entries_nodup : (environment.entries.map Prod.fst).Nodup := by
  rw [List.Nodup, List.pairwise_map, Environment.entries, List.pairwise_filterMap]
  have hsorted := (List.mergeSort_perm environment.items (fun a b => decide (a.1 ≤ b.1)))
  have hnodup : ((environment.items.mergeSort (fun a b => decide (a.1 ≤ b.1))).map Prod.fst).Nodup :=
    (hsorted.map Prod.fst).nodup_iff.mpr environment.distinct
  rw [List.Nodup, List.pairwise_map] at hnodup
  apply hnodup.imp_of_mem
  intro item other hitem hother hne entry hentry entry' hentry' heq
  obtain ⟨_, -, hitem⟩ := entry_supported environment (hsorted.mem_iff.mp hitem) hentry
  obtain ⟨_, -, hother⟩ := entry_supported environment (hsorted.mem_iff.mp hother) hentry'
  rw [hitem, hother, heq] at hne
  exact hne rfl

theorem mem_entries (h : fieldOf key = some field) {text : String} :
    (key, text) ∈ environment.entries ↔ environment.get key = some text := by
  rw [Environment.get, lookup_eq_some_iff_mem environment.distinct, Environment.entries, List.mem_filterMap]
  constructor
  · intro ⟨item, hitem, hentry⟩
    have hmem := List.mem_mergeSort.mp hitem
    obtain ⟨_, -, heq⟩ := entry_supported environment hmem hentry
    rwa [heq] at hmem
  · intro hmem
    exact ⟨(variableOf key, text), List.mem_mergeSort.mpr hmem, envEntry_variable h text⟩

end Environ

section Loaded

variable (python : Builtins) {document : Document} {environment : Environment} {key : String × String}
  {field : ConfigField} {cfg : Config}

theorem loadFile_applied {value : Yaml} (hfield : fieldOf key = some field)
    (h : (key, value) ∈ appliedEntries python document) :
    coerce python value (typeOf field.default) = some (loadFile python document.raw key) := by
  rw [loadFile_eq, ← default_eq hfield]
  exact settled_applied h document.distinct

theorem loadFile_unapplied (hfield : fieldOf key = some field)
    (h : ∀ value, (key, value) ∉ appliedEntries python document) :
    loadFile python document.raw key = field.default := by
  rw [loadFile_eq, settled_unassigned h document.distinct]
  exact default_eq hfield

variable {python}

/-- A configuration that is loaded comes from assignments that went through. -/
theorem load_assigned (h : loadConfig python document.raw environment.items = some cfg) :
    assign (envParse python) environment.entries (loadFile python document.raw) = .ok cfg := by
  rw [loadConfig, applyEnvOverrides_eq] at h
  cases hassign : assign (envParse python) environment.entries (loadFile python document.raw) with
  | error left =>
    rw [hassign] at h
    cases h
  | ok loaded =>
    rw [hassign] at h
    cases h
    rfl

theorem load_set (h : loadConfig python document.raw environment.items = some cfg) (hfield : fieldOf key = some field)
    {text : String} (hget : environment.get key = some text) :
    coerce python (.str text) (target field.type) = some (cfg key) := by
  have hassign := load_assigned h
  have hnodup := entries_nodup environment
  have hall := (assign_ok_iff hnodup).mp ⟨cfg, hassign⟩
  have hmem := (mem_entries environment hfield).mpr hget
  have hsettled := settled_applied (by rwa [applied_all hall]) hnodup
  rw [hassign] at hsettled
  simpa only [envParse, hfield, Option.bind_some, settled] using hsettled

theorem load_unset (h : loadConfig python document.raw environment.items = some cfg) (hfield : fieldOf key = some field)
    (hget : environment.get key = none) : cfg key = loadFile python document.raw key := by
  have hassign := load_assigned h
  have hsettled : settled (assign (envParse python) environment.entries (loadFile python document.raw)) key =
      loadFile python document.raw key := by
    apply settled_unassigned _ (entries_nodup environment)
    intro text hmem
    rw [(mem_entries environment hfield).mp (mem_of_applied hmem)] at hget
    cases hget
  rwa [hassign] at hsettled

/-- The configuration is loaded if every variable has a text that is coerced. -/
theorem load_of_texts (h : ∀ key field text, fieldOf key = some field → environment.get key = some text →
    coerce python (.str text) (target field.type) ≠ none) :
    ∃ cfg, loadConfig python document.raw environment.items = some cfg := by
  have hok : ∃ cfg, assign (envParse python) environment.entries (loadFile python document.raw) = .ok cfg := by
    apply (assign_ok_iff (entries_nodup environment)).mpr
    intro ⟨key, text⟩ hmem
    obtain ⟨item, hitem, hentry⟩ := List.mem_filterMap.mp hmem
    obtain ⟨field, hfield, -⟩ := entry_supported environment (List.mem_mergeSort.mp hitem) hentry
    simp only [envParse, hfield, Option.bind_some]
    exact h key field text hfield ((mem_entries environment hfield).mp hmem)
  obtain ⟨cfg, hassign⟩ := hok
  refine ⟨cfg, ?_⟩
  rw [loadConfig, applyEnvOverrides_eq, hassign]
  rfl

/-- What the file and the default make of a list is a list. -/
theorem parse_fallback (hfield : fieldOf key = some field) (hlist : field.type = .list) (raw : Option Yaml) :
    parse python .list ((raw.bind (parse python field.type)).getD field.default) ≠ none := by
  cases hparsed : raw.bind (parse python field.type) with
  | none =>
    have hdefault := parse_default python hfield
    rw [hlist] at hdefault
    rw [Option.getD_none, hdefault]
    exact Option.some_ne_none _
  | some parsed =>
    obtain ⟨value, -, hvalue⟩ := Option.bind_eq_some_iff.mp hparsed
    rw [hlist] at hvalue
    rw [Option.getD_some, ← parse_list python hvalue, hvalue]
    exact Option.some_ne_none _

/-- A field with a variable has the value that is due exactly if the text of the variable parses. -/
theorem set_layered_iff (h : loadConfig python document.raw environment.items = some cfg)
    (hfield : fieldOf key = some field) {text : String} (hget : environment.get key = some text) :
    cfg key = layered python document environment key field ↔ parse python field.type (.str text) ≠ none := by
  have hset := load_set h hfield hget
  rw [coerce_text] at hset
  rw [layered, hget, Option.bind_some]
  by_cases hlist : field.type = .list
  · rw [if_pos hlist] at hset
    have hrefused : parse python field.type (.str text) = none := by
      rw [hlist]
      rfl
    rw [hrefused, Option.none_or, ← Option.some.inj hset]
    refine iff_of_false (fun heq => ?_) (fun hne => hne rfl)
    have hfallback : parse python .list
        (((document.get key).bind (parse python field.type)).getD field.default) ≠ none :=
      parse_fallback hfield hlist (document.get key)
    rw [← heq] at hfallback
    exact hfallback rfl
  · rw [if_neg hlist] at hset
    rw [hset]
    exact iff_of_true rfl (Option.some_ne_none _)

theorem mem_fileEntries {value : Yaml} : (key, value) ∈ fileEntries document.raw ↔ document.get key = some value :=
  (lookup_eq_some_iff_mem document.distinct).symm

/-- A value of the file that is reached is the one that is due exactly if it parses. -/
theorem applied_layered_iff (hfield : fieldOf key = some field) {value : Yaml}
    (h : (key, value) ∈ appliedEntries python document) :
    loadFile python document.raw key = (parse python field.type value).getD field.default ↔
      parse python field.type value ≠ none := by
  have hset := loadFile_applied python hfield h
  rw [coerce_default python hfield] at hset
  by_cases hlist : field.type = .list
  · rw [if_pos hlist] at hset
    cases hparse : parse python field.type value with
    | none =>
      refine iff_of_false (fun heq => ?_) (fun hne => hne rfl)
      have hdefault := parse_default python hfield
      rw [← Option.some.inj hset] at heq
      rw [heq, Option.getD_none, hdefault] at hparse
      cases hparse
    | some parsed =>
      rw [hlist] at hparse
      rw [← Option.some.inj hset, parse_list python hparse]
      exact iff_of_true rfl (Option.some_ne_none _)
  · rw [if_neg hlist] at hset
    rw [hset]
    exact iff_of_true rfl (Option.some_ne_none _)

/-- A field without a variable has the value that is due exactly if what the file has for it, where it is reached,
parses, and where it is not, parses to nothing but the default. -/
theorem unset_layered_iff (h : loadConfig python document.raw environment.items = some cfg)
    (hfield : fieldOf key = some field) (hget : environment.get key = none) :
    cfg key = layered python document environment key field ↔
      (∀ value, (key, value) ∈ appliedEntries python document → parse python field.type value ≠ none) ∧
      ∀ value, document.get key = some value → (key, value) ∉ appliedEntries python document →
        ∀ parsed, parse python field.type value = some parsed → parsed = field.default := by
  rw [load_unset h hfield hget, layered, hget, Option.bind_none, Option.none_or]
  cases hvalue : document.get key with
  | none =>
    have hunapplied : ∀ value, (key, value) ∉ appliedEntries python document := by
      intro value hmem
      rw [mem_fileEntries.mp (mem_of_applied hmem)] at hvalue
      cases hvalue
    refine iff_of_true (loadFile_unapplied python hfield hunapplied) ⟨?_, ?_⟩
    · intro value hmem
      exact absurd hmem (hunapplied value)
    · intro value hsome
      cases hsome
  | some value =>
    have honly : ∀ other, (key, other) ∈ appliedEntries python document → other = value := by
      intro other hmem
      have hother := mem_fileEntries.mp (mem_of_applied hmem)
      rw [hvalue] at hother
      exact (Option.some.inj hother).symm
    rw [Option.bind_some]
    by_cases hmem : (key, value) ∈ appliedEntries python document
    · rw [applied_layered_iff hfield hmem]
      constructor
      · intro hparse
        refine ⟨fun other hother => ?_, fun other hother hunapplied => ?_⟩
        · rw [honly other hother]
          exact hparse
        · cases hother
          exact absurd hmem hunapplied
      · intro hclean
        exact hclean.1 value hmem
    · have hunapplied : ∀ other, (key, other) ∉ appliedEntries python document := by
        intro other hother
        rw [honly other hother] at hother
        exact hmem hother
      rw [loadFile_unapplied python hfield hunapplied]
      constructor
      · intro heq
        refine ⟨fun other hother => absurd hother (hunapplied other), fun other hother _ parsed hparsed => ?_⟩
        cases hother
        rw [hparsed, Option.getD_some] at heq
        exact heq.symm
      · intro hclean
        cases hparse : parse python field.type value with
        | none => rfl
        | some parsed => exact (hclean.2 value rfl hmem parsed hparse).symm

end Loaded

/-- The layers are those of the documentation exactly if the environment and the file are clean. -/
theorem load_layered_iff (python : Builtins) (document : Document) (environment : Environment) :
    Layered python document environment ↔ Clean python document environment := by
  constructor
  · intro ⟨cfg, hload, hfields⟩
    refine ⟨fun key field text hfield hget => ?_, fun key field value hfield hget => ?_,
      fun key field value hfield hget => ?_⟩
    · exact (set_layered_iff hload hfield hget).mp (hfields key field hfield)
    · exact ((unset_layered_iff hload hfield hget).mp (hfields key field hfield)).1 value
    · exact ((unset_layered_iff hload hfield hget).mp (hfields key field hfield)).2 value
  · intro hclean
    have hcoerced : ∀ key field text, fieldOf key = some field → environment.get key = some text →
        coerce python (.str text) (target field.type) ≠ none := by
      intro key field text hfield hget
      rw [coerce_text]
      split
      · exact Option.some_ne_none _
      · exact hclean.texts key field text hfield hget
    have hloaded : ∃ cfg, loadConfig python document.raw environment.items = some cfg := load_of_texts hcoerced
    obtain ⟨cfg, hload⟩ := hloaded
    refine ⟨cfg, hload, fun key field hfield => ?_⟩
    cases hget : environment.get key with
    | none =>
      refine (unset_layered_iff hload hfield hget).mpr ⟨fun value => ?_, fun value => ?_⟩
      · exact hclean.before key field value hfield hget
      · exact hclean.behind key field value hfield hget
    | some text => exact (set_layered_iff hload hfield hget).mpr (hclean.texts key field text hfield hget)

section Refused

/-- A file with a port that is no number, before `auth.enabled`. -/
def refusedPort : Yaml :=
  .map [(.str "server", .map [(.str "port", .str "abc")]), (.str "auth", .map [(.str "enabled", .bool true)])]

theorem refusedPort_distinct : ((fileEntries (some refusedPort)).map Prod.fst).Nodup := by decide

theorem empty_distinct : ((fileEntries none).map Prod.fst).Nodup := by decide

theorem unset_supported : ∀ item ∈ ([] : List (String × String)), envPrefix.toList.isPrefixOf item.1.toList = true →
    ∃ key field, fieldOf key = some field ∧ item.1 = variableOf key :=
  fun _ hitem => absurd hitem List.not_mem_nil

theorem port_supported : ∀ item ∈ [("A2A_REGISTRY_SERVER__PORT", "abc")],
    envPrefix.toList.isPrefixOf item.1.toList = true →
    ∃ key field, fieldOf key = some field ∧ item.1 = variableOf key := by
  intro item hitem _
  rw [List.mem_singleton.mp hitem]
  exact ⟨("server", "port"), ⟨"port", .int, .int 8321⟩, rfl, by decide⟩

/-- With the port of the file refused, authentication stays off; with that of the environment refused, nothing is
loaded. -/
theorem refused_port :
    let python : Builtins := ⟨parseInt, fun _ => none, fun _ => none, fun _ => "", fun _ _ => false⟩
    ¬ Layered python ⟨some refusedPort, refusedPort_distinct⟩ ⟨[], List.nodup_nil, unset_supported⟩ ∧
    ¬ Layered python ⟨none, empty_distinct⟩
      ⟨[("A2A_REGISTRY_SERVER__PORT", "abc")], List.nodup_singleton _, port_supported⟩ := by
  constructor
  · intro ⟨cfg, hload, hfields⟩
    have hfield : fieldOf ("auth", "enabled") = some ⟨"enabled", .bool, .bool false⟩ := rfl
    have henabled := hfields _ _ hfield
    rw [load_unset hload hfield rfl] at henabled
    have hoff : Yaml.bool false = .bool true := henabled
    cases hoff
  · intro ⟨cfg, hload, _⟩
    have hfield : fieldOf ("server", "port") = some ⟨"port", .int, .int 8321⟩ := rfl
    have hget : Environment.get ⟨[("A2A_REGISTRY_SERVER__PORT", "abc")], List.nodup_singleton _, port_supported⟩
        ("server", "port") = some "abc" := rfl
    have hport := load_set hload hfield hget
    cases hport

end Refused

end A2ARegistry.Config
