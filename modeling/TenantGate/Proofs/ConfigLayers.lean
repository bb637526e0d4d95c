import Mathlib.Data.List.Induction
import TenantGate.Startup.Config

/-!
Layers of a configuration. A field holds what its last variable gives it, else what stands for it in
the file, else its standard value. What stands for it in a lower layer has no part in it, nor have
other fields and other variables. A value that does not fit its field ends the loading; it never
makes room for one of a lower layer. Empty tables in the file are no values.
-/
namespace TenantGate.Startup

inductive Field where
  | host
  | port
  | authUrl
  | endUsersUrl
  | organizationsUrl
  | serviceToken
  | settingsSeconds
  | timeoutSeconds
deriving Repr, DecidableEq

inductive Content where
  | nothing
  | text (s : String)
  | number (n : Nat)
deriving Repr, DecidableEq

def Content.ofToken (t : Option String) : Content := t.elim .nothing .text

namespace Field

def key : Field → String
  | host => "host"
  | port => "port"
  | authUrl => "auth_url"
  | endUsersUrl => "end_users_url"
  | organizationsUrl => "organizations_url"
  | serviceToken => "service_token"
  | settingsSeconds => "settings_cache_ttl_secs"
  | timeoutSeconds => "request_timeout_secs"

def convert (f : Field) (v : Value) : Option Content :=
  match f with
  | host | authUrl | endUsersUrl | organizationsUrl | serviceToken =>
    (Sourced.text ⟨v, none⟩).toOption.map .text
  | port => (Sourced.natural16 ⟨v, none⟩).toOption.map fun n => .number n.toNat
  | settingsSeconds | timeoutSeconds => (Sourced.natural ⟨v, none⟩).toOption.map .number

end Field

namespace Config

def content (c : Config) : Field → Content
  | .host => .text c.host
  | .port => .number c.port.toNat
  | .authUrl => .text c.authUrl
  | .endUsersUrl => .text c.endUsersUrl
  | .organizationsUrl => .text c.organizationsUrl
  | .serviceToken => Content.ofToken c.serviceToken
  | .settingsSeconds => .number c.settingsSeconds
  | .timeoutSeconds => .number c.timeoutSeconds

end Config

def Field.take (f : Field) (v? : Option Value) : Option Content :=
  v?.elim (some (Config.standard.content f)) f.convert

def Value.isEmptyTable : Value → Bool
  | .table isEmpty => isEmpty
  | _ => false

def Said.value? (said : Said) (key : String) : Option Value := (said.lookup key).map Sourced.value

section Fields

variable {α : Type}

def Said.content? (said : Said) (key : String) (read : Sourced → Except Mismatch α)
    (otherwise : α) (holds : α → Content) : Option Content :=
  (said.value? key).elim (some (holds otherwise)) fun v => (read ⟨v, none⟩).toOption.map holds

/-- Where a value comes from shows in faults alone. -/
def Blind (read : Sourced → Except Mismatch α) : Prop :=
  ∀ v o, (read ⟨v, o⟩).toOption = (read ⟨v, none⟩).toOption

theorem field_ok_iff {said : Said} {key : String} {read : Sourced → Except Mismatch α}
    {otherwise a : α} {holds : α → Content} (blind : Blind read)
    (injective : ∀ a b, holds a = holds b → a = b) :
    Config.field said key read otherwise = .ok a ↔
      said.content? key read otherwise holds = some (holds a) := by
  rw [Config.field, Said.content?, Said.value?]
  cases said.lookup key with
  | none =>
    simp only [Option.map_none, Option.elim_none, Except.ok.injEq, Option.some.injEq]
    exact ⟨fun same => by rw [same], injective _ _⟩
  | some v =>
    simp only [Option.map_some, Option.elim_some, ← blind v.value v.origin]
    cases read v with
    | ok b =>
      simp only [Except.ok.injEq, Except.toOption, Option.map_some, Option.some.injEq]
      exact ⟨fun same => by rw [same], injective _ _⟩
    | error m => simp [Except.toOption]

theorem text_blind : Blind Sourced.text := by
  intro v o
  cases v <;> rfl

theorem token_blind : Blind fun v => v.text.map some := by
  intro v o
  cases v <;> rfl

theorem natural_blind : Blind Sourced.natural := by
  intro v o
  cases v with
  | integer i =>
    simp only [Sourced.natural]
    split <;> rfl
  | text s =>
    simp only [Sourced.natural]
    split <;> rfl
  | boolean | float | list | table => rfl

theorem natural16_eq (v : Sourced) : v.natural16.toOption =
    v.natural.toOption.bind fun n => if n < 65536 then some (UInt16.ofNat n) else none := by
  rw [Sourced.natural16]
  cases v.natural with
  | error m => rfl
  | ok n =>
    by_cases small : n < 65536 <;> simp [small, Except.toOption]

theorem natural16_blind : Blind Sourced.natural16 := by
  intro v o
  rw [natural16_eq, natural16_eq, natural_blind]

theorem bind_ok_iff {ε α β : Type} {first : Except ε α} {second : α → Except ε β} {b : β} :
    (first >>= second) = .ok b ↔ ∃ a, first = .ok a ∧ second a = .ok b := by
  cases first with
  | error e => simp [bind, Except.bind]
  | ok a => simp [bind, Except.bind]

end Fields

theorem content?_token (said : Said) (key : String) :
    said.content? key (fun v => v.text.map some) none Content.ofToken =
      (said.value? key).elim (some .nothing) fun v =>
        (Sourced.text ⟨v, none⟩).toOption.map Content.text := by
  rw [Said.content?]
  cases said.value? key with
  | none => rfl
  | some v => cases v <;> rfl

theorem ofSaid_ok_iff {said : Said} {config : Config} :
    Config.ofSaid said = .ok config ↔
      ∀ f : Field, f.take (said.value? f.key) = some (config.content f) := by
  have text (key otherwise s : String) : Config.field said key Sourced.text otherwise = .ok s ↔
      said.content? key Sourced.text otherwise Content.text = some (Content.text s) :=
    field_ok_iff text_blind fun _ _ => Content.text.inj
  have number (key : String) (otherwise n : Nat) :
      Config.field said key Sourced.natural otherwise = .ok n ↔
        said.content? key Sourced.natural otherwise Content.number = some (Content.number n) :=
    field_ok_iff natural_blind fun _ _ => Content.number.inj
  have port (key : String) (otherwise n : UInt16) :
      Config.field said key Sourced.natural16 otherwise = .ok n ↔
        said.content? key Sourced.natural16 otherwise (fun n => Content.number n.toNat) =
          some (Content.number n.toNat) :=
    field_ok_iff natural16_blind fun _ _ same => UInt16.toNat_inj.mp (Content.number.inj same)
  have token (key : String) (t : Option String) :
      Config.field said key (fun v => v.text.map some) none = .ok t ↔
        said.content? key (fun v => v.text.map some) none Content.ofToken =
          some (Content.ofToken t) := by
    refine field_ok_iff token_blind ?_
    rintro (_ | s) (_ | t) <;> simp [Content.ofToken]
  -- the fields are read in turn, but none of them looks at what another one came to
  have fields : Config.ofSaid said = .ok config ↔
      Config.field said "host" Sourced.text Config.standard.host = .ok config.host ∧
      Config.field said "port" Sourced.natural16 Config.standard.port = .ok config.port ∧
      Config.field said "auth_url" Sourced.text Config.standard.authUrl = .ok config.authUrl ∧
      Config.field said "end_users_url" Sourced.text Config.standard.endUsersUrl =
        .ok config.endUsersUrl ∧
      Config.field said "organizations_url" Sourced.text Config.standard.organizationsUrl =
        .ok config.organizationsUrl ∧
      Config.field said "service_token" (fun v => v.text.map some) none =
        .ok config.serviceToken ∧
      Config.field said "settings_cache_ttl_secs" Sourced.natural
        Config.standard.settingsSeconds = .ok config.settingsSeconds ∧
      Config.field said "request_timeout_secs" Sourced.natural Config.standard.timeoutSeconds =
        .ok config.timeoutSeconds := by
    simp only [Config.ofSaid, bind_ok_iff]
    constructor
    · rintro ⟨_, host, _, port, _, auth, _, users, _, organizations, _, token, _, seconds, _,
        timeout, same⟩
      cases same
      exact ⟨host, port, auth, users, organizations, token, seconds, timeout⟩
    · rintro ⟨host, port, auth, users, organizations, token, seconds, timeout⟩
      exact ⟨_, host, _, port, _, auth, _, users, _, organizations, _, token, _, seconds, _,
        timeout, rfl⟩
  rw [fields, text, port, text, text, text, token, number, number, content?_token]
  constructor
  · rintro ⟨host, port, auth, users, organizations, token, seconds, timeout⟩ f
    cases f with
    | host => exact host
    | port => exact port
    | authUrl => exact auth
    | endUsersUrl => exact users
    | organizationsUrl => exact organizations
    | serviceToken => exact token
    | settingsSeconds => exact seconds
    | timeoutSeconds => exact timeout
  · intro each
    exact ⟨each .host, each .port, each .authUrl, each .endUsersUrl, each .organizationsUrl,
      each .serviceToken, each .settingsSeconds, each .timeoutSeconds⟩

/-- What an entry says about a key. An entry about a part of its value makes a table or a list of
it, and an empty table says nothing. -/
def about (key : String) (entry : String × Value) : Option Value :=
  match Part.ofText? entry.1, entry.2 with
  | some (named, .whole), v => if named == key && !v.isEmptyTable then some v else none
  | some (named, .member), _ => if named == key then some (.table false) else none
  | some (named, .item), _ => if named == key then some .list else none
  | none, _ => none

def lastSaid (key : String) (entries : List (String × Value)) : Option Value :=
  entries.reverse.findSome? (about key)

theorem lookup_front {α : Type} (key other : String) (a : α) (more : List (String × α)) :
    ((key, a) :: more).lookup other = if key = other then some a else more.lookup other := by
  rw [List.lookup_cons]
  by_cases same : key = other
  · simp [same]
  · simp [same, beq_eq_false_iff_ne.mpr (Ne.symm same)]

theorem lookup_replace (said : Said) (key other : String) (v : Sourced) :
    (said.replace key v).lookup other = if key = other then some v else said.lookup other := by
  induction said with
  | nil => rw [Said.replace, lookup_front]
  | cons pair more ih =>
    obtain ⟨k, old⟩ := pair
    rw [Said.replace]
    by_cases here : k = key
    · subst here
      rw [if_pos (beq_self_eq_true k), lookup_front, lookup_front]
      by_cases same : k = other <;> simp [same]
    · rw [if_neg (by simpa using here), lookup_front, lookup_front, ih]
      by_cases same : key = other
      · simp [← same, here]
      · simp [same]

theorem value?_replace (said : Said) (key other : String) (v : Sourced) :
    (said.replace key v).value? other =
      (if key == other then some v.value else none).or (said.value? other) := by
  rw [Said.value?, lookup_replace, Said.value?]
  by_cases same : key = other <;> simp [same]

theorem value?_add (said : Said) (key : String) (entry : String × Value) (o : Option String) :
    (said.add entry.1 ⟨entry.2, o⟩).value? key = (about key entry).or (said.value? key) := by
  obtain ⟨text, v⟩ := entry
  rw [Said.add, about]
  cases Part.ofText? text with
  | none => rfl
  | some part =>
    obtain ⟨named, part⟩ := part
    cases part with
    | member => exact value?_replace said named key ⟨.table false, none⟩
    | item =>
      simp only
      split
      · rename_i o listed
        by_cases same : named = key
        · simp [← same, Said.value?, listed]
        · simp [same]
      · exact value?_replace said named key ⟨.list, none⟩
    | whole =>
      cases v with
      | table isEmpty =>
        cases isEmpty
        · simpa [Value.isEmptyTable] using value?_replace said named key ⟨.table false, none⟩
        · simp [Value.isEmptyTable]
      | _ => simpa [Value.isEmptyTable] using value?_replace said named key _

theorem value?_foldl (key : String) (o : Option String) (entries : List (String × Value))
    (said : Said) :
    (entries.foldl (fun said entry => said.add entry.1 ⟨entry.2, o⟩) said).value? key =
      (lastSaid key entries).or (said.value? key) := by
  induction entries using List.reverseRecOn with
  | nil => rfl
  | append_singleton entries entry ih =>
    rw [List.foldl_append, List.foldl_cons, List.foldl_nil, value?_add, ih, lastSaid, lastSaid,
      List.reverse_concat, List.findSome?_cons]
    cases about key entry <;> rfl

def fileEntries? (file : Option String) : Option (List (String × Value)) :=
  match file with
  | some text =>
    (Toml.parse? text).map fun entries => entries.map fun (key, v) => (smallLetters key, v)
  | none => some []

def variableEntries (environment : List (String × String)) : List (String × Value) :=
  environment.filterMap fun (name, text) =>
    (variableKey? name).map fun key => (key, variableValue text)

theorem foldl_addVariable (environment : List (String × String)) (said : Said) :
    environment.foldl Said.addVariable said =
      (variableEntries environment).foldl
        (fun said entry => said.add entry.1 ⟨entry.2, some "the environment"⟩) said := by
  rw [variableEntries, List.foldl_filterMap]
  congr 1
  funext said ⟨name, text⟩
  cases named : variableKey? name <;> simp [Said.addVariable, named]

/-- What loading comes to: the file has no mistake, and each field can hold what is said about it
last, in the variables or else in the file. -/
theorem load_ok_iff {file : Option String} {environment : List (String × String)}
    {config : Config} :
    Config.load file environment = .ok config ↔
      ∃ entries, fileEntries? file = some entries ∧
        ∀ f : Field, f.take ((lastSaid f.key (variableEntries environment)).or
          (lastSaid f.key entries)) = some (config.content f) := by
  have said (start : Said) (entries : List (String × Value))
      (given : ∀ f : Field, start.value? f.key = lastSaid f.key entries) :
      Config.ofSaid (environment.foldl Said.addVariable start) = .ok config ↔
        ∀ f : Field, f.take ((lastSaid f.key (variableEntries environment)).or
          (lastSaid f.key entries)) = some (config.content f) := by
    rw [ofSaid_ok_iff]
    refine forall_congr' fun f => ?_
    rw [foldl_addVariable, value?_foldl, given]
  cases file with
  | none => simp [Config.load, fileEntries?, said [] [] fun _ => rfl, bind, Except.bind]
  | some text =>
    cases read : Toml.parse? text with
    | none => simp [Config.load, fileEntries?, Said.addFile, read, bind, Except.bind]
    | some entries =>
      simp only [Config.load, fileEntries?, Said.addFile, read, bind, Except.bind, Option.map_some,
        Option.some.injEq, exists_eq_left']
      refine said _ _ fun f => ?_
      have last := value?_foldl f.key (some configFileName)
        (entries.map fun (key, v) => (smallLetters key, v)) []
      rw [List.foldl_map] at last
      exact last.trans Option.or_none

def variableText? (environment : List (String × String)) (f : Field) : Option String :=
  (environment.reverse.find? fun (name, _) => smallLetters name == "tenancy__" ++ f.key).map (·.2)

def lastValue? (f : Field) (entries : List (String × Value)) : Option Value :=
  (entries.reverse.find? fun (key, v) => smallLetters key == f.key && !v.isEmptyTable).map (·.2)

/-- Where a field has its value from: the text of a variable, or an entry of the file. -/
inductive Source where
  | variable (text : String)
  | entry (v : Value)
deriving Repr

def Source.value : Source → Value
  | .variable text => variableValue text
  | .entry v => v

def source? (file : Option String) (environment : List (String × String)) (f : Field) :
    Option Source :=
  ((variableText? environment f).map .variable).or
    (((file.bind Toml.parse?).bind (lastValue? f)).map .entry)

theorem source?_variable {environment : List (String × String)} {f : Field} {text : String}
    (found : variableText? environment f = some text) (file : Option String) :
    source? file environment f = some (.variable text) := by
  rw [source?, found]
  rfl

theorem ofText?_key (f : Field) : Part.ofText? f.key = some (f.key, .whole) := by
  cases f <;> decide +kernel

theorem eq_of_whole {text named : String} (read : Part.ofText? text = some (named, .whole)) :
    text = named := by
  rw [Part.ofText?] at read
  split at read
  · cases read
  · rw [Option.some.injEq, Prod.mk.injEq] at read
    obtain ⟨rfl, rest⟩ := read
    have nothing : text.toList.drop (text.toList.takeWhile Part.isKeyChar).length = [] := by
      cases trail : text.toList.drop (text.toList.takeWhile Part.isKeyChar).length with
      | nil => rfl
      | cons c more =>
        rw [trail] at rest
        simp only [List.head?_cons] at rest
        split at rest <;> simp_all
    rw [(List.takeWhile_prefix Part.isKeyChar).eq_of_length_le (List.drop_eq_nil_iff.mp nothing),
      String.ofList_toList]

def IsSplit (v? : Option Value) : Prop := v? = some (.table false) ∨ v? = some .list

theorem about_cases (f : Field) (entry : String × Value) :
    (about f.key entry =
        if entry.1 == f.key && !entry.2.isEmptyTable then some entry.2 else none) ∨
      IsSplit (about f.key entry) := by
  obtain ⟨text, v⟩ := entry
  by_cases here : text = f.key
  · subst here
    left
    simp [about, ofText?_key]
  · rw [about]
    cases read : Part.ofText? text with
    | none => exact .inl (by simp [here])
    | some part =>
      obtain ⟨named, part⟩ := part
      by_cases same : named = f.key
      · cases part with
        | whole => exact absurd ((eq_of_whole read).trans same) here
        | member => exact .inr (.inl (by simp [same]))
        | item => exact .inr (.inr (by simp [same]))
      · cases part <;> exact .inl (by simp [same, here])

theorem findSome?_cases {α : Type} {said : α → Option Value} {whole : α → Bool} {value : α → Value}
    (each : ∀ a, (said a = if whole a then some (value a) else none) ∨ IsSplit (said a))
    (entries : List α) : entries.findSome? said = (entries.find? whole).map value ∨
      IsSplit (entries.findSome? said) := by
  induction entries with
  | nil => exact .inl rfl
  | cons a more ih =>
    rw [List.findSome?_cons, List.find?_cons]
    rcases each a with plain | split
    · rw [plain]
      by_cases here : whole a = true
      · simp [here]
      · simpa [here] using ih
    · rcases split with split | split
      · exact .inr (by simp [split, IsSplit])
      · exact .inr (by simp [split, IsSplit])

theorem pointed_plain {cs : List Char} (plain : '.' ∉ pointed cs) : pointed cs = cs := by
  fun_induction pointed cs with
  | case1 cs ih => simp at plain
  | case2 c cs _ ih =>
    rw [ih fun later => plain (List.mem_cons_of_mem c later)]
  | case3 => rfl

theorem variableKey?_eq_some_iff {name : String} (f : Field) :
    variableKey? name = some f.key ↔ smallLetters name = "tenancy__" ++ f.key := by
  have plain : '.' ∉ f.key.toList := by cases f <;> decide +kernel
  have kept : pointed f.key.toList = f.key.toList := by cases f <;> decide +kernel
  rw [variableKey?]
  constructor
  · intro named
    split at named
    · rename_i marked
      obtain ⟨rest, whole⟩ := List.isPrefixOf_iff_prefix.mp marked
      rw [← whole, List.drop_left, Option.some.injEq] at named
      have chars : pointed rest = f.key.toList := by rw [← named, String.toList_ofList]
      have same : rest = f.key.toList := by rw [← chars, pointed_plain (chars ▸ plain)]
      rw [← String.toList_inj, ← whole, same, String.toList_append]
      rfl
    · cases named
  · intro same
    have chars : (smallLetters name).toList = variableMark ++ f.key.toList := by
      rw [same, String.toList_append]
      rfl
    rw [chars, if_pos (List.isPrefixOf_iff_prefix.mpr (List.prefix_append _ _)), List.drop_left,
      kept, String.ofList_toList]

theorem isEmptyTable_variableValue (text : String) : (variableValue text).isEmptyTable = false := by
  unfold variableValue
  split
  · rfl
  · split
    · rfl
    · split
      · rfl
      · split <;> rfl

theorem lastSaid_variables (f : Field) (environment : List (String × String)) :
    lastSaid f.key (variableEntries environment) =
        (variableText? environment f).map variableValue ∨
      IsSplit (lastSaid f.key (variableEntries environment)) := by
  let said : String × String → Option Value := fun (name, text) =>
    (variableKey? name).bind fun key => about f.key (key, variableValue text)
  have last : lastSaid f.key (variableEntries environment) = environment.reverse.findSome? said := by
    rw [lastSaid, variableEntries, ← List.filterMap_reverse, ← List.head?_filterMap,
      List.filterMap_filterMap, List.head?_filterMap]
    congr 1
    funext ⟨name, text⟩
    cases named : variableKey? name <;> simp [said, named]
  have each (a : String × String) :
      (said a = if smallLetters a.1 == "tenancy__" ++ f.key then some (variableValue a.2) else none) ∨
        IsSplit (said a) := by
    obtain ⟨name, text⟩ := a
    by_cases here : smallLetters name = "tenancy__" ++ f.key
    · have named := (variableKey?_eq_some_iff f).mpr here
      have whole := about_cases f (f.key, variableValue text)
      simp only [isEmptyTable_variableValue] at whole
      simpa [said, named, here] using whole
    · cases named : variableKey? name with
      | none => exact .inl (by simp [said, named, here])
      | some key =>
        have other : key ≠ f.key := by
          rintro rfl
          exact here ((variableKey?_eq_some_iff f).mp named)
        simpa [said, named, here, other] using about_cases f (key, variableValue text)
  rw [last, variableText?, Option.map_map]
  exact findSome?_cases each _

theorem lastSaid_file (f : Field) (entries : List (String × Value)) :
    lastSaid f.key (entries.map fun (key, v) => (smallLetters key, v)) = lastValue? f entries ∨
      IsSplit (lastSaid f.key (entries.map fun (key, v) => (smallLetters key, v))) := by
  rw [lastSaid, ← List.map_reverse, List.findSome?_map]
  exact findSome?_cases (fun a => about_cases f (smallLetters a.1, a.2)) _

theorem take_split {f : Field} {v? : Option Value} (split : IsSplit v?) : f.take v? = none := by
  rcases split with rfl | rfl <;> cases f <;> rfl

theorem lastSaid_entries {file : Option String} {entries : List (String × Value)}
    (read : fileEntries? file = some entries) (f : Field) :
    lastSaid f.key entries = (file.bind Toml.parse?).bind (lastValue? f) ∨
      IsSplit (lastSaid f.key entries) := by
  cases file with
  | none =>
    cases read
    exact .inl rfl
  | some text =>
    rw [fileEntries?] at read
    obtain ⟨raw, parsed, rfl⟩ := Option.map_eq_some_iff.mp read
    rw [Option.bind_some, parsed, Option.bind_some]
    exact lastSaid_file f raw

theorem take_of_load {file : Option String} {environment : List (String × String)}
    {config : Config} (loaded : Config.load file environment = .ok config) (f : Field) :
    f.take ((source? file environment f).map Source.value) = some (config.content f) := by
  obtain ⟨entries, read, each⟩ := load_ok_iff.mp loaded
  have held := each f
  have unsplit {v? : Option Value} (split : IsSplit v?) : f.take v? ≠ some (config.content f) := by
    rw [take_split split]
    exact nofun
  rw [source?]
  rcases lastSaid_variables f environment with plain | split
  · rw [plain] at held
    cases text : variableText? environment f with
    | some text =>
      rw [text] at held
      exact held
    | none =>
      rw [text, Option.map_none, Option.none_or] at held
      rcases lastSaid_entries read f with plain | split
      · rw [Option.map_none, Option.none_or, Option.map_map, ← held, plain]
        exact congrArg f.take Option.map_id'
      · exact absurd held (unsplit split)
  · refine absurd held (unsplit ?_)
    rcases split with last | last
    · exact .inl (by rw [last]; rfl)
    · exact .inr (by rw [last]; rfl)

theorem misfit_ends_loading {file : Option String} {environment : List (String × String)}
    {f : Field} {source : Source} (found : source? file environment f = some source)
    (misfit : f.convert source.value = none) :
    ∃ fault, Config.load file environment = .error fault := by
  cases loaded : Config.load file environment with
  | error fault => exact ⟨fault, rfl⟩
  | ok config =>
    have held := take_of_load loaded f
    rw [found] at held
    exact absurd held (by simp [Field.take, misfit])

/-- Layers count field by field. Of two configurations, however they differ otherwise, a field holds
the same if it has the same source: the text of its last variable, else its last entry in the file
that is no empty table, else its standard value. And where the source does not fit the field there
is no configuration, whatever a lower layer holds. -/
theorem layers_override_field_by_field (f : Field) :
    (∀ file file' environment environment' config config',
      Config.load file environment = .ok config → Config.load file' environment' = .ok config' →
      source? file environment f = source? file' environment' f →
      config.content f = config'.content f) ∧
    (∀ file environment source, source? file environment f = some source →
      f.convert source.value = none →
      ∃ fault, Config.load file environment = .error fault) := by
  refine ⟨?_, fun _ _ _ => misfit_ends_loading⟩
  -- both configurations hold what the one source gives the field
  intro file file' environment environment' config config' loaded loaded' same
  have held := take_of_load loaded f
  rw [same, take_of_load loaded' f] at held
  exact (Option.some.inj held).symm

theorem port_of_variable_counts :
    Config.load (some "port = 1\nhost = \"inner\"\n") [("TENANCY__PORT", "9")] =
        .ok { Config.standard with host := "inner", port := 9 } ∧
    Config.load none [("LOG_JSON", "1"), ("tenancy__Port", "9")] =
        .ok { Config.standard with port := 9 } ∧
    Config.content { Config.standard with host := "inner", port := 9 } .port =
        Config.content { Config.standard with port := 9 } .port ∧
    ∃ fault, Config.load (some "port = 7\n") [("TENANCY__PORT", "x")] = .error fault := by
  have first : Config.load (some "port = 1\nhost = \"inner\"\n") [("TENANCY__PORT", "9")] =
      .ok { Config.standard with host := "inner", port := 9 } := by decide +kernel
  have second : Config.load none [("LOG_JSON", "1"), ("tenancy__Port", "9")] =
      .ok { Config.standard with port := 9 } := by decide +kernel
  have found (file : Option String) : source? file [("TENANCY__PORT", "9")] .port =
      some (.variable "9") := source?_variable (by decide +kernel) file
  have alike (file : Option String) : source? file [("LOG_JSON", "1"), ("tenancy__Port", "9")] .port =
      some (.variable "9") := source?_variable (by decide +kernel) file
  have misfit (file : Option String) : source? file [("TENANCY__PORT", "x")] .port =
      some (.variable "x") := source?_variable (by decide +kernel) file
  exact ⟨first, second,
    (layers_override_field_by_field .port).1 _ _ _ _ _ _ first second
      ((found _).trans (alike _).symm),
    (layers_override_field_by_field .port).2 _ _ _ (misfit _) (by decide +kernel)⟩

/-- An empty table in the file fits no field and still does not end the loading: the field has its
standard value. -/
theorem empty_table_is_no_value :
    Toml.parse? "[auth_url]\n" = some [("auth_url", .table true)] ∧
    Field.authUrl.convert (.table true) = none ∧
    Config.load (some "[auth_url]\n") [] = .ok Config.standard := by
  exact ⟨by rfl, by decide, by decide +kernel⟩

end TenantGate.Startup
