import Mathlib.Data.List.TakeWhile
import TenantGate.Http.MediaType
import TenantGate.Proofs.Percent

/-!
Media types of JSON. A value declares JSON if it is the type `application`, a name that is `json` up
to its suffix or has the suffix `json`, and well-formed parameters, in letters of any size. A suffix
stands behind the last plus sign that has something before it, so it makes no difference whether
`json` is the name or its suffix.
-/
namespace TenantGate.Http

namespace MediaType

section Runs

variable {p : UInt8 → Bool} {P : List UInt8 → Prop} {b : UInt8} {bytes : List UInt8}

def Run (p : UInt8 → Bool) (P : List UInt8 → Prop) (bytes : List UInt8) : Prop :=
  ∃ run rest, bytes = run ++ rest ∧ (∀ b ∈ run, p b = true) ∧ P rest

theorem run_nil : Run p P [] ↔ P [] := by
  constructor
  · rintro ⟨run, rest, same, _, behind⟩
    obtain ⟨rfl, rfl⟩ := List.nil_eq_append_iff.mp same
    exact behind
  · exact fun behind => ⟨[], [], rfl, by simp, behind⟩

theorem run_cons : Run p P (b :: bytes) ↔ p b = true ∧ Run p P bytes ∨ P (b :: bytes) := by
  constructor
  · rintro ⟨run, rest, same, each, behind⟩
    cases run with
    | nil =>
      obtain rfl : b :: bytes = rest := same
      exact .inr behind
    | cons d run =>
      obtain ⟨rfl, rfl⟩ := List.cons.inj same
      obtain ⟨own, each⟩ := List.forall_mem_cons.mp each
      exact .inl ⟨own, run, rest, rfl, each, behind⟩
  · rintro (⟨own, run, rest, rfl, each, behind⟩ | behind)
    · exact ⟨b :: run, rest, rfl, List.forall_mem_cons.mpr ⟨own, each⟩, behind⟩
    · exact ⟨[], b :: bytes, rfl, by simp, behind⟩

end Runs

section Parameters

def isBlank (b : UInt8) : Bool := b == 0x20

def isInner (b : UInt8) : Bool := 31 < b && b != 127

/-- A value that is a token, or one in quotation marks with blanks behind it. The first byte in
quotation marks may be a quotation mark itself. -/
inductive Value : List UInt8 → Prop where
  | token {b : UInt8} {more : List UInt8} (first : isTokenByte b = true)
      (each : ∀ d ∈ more, isTokenByte d = true) : Value (b :: more)
  | quoted {b : UInt8} {inside blanks : List UInt8} (first : isInner b = true)
      (each : ∀ d ∈ inside, isInner d = true ∧ d ≠ 0x22)
      (blank : ∀ d ∈ blanks, isBlank d = true) : Value (0x22 :: b :: (inside ++ 0x22 :: blanks))

structure Name (bytes : List UInt8) : Prop where
  some : bytes ≠ []
  each : ∀ b ∈ bytes, isTokenByte b = true

inductive Parameters : List UInt8 → Prop where
  | none {blanks : List UInt8} (blank : ∀ b ∈ blanks, isBlank b = true) : Parameters blanks
  | bare {blanks name : List UInt8} (blank : ∀ b ∈ blanks, isBlank b = true)
      (named : Name name) : Parameters (blanks ++ (name ++ [0x3D]))
  | last {blanks name value : List UInt8} (blank : ∀ b ∈ blanks, isBlank b = true)
      (named : Name name) (valued : Value value) : Parameters (blanks ++ (name ++ 0x3D :: value))
  | more {blanks name value rest : List UInt8} (blank : ∀ b ∈ blanks, isBlank b = true)
      (named : Name name) (valued : Value value) (later : Parameters rest) :
      Parameters (blanks ++ (name ++ 0x3D :: (value ++ 0x3B :: rest)))

def Behind (bytes : List UInt8) : Prop :=
  bytes = [] ∨ ∃ rest, bytes = 0x3B :: rest ∧ Parameters rest

def Valued (bytes : List UInt8) : Prop :=
  bytes = [] ∨ ∃ value rest, bytes = value ++ rest ∧ Value value ∧ Behind rest

def Equated (bytes : List UInt8) : Prop := ∃ rest, bytes = 0x3D :: rest ∧ Valued rest

def Unquoted (bytes : List UInt8) : Prop := ∃ rest, bytes = 0x22 :: rest ∧ Run isBlank Behind rest

def isPlain (b : UInt8) : Bool := isInner b && b != 0x22

def Lang : Spot → List UInt8 → Prop
  | .beforeName, bytes => Parameters bytes
  | .name, bytes => Run isTokenByte Equated bytes
  | .beforeValue, bytes => Valued bytes
  | .value, bytes => Run isTokenByte Behind bytes
  | .firstQuoted, bytes =>
    ∃ b rest, bytes = b :: rest ∧ isInner b = true ∧ Run isPlain Unquoted rest
  | .quoted, bytes => Run isPlain Unquoted bytes
  | .behindQuoted, bytes => Run isBlank Behind bytes

variable {b : UInt8} {bytes : List UInt8}

theorem Name.begins {name rest : List UInt8} (named : Name name) (valued : Valued rest) :
    ∃ b more, name ++ 0x3D :: rest = b :: more ∧ isTokenByte b = true ∧
      Run isTokenByte Equated more := by
  obtain ⟨some, each⟩ := named
  cases name with
  | nil => exact absurd rfl some
  | cons b name =>
    obtain ⟨first, each⟩ := List.forall_mem_cons.mp each
    exact ⟨b, name ++ 0x3D :: rest, rfl, first, name, 0x3D :: rest, rfl, each, rest, rfl, valued⟩

theorem parameters_run : Parameters bytes ↔ Run isBlank (fun rest => rest = [] ∨
    ∃ b more, rest = b :: more ∧ isTokenByte b = true ∧ Run isTokenByte Equated more) bytes := by
  constructor
  · intro parameters
    cases parameters with
    | none blank => exact ⟨bytes, [], by simp, blank, .inl rfl⟩
    | bare blank named => exact ⟨_, _, rfl, blank, .inr (named.begins (.inl rfl))⟩
    | @last _ _ value blank named valued =>
      refine ⟨_, _, rfl, blank, .inr (named.begins (.inr ⟨value, [], ?_, valued, .inl rfl⟩))⟩
      exact (List.append_nil value).symm
    | @more _ _ value rest blank named valued later =>
      exact ⟨_, _, rfl, blank,
        .inr (named.begins (.inr ⟨value, _, rfl, valued, .inr ⟨rest, rfl, later⟩⟩))⟩
  · rintro ⟨blanks, _, rfl, blank, rfl | ⟨b, _, rfl, first, name, _, rfl, each, tail, rfl, valued⟩⟩
    · rw [List.append_nil]
      exact .none blank
    · have named : Name (b :: name) :=
        ⟨List.cons_ne_nil b name, List.forall_mem_cons.mpr ⟨first, each⟩⟩
      rcases valued with rfl | ⟨value, _, rfl, valued, rfl | ⟨rest, rfl, later⟩⟩
      · exact .bare blank named
      · rw [List.append_nil]
        exact .last blank named valued
      · exact .more blank named valued later

theorem valued_cons : Valued (b :: bytes) ↔
    b = 0x22 ∧ Lang .firstQuoted bytes ∨ isTokenByte b = true ∧ Run isTokenByte Behind bytes := by
  constructor
  · rintro (none | ⟨value, rest, same, valued, behind⟩)
    · exact absurd none (by simp)
    · cases valued with
      | @token d more first each =>
        obtain ⟨rfl, rfl⟩ := List.cons.inj same
        exact .inr ⟨first, more, rest, rfl, each, behind⟩
      | @quoted d inside blanks first each blank =>
        obtain ⟨rfl, rfl⟩ := List.cons.inj same
        refine .inl ⟨rfl, d, inside ++ 0x22 :: (blanks ++ rest), by simp, first, inside, _, rfl, ?_,
          _, rfl, blanks, rest, rfl, blank, behind⟩
        intro e among
        simp [isPlain, each e among]
  · rintro (⟨rfl, d, _, rfl, first, inside, _, rfl, each, _, rfl, run⟩ |
      ⟨first, more, rest, rfl, each, behind⟩)
    · obtain ⟨blanks, rest, rfl, blank, behind⟩ := run
      refine .inr ⟨0x22 :: d :: (inside ++ 0x22 :: blanks), rest, by simp, ?_, behind⟩
      refine .quoted first (fun e among => ?_) blank
      simpa [isPlain] using each e among
    · exact .inr ⟨b :: more, rest, rfl, .token first each, behind⟩

theorem behind_cons : Behind (b :: bytes) ↔ b = 0x3B ∧ Parameters bytes := by
  simp [Behind, and_assoc]

theorem equated_cons : Equated (b :: bytes) ↔ b = 0x3D ∧ Valued bytes := by
  simp [Equated, and_assoc]

theorem unquoted_cons : Unquoted (b :: bytes) ↔ b = 0x22 ∧ Run isBlank Behind bytes := by
  simp [Unquoted, and_assoc]

theorem parameters_cons : Parameters (b :: bytes) ↔
    b = 0x20 ∧ Parameters bytes ∨ isTokenByte b = true ∧ Run isTokenByte Equated bytes := by
  rw [parameters_run, run_cons, ← parameters_run]
  simp [isBlank, and_assoc]

theorem lang_nil (s : Spot) : Lang s [] ↔ s.isFinal = true := by
  cases s with
  | beforeName => simp [Lang, Spot.isFinal, parameters_run, run_nil]
  | _ => simp [Lang, Spot.isFinal, run_nil, Behind, Valued, Equated, Unquoted]

/-- A run of token bytes goes on, or the byte that may stand behind it leads to the next spot. -/
theorem tokens_step {P : List UInt8 → Prop} {stop : UInt8} {along next : Spot}
    (ends : isTokenByte stop = false) (run : Run isTokenByte P bytes ↔ Lang along bytes)
    (behind : P (b :: bytes) ↔ b = stop ∧ Lang next bytes) :
    Run isTokenByte P (b :: bytes) ↔ ∃ t, (if isTokenByte b then some along else
      if b == stop then some next else none) = some t ∧ Lang t bytes := by
  rw [run_cons, run, behind]
  simp only [beq_iff_eq]
  split
  · rename_i token
    have other : b ≠ stop := by
      rintro rfl
      exact absurd (token.symm.trans ends) (by decide)
    simp [token, other]
  · split <;> simp [*]

theorem lang_cons (s : Spot) (b : UInt8) (bytes : List UInt8) :
    Lang s (b :: bytes) ↔ ∃ next, s.step? b = some next ∧ Lang next bytes := by
  have blank : isTokenByte 0x20 = false := rfl
  have quote : isTokenByte 0x22 = false := rfl
  cases s with
  | beforeName =>
    rw [Lang, parameters_cons]
    simp only [Spot.step?, beq_iff_eq]
    split
    · rename_i same
      simp [Lang, same, blank]
    · split <;> simp [Lang, *]
  | name => exact tokens_step rfl Iff.rfl equated_cons
  | beforeValue =>
    rw [Lang, valued_cons]
    simp only [Spot.step?, beq_iff_eq]
    split
    · rename_i same
      simp [Lang, same, quote]
    · split <;> simp [Lang, *]
  | value => exact tokens_step rfl Iff.rfl behind_cons
  | firstQuoted =>
    simp only [Lang, Spot.step?]
    split
    · rename_i inner
      have inner : isInner b = true := inner
      simp [inner, and_assoc]
    · rename_i control
      have control : ¬ isInner b = true := control
      simp [control, and_assoc]
  | quoted =>
    rw [Lang, run_cons, unquoted_cons]
    simp only [Spot.step?, beq_iff_eq, isPlain]
    split
    · rename_i same
      simp [Lang, same]
    · split
      · rename_i inner
        have inner : isInner b = true := inner
        simp [Lang, *]
      · rename_i control
        have control : ¬ isInner b = true := control
        simp [*]
  | behindQuoted =>
    rw [Lang, run_cons, behind_cons]
    simp only [Spot.step?, beq_iff_eq, isBlank]
    split
    · rename_i same
      simp [Lang, same]
    · split <;> simp [Lang, *]

theorem parametersFit_iff (s : Spot) (bytes : List UInt8) :
    parametersFit s bytes = true ↔ Lang s bytes := by
  induction bytes generalizing s with
  | nil => rw [parametersFit, lang_nil]
  | cons b bytes ih =>
    rw [lang_cons, parametersFit]
    cases s.step? b with
    | none => simp
    | some next => simp [ih]

end Parameters

section Names

inductive JsonName : List UInt8 → Prop where
  | plain : JsonName json
  | suffix {front : List UInt8} (some : front ≠ []) : JsonName (front ++ 0x2B :: json)
  | suffixed {suffix : List UInt8} (last : 0x2B ∉ suffix) : JsonName (json ++ 0x2B :: suffix)

theorem json_bytes : json = [0x6A, 0x73, 0x6F, 0x6E] := by decide +kernel

theorem json_plain : 0x2B ∉ json := by
  rw [json_bytes]
  decide

variable {before behind bytes : List UInt8}

theorem cutSuffix_plain (plain : 0x2B ∉ bytes) : cutSuffix bytes = (bytes, none) := by
  have whole : bytes.reverse.takeWhile (· != 0x2B) = bytes.reverse := by
    rw [List.takeWhile_eq_self_iff]
    intro b among
    rw [bne_iff_ne]
    rintro rfl
    exact plain (List.mem_reverse.mp among)
  simp [cutSuffix, whole]

theorem cutSuffix_plus (last : 0x2B ∉ behind) :
    cutSuffix (before ++ 0x2B :: behind) =
      if before.isEmpty then (before ++ 0x2B :: behind, none) else (before, some behind) := by
  have each : ∀ b ∈ behind.reverse, (b != 0x2B) = true := by
    intro b among
    rw [bne_iff_ne]
    rintro rfl
    exact last (List.mem_reverse.mp among)
  have taken : (before ++ 0x2B :: behind).reverse.takeWhile (· != 0x2B) = behind.reverse := by
    rw [List.reverse_append, List.reverse_cons, List.append_assoc,
      List.takeWhile_append_of_pos each]
    simp
  have shorter : ¬ (behind.length == (before ++ 0x2B :: behind).length) = true := by
    simp
    omega
  have front : (before ++ 0x2B :: behind).take
      ((before ++ 0x2B :: behind).length - behind.length - 1) = before := by
    refine List.take_left' ?_
    simp
    omega
  simp only [cutSuffix, taken, List.length_reverse, List.reverse_reverse, front,
    Bool.eq_false_iff.mpr shorter, Bool.false_or]

theorem cutSuffix_json_iff (bytes : List UInt8) :
    (cutSuffix bytes).1 = json ∨ (cutSuffix bytes).2 = some json ↔ JsonName bytes := by
  constructor
  · intro found
    by_cases plus : 0x2B ∈ bytes
    · obtain ⟨as, bs, same, last⟩ := List.eq_append_cons_of_mem (List.mem_reverse.mpr plus)
      have split : bytes = bs.reverse ++ 0x2B :: as.reverse := by
        rw [← List.reverse_reverse bytes, same]
        simp
      subst split
      have last : 0x2B ∉ as.reverse := by simpa using last
      rw [cutSuffix_plus last] at found
      split at found
      · rename_i none
        rcases found with own | own
        · refine absurd (own ▸ plus) json_plain
        · exact absurd own (by simp)
      · rename_i some
        rcases found with own | own
        · dsimp only at own
          rw [own]
          exact .suffixed last
        · obtain own := Option.some.inj own
          rw [own]
          exact .suffix (by simpa using some)
    · rw [cutSuffix_plain plus] at found
      obtain rfl : bytes = json := by simpa using found
      exact .plain
  · intro named
    cases named with
    | plain => exact .inl (congrArg Prod.fst (cutSuffix_plain json_plain))
    | @suffix front some =>
      rw [cutSuffix_plus json_plain, if_neg (by simpa using some)]
      exact .inr rfl
    | suffixed last =>
      rw [cutSuffix_plus last, if_neg (by rw [json_bytes]; decide)]
      exact .inl rfl

end Names

section Declarations

inductive Declares : List UInt8 → Prop where
  | parts {type name parameters : List UInt8} (isApplication : type.map lowerByte = application)
      (token : ∀ b ∈ name, isTokenByte b = true) (named : JsonName (name.map lowerByte))
      (behind : Behind parameters) : Declares (type ++ 0x2F :: (name ++ parameters))

theorem isJson_iff (m : MediaType) :
    m.isJson = true ↔ m.type = application ∧ (m.subtype = json ∨ m.suffix = some json) := by
  simp [isJson]

theorem token_of_lower {b : UInt8} (token : isTokenByte (lowerByte b) = true) :
    isTokenByte b = true :=
  Text.forall_byte_below (fun b => isTokenByte (lowerByte b) = true → isTokenByte b = true)
    256 (by decide +kernel) b b.toNat_lt token

theorem token_of_application {type : List UInt8}
    (isApplication : type.map lowerByte = application) : ∀ b ∈ type, isTokenByte b = true := by
  intro b among
  have each : ∀ d ∈ application, isTokenByte d = true :=
    List.all_eq_true.mp (by decide +kernel)
  exact token_of_lower (each (lowerByte b) (isApplication ▸ List.mem_map_of_mem among))

theorem JsonName.some {name : List UInt8} (named : JsonName name) : name ≠ [] := by
  cases named with
  | plain =>
    rw [json_bytes]
    exact List.cons_ne_nil _ _
  | suffix _ => simp
  | suffixed _ => simp

theorem token_before {token rest : List UInt8} (each : ∀ b ∈ token, isTokenByte b = true)
    (behind : ∀ b ∈ rest.head?, isTokenByte b = false) :
    (token ++ rest).takeWhile isTokenByte = token ∧
      (token ++ rest).dropWhile isTokenByte = rest := by
  rw [List.takeWhile_append_of_pos each, List.dropWhile_append_of_pos each]
  cases rest with
  | nil => simp
  | cons b rest => simp [behind b rfl]

def ofParts (type name : List UInt8) : MediaType :=
  ⟨type.map lowerByte, (cutSuffix (name.map lowerByte)).1, (cutSuffix (name.map lowerByte)).2⟩

theorem ofBytes?_some {value : List UInt8} {m : MediaType} (found : ofBytes? value = some m) :
    ∃ type name parameters, value = type ++ 0x2F :: (name ++ parameters) ∧
      (∀ b ∈ name, isTokenByte b = true) ∧ Behind parameters ∧ m = ofParts type name := by
  have front := List.takeWhile_append_dropWhile (p := isTokenByte) (l := value)
  simp only [ofBytes?] at found
  split at found
  · rename_i rest slash
    have inner := List.takeWhile_append_dropWhile (p := isTokenByte) (l := rest)
    refine ⟨value.takeWhile isTokenByte, rest.takeWhile isTokenByte, rest.dropWhile isTokenByte,
      by rw [inner, ← slash, front], fun b => List.mem_takeWhile_imp, ?_⟩
    split at found
    · rename_i nothing
      split at found
      · exact absurd found (by simp)
      · exact ⟨.inl nothing, (Option.some.inj found).symm⟩
    · rename_i b more something
      split at found
      · exact absurd found (by simp)
      · rename_i fits
        simp only [Bool.or_eq_true, Bool.not_eq_true', not_or, Bool.not_eq_false,
          Bool.and_eq_true, beq_iff_eq] at fits
        obtain ⟨_, ⟨rfl, _⟩, fits⟩ := fits
        exact ⟨.inr ⟨more, something, (parametersFit_iff .beforeName more).mp fits⟩,
          (Option.some.inj found).symm⟩
  · exact absurd found (by simp)

theorem ofBytes?_parts {type name parameters : List UInt8}
    (isType : type ≠ [] ∧ ∀ b ∈ type, isTokenByte b = true) (named : Name name)
    (behind : Behind parameters) :
    ofBytes? (type ++ 0x2F :: (name ++ parameters)) = some (ofParts type name) := by
  have other : ∀ b ∈ parameters.head?, isTokenByte b = false := by
    rcases behind with rfl | ⟨rest, rfl, _⟩
    · simp
    · intro b front
      obtain rfl := Option.some.inj front
      rfl
  have slashed : ∀ b ∈ (0x2F :: (name ++ parameters)).head?, isTokenByte b = false := by
    intro b front
    obtain rfl := Option.some.inj front
    rfl
  obtain ⟨front, slash⟩ := token_before isType.2 slashed
  obtain ⟨own, left⟩ := token_before named.each other
  simp only [ofBytes?, front, slash, own, left, List.isEmpty_eq_false_iff.mpr isType.1,
    Bool.false_or]
  rcases behind with rfl | ⟨rest, rfl, fits⟩
  · rfl
  · have fits := (parametersFit_iff .beforeName rest).mpr fits
    simp only [List.isEmpty_eq_false_iff.mpr named.some, fits]
    rfl

theorem declares_iff (value : List UInt8) :
    (∃ m, ofBytes? value = some m ∧ m.isJson = true) ↔ Declares value := by
  constructor
  · rintro ⟨m, found, isJson⟩
    obtain ⟨type, name, parameters, rfl, token, behind, rfl⟩ := ofBytes?_some found
    obtain ⟨isApplication, named⟩ := (isJson_iff _).mp isJson
    exact .parts isApplication token ((cutSuffix_json_iff _).mp named) behind
  · rintro ⟨isApplication, token, named, behind⟩
    rename_i type name parameters
    have some : type ≠ [] := by
      rintro rfl
      exact absurd isApplication (by decide +kernel)
    have isName : Name name := ⟨fun none => named.some (by rw [none]; rfl), token⟩
    refine ⟨_, ofBytes?_parts ⟨some, token_of_application isApplication⟩ isName behind, ?_⟩
    exact (isJson_iff _).mpr ⟨isApplication, (cutSuffix_json_iff _).mpr named⟩

end Declarations

end MediaType

/-- The first value of the field counts as text and is a media type of JSON. -/
def DeclaresJson (headers : List Header) : Prop :=
  ∃ value, firstValue? headers "content-type" = some value ∧
    (∀ b ∈ value, Header.isVisibleByte b = true) ∧ MediaType.Declares value

theorem bodyIsJson_iff (headers : List Header) :
    bodyIsJson headers = true ↔ DeclaresJson headers := by
  rw [bodyIsJson, DeclaresJson]
  cases firstValue? headers "content-type" with
  | none => simp
  | some value =>
    rw [Bool.and_eq_true, List.all_eq_true]
    have declares := MediaType.declares_iff value
    cases found : MediaType.ofBytes? value with
    | none => simp [← declares, found]
    | some m => simp [← declares, found]

end TenantGate.Http
