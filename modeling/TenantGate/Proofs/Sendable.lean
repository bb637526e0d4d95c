import TenantGate.Proofs.Addresses
import TenantGate.Proofs.Exchanges
import TenantGate.Proofs.Utf8Reading

/-!
To which addresses requests can be sent. The text of an address that has more segments differs from
that of its base only behind the authority, and there it has no byte that a target may not have. So
segments can be added to every address that requests can be sent to, and requests can be sent to
the longer one unless its text gets too long.
-/
namespace TenantGate

namespace Http.Uri

variable {bytes more : List UInt8}

def isPlainByte (b : UInt8) : Bool := isPathByte b && isQueryByte b

def IsTail (bytes : List UInt8) : Prop :=
  ∃ path query, bytes = path ++ query ∧ (∀ b ∈ path, isPlainByte b = true) ∧
    (query = [] ∨ ∃ asked, query = 0x3F :: asked ∧ ∀ b ∈ asked, isQueryByte b = true)

theorem IsTail.isQueryByte (tail : IsTail bytes) : ∀ b ∈ bytes, isQueryByte b = true := by
  obtain ⟨path, query, rfl, plain, ends⟩ := tail
  intro b among
  rcases List.mem_append.mp among with inPath | inQuery
  · have both := plain b inPath
    rw [isPlainByte, Bool.and_eq_true] at both
    exact both.2
  · rcases ends with rfl | ⟨asked, rfl, valid⟩
    · exact absurd inQuery List.not_mem_nil
    · rcases List.mem_cons.mp inQuery with rfl | later
      · decide
      · exact valid b later

theorem readQuery?_isSome (valid : ∀ b ∈ bytes, isQueryByte b = true) :
    (readQuery? bytes).isSome = true := by
  induction bytes with
  | nil => rfl
  | cons b rest ih =>
    unfold readQuery?
    split
    · rfl
    · rw [if_pos (valid b List.mem_cons_self), Option.isSome_map]
      exact ih fun c among => valid c (List.mem_cons_of_mem b among)

theorem readQuery?_swap {front : List UInt8} (read : (readQuery? (front ++ more)).isSome = true)
    (valid : ∀ b ∈ bytes, isQueryByte b = true) :
    (readQuery? (front ++ bytes)).isSome = true := by
  induction front with
  | nil => exact readQuery?_isSome valid
  | cons b front ih =>
    simp only [List.cons_append] at read ⊢
    unfold readQuery? at read ⊢
    split
    · rfl
    · rename_i other
      rw [if_neg other] at read
      split
      · rename_i byte
        rw [if_pos byte, Option.isSome_map] at read
        rw [Option.isSome_map]
        exact ih read
      · rename_i invalid
        rw [if_neg invalid] at read
        exact read

theorem readPath?_isSome (tail : IsTail bytes) : (readPath? bytes).isSome = true := by
  obtain ⟨path, query, rfl, plain, ends⟩ := tail
  induction path with
  | nil =>
    rcases ends with rfl | ⟨asked, rfl, valid⟩
    · rfl
    · unfold readPath?
      simp only [List.nil_append, beq_self_eq_true, ↓reduceIte, Option.isSome_map]
      exact readQuery?_isSome valid
  | cons b path ih =>
    have both := plain b List.mem_cons_self
    rw [isPlainByte, Bool.and_eq_true] at both
    have rest := ih fun c among => plain c (List.mem_cons_of_mem b among)
    simp only [List.cons_append]
    unfold readPath?
    split
    · rename_i mark
      obtain rfl := beq_iff_eq.mp mark
      exact absurd both.1 (by decide)
    · split
      · rfl
      · rw [if_pos both.1, Option.isSome_map]
        exact rest

theorem readPath?_swap {front : List UInt8} (read : (readPath? (front ++ more)).isSome = true)
    (tail : IsTail bytes) : (readPath? (front ++ bytes)).isSome = true := by
  induction front with
  | nil => exact readPath?_isSome tail
  | cons b front ih =>
    simp only [List.cons_append] at read ⊢
    unfold readPath? at read ⊢
    split
    · rename_i mark
      rw [if_pos mark, Option.isSome_map] at read
      rw [Option.isSome_map]
      exact readQuery?_swap read tail.isQueryByte
    · rename_i noMark
      rw [if_neg noMark] at read
      split
      · rfl
      · rename_i noSign
        rw [if_neg noSign] at read
        split
        · rename_i byte
          rw [if_pos byte, Option.isSome_map] at read
          rw [Option.isSome_map]
          exact ih read
        · rename_i invalid
          rw [if_neg invalid] at read
          exact read

theorem behindAuthority?_swap (front : List UInt8) (a : Authority) (some? : Bool) :
    (∀ rest, behindAuthority? a some? (front ++ 0x2F :: rest) = none) ∨
      ∃ any left, ∀ rest,
        behindAuthority? a some? (front ++ 0x2F :: rest) = some (any, left ++ 0x2F :: rest) := by
  induction front generalizing a some? with
  | nil =>
    by_cases complete : a.isComplete = true
    · exact .inr ⟨some?, [], fun rest => by simp [behindAuthority?, complete]⟩
    · exact .inl fun rest => by simp [behindAuthority?, complete]
  | cons b front ih =>
    by_cases ends : (b == 0x2F || b == 0x3F || b == 0x23) = true
    · by_cases complete : a.isComplete = true
      · refine .inr ⟨some?, b :: front, fun rest => ?_⟩
        rw [List.cons_append, behindAuthority?, if_pos ends, if_pos complete]
      · refine .inl fun rest => ?_
        rw [List.cons_append, behindAuthority?, if_pos ends, if_neg complete]
    · cases stepped : a.step? b with
      | none =>
        refine .inl fun rest => ?_
        rw [List.cons_append, behindAuthority?, if_neg ends, stepped]
      | some next =>
        have step (rest : List UInt8) : behindAuthority? a some? (b :: front ++ 0x2F :: rest) =
            behindAuthority? next true (front ++ 0x2F :: rest) := by
          rw [List.cons_append, behindAuthority?, if_neg ends, stepped]
        simp only [step]
        exact ih next true

def webSchemes : List (List UInt8) :=
  [[0x68, 0x74, 0x74, 0x70, 0x3A, 0x2F, 0x2F], [0x68, 0x74, 0x74, 0x70, 0x73, 0x3A, 0x2F, 0x2F]]

theorem ofBytes?_web {scheme : List UInt8} (web : scheme ∈ webSchemes) (rest : List UInt8) :
    ofBytes? (scheme ++ rest) =
      if greatestLength < (scheme ++ rest).length then none
      else
        match behindAuthority? .start false rest with
        | some (true, rest) =>
          (readPath? rest).map fun uri =>
            ⟨if uri.path.isEmpty then [0x2F] else uri.path, uri.query⟩
        | _ => none := by
  simp only [webSchemes, List.mem_cons, List.not_mem_nil, or_false] at web
  rcases web with rfl | rfl <;> rfl

/-- The tail of a target of the web may be replaced as long as the target does not get too long. -/
theorem ofBytes?_swap {scheme front rest : List UInt8} (web : scheme ∈ webSchemes)
    (read : (ofBytes? (scheme ++ (front ++ 0x2F :: more))).isSome = true)
    (tail : IsTail (0x2F :: rest)) :
    (ofBytes? (scheme ++ (front ++ 0x2F :: rest))).isSome = true ↔
      (scheme ++ (front ++ 0x2F :: rest)).length ≤ greatestLength := by
  rw [ofBytes?_web web] at read ⊢
  split at read
  · exact absurd read (by simp)
  · by_cases long : greatestLength < (scheme ++ (front ++ 0x2F :: rest)).length
    · rw [if_pos long]
      simp only [Option.isSome_none, Bool.false_eq_true, false_iff]
      exact Nat.not_le_of_lt long
    · rw [if_neg long]
      refine iff_of_true ?_ (Nat.le_of_not_lt long)
      rcases behindAuthority?_swap front .start false with none | ⟨any, left, behind⟩
      · rw [none] at read
        exact absurd read (by simp)
      · rw [behind] at read ⊢
        cases any with
        | false => exact absurd read (by simp)
        | true =>
          simp only [Option.isSome_map] at read ⊢
          exact readPath?_swap read tail

end Http.Uri

namespace Net

open Http.Uri Text Utf8

def InPath (c : Char) : Prop := c.toNat < 0x80 ∧ isPlainByte (UInt8.ofNat c.toNat) = true

def InQuery (c : Char) : Prop := c.toNat < 0x80 ∧ isQueryByte (UInt8.ofNat c.toNat) = true

theorem escape_forall {escaped passes : UInt8 → Bool}
    (written : ∀ k < 0x80, k = 0x25 ∨ 0x30 ≤ k ∧ k ≤ 0x39 ∨ 0x41 ≤ k ∧ k ≤ 0x46 ∨
      escaped (UInt8.ofNat k) = false → passes (UInt8.ofNat k) = true) (cs : List Char) :
    ∀ c ∈ escape escaped cs, c.toNat < 0x80 ∧ passes (UInt8.ofNat c.toNat) = true := by
  have digits : ∀ k < 16, (upperHexDigit (UInt8.ofNat k)).toNat < 0x80 ∧
      (0x30 ≤ (upperHexDigit (UInt8.ofNat k)).toNat ∧
          (upperHexDigit (UInt8.ofNat k)).toNat ≤ 0x39 ∨
        0x41 ≤ (upperHexDigit (UInt8.ofNat k)).toNat ∧
          (upperHexDigit (UInt8.ofNat k)).toNat ≤ 0x46) := by decide
  refine forall_mem_percentEncode ⟨by decide, written 0x25 (by decide) (.inl rfl)⟩ ?_ ?_ _
  · intro k small
    obtain ⟨ascii, digit⟩ := digits k small
    refine ⟨ascii, written _ ascii (.inr ?_)⟩
    rcases digit with number | letter
    · exact .inl number
    · exact .inr (.inl letter)
  · intro k small passed
    rw [toNat_ofSmall small]
    exact ⟨small, written k small (.inr (.inr (.inr passed)))⟩

theorem escapedInPath_inPath (cs : List Char) : ∀ c ∈ escape escapedInPath cs, InPath c :=
  escape_forall (by decide) cs

theorem escapedInSegment_inPath (cs : List Char) :
    ∀ c ∈ escape (escapedInSegment true) cs, InPath c :=
  escape_forall (by decide) cs

theorem escapedInQuery_inQuery (cs : List Char) :
    ∀ c ∈ escape (escapedInQuery true) cs, InQuery c :=
  escape_forall (by decide) cs

theorem slash_inPath : InPath '/' := ⟨by decide, by decide⟩

theorem dropSlash_front (path : List Char) : dropSlash path <+: path := by
  simp only [dropSlash]
  split
  · exact List.dropLast_prefix path
  · exact List.prefix_refl path

section InPath

variable {path : List Char} (clean : ∀ c ∈ path, InPath c)

include clean

theorem inPath_opened : ∀ c ∈ path ++ ['/'], InPath c := by
  intro c among
  rcases List.mem_append.mp among with before | last
  · exact clean c before
  · rw [List.mem_singleton.mp last]
    exact slash_inPath

theorem inPath_addSegment {segment : List Char} (kept : ∀ c ∈ segment, InPath c) (slash : Bool) :
    ∀ c ∈ addSegment path segment slash, InPath c := by
  have shorter : ∀ c ∈ uptoSlash (dropSlash path), InPath c := fun c among =>
    clean c ((dropSlash_front path).subset ((uptoSlash_front _).subset among))
  have longer : ∀ c ∈ path ++ segment, InPath c := by
    intro c among
    rcases List.mem_append.mp among with before | inside
    · exact clean c before
    · exact kept c inside
  simp only [addSegment]
  cases moveOf segment with
  | up =>
    simp only
    split
    · exact inPath_opened shorter
    · exact shorter
  | stay =>
    simp only
    split
    · exact clean
    · exact inPath_opened clean
  | down =>
    simp only
    split
    · exact inPath_opened longer
    · rwa [List.append_nil]

theorem inPath_addPath (special : Bool) (text : List Char) :
    ∀ c ∈ addPath special path text, InPath c := by
  simp only [addPath]
  induction pathPieces special text generalizing path with
  | nil => exact clean
  | cons piece more ih => exact ih (inPath_addSegment clean (escapedInPath_inPath _) _)

theorem inPath_pushSegment {scheme : String} (special : Url.isSpecial scheme = true)
    (web : scheme ≠ "file") (segment : String) :
    ∀ c ∈ Url.pushSegment scheme path segment, InPath c := by
  have other : ¬ (scheme == "file") = true := by simpa using web
  simp only [Url.pushSegment, if_neg other, special]
  split
  · exact clean
  · split
    · exact inPath_addSegment clean (escapedInSegment_inPath _) _
    · exact inPath_addSegment (inPath_opened clean) (escapedInSegment_inPath _) _

theorem inPath_dropEmptySegment : ∀ c ∈ Url.dropEmptySegment path, InPath c := by
  unfold Url.dropEmptySegment
  split
  · split
    · exact fun c among => clean c ((List.dropLast_prefix _).subset among)
    · exact clean
  · exact clean

end InPath

theorem inPath_readPath (text : List Char) : ∀ c ∈ Url.readPath true text, InPath c := by
  have root : ∀ c ∈ ['/'], InPath c := inPath_opened fun _ none => absurd none List.not_mem_nil
  cases text with
  | nil => exact root
  | cons c more =>
    simp only [Url.readPath, ↓reduceIte]
    split
    · exact inPath_addPath root true _
    · exact inPath_addPath root true _

theorem rooted_pushSegment {scheme : String} (web : scheme ≠ "file") {path : List Char}
    (rooted : Rooted path) (segment : String) : Rooted (Url.pushSegment scheme path segment) := by
  have other : ¬ (scheme == "file") = true := by simpa using web
  simp only [Url.pushSegment, if_neg other]
  split
  · exact rooted
  · split
    · exact rooted_addSegment rooted _ _
    · exact rooted_addSegment (rooted_append rooted _) _ _

theorem rooted_dropEmptySegment {path : List Char} (rooted : Rooted path) :
    Rooted (Url.dropEmptySegment path) := by
  obtain ⟨rest, rfl⟩ := rooted
  simp only [Url.dropEmptySegment]
  split
  · rename_i ends
    cases rest with
    | nil => exact absurd ends (by decide)
    | cons c rest => exact ⟨_, rfl⟩
  · exact ⟨rest, rfl⟩

namespace Url

structure Clean (url : Url) : Prop where
  web : url.IsWeb
  rooted : Rooted url.path
  path : ∀ c ∈ url.path, InPath c
  query : ∀ asked, url.query = some asked → ∀ c ∈ asked, InQuery c

theorem readTail_query {rest asked : List Char} (given : (readTail true rest).1 = some asked) :
    ∀ c ∈ asked, InQuery c := by
  unfold readTail at given
  split at given
  · rw [← Option.some.inj given]
    exact escapedInQuery_inQuery _
  · exact absurd given (by simp)

theorem clean_of_parse {text : String} {url : Url} (parsed : Url.parse text = .ok url)
    (web : url.IsWeb) : url.Clean := by
  obtain ⟨user, host, port, rest, same⟩ := assembled_of_parse parsed web
  have special := special_of_web web
  have other : ¬ (url.scheme == "file") = true := by simpa using ne_file_of_web web
  have query : url.query = (readTail true (rest.drop (pathPart rest).length)).1 := by
    rw [same]
    simp only [assemble, if_neg other, special]
  have path : url.path = readPath true (pathPart rest) := by
    rw [same]
    simp only [assemble, if_neg other, special]
  refine ⟨web, rooted_of_parse parsed web, ?_, ?_⟩
  · rw [path]
    exact inPath_readPath _
  · rw [query]
    exact fun _ => readTail_query

theorem Clean.extend {url : Url} (clean : url.Clean) (segments : List String) :
    (url.extend segments).Clean := by
  have special := special_of_web clean.web
  have other := ne_file_of_web clean.web
  have grown (path : List Char) (rooted : Rooted path) (kept : ∀ c ∈ path, InPath c) :
      Rooted (segments.foldl (pushSegment url.scheme) path) ∧
        ∀ c ∈ segments.foldl (pushSegment url.scheme) path, InPath c := by
    induction segments generalizing path with
    | nil => exact ⟨rooted, kept⟩
    | cons segment more ih =>
      exact ih _ (rooted_pushSegment other rooted segment)
        (inPath_pushSegment kept special other segment)
  obtain ⟨rooted, kept⟩ := grown _ (rooted_dropEmptySegment clean.rooted)
    (inPath_dropEmptySegment clean.path)
  exact ⟨clean.web, rooted, kept, clean.query⟩

def target (url : Url) : Url := { url.withoutUser with fragment := none }

def tailBytes (url : Url) : List UInt8 := encode (String.ofList url.path ++ url.queryText)

theorem Clean.tail {url : Url} (clean : url.Clean) :
    IsTail url.tailBytes ∧ ∃ rest, url.tailBytes = 0x2F :: rest := by
  have path : encode (String.ofList url.path) = asciiBytes url.path :=
    encode_ascii _ fun c among => (clean.path c among).1
  have query : encode url.queryText = [] ∨
      ∃ asked, encode url.queryText = 0x3F :: asked ∧ ∀ b ∈ asked, isQueryByte b = true := by
    cases given : url.query with
    | none =>
      simp only [queryText, given]
      exact .inl (by decide +kernel)
    | some asked =>
      have kept := clean.query asked given
      refine .inr ⟨asciiBytes asked, ?_, ?_⟩
      · simp only [queryText, given, Option.map_some, Option.getD_some]
        have mark : encode "?" = [0x3F] := by decide +kernel
        rw [encode_append, encode_ascii _ fun c among => (kept c among).1, mark]
        rfl
      · intro b among
        obtain ⟨c, inside, rfl⟩ := List.mem_map.mp among
        exact (kept c inside).2
  obtain ⟨rest, slash⟩ := clean.rooted
  rw [tailBytes, encode_append, path]
  constructor
  · refine ⟨_, _, rfl, ?_, query⟩
    intro b among
    obtain ⟨c, inside, rfl⟩ := List.mem_map.mp among
    exact (clean.path c inside).2
  · rw [slash]
    exact ⟨_, rfl⟩

def placeText (url : Url) : String :=
  url.host.getD "" ++ (url.port.map fun p => ":" ++ toString p).getD ""

theorem target_bytes {url : Url} (there : url.hasHost = true) :
    encode url.target.text =
      encode (url.scheme ++ "://") ++ (encode url.placeText ++ url.tailBytes) := by
  cases host : url.host with
  | none => simp [hasHost, host] at there
  | some name =>
    have path : url.target.pathText = String.ofList url.path := by
      simp only [pathText, target, withoutUser, host, Option.isNone_some, Bool.false_eq_true,
        ↓reduceIte]
      split <;> rfl
    have authority : url.target.authorityText = "//" ++ url.placeText := by
      simp [authorityText, target, withoutUser, userText, placeText, host, String.append_assoc]
    have whole : url.target.text =
        url.scheme ++ "://" ++ (url.placeText ++ (String.ofList url.path ++ url.queryText)) := by
      rw [text, authority, path]
      simp only [target, withoutUser, queryText, Option.map_none, Option.getD_none,
        String.append_empty]
      have slashes : "://" = ":" ++ "//" := rfl
      rw [slashes]
      simp only [String.append_assoc]
    rw [whole, encode_append, encode_append (url.placeText), tailBytes]

theorem Clean.scheme_mem {url : Url} (clean : url.Clean) :
    encode (url.scheme ++ "://") ∈ webSchemes := by
  rcases clean.web with same | same
  · rw [same]
    decide +kernel
  · rw [same]
    decide +kernel

end Url

theorem isSendable_eq {url : Url} (clean : url.Clean) :
    isSendable url = (url.hasHost && (Http.Uri.ofText? url.target.text).isSome) := by
  have scheme : (url.scheme == "http" || url.scheme == "https") = true := by
    simpa [Url.IsWeb] using clean.web
  rw [isSendable, scheme, Bool.and_true]
  rfl

theorem isSendable_extend {base : Url} (clean : base.Clean) (sendable : isSendable base = true)
    (segments : List String) :
    isSendable (base.extend segments) = true ↔
      (encode (base.extend segments).target.text).length ≤ greatestLength := by
  have longer := clean.extend segments
  obtain ⟨_, before, ends⟩ := clean.tail
  obtain ⟨tail, after, ends'⟩ := longer.tail
  rw [isSendable_eq clean, Bool.and_eq_true] at sendable
  obtain ⟨there, read⟩ := sendable
  have there' : (base.extend segments).hasHost = true := there
  rw [isSendable_eq longer, there', Bool.true_and]
  rw [Http.Uri.ofText?, Url.target_bytes there, ends] at read
  rw [Http.Uri.ofText?, Url.target_bytes there', ends']
  rw [ends'] at tail
  exact ofBytes?_swap clean.scheme_mem read tail

theorem mapM_isSome {α β : Type} (f : α → Option β) (l : List α) :
    (l.mapM f).isSome = true ↔ ∀ a ∈ l, (f a).isSome = true := by
  induction l with
  | nil => simp
  | cons a l ih =>
    rw [List.mapM_cons, List.forall_mem_cons, ← ih]
    cases f a with
    | none => simp
    | some b => cases l.mapM f <;> simp

/-- A request can be put together exactly if its address can be sent to and its header values are
values of headers. -/
theorem built_iff (draft : Draft) :
    (∃ request, draft.build = .ok request) ↔
      ∃ url, draft.url = .ok url ∧ isSendable url = true ∧
        ∀ header ∈ draft.headers, (Http.Header.ofTexts? header.1 header.2).isSome = true := by
  unfold Draft.build
  cases draft.url with
  | error f => simp
  | ok url =>
    rw [← mapM_isSome fun header : String × String => Http.Header.ofTexts? header.1 header.2]
    by_cases there : url.hasHost = true
    · cases draft.headers.mapM fun header => Http.Header.ofTexts? header.1 header.2 with
      | none => simp [there]
      | some headers =>
        by_cases sendable : isSendable url = true
        · simp [there, sendable]
        · simp [there, sendable]
    · have not : isSendable url = false := by simp [isSendable, there]
      simp [there, not]

end Net

end TenantGate
