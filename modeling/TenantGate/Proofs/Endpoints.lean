import TenantGate.Proofs.Addresses
import TenantGate.Proofs.Exchanges
import TenantGate.Service.Client
import TenantGate.Tenant.Directory

/-!
The addresses that memberships are looked up under. A lookup is addressed to its own user exactly
if the identifier is no `.` or `..` and has no tabs or line ends in it: others are written into the
address with parts missing, so different users may share one.
-/
namespace TenantGate

open Text Utf8

namespace Net

def trunk (path : List Char) : List Char := if endsWithSlash path then path.dropLast else path

def bareText (segment : String) : List Char := segment.toList.filter fun c => !isIgnored c

def opened (path : List Char) : List Char := if path.length == 1 then path else path ++ ['/']

/-- Identifiers that a segment can stand for. -/
def Addressable (segment : String) : Prop :=
  segment ≠ "." ∧ segment ≠ ".." ∧ ∀ c ∈ segment.toList, isIgnored c = false

theorem bareText_of_kept {segment : String} (kept : ∀ c ∈ segment.toList, isIgnored c = false) :
    bareText segment = segment.toList := by
  rw [bareText, List.filter_eq_self]
  intro c among
  rw [kept c among]
  rfl

theorem opened_of_long {path : List Char} (long : 1 < path.length) :
    opened path = path ++ ['/'] := by
  have other : ¬ (path.length == 1) = true := by
    rw [beq_iff_eq]
    omega
  rw [opened, if_neg other]

theorem trunk_concat (path : List Char) : trunk (path ++ ['/']) = path := by
  have ends : endsWithSlash (path ++ ['/']) = true := endsWithSlash_append path ['/'] (by simp)
  rw [trunk, if_pos ends, List.dropLast_concat]

theorem opened_dropEmptySegment {path : List Char} (rooted : Rooted path)
    (single : ¬ ['/', '/'] <:+: path) :
    opened (Url.dropEmptySegment path) = trunk path ++ ['/'] := by
  obtain ⟨rest, rfl⟩ := rooted
  rcases List.eq_nil_or_concat rest with rfl | ⟨front, last, rfl⟩
  · rfl
  · simp only [List.concat_eq_append] at single ⊢
    rw [← List.cons_append] at single ⊢
    by_cases slash : last = '/'
    · subst slash
      have some : front ≠ [] := by
        rintro rfl
        exact single (List.infix_refl _)
      have long : 1 < ('/' :: front).length := by
        have := List.length_pos_iff.mpr some
        simp only [List.length_cons]
        omega
      have ends : endsWithSlash (front ++ ['/']) = true :=
        endsWithSlash_append front ['/'] (by simp)
      have drops : Url.dropEmptySegment ('/' :: front ++ ['/']) = '/' :: front := by
        simp only [Url.dropEmptySegment, List.cons_append, if_pos ends]
        rw [← List.cons_append, List.dropLast_concat]
      rw [drops, opened_of_long long, trunk_concat]
    · have whole (piece : List Char) : endsWithSlash (piece ++ [last]) = false := by
        rw [endsWithSlash_append piece [last] (by simp)]
        simpa [endsWithSlash] using slash
      have keeps : Url.dropEmptySegment ('/' :: front ++ [last]) = '/' :: front ++ [last] := by
        simp [Url.dropEmptySegment, whole front]
      have long : 1 < ('/' :: front ++ [last]).length := by simp
      rw [keeps, opened_of_long long, trunk, whole ('/' :: front)]
      rfl

theorem pushSegment_eq {scheme : String} (special : Url.isSpecial scheme = true)
    (web : scheme ≠ "file") (path : List Char) {segment : String} (one : segment ≠ ".")
    (two : segment ≠ "..") :
    Url.pushSegment scheme path segment =
      addSegment (opened path) (escape (escapedInSegment true) (bareText segment)) false := by
  have dots : ¬ (segment == "." || segment == "..") = true := by simp [one, two]
  have other : ¬ (scheme == "file") = true := by simpa using web
  simp only [Url.pushSegment, if_neg dots, if_neg other, special]
  rfl

theorem addSegment_down (path : List Char) {segment : List Char} (down : moveOf segment = .down) :
    addSegment path segment false = path ++ segment := by
  simp only [addSegment, down]
  exact List.append_nil _

theorem pushSegment_down {scheme : String} (special : Url.isSpecial scheme = true)
    (web : scheme ≠ "file") (path : List Char) {segment : String}
    (one : bareText segment ≠ ['.']) (two : bareText segment ≠ ['.', '.']) :
    Url.pushSegment scheme path segment =
      opened path ++ escape (escapedInSegment true) (bareText segment) := by
  have down : moveOf (escape (escapedInSegment true) (bareText segment)) = .down := by
    by_contra moves
    rcases dots_of_moveOf_escape rfl moves with dot | dots
    · exact one dot
    · exact two dots
  rw [pushSegment_eq special web path (by rintro rfl; exact one rfl) (by rintro rfl; exact two rfl),
    addSegment_down _ down]

theorem plain_of_letter {c : Char} (letter : Identifier.isSmallLetter c = true) :
    c ≠ '.' ∧ isIgnored c = false ∧ c.toNat < 0x80 ∧
      escapedInSegment true (UInt8.ofNat c.toNat) = false := by
  have each : ∀ k < 0x80, Identifier.isSmallLetter (Char.ofNat k) = true →
      Char.ofNat k ≠ '.' ∧ isIgnored (Char.ofNat k) = false ∧
        escapedInSegment true (UInt8.ofNat k) = false := by
    decide
  have small : c.toNat < 0x80 := by
    simp only [Identifier.isSmallLetter, Bool.and_eq_true, decide_eq_true_eq] at letter
    exact Nat.lt_of_le_of_lt (letter.2 : c.toNat ≤ 'z'.toNat) (by decide)
  have shown := each c.toNat small
  rw [Char.ofNat_toNat] at shown
  obtain ⟨dot, ignored, escaped⟩ := shown letter
  exact ⟨dot, ignored, small, escaped⟩

theorem pushSegment_word {scheme : String} (special : Url.isSpecial scheme = true)
    (web : scheme ≠ "file") (path : List Char) (word : String)
    (letters : word.toList.all Identifier.isSmallLetter = true) :
    Url.pushSegment scheme path word = opened path ++ word.toList := by
  have plain : ∀ c ∈ word.toList, c ≠ '.' ∧ isIgnored c = false ∧ c.toNat < 0x80 ∧
      escapedInSegment true (UInt8.ofNat c.toNat) = false :=
    fun c among => plain_of_letter (List.all_eq_true.mp letters c among)
  have bare : bareText word = word.toList := bareText_of_kept fun c among => (plain c among).2.1
  have undotted {rest : List Char} : bareText word ≠ '.' :: rest := by
    intro dotted
    rw [bare] at dotted
    exact (plain '.' (by rw [dotted]; exact List.mem_cons_self)).1 rfl
  rw [pushSegment_down special web path undotted undotted, bare,
    escape_plain fun c among => (plain c among).2.2]

def filedAddress (base : Url) (kind id part : String) : Url :=
  base.extend ["private", kind, id, part]

def kindPath (base : Url) (kind : String) : List Char :=
  opened (Url.dropEmptySegment base.path) ++ "private/".toList ++ kind.toList

/-- The address stands for a part of the identifier: a segment that means the identifier comes in its
place, and nothing in it ends the segment. -/
def NamedUnder (front : List Char) (id part : String) (url : Url) : Prop :=
  ∃ segment : List Char, (∀ c ∈ segment, c ∉ ['/', '\\', '?', '#']) ∧
    percentDecode (Utf8.encode (String.ofList segment)) = Utf8.encode id ∧
    url.path = front ++ '/' :: segment ++ '/' :: part.toList

theorem escape_no_separator (cs : List Char) :
    ∀ c ∈ escape (escapedInSegment true) cs, c ∉ ['/', '\\', '?', '#'] := by
  intro c among separator
  simp only [List.mem_cons, List.not_mem_nil, or_false] at separator
  rcases separator with rfl | rfl | rfl | rfl
  all_goals
    exact not_mem_percentEncode (by decide) (by decide) (by decide) _ among

theorem decode_escape (cs : List Char) :
    percentDecode (Utf8.encode (String.ofList (escape (escapedInSegment true) cs))) =
      Utf8.encode (String.ofList cs) := by
  have ascii := encode_ascii (escape (escapedInSegment true) cs) (percentEncode_ascii _ _)
  rw [ascii, percentDecode_escape rfl]

section FiledAddress

variable {base : Url} (web : base.IsWeb) {kind part : String}
  (kinds : kind.toList.all Identifier.isSmallLetter = true)
  (parts : part.toList.all Identifier.isSmallLetter = true)

theorem kindPath_long (base : Url) (kind : String) : 1 < (kindPath base kind).length := by
  simp [kindPath]
  omega

include web kinds parts

theorem filedAddress_path (id : String) :
    (filedAddress base kind id part).path =
      opened (Url.pushSegment base.scheme (kindPath base kind) id) ++ part.toList := by
  have special := Url.special_of_web web
  have other := Url.ne_file_of_web web
  have first := pushSegment_word special other (Url.dropEmptySegment base.path) "private"
    (by decide)
  have second := pushSegment_word special other
    (opened (Url.dropEmptySegment base.path) ++ "private".toList) kind kinds
  have long : 1 < (opened (Url.dropEmptySegment base.path) ++ "private".toList).length := by
    simp
  have shared : Url.pushSegment base.scheme
      (Url.pushSegment base.scheme (Url.dropEmptySegment base.path) "private") kind =
        kindPath base kind := by
    rw [first, second, opened_of_long long, kindPath, List.append_assoc _ _ ['/']]
    rfl
  simp only [filedAddress, Url.extend, List.foldl]
  rw [shared, pushSegment_word special other _ part parts]

theorem filedAddress_of_segment {id : String} (one : bareText id ≠ ['.'])
    (two : bareText id ≠ ['.', '.']) :
    (filedAddress base kind id part).path =
      kindPath base kind ++ '/' :: escape (escapedInSegment true) (bareText id) ++
        '/' :: part.toList := by
  have special := Url.special_of_web web
  have other := Url.ne_file_of_web web
  have long := kindPath_long base kind
  rw [filedAddress_path web kinds parts, pushSegment_down special other _ one two,
    opened_of_long long, opened_of_long (by simp; omega)]
  simp

theorem filedAddress_of_dots {id : String}
    (dots : bareText id = ['.'] ∨ bareText id = ['.', '.']) :
    (filedAddress base kind id part).path.length ≤
      (kindPath base kind ++ '/' :: '/' :: part.toList).length := by
  have long := kindPath_long base kind
  have pushed : (Url.pushSegment base.scheme (kindPath base kind) id).length ≤
      (kindPath base kind ++ ['/']).length := by
    by_cases skipped : id = "." ∨ id = ".."
    · have same : Url.pushSegment base.scheme (kindPath base kind) id = kindPath base kind := by
        rcases skipped with rfl | rfl <;> rfl
      rw [same]
      exact (List.prefix_append _ _).length_le
    · rw [not_or] at skipped
      rw [pushSegment_eq (Url.special_of_web web) (Url.ne_file_of_web web) _ skipped.1 skipped.2,
        opened_of_long long]
      have plain : ∀ c ∈ bareText id,
          c.toNat < 0x80 ∧ escapedInSegment true (UInt8.ofNat c.toNat) = false := by
        intro c among
        have dot : c = '.' := by
          rcases dots with same | same <;> simpa [same] using among
        subst dot
        decide
      refine addSegment_length (endsWithSlash_append _ ['/'] (by simp)) ?_
      rw [escape_plain plain]
      rcases dots with same | same
      all_goals
        rw [same]
        decide +kernel
  have opens (path : List Char) : (opened path).length ≤ path.length + 1 := by
    rw [opened]
    split
    · exact Nat.le_succ _
    · simp
  have added := opens (Url.pushSegment base.scheme (kindPath base kind) id)
  rw [filedAddress_path web kinds parts]
  simp at pushed ⊢
  omega

theorem namedUnder_iff (id : String) :
    NamedUnder (kindPath base kind) id part (filedAddress base kind id part) ↔
      Addressable id := by
  constructor
  · rintro ⟨segment, _, decoded, path⟩
    by_cases dots : bareText id = ['.'] ∨ bareText id = ['.', '.']
    · have short := filedAddress_of_dots web kinds parts dots
      rw [path] at short
      have none : segment = [] := by
        simp only [List.length_append, List.length_cons] at short
        exact List.length_eq_zero_iff.mp (by omega)
      subst none
      have nothing : encode (String.ofList []) = [] := encode_ofList []
      rw [nothing, percentDecode] at decoded
      have empty : id = "" := encode_injective (decoded.symm.trans nothing.symm)
      subst empty
      exact absurd dots (by decide)
    · rw [not_or] at dots
      have written := filedAddress_of_segment web kinds parts dots.1 dots.2
      rw [written] at path
      have same : escape (escapedInSegment true) (bareText id) = segment := by simpa using path
      rw [← same, decode_escape] at decoded
      have whole : bareText id = id.toList := by
        have same := congrArg String.toList (encode_injective decoded)
        rwa [String.toList_ofList] at same
      refine ⟨?_, ?_, ?_⟩
      · rintro rfl
        exact dots.1 rfl
      · rintro rfl
        exact dots.2 rfl
      · intro c among
        rw [← whole] at among
        simpa [bareText] using (List.mem_filter.mp among).2
  · intro addressable
    have bare := bareText_of_kept addressable.2.2
    refine ⟨escape (escapedInSegment true) id.toList, escape_no_separator _, ?_, ?_⟩
    · rw [decode_escape, String.ofList_toList]
    · rw [← bare]
      refine filedAddress_of_segment web kinds parts ?_ ?_
      · rw [bare]
        intro dot
        exact addressable.1 (String.ext dot)
      · rw [bare]
        intro dots
        exact addressable.2.1 (String.ext dots)

end FiledAddress

def userAddress (base : Url) (id : String) : Url := filedAddress base "users" id "memberships"

def usersPath (base : Url) : List Char := trunk base.path ++ "/private/users".toList

/-- The address stands for the user: a segment that means the identifier comes in its place, and
nothing in it ends the segment. -/
def NamesUser (base : Url) (id : String) (url : Url) : Prop :=
  NamedUnder (usersPath base) id "memberships" url

theorem kindPath_users {base : Url} (rooted : Rooted base.path)
    (single : ¬ ['/', '/'] <:+: base.path) : kindPath base "users" = usersPath base := by
  rw [kindPath, usersPath, opened_dropEmptySegment rooted single, List.append_assoc,
    List.append_assoc]
  rfl

theorem namesUser_iff {base : Url} (web : base.IsWeb) (rooted : Rooted base.path)
    (single : ¬ ['/', '/'] <:+: base.path) (id : String) :
    NamesUser base id (userAddress base id) ↔ Addressable id := by
  rw [NamesUser, ← kindPath_users rooted single]
  exact namedUnder_iff web (by decide) (by decide) id

theorem namesUser_unique {base url : Url} {id id' : String} (first : NamesUser base id url)
    (second : NamesUser base id' url) : id = id' := by
  obtain ⟨segment, _, decoded, path⟩ := first
  obtain ⟨segment', _, decoded', path'⟩ := second
  rw [path] at path'
  have same : segment = segment' := by simpa using path'
  rw [← same, decoded] at decoded'
  exact encode_injective decoded'

end Net

namespace Service

open Net

variable {ν : Type}

def sentForMemberships (network : Network ν) (c : Client) (caller : Caller) (id : String)
    (cancelled : Bool) (n : ν) : List Exchange :=
  (fetchMemberships network.noting c caller id cancelled (n, [])).2.2

theorem sentForMemberships_eq (network : Network ν) (c : Client) (caller : Caller) (id : String)
    (cancelled : Bool) (n : ν) :
    sentForMemberships network c caller id cancelled n =
      if cancelled then []
      else exchangesFor network ⟨.get, .ok (userAddress c.base id), c.headersFor caller, ""⟩ n := by
  cases cancelled with
  | true => rfl
  | false =>
    simp only [sentForMemberships, fetchMemberships, Client.getJson, send_noting, Client.endpoint,
      List.nil_append, Bool.false_eq_true, ↓reduceIte]
    split
    · rename_i sent
      exact (congrArg (fun p => p.2.2) sent).symm
    · rename_i sent
      exact (congrArg (fun p => p.2.2) sent).symm

theorem rooted_of_create {name address : String} {token : Option String} {c : Client}
    (created : Client.create name address token = .ok c) (web : c.base.IsWeb) :
    Rooted c.base.path := by
  simp only [Client.create] at created
  split at created
  · exact absurd created (by simp)
  · rename_i url parsed
    split at created
    · rw [← Except.ok.inj created] at web ⊢
      exact Url.rooted_of_parse parsed web
    · exact absurd created (by simp)

theorem address_of_sent {network : Network ν} {c : Client} {caller : Caller} {id : String}
    {cancelled : Bool} {n : ν} {x : Exchange}
    (sent : x ∈ sentForMemberships network c caller id cancelled n) :
    x.request.url = (userAddress c.base id).withoutUser ∧ x.request.method = .get := by
  rw [sentForMemberships_eq] at sent
  split at sent
  · exact absurd sent List.not_mem_nil
  · obtain ⟨url, same, address, method, _⟩ := url_of_build (built_of_exchange sent)
    rw [address, ← Except.ok.inj same]
    exact ⟨rfl, method⟩

theorem sent_of_found {network : Network ν} {c : Client} {caller : Caller} {id : String}
    {cancelled : Bool} {n : ν} {user : User}
    (found : (fetchMemberships network c caller id cancelled n).1 = .ok user) :
    ∃ x, sentForMemberships network c caller id cancelled n = [x] := by
  cases cancelled with
  | true => exact absurd found (by simp [fetchMemberships, Client.getJson])
  | false =>
    rw [sentForMemberships_eq, if_neg Bool.false_ne_true]
    simp only [fetchMemberships, Client.getJson, Bool.false_eq_true, ↓reduceIte] at found
    split at found
    · rename_i sent
      obtain ⟨_, _, single⟩ := exchange_of_answer (congrArg Prod.fst sent)
      exact ⟨_, single⟩
    · exact absurd found (by simp)

/-- A lookup of memberships stays where the service is, and it is addressed to its own user exactly
if a segment can stand for the user's identifier: then no other user's lookup has the address. -/
theorem lookup_addresses_own_user_iff {name address : String} {token : Option String} {c : Client}
    (created : Client.create name address token = .ok c) (web : c.base.IsWeb)
    (single : ¬ ['/', '/'] <:+: c.base.path) (network : Network ν) (caller : Caller) (id : String)
    (cancelled : Bool) (n : ν) :
    (∀ x ∈ sentForMemberships network c caller id cancelled n,
      x.request.url.scheme = c.base.scheme ∧ x.request.url.host = c.base.host ∧
        x.request.url.port = c.base.port ∧ x.request.url.query = c.base.query ∧
        (NamesUser c.base id x.request.url ↔ Addressable id)) ∧
    (∀ x ∈ sentForMemberships network c caller id cancelled n, Addressable id →
      ∀ caller' id' cancelled' n', ∀ x' ∈ sentForMemberships network c caller' id' cancelled' n',
        Addressable id' → x.request.url = x'.request.url → id = id') ∧
    ∀ user, (fetchMemberships network c caller id cancelled n).1 = .ok user →
      ∃ x, sentForMemberships network c caller id cancelled n = [x] := by
  have rooted := rooted_of_create created web
  have named (id : String) : NamesUser c.base id (userAddress c.base id).withoutUser ↔
      Addressable id := namesUser_iff web rooted single id
  refine ⟨?_, ?_, fun user found => sent_of_found found⟩
  · intro x sent
    rw [(address_of_sent sent).1]
    exact ⟨rfl, rfl, rfl, rfl, named id⟩
  · intro x sent addressable caller' id' cancelled' n' x' sent' addressable' same
    rw [(address_of_sent sent).1, (address_of_sent sent').1] at same
    have other := (named id').mpr addressable'
    rw [← same] at other
    exact namesUser_unique ((named id).mpr addressable) other

def localUsers : Client :=
  ⟨"end-users", ⟨"http", [], none, some "users.local", none, ['/'], none, none, false⟩, none⟩

def loneUser : Network Unit := .answering "\x7b\"id\":\"u1\",\"memberships\":[]\x7d"

theorem localUsers_created :
    Client.create "end-users" "http://users.local" none = .ok localUsers := by decide +kernel

/-- An identifier with a slash is one segment, in the one request that is made. -/
theorem slash_is_part_of_segment :
    Client.create "end-users" "http://users.local" none = .ok localUsers ∧
      localUsers.base.IsWeb ∧ ¬ ['/', '/'] <:+: localUsers.base.path ∧
      ∃ x, sentForMemberships loneUser localUsers .anonymous "a/b" false () = [x] ∧
        NamesUser localUsers.base "a/b" x.request.url := by
  have single : ¬ ['/', '/'] <:+: localUsers.base.path := by decide
  obtain ⟨named, _, found⟩ := lookup_addresses_own_user_iff localUsers_created (.inl rfl) single
    loneUser .anonymous "a/b" false ()
  have answer : (fetchMemberships loneUser localUsers .anonymous "a/b" false ()).1 =
      .ok ⟨"u1", []⟩ := by decide +kernel
  obtain ⟨x, only⟩ := found _ answer
  obtain ⟨_, _, _, _, names⟩ := named x (by rw [only]; exact List.mem_singleton_self x)
  have plain : "a/b".toList.all (fun c => !isIgnored c) = true := by decide
  have addressable : Addressable "a/b" :=
    ⟨by decide, by decide, fun c among => by simpa using List.all_eq_true.mp plain c among⟩
  exact ⟨localUsers_created, .inl rfl, single, x, only, names.mpr addressable⟩

/-- A tab is dropped, so two users have one address. -/
theorem users_share_address :
    Client.create "end-users" "http://users.local" none = .ok localUsers ∧
      (sentForMemberships loneUser localUsers .anonymous "a\tb" false ()).length = 1 ∧
      (sentForMemberships loneUser localUsers .anonymous "a\tb" false ()).map (·.request.url) =
        (sentForMemberships loneUser localUsers .anonymous "ab" false ()).map (·.request.url) ∧
      "a\tb" ≠ "ab" :=
  ⟨localUsers_created, by decide +kernel, by decide +kernel, by decide⟩

end Service

end TenantGate
