import Mathlib.Data.List.TakeWhile
import TenantGate.Net.Url
import TenantGate.Proofs.Percent

/-!
Addresses with segments added to them. Where a slash may begin a path it stays at its beginning, and
a segment that is escaped is one segment of the longer path, unless it is of dots or loses a blank:
these are the only texts that adding them changes.
-/
namespace TenantGate.Net

open Text Utf8

theorem eq_of_toLower {c d : Char} (lower : c.toLower = d) (other : d.toNat < 'a'.toNat) :
    c = d := by
  unfold Char.toLower at lower
  split at lower
  · rename_i capital
    rw [← lower] at other
    have least : 'A'.toNat ≤ c.toNat := UInt32.le_iff_toNat_le.mp capital.1
    have most : c.toNat ≤ 'Z'.toNat := UInt32.le_iff_toNat_le.mp capital.2
    simp only [Char.toNat, UInt32.toNat_add] at least most other
    simp at least most other
    omega
  · exact lower

theorem eq_e_of_toLower {c : Char} (lower : c.toLower = 'e') : c = 'e' ∨ c = 'E' := by
  unfold Char.toLower at lower
  split at lower
  · rename_i capital
    refine .inr (Char.ext (UInt32.toNat_inj.mp ?_))
    have least : 'A'.toNat ≤ c.toNat := UInt32.le_iff_toNat_le.mp capital.1
    have most : c.toNat ≤ 'Z'.toNat := UInt32.le_iff_toNat_le.mp capital.2
    have number := congrArg Char.toNat lower
    simp only [Char.toNat, UInt32.toNat_add] at least most number
    simp at least most number ⊢
    omega
  · exact .inl lower

theorem moveOf_cases {segment : List Char} (moves : moveOf segment ≠ .down) :
    segment.map Char.toLower ∈ [['.', '.'], ['.', '%', '2', 'e'], ['%', '2', 'e', '.'],
      ['%', '2', 'e', '%', '2', 'e'], ['.'], ['%', '2', 'e']] := by
  have small : ((String.ofList segment).toLower).toList = segment.map Char.toLower := by
    change (String.map Char.toLower (String.ofList segment)).toList = _
    rw [String.toList_map, String.toList_ofList]
  rw [← small]
  simp only [moveOf] at moves
  generalize (String.ofList segment).toLower = s at moves ⊢
  simp only [beq_iff_eq, Bool.or_eq_true] at moves
  split at moves
  · rename_i up
    rcases up with ((rfl | rfl) | rfl) | rfl <;> simp
  · split at moves
    · rename_i stay
      rcases stay with rfl | rfl <;> simp
    · exact absurd rfl moves

theorem percentDecode_dot {segment small : List Char}
    (starts : segment.map Char.toLower = '.' :: small) :
    ∃ rest, rest.map Char.toLower = small ∧
      percentDecode (asciiBytes segment) = 0x2E :: percentDecode (asciiBytes rest) := by
  obtain ⟨c, rest, rfl, dot, same⟩ := List.map_eq_cons_iff.mp starts
  obtain rfl := eq_of_toLower dot (by decide)
  exact ⟨rest, same, percentDecode_cons (by decide) _⟩

theorem percentDecode_escapedDot {segment small : List Char}
    (starts : segment.map Char.toLower = '%' :: '2' :: 'e' :: small) :
    ∃ rest, rest.map Char.toLower = small ∧
      percentDecode (asciiBytes segment) = 0x2E :: percentDecode (asciiBytes rest) := by
  obtain ⟨p, _, rfl, percent, more⟩ := List.map_eq_cons_iff.mp starts
  obtain ⟨h, _, rfl, high, more⟩ := List.map_eq_cons_iff.mp more
  obtain ⟨l, rest, rfl, low, same⟩ := List.map_eq_cons_iff.mp more
  obtain rfl := eq_of_toLower percent (by decide)
  obtain rfl := eq_of_toLower high (by decide)
  refine ⟨rest, same, ?_⟩
  rcases eq_e_of_toLower low with rfl | rfl
  · rfl
  · rfl

theorem percentDecode_of_moves {segment : List Char} (moves : moveOf segment ≠ .down) :
    percentDecode (asciiBytes segment) = [0x2E] ∨
      percentDecode (asciiBytes segment) = [0x2E, 0x2E] := by
  have nothing {rest : List Char} (same : rest.map Char.toLower = []) :
      percentDecode (asciiBytes rest) = [] := by
    rw [List.map_eq_nil_iff.mp same]
    rfl
  have dots := moveOf_cases moves
  simp only [List.mem_cons, List.not_mem_nil, or_false] at dots
  rcases dots with dots | dots | dots | dots | dots | dots
  · obtain ⟨rest, more, first⟩ := percentDecode_dot dots
    obtain ⟨rest, more, second⟩ := percentDecode_dot more
    exact .inr (by rw [first, second, nothing more])
  · obtain ⟨rest, more, first⟩ := percentDecode_dot dots
    obtain ⟨rest, more, second⟩ := percentDecode_escapedDot more
    exact .inr (by rw [first, second, nothing more])
  · obtain ⟨rest, more, first⟩ := percentDecode_escapedDot dots
    obtain ⟨rest, more, second⟩ := percentDecode_dot more
    exact .inr (by rw [first, second, nothing more])
  · obtain ⟨rest, more, first⟩ := percentDecode_escapedDot dots
    obtain ⟨rest, more, second⟩ := percentDecode_escapedDot more
    exact .inr (by rw [first, second, nothing more])
  · obtain ⟨rest, more, first⟩ := percentDecode_dot dots
    exact .inl (by rw [first, nothing more])
  · obtain ⟨rest, more, first⟩ := percentDecode_escapedDot dots
    exact .inl (by rw [first, nothing more])

theorem percentDecode_escape {escaped : UInt8 → Bool} (percent : escaped 0x25 = true)
    (cs : List Char) :
    percentDecode (asciiBytes (escape escaped cs)) = Utf8.encode (String.ofList cs) := by
  have decoded := percentDecode_percentEncode escaped percent (Utf8.encode (String.ofList cs)) []
  rwa [List.append_nil, percentDecode, List.append_nil] at decoded

theorem escape_plain {escaped : UInt8 → Bool} {cs : List Char}
    (plain : ∀ c ∈ cs, c.toNat < 0x80 ∧ escaped (UInt8.ofNat c.toNat) = false) :
    escape escaped cs = cs := by
  rw [escape, encode_ascii cs fun c among => (plain c among).1, percentEncode_asciiBytes cs plain]

theorem dots_of_moveOf_escape {escaped : UInt8 → Bool} (percent : escaped 0x25 = true)
    {cs : List Char} (moves : moveOf (escape escaped cs) ≠ .down) :
    cs = ['.'] ∨ cs = ['.', '.'] := by
  have decoded := percentDecode_of_moves moves
  rw [percentDecode_escape percent] at decoded
  rcases decoded with one | two
  · have dot := encode_ascii ['.'] (by simp)
    exact .inl (String.ofList_injective (encode_injective (one.trans dot.symm)))
  · have dots := encode_ascii ['.', '.'] (by simp)
    exact .inr (String.ofList_injective (encode_injective (two.trans dots.symm)))

def Rooted (path : List Char) : Prop := ∃ rest, path = '/' :: rest

theorem rooted_append {path : List Char} (rooted : Rooted path) (more : List Char) :
    Rooted (path ++ more) := by
  obtain ⟨rest, rfl⟩ := rooted
  exact ⟨rest ++ more, rfl⟩

theorem rooted_of_front {path part : List Char} (rooted : Rooted path) (front : part <+: path)
    (left : part ≠ []) : Rooted part := by
  obtain ⟨rest, rfl⟩ := rooted
  rcases List.prefix_cons_iff.mp front with none | ⟨more, same, _⟩
  · exact absurd none left
  · exact ⟨more, same⟩

theorem uptoSlash_front (path : List Char) : uptoSlash path <+: path := by
  have suffix : path.reverse.dropWhile (fun c => c != '/') <:+ path.reverse :=
    List.dropWhile_suffix _
  have front := List.reverse_prefix.mpr suffix
  rwa [List.reverse_reverse] at front

theorem uptoSlash_ne_nil {path : List Char} (slash : '/' ∈ path) : uptoSlash path ≠ [] := by
  intro none
  have dropped := List.reverse_eq_nil_iff.mp none
  have passed := List.dropWhile_eq_nil_iff.mp dropped '/' (List.mem_reverse.mpr slash)
  exact absurd passed (by decide)

theorem rooted_dropSlash {path : List Char} (rooted : Rooted path) : Rooted (dropSlash path) := by
  simp only [dropSlash]
  split
  · rename_i drops
    simp only [Bool.and_eq_true, List.contains_iff_mem] at drops
    exact rooted_of_front rooted (List.dropLast_prefix path) (List.ne_nil_of_mem drops.1.2)
  · exact rooted

theorem rooted_uptoSlash {path : List Char} (rooted : Rooted path) : Rooted (uptoSlash path) := by
  refine rooted_of_front rooted (uptoSlash_front path) (uptoSlash_ne_nil ?_)
  obtain ⟨rest, rfl⟩ := rooted
  exact List.mem_cons_self

theorem rooted_addSegment {path : List Char} (rooted : Rooted path) (segment : List Char)
    (slash : Bool) : Rooted (addSegment path segment slash) := by
  have shorter := rooted_uptoSlash (rooted_dropSlash rooted)
  simp only [addSegment]
  cases moveOf segment with
  | up =>
    simp only
    split
    · exact rooted_append shorter _
    · exact shorter
  | stay =>
    simp only
    split
    · exact rooted
    · exact rooted_append rooted _
  | down => exact rooted_append (rooted_append rooted _) _

theorem rooted_addPath (special : Bool) {path : List Char} (rooted : Rooted path)
    (text : List Char) : Rooted (addPath special path text) := by
  simp only [addPath]
  induction pathPieces special text generalizing path with
  | nil => exact rooted
  | cons piece more ih => exact ih (rooted_addSegment rooted _ _)

theorem rooted_readPath (text : List Char) : Rooted (Url.readPath true text) := by
  have root : Rooted ['/'] := ⟨[], rfl⟩
  cases text with
  | nil => exact root
  | cons c more =>
    simp only [Url.readPath, ↓reduceIte]
    split
    · exact rooted_addPath true root _
    · exact rooted_addPath true root _

namespace Url

def IsWeb (url : Url) : Prop := url.scheme = "http" ∨ url.scheme = "https"

theorem special_of_web {url : Url} (web : url.IsWeb) : isSpecial url.scheme = true := by
  rcases web with same | same
  all_goals
    rw [same]
    decide

theorem ne_file_of_web {url : Url} (web : url.IsWeb) : url.scheme ≠ "file" := by
  rcases web with same | same
  all_goals
    rw [same]
    decide

theorem assemble_scheme (scheme : String) (user : List Char × Option (List Char))
    (host : Option String) (port : Option Nat) (rest : List Char) :
    (assemble scheme user host port rest).scheme = scheme := by
  simp only [assemble]
  split
  · split <;> rfl
  · rfl

theorem assemble_path {scheme : String} (special : isSpecial scheme = true) (web : scheme ≠ "file")
    (user : List Char × Option (List Char)) (host : Option String) (port : Option Nat)
    (rest : List Char) : Rooted (assemble scheme user host port rest).path := by
  have other : ¬ (scheme == "file") = true := by simpa using web
  simp only [assemble, if_neg other, special]
  exact rooted_readPath _

theorem read_of_bind {α β : Type} {first : Except UrlFault α} {second : α → Except UrlFault β}
    {b : β} (read : (first >>= second) = .ok b) : ∃ a, first = .ok a ∧ second a = .ok b := by
  cases first with
  | error f => exact absurd read (by simp [bind, Except.bind])
  | ok a => exact ⟨a, rfl, read⟩

theorem assembled_of_readAuthority {scheme : String} {text : List Char} {url : Url}
    (read : readAuthority scheme text = .ok url) :
    ∃ user host port rest, url = assemble scheme user host port rest := by
  simp only [readAuthority] at read
  split at read
  · exact absurd read (by simp)
  · obtain ⟨⟨host, port⟩, _, read⟩ := read_of_bind read
    simp only at read
    split at read
    · exact absurd read (by simp)
    · exact ⟨_, _, _, _, (Except.ok.inj read).symm⟩

theorem scheme_of_readFile {text : List Char} {url : Url} (read : readFile text = .ok url) :
    url.scheme = "file" := by
  unfold readFile at read
  split at read
  · rename_i a b more
    simp only at read
    split at read
    · split at read
      all_goals
        obtain ⟨host, _, read⟩ := read_of_bind read
        rw [← Except.ok.inj read]
        exact assemble_scheme ..
    · rw [← Except.ok.inj read]
      exact assemble_scheme ..
  · rw [← Except.ok.inj read]
    exact assemble_scheme ..

theorem scheme_of_readOther {scheme : String} {text : List Char} {url : Url}
    (read : readOther scheme text = .ok url) : url.scheme = scheme := by
  unfold readOther at read
  split at read
  · obtain ⟨user, host, port, more, rfl⟩ := assembled_of_readAuthority read
    exact assemble_scheme ..
  · rw [← Except.ok.inj read]
    exact assemble_scheme ..
  · rw [← Except.ok.inj read]

theorem assembled_of_parse {text : String} {url : Url} (parsed : Url.parse text = .ok url)
    (web : url.IsWeb) :
    ∃ user host port rest, url = assemble url.scheme user host port rest := by
  simp only [Url.parse] at parsed
  split at parsed
  · exact absurd parsed (by simp)
  · rename_i scheme rest _
    split at parsed
    · exact absurd (scheme_of_readFile parsed) (ne_file_of_web web)
    · split at parsed
      · obtain ⟨user, host, port, more, rfl⟩ := assembled_of_readAuthority parsed
        exact ⟨user, host, port, more, by rw [assemble_scheme]⟩
      · rename_i plain
        rw [← scheme_of_readOther parsed] at plain
        exact absurd (special_of_web web) plain

theorem rooted_of_parse {text : String} {url : Url} (parsed : Url.parse text = .ok url)
    (web : url.IsWeb) : Rooted url.path := by
  obtain ⟨user, host, port, rest, same⟩ := assembled_of_parse parsed web
  rw [same]
  exact assemble_path (special_of_web web) (ne_file_of_web web) user host port rest

end Url

theorem endsWithSlash_append (path more : List Char) (some : more ≠ []) :
    endsWithSlash (path ++ more) = endsWithSlash more := by
  simp only [endsWithSlash, List.getLast?_append, List.getLast?_eq_some_getLast some,
    Option.some_or]

theorem dropSlash_length (path : List Char) : (dropSlash path).length ≤ path.length := by
  simp only [dropSlash]
  split
  · exact (List.dropLast_prefix path).length_le
  · exact Nat.le_refl _

theorem addSegment_length {path segment : List Char} (ends : endsWithSlash path = true)
    (moves : moveOf segment ≠ .down) : (addSegment path segment false).length ≤ path.length := by
  simp only [addSegment]
  cases move : moveOf segment with
  | up => exact Nat.le_trans (uptoSlash_front _).length_le (dropSlash_length path)
  | stay =>
    rw [if_pos ends]
  | down => exact absurd move moves

end TenantGate.Net
