import Mathlib.Data.List.Basic
import TenantGate.Proofs.Numerals
import TenantGate.Proofs.Sendable
import TenantGate.Startup.Socket

/-!
Which texts are addresses to listen on. Dotted addresses are four octets, addresses of the sixth
version eight groups, of which `::` leaves some out; the reader takes exactly these.
-/
namespace TenantGate.Net

open Decimal

structure IsOctet (cs : List Char) : Prop where
  digits : IsDigits cs
  short : cs.length ≤ 3
  /-- A zero in front is the whole number. -/
  needed : 1 < cs.length → cs.head? ≠ some '0'
  small : valueOf cs ≤ 255

def IsDotted (cs : List Char) : Prop :=
  ∃ a b c d, IsOctet a ∧ IsOctet b ∧ IsOctet c ∧ IsOctet d ∧
    cs = a ++ '.' :: (b ++ '.' :: (c ++ '.' :: d))

structure IsGroup (cs : List Char) : Prop where
  some : cs ≠ []
  short : cs.length ≤ 4
  digits : ∀ c ∈ cs, (hexDigit? c).isSome = true

/-- Groups with colons between them. A dotted address at their end stands for the last two. -/
inductive IsGroups : List Char → Nat → Prop where
  | one {cs : List Char} (group : IsGroup cs) : IsGroups cs 1
  | dotted {cs : List Char} (dotted : IsDotted cs) : IsGroups cs 2
  | more {cs rest : List Char} {n : Nat} (group : IsGroup cs) (groups : IsGroups rest n) :
      IsGroups (cs ++ ':' :: rest) (n + 1)

def IsSide (cs : List Char) (n : Nat) : Prop := cs = [] ∧ n = 0 ∨ IsGroups cs n

inductive IsSixth : List Char → Prop where
  | whole {cs : List Char} (groups : IsGroups cs 8) : IsSixth cs
  | shortened {front back : List Char} {m n : Nat} (head : IsSide front m) (plain : '.' ∉ front)
      (tail : IsSide back n) (few : m + n ≤ 7) : IsSixth (front ++ ':' :: ':' :: back)

section Splitting

variable {separator : Char} {cs front rest : List Char}

theorem splitChars_plain (plain : separator ∉ cs) : splitChars separator cs = [cs] := by
  induction cs with
  | nil => rfl
  | cons c cs ih =>
    obtain ⟨other, plain⟩ := not_or.mp (mt List.mem_cons.mpr plain)
    rw [splitChars, if_neg (by simpa only [beq_iff_eq] using Ne.symm other), ih plain]

theorem splitChars_append (plain : separator ∉ front) (rest : List Char) :
    splitChars separator (front ++ separator :: rest) = front :: splitChars separator rest := by
  induction front with
  | nil => rw [List.nil_append, splitChars, if_pos (beq_self_eq_true separator)]
  | cons c cs ih =>
    obtain ⟨other, plain⟩ := not_or.mp (mt List.mem_cons.mpr plain)
    rw [List.cons_append, splitChars, if_neg (by simpa only [beq_iff_eq] using Ne.symm other),
      ih plain]

theorem first_piece (separator : Char) (cs : List Char) :
    separator ∉ cs ∨ ∃ front rest, separator ∉ front ∧ cs = front ++ separator :: rest := by
  by_cases among : separator ∈ cs
  · obtain ⟨front, rest, split, plain⟩ := List.eq_append_cons_of_mem among
    exact .inr ⟨front, rest, plain, split⟩
  · exact .inl among

theorem splitChars_ne_nil (separator : Char) (cs : List Char) : splitChars separator cs ≠ [] := by
  rcases first_piece separator cs with plain | ⟨front, rest, plain, rfl⟩
  · rw [splitChars_plain plain]
    exact List.cons_ne_nil _ _
  · rw [splitChars_append plain]
    exact List.cons_ne_nil _ _

theorem plain_of_length_splitChars (one : (splitChars separator cs).length = 1) :
    separator ∉ cs := by
  rcases first_piece separator cs with plain | ⟨front, rest, plain, rfl⟩
  · exact plain
  · rw [splitChars_append plain, List.length_cons, Nat.add_eq_right,
      List.length_eq_zero_iff] at one
    exact absurd one (splitChars_ne_nil separator rest)

theorem split_of_length_splitChars {n : Nat} (more : (splitChars separator cs).length = n + 2) :
    ∃ front rest, separator ∉ front ∧ cs = front ++ separator :: rest ∧
      (splitChars separator rest).length = n + 1 := by
  rcases first_piece separator cs with plain | ⟨front, rest, plain, rfl⟩
  · rw [splitChars_plain plain] at more
    exact absurd more (by simp)
  · rw [splitChars_append plain, List.length_cons] at more
    exact ⟨front, rest, plain, rfl, Nat.succ.inj more⟩

end Splitting

section Dotted

variable {cs : List Char}

theorem octet?_isSome_iff : (octet? cs).isSome = true ↔ IsOctet cs := by
  rw [octet?]
  split
  · rename_i refused
    refine ⟨nofun, fun octet => absurd refused ?_⟩
    simp only [Bool.or_eq_true, Bool.and_eq_true, decide_eq_true_eq, beq_iff_eq]
    rintro (long | ⟨more, zero⟩)
    · exact absurd octet.short (by omega)
    · exact octet.needed more zero
  · rename_i kept
    simp only [Bool.or_eq_true, Bool.and_eq_true, decide_eq_true_eq, beq_iff_eq, not_or,
      not_and] at kept
    constructor
    · intro read
      obtain ⟨n, found⟩ := Option.isSome_iff_exists.mp read
      obtain ⟨m, number, fits⟩ := Option.bind_eq_some_iff.mp found
      obtain ⟨digits, rfl⟩ := natural?_eq_some_iff.mp number
      exact ⟨digits, by omega, kept.2, (Option.ite_none_right_eq_some.mp fits).1⟩
    · intro octet
      rw [natural?_eq_some_iff.mpr ⟨octet.digits, rfl⟩, Option.bind_some, if_pos octet.small]
      rfl

theorem IsOctet.plain {c : Char} (octet : IsOctet cs) (other : c.isDigit = false) : c ∉ cs :=
  octet.digits.plain other

theorem IsDotted.read (dotted : IsDotted cs) : ∃ w x y z, dotted? cs = some [w, x, y, z] := by
  obtain ⟨a, b, c, d, isA, isB, isC, isD, rfl⟩ := dotted
  obtain ⟨w, readA⟩ := Option.isSome_iff_exists.mp (octet?_isSome_iff.mpr isA)
  obtain ⟨x, readB⟩ := Option.isSome_iff_exists.mp (octet?_isSome_iff.mpr isB)
  obtain ⟨y, readC⟩ := Option.isSome_iff_exists.mp (octet?_isSome_iff.mpr isC)
  obtain ⟨z, readD⟩ := Option.isSome_iff_exists.mp (octet?_isSome_iff.mpr isD)
  refine ⟨w, x, y, z, ?_⟩
  have point : Char.isDigit '.' = false := by decide
  rw [dotted?, splitChars_append (isA.plain point), splitChars_append (isB.plain point),
    splitChars_append (isC.plain point), splitChars_plain (isD.plain point)]
  simp [readA, readB, readC, readD]

theorem isDotted_of_read {octets : List Nat} (read : dotted? cs = some octets) : IsDotted cs := by
  rw [dotted?] at read
  obtain ⟨four, pieces⟩ := Option.ite_none_right_eq_some.mp read
  obtain ⟨a, rest, plainA, rfl, three⟩ := split_of_length_splitChars (beq_iff_eq.mp four)
  obtain ⟨b, rest, plainB, rfl, two⟩ := split_of_length_splitChars three
  obtain ⟨c, d, plainC, rfl, one⟩ := split_of_length_splitChars two
  have plainD := plain_of_length_splitChars one
  have each := (mapM_isSome octet? _).mp (Option.isSome_iff_exists.mpr ⟨octets, pieces⟩)
  rw [splitChars_append plainA, splitChars_append plainB, splitChars_append plainC,
    splitChars_plain plainD] at each
  simp only [List.forall_mem_cons, octet?_isSome_iff] at each
  exact ⟨a, b, c, d, each.1, each.2.1, each.2.2.1, each.2.2.2.1, rfl⟩

theorem dotted?_isSome_iff : (dotted? cs).isSome = true ↔ IsDotted cs := by
  constructor
  · intro read
    obtain ⟨octets, read⟩ := Option.isSome_iff_exists.mp read
    exact isDotted_of_read read
  · intro dotted
    obtain ⟨w, x, y, z, read⟩ := dotted.read
    exact Option.isSome_iff_exists.mpr ⟨_, read⟩

end Dotted

section Groups

variable {cs front back rest : List Char} {n : Nat}

theorem group?_isSome_iff : (group? cs).isSome = true ↔ IsGroup cs := by
  rw [group?]
  split
  · rename_i refused
    refine ⟨nofun, fun group => absurd refused ?_⟩
    simp only [Bool.or_eq_true, List.isEmpty_iff, decide_eq_true_eq]
    rintro (none | long)
    · exact group.some none
    · exact absurd group.short (by omega)
  · rename_i kept
    simp only [Bool.or_eq_true, List.isEmpty_iff, decide_eq_true_eq, not_or] at kept
    rw [Option.isSome_map, mapM_isSome]
    exact ⟨fun digits => ⟨kept.1, by omega, digits⟩, IsGroup.digits⟩

theorem IsGroup.plain {c : Char} (group : IsGroup cs) (other : hexDigit? c = none) : c ∉ cs := by
  intro among
  have digit := group.digits c among
  rw [other] at digit
  exact absurd digit (by decide)

theorem IsDotted.plain {c : Char} (dotted : IsDotted cs) (other : c.isDigit = false)
    (noPoint : c ≠ '.') : c ∉ cs := by
  obtain ⟨a, b, c, d, isA, isB, isC, isD, rfl⟩ := dotted
  simp only [List.mem_append, List.mem_cons, isA.plain other, isB.plain other, isC.plain other,
    isD.plain other, noPoint, or_self, not_false_eq_true]

theorem IsDotted.no_group (dotted : IsDotted cs) : group? cs = none := by
  obtain ⟨a, b, c, d, _, _, _, _, rfl⟩ := dotted
  cases read : group? (a ++ '.' :: (b ++ '.' :: (c ++ '.' :: d))) with
  | none => rfl
  | some g =>
    have group := group?_isSome_iff.mp (Option.isSome_iff_exists.mpr ⟨g, read⟩)
    exact absurd (List.mem_append_right a List.mem_cons_self) (group.plain (by decide))

theorem groups?_cons {piece : List Char} {pieces : List (List Char)} (more : pieces ≠ []) :
    groups? (piece :: pieces) =
      (group? piece).bind fun g => (groups? pieces).bind fun gs => some (g :: gs) := by
  cases pieces with
  | nil => exact absurd rfl more
  | cons next pieces => rfl

theorem IsGroups.read {n : Nat} (groups : IsGroups cs n) :
    ∃ gs, groups? (splitChars ':' cs) = some gs ∧ gs.length = n := by
  induction groups with
  | one group =>
    obtain ⟨g, read⟩ := Option.isSome_iff_exists.mp (group?_isSome_iff.mpr group)
    rw [splitChars_plain (group.plain (by decide)), groups?, read]
    exact ⟨[g], rfl, rfl⟩
  | dotted dotted =>
    obtain ⟨w, x, y, z, read⟩ := dotted.read
    rw [splitChars_plain (dotted.plain (by decide) (by decide)), groups?, dotted.no_group, read]
    exact ⟨_, rfl, rfl⟩
  | more group _ ih =>
    obtain ⟨g, read⟩ := Option.isSome_iff_exists.mp (group?_isSome_iff.mpr group)
    obtain ⟨gs, later, rfl⟩ := ih
    rw [splitChars_append (group.plain (by decide)), groups?_cons (splitChars_ne_nil _ _), read,
      later]
    exact ⟨g :: gs, rfl, rfl⟩

theorem isGroups_of_piece {gs : List Nat} (read : groups? [cs] = some gs) :
    IsGroups cs gs.length := by
  rw [groups?] at read
  split at read
  · rename_i g one
    obtain rfl := Option.some.inj read
    exact .one (group?_isSome_iff.mp (Option.isSome_iff_exists.mpr ⟨g, one⟩))
  · split at read
    · rename_i dotted
      obtain rfl := Option.some.inj read
      exact .dotted (isDotted_of_read dotted)
    · exact absurd read nofun

theorem isGroups_of_read {gs : List Nat} (read : groups? (splitChars ':' cs) = some gs) :
    IsGroups cs gs.length := by
  induction size : cs.length using Nat.strongRecOn generalizing cs gs with
  | ind size ih =>
    rcases first_piece ':' cs with plain | ⟨front, rest, plain, rfl⟩
    · rw [splitChars_plain plain] at read
      exact isGroups_of_piece read
    · rw [splitChars_append plain, groups?_cons (splitChars_ne_nil _ _)] at read
      obtain ⟨g, one, read⟩ := Option.bind_eq_some_iff.mp read
      obtain ⟨later, behind, same⟩ := Option.bind_eq_some_iff.mp read
      obtain rfl := Option.some.inj same
      refine .more (group?_isSome_iff.mp (Option.isSome_iff_exists.mpr ⟨g, one⟩)) ?_
      exact ih rest.length (by rw [← size, List.length_append, List.length_cons]; omega) behind rfl

theorem starts_plain {c : Char} (filled : cs ≠ []) (plain : c ∉ cs) (rest : List Char) :
    ∃ d more, cs ++ rest = d :: more ∧ d ≠ c := by
  cases cs with
  | nil => exact absurd rfl filled
  | cons d cs => exact ⟨d, cs ++ rest, rfl, fun same => plain (same ▸ List.mem_cons_self)⟩

theorem IsGroups.starts (groups : IsGroups cs n) : ∃ d more, cs = d :: more ∧ d ≠ ':' := by
  cases groups with
  | one group =>
    simpa only [List.append_nil] using starts_plain group.some (group.plain (by decide)) []
  | dotted dotted =>
    have filled : cs ≠ [] := by
      obtain ⟨a, b, c, d, _, _, _, _, rfl⟩ := dotted
      exact List.append_ne_nil_of_right_ne_nil a (List.cons_ne_nil _ _)
    simpa only [List.append_nil] using starts_plain filled (dotted.plain (by decide) (by decide)) []
  | more group _ => exact starts_plain group.some (group.plain (by decide)) _

theorem IsSide.read (side : IsSide cs n) : ∃ gs, side? cs = some gs ∧ gs.length = n := by
  rcases side with ⟨rfl, rfl⟩ | groups
  · exact ⟨[], rfl, rfl⟩
  · obtain ⟨d, more, rfl, _⟩ := groups.starts
    exact groups.read

theorem isSide_of_read {gs : List Nat} (read : side? cs = some gs) : IsSide cs gs.length := by
  rw [side?] at read
  split at read
  · rename_i none
    obtain rfl := Option.some.inj read
    exact .inl ⟨List.isEmpty_iff.mp none, rfl⟩
  · exact .inr (isGroups_of_read read)

end Groups

section Sixth

variable {cs front back rest : List Char} {n : Nat}

theorem cutDouble_plain (plain : ':' ∉ front) (rest : List Char) :
    cutDouble (front ++ rest) = (front ++ (cutDouble rest).1, (cutDouble rest).2) := by
  induction front with
  | nil => rfl
  | cons c front ih =>
    obtain ⟨other, plain⟩ := not_or.mp (mt List.mem_cons.mpr plain)
    rw [List.cons_append, cutDouble, ih plain]
    · rfl
    · rintro more rfl
      exact absurd rfl other

theorem cutDouble_single {d : Char} (other : d ≠ ':') (more : List Char) :
    cutDouble (':' :: d :: more) =
      (':' :: (cutDouble (d :: more)).1, (cutDouble (d :: more)).2) := by
  rw [cutDouble]
  rintro _ _ same
  exact absurd (List.cons.inj same).1 other

theorem IsGroups.cut (groups : IsGroups cs n) (behind : List Char) :
    cutDouble (cs ++ behind) = (cs ++ (cutDouble behind).1, (cutDouble behind).2) := by
  induction groups with
  | one group => exact cutDouble_plain (group.plain (by decide)) behind
  | dotted dotted => exact cutDouble_plain (dotted.plain (by decide) (by decide)) behind
  | more group later ih =>
    obtain ⟨d, more, rfl, other⟩ := later.starts
    rw [List.append_assoc, cutDouble_plain (group.plain (by decide))]
    rw [List.cons_append, List.cons_append, cutDouble_single other, ← List.cons_append, ih]
    simp only [List.append_assoc, List.cons_append]

theorem IsSide.cut (side : IsSide front n) (back : List Char) :
    cutDouble (front ++ ':' :: ':' :: back) = (front, some back) := by
  rcases side with ⟨rfl, _⟩ | groups
  · rfl
  · rw [groups.cut]
    exact congrArg (·, some back) (List.append_nil front)

theorem cutDouble_whole (cs : List Char) :
    cs = (cutDouble cs).1 ++ (cutDouble cs).2.elim [] fun back => ':' :: ':' :: back := by
  fun_induction cutDouble cs with
  | case1 => rfl
  | case2 rest => rfl
  | case3 c cs _ before behind same ih =>
    rw [same] at ih
    rw [List.cons_append, ← ih]

theorem sixth_of_read (read : (ipv6? cs).isSome = true) : IsSixth cs := by
  have whole := cutDouble_whole cs
  rw [ipv6?] at read
  split at read
  · rename_i front cut
    rw [cut] at whole
    simp only [Option.elim_none, List.append_nil] at whole
    obtain ⟨gs, found⟩ := Option.isSome_iff_exists.mp read
    obtain ⟨groups, pieces, eight⟩ := Option.bind_eq_some_iff.mp found
    have length := beq_iff_eq.mp (Option.ite_none_right_eq_some.mp eight).1
    rw [whole]
    exact .whole (length ▸ isGroups_of_read pieces)
  · rename_i front back cut
    rw [cut] at whole
    split at read
    · exact absurd read (by decide)
    · rename_i plain
      obtain ⟨gs, found⟩ := Option.isSome_iff_exists.mp read
      obtain ⟨head, readHead, found⟩ := Option.bind_eq_some_iff.mp found
      obtain ⟨tail, readTail, found⟩ := Option.bind_eq_some_iff.mp found
      rw [whole]
      refine .shortened (isSide_of_read readHead) ?_ (isSide_of_read readTail)
        (Option.ite_none_right_eq_some.mp found).1
      exact fun among => plain (List.contains_iff_mem.mpr among)

theorem IsSixth.read (sixth : IsSixth cs) : (ipv6? cs).isSome = true := by
  cases sixth with
  | whole groups =>
    have cut := groups.cut []
    rw [List.append_nil] at cut
    obtain ⟨gs, read, eight⟩ := groups.read
    simp only [ipv6?, cut, cutDouble, List.append_nil, read, Option.bind_some, eight]
    rfl
  | shortened head plain tail few =>
    obtain ⟨hs, readHead, rfl⟩ := head.read
    obtain ⟨ts, readTail, rfl⟩ := tail.read
    have undotted := mt List.contains_iff_mem.mp plain
    simp only [ipv6?, head.cut, hasDots, if_neg undotted, readHead, readTail, Option.bind_eq_bind,
      Option.bind_some, if_pos few]
    rfl

theorem ipv6?_isSome_iff : (ipv6? cs).isSome = true ↔ IsSixth cs :=
  ⟨sixth_of_read, IsSixth.read⟩

theorem IsGroups.no_percent (groups : IsGroups cs n) : '%' ∉ cs := by
  induction groups with
  | one group => exact group.plain (by decide)
  | dotted dotted => exact dotted.plain (by decide) (by decide)
  | more group _ ih =>
    have percent : hexDigit? '%' = none := by decide
    simp only [List.mem_append, List.mem_cons, ih, group.plain percent]
    decide

theorem IsSide.no_percent (side : IsSide cs n) : '%' ∉ cs := by
  rcases side with ⟨rfl, _⟩ | groups
  · exact List.not_mem_nil
  · exact groups.no_percent

theorem IsSixth.no_percent (sixth : IsSixth cs) : '%' ∉ cs := by
  cases sixth with
  | whole groups => exact groups.no_percent
  | shortened head _ tail _ =>
    simp only [List.mem_append, List.mem_cons, head.no_percent, tail.no_percent]
    decide

end Sixth

end TenantGate.Net

namespace TenantGate.Startup

open Net Decimal

/-- A host to listen on: a dotted address, or one of the sixth version in brackets, where the number
of a zone may stand behind it. -/
inductive IsHost : List Char → Prop where
  | dotted {cs : List Char} (dotted : IsDotted cs) : IsHost cs
  | bracketed {cs : List Char} (sixth : IsSixth cs) : IsHost ('[' :: (cs ++ [']']))
  | zoned {cs zone : List Char} (sixth : IsSixth cs) (digits : IsDigits zone)
      (small : valueOf zone < 0x100000000) : IsHost ('[' :: (cs ++ '%' :: zone ++ [']']))

def IsSocket (text : String) : Prop :=
  ∃ host port, IsHost host ∧ IsDigits port ∧ valueOf port ≤ 65535 ∧
    text.toList = host ++ ':' :: port

section Hosts

variable {cs : List Char}

theorem takeWhile_before {c : Char} {front : List Char} (plain : c ∉ front) (rest : List Char) :
    (front ++ c :: rest).takeWhile (· != c) = front := by
  have each : ∀ d ∈ front, (d != c) = true := by
    intro d among
    rw [bne_iff_ne]
    exact fun same => plain (same ▸ among)
  rw [List.takeWhile_append_of_pos each, List.takeWhile_cons_of_neg (by simp), List.append_nil]

theorem first_split_unique {c : Char} {front rest front' rest' : List Char} (plain : c ∉ front)
    (plain' : c ∉ front') (same : front ++ c :: rest = front' ++ c :: rest') :
    front = front' ∧ rest = rest' := by
  have fronts := congrArg (List.takeWhile (· != c)) same
  rw [takeWhile_before plain, takeWhile_before plain'] at fronts
  subst fronts
  exact ⟨rfl, (List.cons.inj (List.append_cancel_left same)).2⟩

theorem last_split_unique {c : Char} {front rest front' rest' : List Char} (plain : c ∉ rest)
    (plain' : c ∉ rest') (same : front ++ c :: rest = front' ++ c :: rest') :
    front = front' ∧ rest = rest' := by
  have turned := congrArg List.reverse same
  simp only [List.reverse_append, List.reverse_cons, List.append_assoc, List.singleton_append]
    at turned
  obtain ⟨rests, fronts⟩ := first_split_unique (mt List.mem_reverse.mp plain)
    (mt List.mem_reverse.mp plain') turned
  exact ⟨List.reverse_injective fronts, List.reverse_injective rests⟩

theorem bracketed?_plain (plain : '%' ∉ cs) :
    (Endpoint.bracketed? cs).isSome = true ↔ IsSixth cs := by
  have all : cs.takeWhile (· != '%') = cs := by
    rw [List.takeWhile_eq_self_iff]
    intro c among
    exact bne_iff_ne.mpr fun same => plain (same ▸ among)
  simp only [Endpoint.bracketed?, all, List.drop_length, Option.isSome_map, ipv6?_isSome_iff]

theorem bracketed?_zoned {six : List Char} (plain : '%' ∉ six) (zone : List Char) :
    (Endpoint.bracketed? (six ++ '%' :: zone)).isSome = true ↔
      IsSixth six ∧ IsDigits zone ∧ valueOf zone < 0x100000000 := by
  simp only [Endpoint.bracketed?, takeWhile_before plain, List.drop_left]
  constructor
  · intro read
    split at read
    · rename_i groups number readGroups readZone
      obtain ⟨digits, rfl⟩ := natural?_eq_some_iff.mp readZone
      obtain ⟨endpoint, found⟩ := Option.isSome_iff_exists.mp read
      exact ⟨ipv6?_isSome_iff.mp (Option.isSome_iff_exists.mpr ⟨groups, readGroups⟩), digits,
        (Option.ite_none_right_eq_some.mp found).1⟩
    · exact absurd read nofun
  · rintro ⟨sixth, digits, small⟩
    obtain ⟨groups, read⟩ := Option.isSome_iff_exists.mp (ipv6?_isSome_iff.mpr sixth)
    rw [read, natural?_eq_some_iff.mpr ⟨digits, rfl⟩]
    simp only [if_pos small, Option.isSome_some]

theorem isHost_of_bracketed (read : (Endpoint.bracketed? cs).isSome = true) :
    IsHost ('[' :: (cs ++ [']'])) := by
  rcases first_piece '%' cs with plain | ⟨six, zone, plain, rfl⟩
  · exact .bracketed ((bracketed?_plain plain).mp read)
  · obtain ⟨sixth, digits, small⟩ := (bracketed?_zoned plain zone).mp read
    exact .zoned sixth digits small

theorem ofHost?_brackets {host : String} {inner : List Char}
    (shape : host.toList = '[' :: (inner ++ [']'])) :
    Endpoint.ofHost? host = Endpoint.bracketed? inner := by
  rw [Endpoint.ofHost?, shape]
  simp only [List.reverse_append, List.reverse_cons, List.reverse_nil, List.nil_append,
    List.singleton_append, List.reverse_reverse]

theorem ofHost?_plain {host : String} (starts : ∀ cs, host.toList ≠ '[' :: cs) :
    Endpoint.ofHost? host = (dotted? host.toList).map .dotted := by
  unfold Endpoint.ofHost?
  split
  · rename_i cs shape
    exact absurd shape (starts cs)
  · rfl

theorem isHost_of_read {host : String} (read : (Endpoint.ofHost? host).isSome = true) :
    IsHost host.toList := by
  by_cases starts : ∃ cs, host.toList = '[' :: cs
  · obtain ⟨cs, shape⟩ := starts
    -- the bracket at the end is found from behind
    rcases List.eq_nil_or_concat cs with rfl | ⟨inner, last, rfl⟩
    · rw [Endpoint.ofHost?, shape] at read
      exact absurd read nofun
    · rw [List.concat_eq_append] at shape
      by_cases closes : last = ']'
      · rw [ofHost?_brackets (closes ▸ shape)] at read
        rw [shape, closes]
        exact isHost_of_bracketed read
      · rw [Endpoint.ofHost?, shape] at read
        simp [closes] at read
  · rw [ofHost?_plain (not_exists.mp starts), Option.isSome_map, dotted?_isSome_iff] at read
    exact .dotted read

theorem IsHost.read {host : String} (isHost : IsHost cs) (shape : host.toList = cs) :
    (Endpoint.ofHost? host).isSome = true := by
  cases isHost with
  | dotted dotted =>
    have starts : ∀ cs, host.toList ≠ '[' :: cs := by
      rintro rest starts
      rw [shape] at starts
      exact dotted.plain (c := '[') (by decide) (by decide) (starts ▸ List.mem_cons_self)
    rw [ofHost?_plain starts, Option.isSome_map, dotted?_isSome_iff, shape]
    exact dotted
  | bracketed sixth =>
    rw [ofHost?_brackets shape]
    exact (bracketed?_plain sixth.no_percent).mpr sixth
  | zoned sixth digits small =>
    rw [ofHost?_brackets shape]
    exact (bracketed?_zoned sixth.no_percent _).mpr ⟨sixth, digits, small⟩

theorem ofHost?_isSome_iff (host : String) :
    (Endpoint.ofHost? host).isSome = true ↔ IsHost host.toList :=
  ⟨isHost_of_read, fun isHost => isHost.read rfl⟩

theorem isSocket_iff (host : String) (port : UInt16) :
    IsSocket (host ++ ":" ++ toString port.toNat) ↔
      (Socket.ofHost? host port).isSome = true := by
  have whole : (host ++ ":" ++ toString port.toNat).toList =
      host.toList ++ ':' :: (toString port.toNat).toList := by
    simp only [String.toList_append, List.append_assoc]
    rfl
  have written := isDigits_toString port.toNat
  rw [Socket.ofHost?, Option.isSome_map, ofHost?_isSome_iff]
  constructor
  · rintro ⟨front, digits, isHost, number, _, same⟩
    have split := last_split_unique (written.plain (by decide)) (number.plain (by decide))
      (whole.symm.trans same)
    exact split.1 ▸ isHost
  · intro isHost
    have small : valueOf (toString port.toNat).toList ≤ 65535 := by
      rw [valueOf_toString]
      exact Nat.le_of_lt_succ port.toNat_lt
    exact ⟨_, _, isHost, written, small, whole⟩

end Hosts

end TenantGate.Startup
