import TenantGate.Proofs.ErrorAnswers
import TenantGate.Proofs.JsonLaws
import TenantGate.Proofs.Numerals
import TenantGate.Telemetry.Views

/-!
The snapshot of the metrics is one object in which each counter stands under its name, beside
decimals that every reader of JSON takes for numbers.
-/
namespace TenantGate

open Json Utf8

namespace Decimal

section Characters

theorem isDigit_encoded {c : Char} (digit : c.isDigit = true) :
    isDigit (UInt8.ofNat c.toNat) = true ∧ c.toNat < 0x80 := by
  simp only [Char.isDigit, Bool.and_eq_true, decide_eq_true_eq, UInt32.le_iff_toNat_le] at digit
  have least : 0x30 ≤ c.toNat := digit.1
  have most : c.toNat ≤ 0x39 := digit.2
  have number := ofNat_toNat_of_lt (show c.toNat < 256 by omega)
  refine ⟨?_, by omega⟩
  simp only [isDigit, Bool.and_eq_true, decide_eq_true_eq, UInt8.le_iff_toNat_le, number]
  exact ⟨least, most⟩

theorem digits_bytesOf {cs : List Char} (digits : ∀ c ∈ cs, c.isDigit = true) :
    ∀ b ∈ bytesOf cs, isDigit b = true := by
  intro b among
  obtain ⟨c, listed, encoded⟩ := List.mem_flatMap.mp among
  obtain ⟨digit, ascii⟩ := isDigit_encoded (digits c listed)
  rw [encodeChar_ascii ascii, List.mem_singleton] at encoded
  exact encoded ▸ digit

theorem IsDigits.encoded {cs : List Char} (digits : IsDigits cs) : Json.Digits (bytesOf cs) := by
  refine ⟨?_, digits_bytesOf digits.2⟩
  obtain ⟨c, more, rfl⟩ := List.exists_cons_of_ne_nil digits.1
  rw [bytesOf_cons, encodeChar_ascii (isDigit_encoded (digits.2 c List.mem_cons_self)).2]
  exact List.cons_ne_nil _ _

structure IsWhole (cs : List Char) : Prop where
  digits : IsDigits cs
  front : cs = ['0'] ∨ cs.head? ≠ some '0'

theorem IsWhole.encoded {cs : List Char} (whole : IsWhole cs) : Whole (bytesOf cs) := by
  obtain ⟨⟨nonempty, digits⟩, rfl | front⟩ := whole
  · exact .zero
  obtain ⟨c, more, rfl⟩ := List.exists_cons_of_ne_nil nonempty
  obtain ⟨digit, digits⟩ := List.forall_mem_cons.mp digits
  obtain ⟨encoded, ascii⟩ := isDigit_encoded digit
  rw [bytesOf_cons, encodeChar_ascii ascii]
  refine .digits encoded ?_ (digits_bytesOf digits)
  intro zero
  have same : c.toNat = '0'.toNat := by
    rw [← UInt8.toNat_inj, ofNat_toNat_of_lt (by omega)] at zero
    exact zero
  exact front (congrArg some (Char.toNat_inj.mp same))

end Characters

section Magnitudes

inductive Magnitude : String → Prop where
  | parts {s : String} {whole fraction exponent : List UInt8} (hasWhole : Whole whole)
      (hasFraction : Fraction fraction) (hasExponent : Exponent exponent)
      (written : encode s = whole ++ (fraction ++ exponent)) : Magnitude s

theorem Magnitude.numeral {s : String} (magnitude : Magnitude s) (negative : Bool) :
    Numeral (encode ((if negative then "-" else "") ++ s)) := by
  obtain ⟨hasWhole, hasFraction, hasExponent, written⟩ := magnitude
  have minus : encode "-" = [0x2D] := by decide +kernel
  have nothing : encode "" = [] := by decide +kernel
  rw [encode_append, written]
  refine .parts ?_ hasWhole hasFraction hasExponent
  cases negative with
  | true => exact .inr minus
  | false => exact .inl nothing

theorem magnitude_pointed {whole fraction : List Char} (hasWhole : IsWhole whole)
    (digits : IsDigits fraction) :
    Magnitude (String.ofList whole ++ "." ++ String.ofList fraction) := by
  refine .parts hasWhole.encoded (.digits digits.encoded) .none ?_
  have point : encode "." = [0x2E] := by decide +kernel
  rw [encode_append, encode_append, point, encode_ofList, encode_ofList, List.append_assoc,
    List.append_nil]
  rfl

theorem magnitude_scientific {whole tail : List Char} (hasWhole : IsWhole whole)
    (digits : ∀ c ∈ tail, c.isDigit = true) {sign : String}
    (signs : sign = "+" ∨ sign = "-") (power : Nat) :
    Magnitude (String.ofList whole ++
      (if tail.isEmpty then "" else "." ++ String.ofList tail) ++ "e" ++ sign ++
        digitText power) := by
  have point : encode "." = [0x2E] := by decide +kernel
  have letter : encode "e" = [0x65] := by decide +kernel
  have nothing : encode "" = [] := by decide +kernel
  have plus : encode "+" = [0x2B] := by decide +kernel
  have minus : encode "-" = [0x2D] := by decide +kernel
  have hasFraction :
      Fraction (encode (if tail.isEmpty then "" else "." ++ String.ofList tail)) := by
    cases tail with
    | nil => exact nothing ▸ .none
    | cons c tail =>
      have fraction : encode ("." ++ String.ofList (c :: tail)) = 0x2E :: bytesOf (c :: tail) := by
        rw [encode_append, point, encode_ofList]
        rfl
      exact fraction ▸ .digits (IsDigits.encoded ⟨List.cons_ne_nil c tail, digits⟩)
  have hasExponent : Exponent (0x65 :: (encode sign ++ encode (digitText power))) := by
    refine .digits rfl ?_ ?_
    · rcases signs with rfl | rfl
      · exact .inr (.inl plus)
      · exact .inr (.inr minus)
    · rw [digitText, encode_ofList]
      exact (isDigits_toDigits power).encoded
  refine .parts hasWhole.encoded hasFraction hasExponent ?_
  simp only [encode_append, encode_ofList, letter, List.append_assoc]
  rfl

end Magnitudes

section Written

theorem IsWhole.zero : IsWhole ['0'] :=
  ⟨⟨List.cons_ne_nil _ _, List.forall_mem_singleton.mpr rfl⟩, .inl rfl⟩

theorem IsWhole.nonzero {c : Char} {cs : List Char} (first : c ≠ '0')
    (digits : ∀ d ∈ c :: cs, d.isDigit = true) : IsWhole (c :: cs) :=
  ⟨⟨List.cons_ne_nil c cs, digits⟩, .inr fun zero => first (Option.some.inj zero)⟩

theorem toDigits_front {n : Nat} (positive : 0 < n) :
    ∃ c cs, Nat.toDigits 10 n = c :: cs ∧ c ≠ '0' := by
  obtain ⟨c, cs, written⟩ := List.exists_cons_of_ne_nil (isDigits_toDigits n).1
  refine ⟨c, cs, written, ?_⟩
  rintro rfl
  obtain ⟨d, tail, least, most, front⟩ := digitBytes_front positive
  rw [digitBytes, written, bytesOf_cons] at front
  have first : (0x30 : UInt8) = UInt8.ofNat (0x30 + d) := (List.cons.inj front).1
  rw [← UInt8.toNat_inj, ofNat_toNat_of_lt (by omega)] at first
  have value : (0x30 : UInt8).toNat = 0x30 := rfl
  omega

theorem digits_replicate (n : Nat) : ∀ c ∈ List.replicate n '0', c.isDigit = true := by
  intro c among
  rw [List.eq_of_mem_replicate among]
  rfl

section Notations

variable {c : Char} {cs : List Char} (first : c ≠ '0') (digits : ∀ d ∈ c :: cs, d.isDigit = true)
include first digits

theorem magnitude_zeros (n : Nat) : Magnitude (String.ofList (c :: cs) ++ zeros n ++ ".0") := by
  have grown : IsWhole (c :: (cs ++ List.replicate n '0')) :=
    .nonzero first (List.forall_mem_append.mpr ⟨digits, digits_replicate n⟩)
  have text := magnitude_pointed grown IsWhole.zero.digits
  rw [← List.cons_append, String.ofList_append, String.append_assoc] at text
  exact text

theorem magnitude_cut {n : Nat} (some : 0 < n) (less : n < (c :: cs).length) :
    Magnitude (String.ofList ((c :: cs).take n) ++ "." ++ String.ofList ((c :: cs).drop n)) := by
  obtain ⟨n, rfl⟩ := Nat.exists_eq_succ_of_ne_zero (Nat.ne_of_gt some)
  have front : ∀ d ∈ c :: cs.take n, d.isDigit = true :=
    fun d among => digits d (List.mem_of_mem_take (i := n + 1) among)
  have behind : IsDigits ((c :: cs).drop (n + 1)) := by
    refine ⟨?_, fun d among => digits d (List.mem_of_mem_drop among)⟩
    rw [ne_eq, List.drop_eq_nil_iff]
    exact Nat.not_le.mpr less
  exact magnitude_pointed (.nonzero first front) behind

omit first in
theorem magnitude_below (n : Nat) : Magnitude ("0." ++ zeros n ++ String.ofList (c :: cs)) := by
  have behind : IsDigits (List.replicate n '0' ++ c :: cs) :=
    ⟨List.append_ne_nil_of_right_ne_nil _ (List.cons_ne_nil c cs),
      List.forall_mem_append.mpr ⟨digits_replicate n, digits⟩⟩
  have text := magnitude_pointed .zero behind
  rw [String.ofList_append, ← String.append_assoc] at text
  exact text

theorem magnitude_power (power : Int) :
    Magnitude (String.ofList ((c :: cs).take 1) ++
      (if ((c :: cs).drop 1).isEmpty then "" else "." ++ String.ofList ((c :: cs).drop 1)) ++
        "e" ++ (if power < 0 then "-" else "+") ++ digitText power.natAbs) := by
  have front : IsWhole [c] :=
    .nonzero first (List.forall_mem_singleton.mpr (digits c List.mem_cons_self))
  have signs : (if power < 0 then "-" else "+") = "+" ∨ (if power < 0 then "-" else "+") = "-" := by
    split
    · exact .inr rfl
    · exact .inl rfl
  exact magnitude_scientific front (fun d among => digits d (List.mem_cons_of_mem c among)) signs _

end Notations

theorem magnitude_write {d : Digits} (positive : 0 < d.coefficient) :
    Magnitude (pointed.write d) := by
  obtain ⟨c, cs, written, first⟩ := toDigits_front positive
  have digits : ∀ e ∈ c :: cs, e.isDigit = true := written ▸ (isDigits_toDigits d.coefficient).2
  simp only [Format.write, written]
  split
  · split
    · exact magnitude_zeros first digits _
    · split
      · exact magnitude_cut first digits (by omega) (by omega)
      · exact magnitude_below digits _
  · exact magnitude_power first digits _

theorem strip_positive {d : Digits} (positive : 0 < d.coefficient) (n : Nat) :
    0 < (d.strip n).coefficient := by
  induction n generalizing d with
  | zero => exact positive
  | succ n ih =>
    rw [Digits.strip]
    split
    · rename_i more
      simp only [Bool.and_eq_true, beq_iff_eq] at more
      exact ih (show 0 < d.coefficient / 10 by omega)
    · exact positive

theorem onGrid?_positive {b : Binary} {power : Int} {d : Digits} (found : b.onGrid? power = some d) :
    0 < d.coefficient := by
  simp only [Binary.onGrid?] at found
  split at found
  · rename_i near above
    cases found
    simp only [Bool.and_eq_true, bne_iff_ne] at near
    dsimp only
    split
    · exact Nat.pos_of_ne_zero near.2
    · exact Nat.succ_pos _
  · rename_i near above
    cases found
    simp only [Bool.and_eq_true, bne_iff_ne] at near
    exact Nat.pos_of_ne_zero near.2
  · cases found
    exact Nat.succ_pos _
  · cases found

theorem search_positive {b : Binary} (positive : 0 < b.mantissa) (top : Int) (digits tries : Nat) :
    0 < (b.search top digits tries).coefficient := by
  induction tries generalizing digits with
  | zero => exact positive
  | succ tries ih =>
    rw [Binary.search]
    split
    · rename_i found
      exact onGrid?_positive found
    · exact ih _

theorem ofFloat_positive {x : Float} {b : Binary} (size : (ofFloat x).2 = some b) :
    0 < b.mantissa := by
  simp only [ofFloat] at size
  split at size
  · split at size
    · cases size
    · cases size
      rename_i some
      simp only [beq_iff_eq] at some
      exact Nat.pos_of_ne_zero some
  · cases size
    exact Nat.add_pos_left (by decide) _

theorem numeral_writeFloat (x : Float) : Numeral (encode (pointed.writeFloat x)) := by
  have zero : Magnitude "0.0" := magnitude_pointed .zero IsWhole.zero.digits
  simp only [Format.writeFloat]
  refine Magnitude.numeral ?_ _
  cases size : (ofFloat x).2 with
  | none => exact zero
  | some b =>
    exact magnitude_write (strip_positive (search_positive (ofFloat_positive size) _ _ _) _)

end Written

end Decimal

namespace Telemetry

def Counter.asWritten (c : Counter) : Json.Format (Nat × Unit) :=
  .record "MetricsSnapshot" <|
    .field c.name .required (fun _ => false) (.natural "u64" 0xFFFFFFFFFFFFFFFF) .none

theorem snapshot_wellFormed (now : String) (m : Metrics) :
    ∀ member ∈ ("timestamp", stringText now) ::
      (Counter.all.map fun c => (c.name, toString (m.get c))) ++
      (Latency.all.map fun l => (l.meanName, Decimal.pointed.writeFloat (m.latency l).mean)),
    WellFormed (encode member.2) := by
  refine List.forall_mem_append.mpr ⟨List.forall_mem_cons.mpr ⟨?_, ?_⟩, ?_⟩
  · obtain ⟨tokens, written, _⟩ := quoted_of_text now
    exact written ▸ .text tokens
  · refine List.forall_mem_map.mpr fun c _ => ?_
    have written : encode (toString (m.get c)) = digitBytes (m.get c).toNat := encode_toString _
    exact written ▸ .number (numeral_digitBytes _)
  · exact List.forall_mem_map.mpr fun l _ => .number (Decimal.numeral_writeFloat _)

theorem readWhole_snapshotText (now : String) (m : Metrics) (c : Counter) :
    c.asWritten.readWhole (snapshotText now m) = .ok ((m.get c).toNat, ()) := by
  have fits : (m.get c).toNat ≤ 0xFFFFFFFFFFFFFFFF := Nat.le_of_lt_succ (m.get c).toNat_lt
  refine (lawful_natural "u64" (Nat.le_refl _)).readWhole_member "MetricsSnapshot" ?_
    (snapshot_wellFormed now m) fits ?_
  · rw [List.map_append, List.map_cons, List.map_map, List.map_map]
    change ("timestamp" :: Counter.all.map Counter.name ++ Latency.all.map Latency.meanName).Nodup
    decide
  · have listed : c ∈ Counter.all := by cases c <;> decide
    exact List.mem_append_left _ (List.mem_cons_of_mem _ (List.mem_map_of_mem listed))

end Telemetry

namespace Gate

open Telemetry Http

structure ShowsMetrics (m : Metrics) (answer : Response) : Prop where
  status : answer.status.code = 200
  mediaType : firstText? answer.headers "content-type" = some "application/json"
  counters : ∀ c : Counter, c.asWritten.readWhole answer.body = .ok ((m.get c).toNat, ())

theorem showsMetrics {request : Request} (asks : request.method ≠ .head) (now : String)
    (m : Metrics) :
    ShowsMetrics m (Host.finished request (.json (snapshotText now m))) where
  status := congrArg Status.code (Host.finished_status request _)
  mediaType := finished_mediaType request _ _ (by decide +kernel)
  counters c := by
    rw [Host.finished_body, if_neg asks]
    exact readWhole_snapshotText now m c

end Gate

end TenantGate
