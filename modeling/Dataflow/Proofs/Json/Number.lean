import Dataflow.Proofs.Decimal.Shortest
import Dataflow.Proofs.Json.Scalar

/-!
# Reading doubles that were written

A finite double is written with a point or an exponent, and either with digits before the point
that a reader accepts.  It is therefore read as a numeral that is no integer, up to what follows
it (`Json.exists_numeral_floatChars`).  Which double the numeral stands for
is another matter: the reader scales the digits in double arithmetic.
-/

namespace Dataflow.Json

open Decimal

variable {whole fraction power tail rest : List Char} {exponent : Option Int}

/-! ## The parts of a numeral -/

/-- A numeral with a point. -/
lemma scanNumeral_point (negative : Bool) (hwhole : IsWhole whole) (hne : fraction ≠ [])
    (hdigits : ∀ c ∈ fraction, Text.isDigit c = true) (htail : NoDigit tail)
    (hexponent : scanExponent tail = some (exponent, rest)) :
    scanNumeral negative (whole ++ '.' :: (fraction ++ tail)) =
      some (⟨negative, whole, fraction, exponent⟩, rest) := by
  have hpoint : NoDigit ('.' :: (fraction ++ tail)) := by simp [NoDigit, Text.isDigit]
  have hfraction : scanFraction ('.' :: (fraction ++ tail)) = some (fraction, tail) := by
    rw [scanFraction, scanDigits_append hne hdigits htail]
  simp [scanNumeral, hwhole.scanWhole_append hpoint, hfraction, hexponent]

/-- A numeral without a point. -/
lemma scanNumeral_exponent (negative : Bool) (hwhole : IsWhole whole)
    (hexponent : scanExponent ('e' :: tail) = some (exponent, rest)) :
    scanNumeral negative (whole ++ 'e' :: tail) =
      some (⟨negative, whole, [], exponent⟩, rest) := by
  have hmark : NoDigit ('e' :: tail) := by simp [NoDigit, Text.isDigit]
  have hfraction : scanFraction ('e' :: tail) = some ([], 'e' :: tail) := by simp [scanFraction]
  simp [scanNumeral, hwhole.scanWhole_append hmark, hfraction, hexponent]

lemma digitsValue_toDigits (n : ℕ) : digitsValue (Nat.toDigits 10 n) = n :=
  Nat.ofDigitChars_ten_toDigits

/-- The order of magnitude behind its mark. -/
lemma scanExponent_order (o : Int) (h : Follows rest) :
    scanExponent ('e' :: ((if 0 ≤ o then '+' :: intChars o else intChars o) ++ rest)) =
      some (some o, rest) := by
  have hdigits : ∀ n : ℕ, scanDigits (Nat.toDigits 10 n ++ rest) =
      some (Nat.toDigits 10 n, rest) := fun n =>
    scanDigits_append (isWhole_toDigits n).ne_nil (isWhole_toDigits n).isDigit h.noDigit
  cases o with
  | ofNat n => simp [scanExponent, scanPower, intChars, hdigits, digitsValue_toDigits]
  | negSucc n =>
    have hneg : ¬ (0 ≤ Int.negSucc n) := by omega
    have hvalue : (-1 + -(n : Int)) = Int.negSucc n := by omega
    simp [scanExponent, scanPower, intChars, hdigits, digitsValue_toDigits, hneg, hvalue]

/-! ## The layout of numbers -/

/-- A text that is read as a number with a point or an exponent, up to what follows it. -/
def IsNumber (chars : List Char) : Prop :=
  ∃ (whole fraction : List Char) (exponent : Option Int),
    (fraction ≠ [] ∨ exponent ≠ none) ∧ ∀ (negative : Bool) (rest : List Char), Follows rest →
      scanNumeral negative (chars ++ rest) = some (⟨negative, whole, fraction, exponent⟩, rest)

lemma isNumber_point (hwhole : IsWhole whole) (hne : fraction ≠ [])
    (hdigits : ∀ c ∈ fraction, Text.isDigit c = true) : IsNumber (whole ++ '.' :: fraction) := by
  refine ⟨whole, fraction, none, .inl hne, fun negative rest hrest => ?_⟩
  rw [List.append_assoc, List.cons_append]
  exact scanNumeral_point negative hwhole hne hdigits hrest.noDigit hrest.scanExponent

lemma isDigit_of_mem_replicate {n : ℕ} {c : Char} (h : c ∈ List.replicate n '0') :
    Text.isDigit c = true := by
  rw [List.eq_of_mem_replicate h]
  rfl

/-- Zeros behind the digits of a positive number. -/
lemma isWhole_append_zeros {n : ℕ} (h : 0 < n) (e : ℕ) :
    IsWhole (Nat.toDigits 10 n ++ List.replicate e '0') := by
  refine ⟨by simp [Nat.toDigits_ne_nil], fun c hc => ?_, fun c cs heq => ?_⟩
  · rcases List.mem_append.1 hc with hc | hc
    · exact isDigit_of_mem_toDigits hc
    · exact isDigit_of_mem_replicate hc
  · cases hdigits : Nat.toDigits 10 n with
    | nil => exact Nat.toDigits_ne_nil hdigits
    | cons c' cs' =>
      rw [hdigits, List.cons_append] at heq
      obtain rfl := (List.cons.inj heq).1
      exact toDigits_ne_cons_zero h _ hdigits

lemma IsWhole.take {ds : List Char} (h : IsWhole ds) {n : ℕ} (hn : 0 < n) :
    IsWhole (ds.take n) := by
  refine ⟨?_, fun c hc => h.isDigit c (List.mem_of_mem_take hc), fun c cs heq => ?_⟩
  · rw [Ne, List.take_eq_nil_iff]
    simp only [h.ne_nil, or_false]
    omega
  · have hsplit := List.take_append_drop n ds
    rw [heq, List.cons_append, List.cons_append] at hsplit
    exact h.ne_zero_cons _ _ hsplit.symm

/-- Zeros may stand behind the digits, in front of them, or not at all. -/
lemma isNumber_positionalChars {d : Scientific} (h : 0 < d.digits ∨ d.exponent ≤ 0) :
    IsNumber (positionalChars true d) := by
  have hdigits : IsWhole d.digitChars := isWhole_toDigits d.digits
  simp only [positionalChars]
  split
  · rename_i e he
    have hwhole : IsWhole (d.digitChars ++ List.replicate e '0') := by
      rcases Nat.eq_zero_or_pos d.digits with hzero | hpos
      · have hexp : e = 0 := by
          rw [he] at h
          simp only [Int.ofNat_eq_natCast] at h
          omega
        simpa [hexp] using hdigits
      · exact isWhole_append_zeros hpos e
    exact isNumber_point hwhole (by simp) fun c hc => List.mem_singleton.1 hc ▸ rfl
  · rename_i e he
    split_ifs with hlength
    · rw [List.append_assoc]
      show IsNumber (['0'] ++ '.' :: (List.replicate _ '0' ++ d.digitChars))
      refine isNumber_point (isWhole_toDigits 0) (by simp [hdigits.ne_nil]) fun c hc => ?_
      exact (List.mem_append.1 hc).elim isDigit_of_mem_replicate (hdigits.isDigit c)
    · refine isNumber_point (hdigits.take (by omega)) ?_ fun c hc =>
        hdigits.isDigit c (List.mem_of_mem_drop hc)
      rw [Ne, List.drop_eq_nil_iff]
      omega

lemma isNumber_exponentChars (d : Scientific) : IsNumber (exponentChars d) := by
  have hdigits : IsWhole d.digitChars := isWhole_toDigits d.digits
  simp only [exponentChars]
  split
  · rename_i hnil
    exact absurd hnil hdigits.ne_nil
  · rename_i c hone
    refine ⟨[c], [], some d.order, .inr (by simp), fun negative rest hrest => ?_⟩
    rw [hone] at hdigits
    exact scanNumeral_exponent negative hdigits (scanExponent_order d.order hrest)
  · rename_i c more hmore hcons
    rw [hcons] at hdigits
    have hfirst : IsWhole [c] := hdigits.take (n := 1) (by decide)
    refine ⟨[c], more, some d.order, .inr (by simp), fun negative rest hrest => ?_⟩
    have hscan := scanNumeral_point negative hfirst hmore
      (fun c' hc => hdigits.isDigit c' (List.mem_cons_of_mem c hc))
      (by simp [NoDigit, Text.isDigit]) (scanExponent_order d.order hrest)
    simpa using hscan

lemma isNumber_chars {d : Scientific} (h : 0 < d.digits ∨ d.exponent ≤ 0) :
    IsNumber (numberLayout.chars d) := by
  rw [Layout.chars]
  split
  · exact isNumber_positionalChars h
  · exact isNumber_exponentChars d

/-! ## Doubles -/

/-- The text of a finite double is a number behind its sign, read alike alone and before what
follows it. -/
lemma exists_numeral_floatChars {x : Float} {b : Binary} (h : view x = .finite b) :
    ∃ (chars : List Char) (n : Numeral),
      floatChars x = (if b.negative then '-' :: chars else chars) ∧
        (n.fraction ≠ [] ∨ n.exponent ≠ none) ∧
          scanNumeral b.negative chars = some (n, []) ∧ ∀ rest, Follows rest →
            scanNumeral b.negative (chars ++ rest) = some (n, rest) := by
  obtain ⟨hmantissa, hlow, hhigh⟩ := view_eq_finite h
  simp only [floatChars, h, Layout.write]
  have hnumber : IsNumber (numberLayout.chars
      (if b.mantissa = 0 then ⟨0, 0⟩ else b.shortest numberLayout.tie)) := by
    refine isNumber_chars ?_
    split_ifs with hzero
    · exact .inr le_rfl
    · exact .inl (Binary.digits_shortest_pos _ (Nat.pos_of_ne_zero hzero) hmantissa hlow hhigh)
  obtain ⟨whole, fraction, exponent, hne, hscan⟩ := hnumber
  refine ⟨_, ⟨b.negative, whole, fraction, exponent⟩, rfl, hne, ?_, hscan b.negative⟩
  have halone := hscan b.negative [] trivial
  rwa [List.append_nil] at halone

/-- A numeral with a point or an exponent is never an integer: its digits are scaled. -/
lemma toJson_of_ne {n : Numeral} (h : n.fraction ≠ [] ∨ n.exponent ≠ none) :
    n.toJson =
      match scaled n.whole n.fraction (n.exponent.getD 0) with
      | some x => .float (signed n.negative x)
      | none => .malformed := by
  have hnot : ¬ (n.fraction = [] ∧ n.exponent = none) := by tauto
  simp only [Numeral.toJson]
  split_ifs with hword hnegative
  · exact absurd ⟨hword.1, hword.2.1⟩ hnot
  · exact absurd ⟨hnegative.1, hnegative.2.1⟩ hnot
  · cases scaled n.whole n.fraction (n.exponent.getD 0) <;> rfl

/-- A number starts with a digit. -/
lemma exists_digit_of_scanNumeral {negative : Bool} {cs : List Char} {n : Numeral}
    (h : scanNumeral negative cs = some (n, rest)) :
    ∃ c cs', cs = c :: cs' ∧ Text.isDigit c = true := by
  cases cs with
  | nil => simp [scanNumeral, scanWhole, scanDigits] at h
  | cons c cs =>
    refine ⟨c, cs, rfl, ?_⟩
    by_contra hdigit
    simp [scanNumeral, scanWhole, scanDigits, hdigit] at h

end Dataflow.Json
