import Mathlib.Data.List.TakeWhile
import Simnet.Json.Printer
import Simnet.Json.Reader

namespace Simnet

/-! Numbers in structured text. A number is read as far as its characters go, so what
follows it in a container does not change it. Whole numbers come back from their digits;
of other numbers it is assumed where it is needed, since reading them may miss the nearest
value. -/

namespace Json

/-- What the printer puts after a value. -/
inductive Follows : List Char → Prop
  | nothing : Follows []
  | comma (rest : List Char) : Follows (',' :: rest)
  | line (rest : List Char) : Follows ('\n' :: rest)

variable {text rest : List Char} {number : Json}

/-! What follows is left as it is. -/

theorem spanDigits_append (follows : Follows rest) (text : List Char) :
    Decimal.spanDigits (text ++ rest) =
      ((Decimal.spanDigits text).1, (Decimal.spanDigits text).2 ++ rest) := by
  simp only [Decimal.spanDigits]
  induction text with
  | nil => cases follows <;> rfl
  | cons first text induction =>
      cases isDigit : first.isDigit with
      | false => simp [isDigit]
      | true =>
          rw [Prod.mk.injEq] at induction
          simp [isDigit, induction]

theorem splitMinus_append (follows : Follows rest) (text : List Char) :
    splitMinus (text ++ rest) = ((splitMinus text).1, (splitMinus text).2 ++ rest) := by
  cases text with
  | nil => cases follows <;> rfl
  | cons first text => by_cases minus : first = '-' <;> simp [splitMinus, minus]

theorem splitSign_append (follows : Follows rest) (text : List Char) :
    splitSign (text ++ rest) = ((splitSign text).1, (splitSign text).2 ++ rest) := by
  cases text with
  | nil => cases follows <;> rfl
  | cons first text =>
      have unsigned := splitMinus_append follows (first :: text)
      rw [List.cons_append] at unsigned
      by_cases plus : first = '+' <;> simp [splitSign, plus, unsigned]

theorem readWhole_append (follows : Follows rest) (text : List Char) :
    readWhole (text ++ rest) =
      (readWhole text).map fun read => (read.1, read.2 ++ rest) := by
  simp only [readWhole, spanDigits_append follows]
  obtain ⟨digits, left⟩ := Decimal.spanDigits text
  rcases digits with _ | ⟨first, _ | ⟨second, more⟩⟩
  · rfl
  · simp
  · by_cases isZero : first = '0' <;> simp [isZero]

theorem readFraction_append (follows : Follows rest) (text : List Char) :
    readFraction (text ++ rest) =
      (readFraction text).map fun read => (read.1, read.2 ++ rest) := by
  cases text with
  | nil => cases follows <;> rfl
  | cons first text =>
      by_cases isPoint : first = '.'
      · subst isPoint
        simp only [readFraction, List.cons_append, spanDigits_append follows]
        split <;> rfl
      · simp [readFraction, isPoint]

theorem readExponent_append (follows : Follows rest) (text : List Char) :
    readExponent (text ++ rest) =
      (readExponent text).map fun read => (read.1, read.2 ++ rest) := by
  cases text with
  | nil => cases follows <;> rfl
  | cons mark text =>
      simp only [readExponent, List.cons_append, splitSign_append follows,
        spanDigits_append follows]
      split
      · split
        · rfl
        · split <;> rfl
      · rfl

theorem readNumber_append (follows : Follows rest) (text : List Char) :
    readNumber (text ++ rest) =
      (readNumber text).map fun read => (read.1, read.2 ++ rest) := by
  simp only [readNumber, splitMinus_append follows, readWhole_append follows,
    Option.bind_eq_bind]
  cases readWhole (splitMinus text).2 with
  | none => rfl
  | some read =>
      obtain ⟨whole, afterWhole⟩ := read
      simp only [Option.map_some, Option.bind_some, readFraction_append follows]
      cases readFraction afterWhole with
      | none => rfl
      | some read =>
          obtain ⟨fraction, afterFraction⟩ := read
          simp only [Option.map_some, Option.bind_some, readExponent_append follows]
          cases readExponent afterFraction with
          | none => rfl
          | some read => rfl

/-! Nothing is added to the text. -/

theorem splitMinus_suffix (text : List Char) : (splitMinus text).2 <:+ text := by
  rw [splitMinus.eq_def]
  split
  · exact List.suffix_cons ..
  · exact List.suffix_refl _

theorem splitSign_suffix (text : List Char) : (splitSign text).2 <:+ text := by
  rw [splitSign.eq_def]
  split
  · exact List.suffix_cons ..
  · exact splitMinus_suffix _

theorem spanDigits_suffix (text : List Char) : (Decimal.spanDigits text).2 <:+ text :=
  List.dropWhile_suffix _

theorem readWhole_suffix {whole : List Char} (read : readWhole text = some (whole, rest)) :
    rest <:+ text := by
  have suffix := spanDigits_suffix text
  rw [readWhole] at read
  split at read
  · cases read
  · cases read
  · rename_i spans
    cases read
    rwa [spans] at suffix

theorem readFraction_suffix {fraction : Option (List Char)}
    (read : readFraction text = some (fraction, rest)) : rest <:+ text := by
  rw [readFraction.eq_def] at read
  split at read
  · rename_i digits
    dsimp only at read
    split at read <;> cases read
    exact (spanDigits_suffix digits).trans (List.suffix_cons ..)
  · cases read
    exact List.suffix_refl _

theorem readExponent_suffix {exponent : Option ExponentPart}
    (read : readExponent text = some (exponent, rest)) : rest <:+ text := by
  rw [readExponent.eq_def] at read
  split at read
  · rename_i mark tail
    have suffix : (Decimal.spanDigits (splitSign tail).2).2 <:+ mark :: tail :=
      ((spanDigits_suffix _).trans (splitSign_suffix _)).trans (List.suffix_cons ..)
    split at read
    · dsimp only at read
      split at read
      · cases read
      · split at read <;> cases read <;> exact suffix
    · cases read
      exact List.suffix_refl _
  · cases read
    exact List.suffix_refl _

theorem readNumber_suffix (read : readNumber text = some (number, rest)) : rest <:+ text := by
  simp only [readNumber, Option.bind_eq_bind, Option.bind_eq_some_iff] at read
  obtain ⟨⟨whole, afterWhole⟩, wholeRead, ⟨fraction, afterFraction⟩, fractionRead,
    ⟨exponent, afterExponent⟩, exponentRead, made⟩ := read
  cases made
  apply (readExponent_suffix exponentRead).trans
  apply (readFraction_suffix fractionRead).trans
  exact (readWhole_suffix wholeRead).trans (splitMinus_suffix text)

theorem head_of_readNumber (read : readNumber text = some (number, rest)) :
    ∃ first tail, text = first :: tail ∧ (first = '-' ∨ first.isDigit = true) := by
  cases text with
  | nil => cases read
  | cons first tail =>
      refine ⟨first, tail, rfl, ?_⟩
      by_cases minus : first = '-'
      · exact .inl minus
      · right
        by_contra other
        simp [readNumber, splitMinus, minus, readWhole, Decimal.spanDigits, other] at read

theorem head?_toDigits_ne {number : Nat} (positive : 0 < number) :
    (Nat.toDigits 10 number).head? ≠ some '0' := by
  induction number using Nat.strongRecOn with
  | ind number induction =>
      by_cases small : number < 10
      · have nonzero : ∀ digit < 10, 0 < digit → [Nat.digitChar digit].head? ≠ some '0' := by
          decide
        rw [Nat.toDigits_of_lt_base small]
        exact nonzero number small positive
      · obtain ⟨first, more, spelled⟩ :=
          List.exists_cons_of_ne_nil (Nat.toDigits_ne_nil (n := number / 10) (b := 10))
        have earlier := induction (number / 10) (by omega) (by omega)
        rw [Nat.toDigits_of_base_le (by decide) (by omega), spelled]
        rwa [spelled] at earlier

theorem spanDigits_toDigits (number : Nat) :
    Decimal.spanDigits (Nat.toDigits 10 number) = (Nat.toDigits 10 number, []) := by
  have digits : ∀ char ∈ Nat.toDigits 10 number, char.isDigit = true :=
    fun _ => Nat.isDigit_of_mem_toDigits (by decide) (by decide)
  rw [Decimal.spanDigits, List.takeWhile_eq_self_iff.mpr digits,
    List.dropWhile_eq_nil_iff.mpr digits]

theorem readWhole_toDigits (number : Nat) :
    readWhole (Nat.toDigits 10 number) = some (Nat.toDigits 10 number, []) := by
  rw [readWhole, spanDigits_toDigits]
  rcases Nat.eq_zero_or_pos number with rfl | positive
  · rfl
  · have leading := head?_toDigits_ne positive
    rcases spelled : Nat.toDigits 10 number with _ | ⟨first, _ | ⟨second, more⟩⟩
    · exact absurd spelled Nat.toDigits_ne_nil
    · simp
    · rw [spelled, List.head?_cons, ne_eq, Option.some.injEq] at leading
      simp [leading]

theorem splitMinus_toDigits (number : Nat) :
    splitMinus (Nat.toDigits 10 number) = (false, Nat.toDigits 10 number) := by
  rw [splitMinus.eq_def]
  split
  · rename_i rest spelled
    have digit : '-'.isDigit = true :=
      Nat.isDigit_of_mem_toDigits (by decide) (by decide) (spelled ▸ List.mem_cons_self)
    cases digit
  · rfl

theorem readNumber_integerChars {value : Int} (low : -0x8000000000000000 ≤ value)
    (high : value ≤ maxTime) :
    readNumber (integerChars value) = some (integer value, []) := by
  have back : Decimal.ofDigits (Nat.toDigits 10 value.natAbs) = value.natAbs :=
    Nat.ofDigitChars_ten_toDigits
  rw [integerChars, Nat.toList_repr]
  split
  · have fits : 0 < value.natAbs ∧ value.natAbs ≤ 0x8000000000000000 := by omega
    have same : -(value.natAbs : Int) = value := by omega
    simp only [readNumber, splitMinus, readWhole_toDigits, readFraction, readExponent,
      NumberParts.toJson, NumberParts.integer?, Option.bind_eq_bind, Option.bind_some,
      Option.isSome_none, Bool.false_eq_true, false_or, ↓reduceIte, back, fits, and_self, same]
  · have fits : value.natAbs ≤ maxTime := by omega
    have same : (value.natAbs : Int) = value := by omega
    simp only [readNumber, splitMinus_toDigits, readWhole_toDigits, readFraction, readExponent,
      NumberParts.toJson, NumberParts.integer?, Option.bind_eq_bind, Option.bind_some,
      Option.isSome_none, Bool.false_eq_true, false_or, ↓reduceIte, back, fits, same]

end Json

end Simnet
