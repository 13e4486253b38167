import Simnet.Error

namespace Simnet

/-! The range of virtual time. -/

/-- The last representable instant, the largest word of 64 bits; delays and counts
keep below the same bound. -/
def maxTime : Nat := 0xFFFFFFFFFFFFFFFF

def maxHalfWord : Nat := 0xFFFFFFFF

/-- A sum of times, refused when it leaves the range of virtual time. -/
def timeAfter (base delta : Nat) : Except Error Nat :=
  if base + delta ≤ maxTime then
    .ok (base + delta)
  else
    .error (.invalidParameter (.timeOverflow base delta))

/-- A sum of times, kept at the last instant when it leaves the range. -/
def cappedAdd (base delta : Nat) : Nat :=
  min maxTime (base + delta)

def cappedMul (left right : Nat) : Nat :=
  min maxTime (left * right)

theorem timeAfter_eq_ok_iff {base delta result : Nat} :
    timeAfter base delta = .ok result ↔
      base + delta = result ∧ result ≤ maxTime := by
  unfold timeAfter
  split
  · simp only [Except.ok.injEq]
    constructor
    · rintro rfl
      exact ⟨rfl, by assumption⟩
    · exact fun h => h.1
  · simp only [reduceCtorEq, false_iff]
    omega

theorem timeAfter_eq_error {base delta : Nat} (h : maxTime < base + delta) :
    timeAfter base delta = .error (.invalidParameter (.timeOverflow base delta)) := by
  unfold timeAfter
  rw [if_neg (by omega)]

theorem timeAfter_eq_error_iff {base delta : Nat} {error : Error} :
    timeAfter base delta = .error error ↔
      maxTime < base + delta ∧ error = .invalidParameter (.timeOverflow base delta) := by
  by_cases late : maxTime < base + delta
  · rw [timeAfter_eq_error late, Except.error.injEq]
    exact ⟨fun same => ⟨late, same.symm⟩, fun same => same.2.symm⟩
  · unfold timeAfter
    rw [if_pos (by omega)]
    simp [late]

end Simnet
