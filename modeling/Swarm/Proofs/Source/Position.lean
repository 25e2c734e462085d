import Mathlib.Data.Nat.Digits.Defs
import Swarm.Source.Position

/-!
# Positions as text

A position is recorded with a fault as text. The text is read back as the same position: its digits
are neither blanks nor colons, so the only colon is the one between the numbers, and there is
nothing to trim.

## Main definitions

* `Position.Fits`: a position of the machine

## Main results

* `Position.ofText_text`: reading the text of a position
-/

namespace Swarm

namespace Text

theorem splitAtFirst_append {mark : Char} {before : List Char} (h : mark ∉ before)
    (after : List Char) : splitAtFirst mark (before ++ mark :: after) = some (before, after) := by
  induction before with
  | nil => simp [splitAtFirst]
  | cons c rest ih =>
    obtain ⟨hc, hrest⟩ : mark ≠ c ∧ mark ∉ rest := by simpa using h
    simp [splitAtFirst, Ne.symm hc, ih hrest]

/-- There is nothing to trim from a text without blanks. -/
theorem trim_of_not_blank {cs : List Char} (h : ∀ c ∈ cs, isBlank c = false) : trim cs = cs := by
  have hdrop (ds : List Char) (hds : ∀ c ∈ ds, isBlank c = false) : ds.dropWhile isBlank = ds := by
    cases ds with
    | nil => rfl
    | cons d rest => exact List.dropWhile_cons_of_neg (by simp [hds d])
  rw [trim, hdrop cs h, hdrop cs.reverse (by simpa using h), List.reverse_reverse]

end Text

namespace Position

/-- A position of the machine: line and column are no larger than the largest number. -/
def Fits (p : Position) : Prop :=
  p.line ≤ top ∧ p.column ≤ top

section Digits

variable {c : Char} (h : c.isDigit = true)
include h

theorem digit_bounds : 48 ≤ c.toNat ∧ c.toNat ≤ 57 := by
  simp only [Char.isDigit, Bool.and_eq_true, decide_eq_true_eq] at h
  exact ⟨h.1, h.2⟩

theorem isBlank_digit : Text.isBlank c = false := by
  have hbounds := digit_bounds h
  simp only [Text.isBlank, Text.blankRanges, List.any_cons, List.any_nil, Bool.or_false,
    Bool.or_eq_false_iff, Bool.and_eq_false_iff, decide_eq_false_iff_not]
  omega

end Digits

/-- Reading digits gives the number that they stand for, if it is not too large. -/
theorem readDigits_eq {cs : List Char} (digits : ∀ c ∈ cs, c.isDigit = true) :
    ∀ {value : Nat}, Nat.ofDigitChars 10 cs value ≤ top →
      readDigits value cs = .ok (Nat.ofDigitChars 10 cs value) := by
  induction cs with
  | nil => exact fun _ => rfl
  | cons c rest ih =>
    intro value h
    have hbounds := digit_bounds (digits c List.mem_cons_self)
    have hnext : 10 * value + (c.toNat - '0'.toNat) = value * 10 + (c.toNat - '0'.toNat) := by
      omega
    rw [Nat.ofDigitChars_cons, hnext] at h ⊢
    have hsmall : ¬ top < value * 10 + (c.toNat - '0'.toNat) := by
      have hgrows : Nat.ofDigitChars 10 rest (value * 10 + (c.toNat - '0'.toNat))
          = 10 ^ rest.length * (value * 10 + (c.toNat - '0'.toNat))
            + Nat.ofDigitChars 10 rest 0 := Nat.ofDigitChars_eq_ofDigitChars_zero
      have hpow : 0 < 10 ^ rest.length := Nat.pow_pos (by omega)
      have hmul := Nat.le_mul_of_pos_left (value * 10 + (c.toNat - '0'.toNat)) hpow
      omega
    rw [readDigits, if_pos ⟨hbounds.1, hbounds.2⟩]
    simp only [if_neg hsmall]
    exact ih (fun d hd => digits d (List.mem_cons_of_mem c hd)) h

theorem readNumber_toDigits {n : Nat} (h : n ≤ top) : readNumber (Nat.toDigits 10 n) = .ok n := by
  have digits : ∀ c ∈ Nat.toDigits 10 n, c.isDigit = true :=
    fun c hc => Nat.isDigit_of_mem_toDigits (by decide) (by decide) hc
  have hread : readDigits 0 (Nat.toDigits 10 n) = .ok n := by
    rw [readDigits_eq digits (by rwa [Nat.ofDigitChars_ten_toDigits]),
      Nat.ofDigitChars_ten_toDigits]
  unfold readNumber
  split
  · next hnil => exact absurd hnil Nat.toDigits_ne_nil
  · next hplus =>
    rw [hplus] at digits
    exact absurd (digits '+' (by simp)) (by decide)
  · next rest hplus =>
    rw [hplus] at digits
    exact absurd (digits '+' (by simp)) (by decide)
  · exact hread

/-- The text of a position is read back as the position. -/
theorem ofText_text {p : Position} (h : p.Fits) : ofText p.text = .ok p := by
  have digits {n : Nat} : ∀ c ∈ Nat.toDigits 10 n, c.isDigit = true :=
    fun c hc => Nat.isDigit_of_mem_toDigits (by decide) (by decide) hc
  have htrim (n : Nat) : Text.trim (Nat.toDigits 10 n) = Nat.toDigits 10 n :=
    Text.trim_of_not_blank fun c hc => isBlank_digit (digits c hc)
  have htext : p.text.toList = Nat.toDigits 10 p.line ++ ':' :: Nat.toDigits 10 p.column := by
    simp [text]
  have hcolon : ':' ∉ Nat.toDigits 10 p.line := fun hc => absurd (digits ':' hc) (by decide)
  rw [ofText, htext, Text.splitAtFirst_append hcolon]
  simp only [Option.getD_some, htrim, readNumber_toDigits h.1, readNumber_toDigits h.2]

end Position

end Swarm
