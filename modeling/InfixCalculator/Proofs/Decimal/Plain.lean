import InfixCalculator.Decimal.Notation
import InfixCalculator.Proofs.Decimal.Value
import InfixCalculator.Proofs.Text.Numeral
import Mathlib.Data.List.TakeWhile

/-! # Plain notation is read as it is written

* `Decimal.ofPlain?_whole`, `ofPlain?_append_point`: literals without a point and with one.
* `Decimal.ofPlain?_pointed`: digits with a point among them are read back.
* `Decimal.exists_digits`: plain notation without a sign consists of digits and a point.
* `Decimal.ofPlain?_plain`: it is read as a decimal of the same number, and as the same decimal
  unless zeros were written for a positive exponent. -/

namespace InfixCalculator

namespace Decimal

open Text

/-! ### Literals -/

theorem ofPlain?_whole {whole : List Char} (h : '.' ∉ whole) : ofPlain? whole =
    if whole = [] then none else (whole.mapM digitValue?).map fun ds => ⟨false, valueOf ds, 0⟩ := by
  have hall : ∀ x ∈ whole, decide (x ≠ '.') = true := fun x hx =>
    decide_eq_true fun hdot => h (hdot ▸ hx)
  have htake : whole.takeWhile (· ≠ '.') = whole := List.takeWhile_eq_self_iff.mpr hall
  have hdrop : whole.dropWhile (· ≠ '.') = [] := List.dropWhile_eq_nil_iff.mpr hall
  rw [ofPlain?]
  simp only [htake, hdrop, List.drop_nil, List.append_nil, and_true]
  rfl

theorem ofPlain?_append_point {whole : List Char} (h : '.' ∉ whole) (fraction : List Char) :
    ofPlain? (whole ++ '.' :: fraction) = if whole = [] ∧ fraction = [] then none
      else ((whole ++ fraction).mapM digitValue?).map fun ds =>
        ⟨false, valueOf ds, -fraction.length⟩ := by
  have hall : ∀ x ∈ whole, decide (x ≠ '.') = true := fun x hx =>
    decide_eq_true fun hdot => h (hdot ▸ hx)
  have htake : (whole ++ '.' :: fraction).takeWhile (· ≠ '.') = whole := by
    rw [List.takeWhile_append_of_pos hall, List.takeWhile_cons_of_neg (by decide), List.append_nil]
  have hdrop : (whole ++ '.' :: fraction).dropWhile (· ≠ '.') = '.' :: fraction := by
    rw [List.dropWhile_append_of_pos hall, List.dropWhile_cons_of_neg (by decide)]
  rw [ofPlain?]
  simp only [htake, hdrop, List.drop_succ_cons, List.drop_zero]

/-! ### Digits and a point -/

variable {ds : List ℕ}

/-- The digits, with the zeros that fill them up. -/
def filled (ds : List ℕ) (places : ℕ) : List ℕ := List.replicate (places + 1 - ds.length) 0 ++ ds

theorem lt_of_mem_filled (h : ∀ d ∈ ds, d < 10) {places d : ℕ} (hd : d ∈ filled ds places) :
    d < 10 := by
  rcases List.mem_append.mp hd with hd | hd
  · rw [List.eq_of_mem_replicate hd]
    decide
  · exact h d hd

/-- The digits stand alone, or the point stands among the filled digits. -/
theorem pointed_cases (h : ∀ d ∈ ds, d < 10) (places : ℕ) :
    (places = 0 ∧ pointed (ds.map digitChar) places = ds.map digitChar) ∨
      ∃ whole fraction, (∀ d ∈ whole, d < 10) ∧ (∀ d ∈ fraction, d < 10) ∧ whole ≠ [] ∧
        filled ds places = whole ++ fraction ∧ fraction.length = places ∧
        pointed (ds.map digitChar) places =
          whole.map digitChar ++ '.' :: fraction.map digitChar := by
  rcases Nat.eq_zero_or_pos places with rfl | hpos
  · exact .inl ⟨rfl, if_pos rfl⟩
  have hlen : places + 1 ≤ (filled ds places).length := by
    rw [filled, List.length_append, List.length_replicate]
    omega
  have hmap : List.replicate (places + 1 - (ds.map digitChar).length) '0' ++ ds.map digitChar =
      (filled ds places).map digitChar := by
    rw [filled, List.map_append, List.map_replicate, List.length_map]
    rfl
  refine .inr ⟨(filled ds places).take ((filled ds places).length - places),
    (filled ds places).drop ((filled ds places).length - places),
    fun d hd => lt_of_mem_filled h (List.mem_of_mem_take hd),
    fun d hd => lt_of_mem_filled h (List.mem_of_mem_drop hd), ?_,
    (List.take_append_drop _ _).symm, ?_, ?_⟩
  · exact List.ne_nil_of_length_pos (by rw [List.length_take]; omega)
  · rw [List.length_drop]
    omega
  · rw [pointed, if_neg hpos.ne', hmap]
    simp only [List.length_map, List.map_take, List.map_drop]

theorem point_notMem_digits (h : ∀ d ∈ ds, d < 10) : '.' ∉ ds.map digitChar := by
  intro hmem
  obtain ⟨d, hd, hpoint⟩ := List.mem_map.mp hmem
  exact digitChar_ne (by decide) (h d hd) hpoint

/-- **Digits with a point among them** are read back. -/
theorem ofPlain?_pointed (h : ∀ d ∈ ds, d < 10) (hne : ds ≠ []) (places : ℕ) :
    ofPlain? (pointed (ds.map digitChar) places) = some ⟨false, valueOf ds, -places⟩ := by
  rcases pointed_cases h places with
    ⟨rfl, htext⟩ | ⟨whole, fraction, hwhole, hfraction, hne', hsplit, hlen, htext⟩
  · rw [htext, ofPlain?_whole (point_notMem_digits h), if_neg (by simpa using hne),
      mapM_digitValue? h]
    rfl
  · have hlt : ∀ d ∈ whole ++ fraction, d < 10 := fun d hd => lt_of_mem_filled h (hsplit ▸ hd)
    rw [htext, ofPlain?_append_point (point_notMem_digits hwhole), if_neg (by simp [hne']),
      ← List.map_append, mapM_digitValue? hlt]
    simp only [Option.map_some, List.length_map, hlen]
    rw [← hsplit, filled, valueOf_eq_horner, horner_replicate_append, ← valueOf_eq_horner]

/-! ### Plain notation -/

theorem plain_eq (d : Decimal) : d.plain = d.signText ++ d.abs.plain := by
  unfold plain signText
  simp only [negative_abs, isZero_abs, Bool.false_eq_true, if_false, List.nil_append]
  rfl

/-- **Plain notation without a sign** consists of digits and a point. -/
theorem exists_digits (d : Decimal) : ∃ (ds : List ℕ) (places : ℕ), (∀ n ∈ ds, n < 10) ∧ ds ≠ [] ∧
    d.abs.plain = pointed (ds.map digitChar) places ∧
    (valueOf ds : ℚ) * 10 ^ (-places : ℤ) = d.coefficient * 10 ^ d.exponent ∧
    (d.exponent ≤ 0 → valueOf ds = d.coefficient ∧ -(places : ℤ) = d.exponent) := by
  have hdigits : ∀ n ∈ digitsOf d.coefficient, n < 10 := fun n hn => mem_digitsOf_lt hn
  have hsign : d.abs.signText = [] := rfl
  have hplain : d.abs.plain = if d.exponent ≤ 0
      then pointed (numeral d.coefficient) (-d.exponent).toNat
      else if d.isZero then numeral d.coefficient
      else numeral d.coefficient ++ List.replicate d.exponent.toNat '0' := by
    rw [plain, hsign, List.nil_append]
    rfl
  by_cases he : d.exponent ≤ 0
  · have hplaces : -((-d.exponent).toNat : ℤ) = d.exponent := by omega
    refine ⟨_, (-d.exponent).toNat, hdigits, digitsOf_ne_nil _, by rw [hplain, if_pos he]; rfl, ?_,
      fun _ => ⟨valueOf_digitsOf _, hplaces⟩⟩
    rw [valueOf_digitsOf, hplaces]
  · by_cases hz : d.isZero = true
    · refine ⟨_, 0, hdigits, digitsOf_ne_nil _, by rw [hplain, if_neg he, if_pos hz]; rfl, ?_,
        fun h => absurd h he⟩
      rw [valueOf_digitsOf, isZero_iff.mp hz, Nat.cast_zero, zero_mul, zero_mul]
    · refine ⟨digitsOf d.coefficient ++ List.replicate d.exponent.toNat 0, 0, ?_, ?_, ?_, ?_,
        fun h => absurd h he⟩
      · intro n hn
        rcases List.mem_append.mp hn with hn | hn
        · exact hdigits n hn
        · rw [List.eq_of_mem_replicate hn]
          decide
      · exact List.append_ne_nil_of_left_ne_nil (digitsOf_ne_nil _) _
      · rw [hplain, if_neg he, if_neg hz, List.map_append, List.map_replicate]
        rfl
      · rw [valueOf_eq_horner, horner_append_replicate, ← valueOf_eq_horner, valueOf_digitsOf]
        push_cast
        rw [mul_one, ← zpow_natCast, Int.toNat_of_nonneg (by omega)]

/-- **Plain notation is read as it is written.** -/
theorem ofPlain?_plain (d : Decimal) : ∃ v, ofPlain? d.abs.plain = some v ∧
    v.toRat = |d.toRat| ∧ (d.exponent ≤ 0 → v = d.abs) := by
  obtain ⟨ds, places, hlt, hne, htext, hval, hexact⟩ := exists_digits d
  refine ⟨_, by rw [htext, ofPlain?_pointed hlt hne], ?_, fun he => ?_⟩
  · rw [toRat_of_nonneg rfl, abs_toRat, ← hval]
  · obtain ⟨h1, h2⟩ := hexact he
    rw [h1, h2]
    rfl

end Decimal

end InfixCalculator
