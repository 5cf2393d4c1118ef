import InfixCalculator.Proofs.Decimal.Reading
import InfixCalculator.Proofs.Decimal.Significant

/-! # The display is a faithful rounding

* `Decimal.shortened_cases`: a text that is shortened has the most digits that fit, out of six to one.
* `Decimal.ofText?_significant`: significant digits are read as the number rounded to them.
* `Decimal.display_faithful`: what is shown of a number, and what is read from it. -/

namespace InfixCalculator

namespace Decimal

open Text

variable {d : Decimal} {text : List Char} {width : ℤ}

/-! ### The most digits that fit -/

theorem fits_iff : fits width text = true ↔ (text.length : ℤ) ≤ width := by simp [fits]

theorem narrowed_of_fits {width : Option ℤ} (h : ∀ w, width = some w → (text.length : ℤ) ≤ w)
    (d : Decimal) : d.narrowed width text = text := by
  cases width with
  | none => rfl
  | some w => exact if_pos (fits_iff.mpr (h w rfl))

theorem narrowed_of_lt (h : width < text.length) (d : Decimal) :
    d.narrowed (some width) text = d.shortened width :=
  if_neg fun hfits => absurd (fits_iff.mp hfits) (not_le.mpr h)

/-- In a descending list, the first element that passes a test is the greatest one. -/
theorem exists_of_find?_map {f : ℕ → List Char} {p : List Char → Bool} {ns : List ℕ}
    (hns : ns.Pairwise (· > ·)) (h : (ns.map f).find? p = some text) :
    ∃ n ∈ ns, text = f n ∧ p (f n) = true ∧ ∀ m ∈ ns, n < m → p (f m) = false := by
  obtain ⟨hp, before, after, hsplit, hbefore⟩ := List.find?_eq_some_iff_append.mp h
  obtain ⟨ms, rest, rfl, rfl, hrest⟩ := List.map_eq_append_iff.mp hsplit
  obtain ⟨n, ls, rfl, rfl, rfl⟩ := List.map_eq_cons_iff.mp hrest
  refine ⟨n, by simp, rfl, hp, fun m hm hlt => ?_⟩
  rcases List.mem_append.mp hm with hm | hm
  · simpa using hbefore (f m) (List.mem_map_of_mem hm)
  · -- What comes later in the list is less.
    have hless := (List.pairwise_cons.mp (List.pairwise_append.mp hns).2.1).1
    rcases List.mem_cons.mp hm with rfl | hm
    · exact absurd hlt (Nat.lt_irrefl m)
    · exact absurd hlt (Nat.lt_asymm (hless m hm))

/-- **A shortened text** has the most digits that fit, out of six to one, or one digit. -/
theorem shortened_cases (width : ℤ) (d : Decimal) : ∃ n, 1 ≤ n ∧ n ≤ 6 ∧
    d.shortened width = d.significant n ∧ ((d.significant n).length ≤ width ∨ n = 1) ∧
    ∀ m, n < m → m ≤ 6 → width < (d.significant m).length := by
  have hmem : ∀ m, 1 < m → m ≤ 6 → m ∈ [6, 5, 4, 3, 2] := by
    intro m hlow hhigh
    interval_cases m <;> decide
  have hunfit : ∀ m, fits width (d.significant m) = false → width < (d.significant m).length := by
    intro m hm
    rwa [← Bool.not_eq_true, fits_iff, not_le] at hm
  unfold shortened
  cases hfind : ([6, 5, 4, 3, 2].map fun digits => d.significant digits).find? (fits width) with
  | none =>
    refine ⟨1, Nat.le_refl 1, by decide, rfl, .inr rfl, fun m hm hle => hunfit m ?_⟩
    rw [← Bool.not_eq_true]
    exact List.find?_eq_none.mp hfind _ (List.mem_map_of_mem (hmem m hm hle))
  | some text =>
    obtain ⟨n, hn, rfl, hfits, hmore⟩ := exists_of_find?_map (by decide) hfind
    have hbounds : ∀ n ∈ [6, 5, 4, 3, 2], 1 ≤ n ∧ n ≤ 6 := by decide
    obtain ⟨hlow, hhigh⟩ := hbounds n hn
    refine ⟨n, hlow, hhigh, rfl, .inl (fits_iff.mp hfits), fun m hm hle => hunfit m ?_⟩
    exact hmore m (hmem m (by omega) hle) hm

/-! ### Significant digits -/

/-- **Significant digits are read as the number rounded to them.** -/
theorem ofText?_significant (n : ℕ) (d : Decimal) : ∃ r, ofText? (d.significant n) = some r ∧
    r.coefficient < 10 ^ max n 1 ∧ r.toRat = roundSignificant (max n 1) d.toRat ∧
    (digitCount 10 d.coefficient ≤ max n 1 → r = d) ∧
    ('e' ∈ d.significant n ↔ 0 < r.exponent ∨ r.adjusted < -6) := by
  have hpos : 0 < max n 1 := by omega
  have hmark : IsMark 'e' := .inr rfl
  exact ⟨d.toDigits (max n 1), ofText?_general hmark _, coefficient_toDigits_lt hpos d,
    toRat_toDigits hpos d, toDigits_of_le hpos, mark_mem_general_iff hmark _⟩

/-! ### The display -/

/-- What is shown without a width, or if it fits. -/
def baseText (digits : Option ℕ) (d : Decimal) : List Char :=
  digits.elim d.plain fun n => d.significant n

theorem display_eq_ok {digits : Option ℕ} (h : ∀ n, digits = some n → n ≤ 999999999999999999)
    (width : Option ℤ) (d : Decimal) :
    d.display ⟨.ofOption (digits.map Nat.cast), .ofOption width⟩ =
      .ok (d.narrowed width (d.baseText digits)) := by
  have hdigits : Layout.digits? (.ofOption (digits.map Nat.cast)) = .ok digits := by
    cases digits with
    | none => rfl
    | some n =>
      have hgreatest : (Precision.greatest : ℤ) = 999999999999999999 := rfl
      have hn := h n rfl
      simp only [Option.map_some, Setting.ofOption, Layout.digits?]
      rw [if_neg (by omega), if_neg (by omega)]
      rfl
  have hwidth : Layout.width? (.ofOption width) = .ok width := by cases width <;> rfl
  have hlayout : Layout.ofSettings? ⟨.ofOption (digits.map Nat.cast), .ofOption width⟩ =
      .ok ⟨digits, width⟩ := by
    simp only [Layout.ofSettings?, hdigits, hwidth]
    rfl
  rw [display, hlayout]
  cases digits <;> rfl

/-- **The display is a faithful rounding**, the most precise one that fits. The text is the plain
notation, or the wanted significant digits, if there is no width or it fits. Otherwise it has the most
significant digits that fit, out of six to one, and one digit if none do. What is read from plain
notation is the number; what is read from significant digits is the number rounded half to even to so
many, hence the number itself if it has no more. Plain notation has no exponent, and significant
digits have one if, after rounding, the exponent is positive or the first digit is behind the sixth
place. -/
theorem display_faithful (v : Decimal) (digits : Option ℕ) (width : Option ℤ)
    (hdigits : ∀ n, digits = some n → n ≤ 999999999999999999) :
    ∃ text, v.display ⟨.ofOption (digits.map Nat.cast), .ofOption width⟩ = .ok text ∧
      ((∀ w, width = some w → (v.baseText digits).length ≤ w) → text = v.baseText digits) ∧
      (∀ w, width = some w → w < (v.baseText digits).length →
        ∃ n, 1 ≤ n ∧ n ≤ 6 ∧ text = v.significant n ∧ ((v.significant n).length ≤ w ∨ n = 1) ∧
          ∀ m, n < m → m ≤ 6 → w < (v.significant m).length) ∧
      (∃ r, ofText? v.plain = some r ∧ r.toRat = v.toRat) ∧ 'e' ∉ v.plain ∧ 'E' ∉ v.plain ∧
      ∀ n, ∃ r, ofText? (v.significant n) = some r ∧ r.coefficient < 10 ^ max n 1 ∧
        r.toRat = roundSignificant (max n 1) v.toRat ∧
        (digitCount 10 v.coefficient ≤ max n 1 → r = v) ∧
        ('e' ∈ v.significant n ↔ 0 < r.exponent ∨ r.adjusted < -6) := by
  obtain ⟨r, hread, hrat, -⟩ := ofText?_plain v
  refine ⟨_, display_eq_ok hdigits width v, fun hfits => ?_, fun w hw hlong => ?_, ⟨r, hread, hrat⟩,
    mark_notMem_plain (.inr rfl) v, mark_notMem_plain (.inl rfl) v, fun n => ofText?_significant n v⟩
  · cases width with
    | none => rfl
    | some w => exact if_pos (fits_iff.mpr (hfits w rfl))
  · subst hw
    have hnarrowed : v.narrowed (some w) (v.baseText digits) = v.shortened w :=
      if_neg fun h => absurd (fits_iff.mp h) (not_le.mpr hlong)
    rw [hnarrowed]
    exact shortened_cases w v

/-- Two digits of `9.9996` are `10`, by a carry into a new digit. -/
theorem display_faithful_carry :
    (⟨false, 99996, -4⟩ : Decimal).display ⟨.value 2, .value 3⟩ = .ok "10".toList ∧
    ∃ r, ofText? "10".toList = some r ∧
      r.toRat = roundSignificant 2 (⟨false, 99996, -4⟩ : Decimal).toRat := by
  have htext : (⟨false, 99996, -4⟩ : Decimal).significant 2 = "10".toList := by decide +kernel
  obtain ⟨text, hdisplay, hbase, -, -, -, -, hread⟩ :=
    display_faithful ⟨false, 99996, -4⟩ (some 2) (some 3) fun n hn => by cases hn; decide
  obtain ⟨r, hr, -, hrat, -⟩ := hread 2
  rw [htext] at hr
  have hshort : text = "10".toList := by
    rw [hbase fun w hw => by cases hw; decide +kernel]
    exact htext
  rw [hshort] at hdisplay
  exact ⟨hdisplay, r, hr, hrat⟩

end Decimal

end InfixCalculator
