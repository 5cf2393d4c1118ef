import InfixCalculator.Proofs.Decimal.Faithful
import InfixCalculator.Proofs.Decimal.Rounded

/-! # When a width shows more digits than are wanted

What exceeds the width is shortened from six digits on, whatever count of digits is wanted. More
digits can take less room: they may need no exponent where fewer do, as `12345` and `1.2e+4`, and the
other way round, as `9.96e-7` and `0.0000010`.

* `Decimal.ShowsMore`: when more digits are shown.
* `Decimal.ShowsMore.mark_iff`: exactly one of both texts has an exponent.
* `Decimal.display_wanted`: otherwise no more digits are shown than are wanted. -/

namespace InfixCalculator

namespace Decimal

variable {v : Decimal} {k n : ℕ} {w : ℤ}

/-- Of a number of which `k` significant digits are wanted, `n` are shown in the width `w`: they fit
and the wanted ones do not. -/
structure ShowsMore (v : Decimal) (k n : ℕ) (w : ℤ) : Prop where
  more : k < n
  atMostSix : n ≤ 6
  unfit : w < (v.significant k).length
  fit : (v.significant n).length ≤ w
  /-- No greater count of digits fits. -/
  greatest : ∀ m, n < m → m ≤ 6 → w < (v.significant m).length
  /-- The digits that are not wanted matter. -/
  differ : roundSignificant n v.toRat ≠ roundSignificant k v.toRat

/-! ### The texts -/

/-- **More digits are shorter** only if exactly one of both texts has an exponent. -/
theorem mark_iff_of_length_lt (hk : 0 < k) (hkn : k ≤ n)
    (h : (v.significant n).length < (v.significant k).length) :
    'e' ∈ v.significant k ↔ 'e' ∉ v.significant n := by
  have hn : 0 < n := by omega
  rcases toDigits_coarser hk hkn v with heq | ⟨hfigures, hexponent, hcarry, hcarry'⟩
  · rw [significant_congr hk hn heq] at h
    exact absurd h (lt_irrefl _)
  · have hk' := (v.toDigits k).adjusted_eq
    have hn' := (v.toDigits n).adjusted_eq
    have hpos := (v.toDigits k).figures_pos
    have hneighbour : (Text.numeral (v.toDigits k).adjusted.natAbs).length ≤
        (Text.numeral (v.toDigits n).adjusted.natAbs).length + 1 :=
      Text.length_numeral_le_succ (by omega)
    have hpoint : (if (v.toDigits n).figures = 1 then 0 else 1) = 1 := if_neg (by omega)
    have hpoint' : (if (v.toDigits k).figures = 1 then 0 else 1) ≤ 1 := by split_ifs <;> omega
    -- Of two texts in the same form, the one with more digits is not shorter.
    rcases significant_cases hn v with ⟨hle, hge, hmark, hlength⟩ | ⟨hrange, hmark, hlength⟩ <;>
    rcases significant_cases hk v with ⟨hle', hge', hmark', hlength'⟩ | ⟨hrange', hmark', hlength'⟩ <;>
    simp only [hmark, hmark', not_true_eq_false, not_false_eq_true, iff_true, iff_false] <;>
    omega

/-- The digits that are shown, and when they are more than the wanted ones. -/
theorem shortened_wanted (hk : 1 ≤ k) (hunfit : w < (v.significant k).length) :
    ∃ n, 1 ≤ n ∧ v.shortened w = v.significant n ∧ ∀ m, v.ShowsMore k m w ↔
      m = n ∧ k < n ∧ roundSignificant n v.toRat ≠ roundSignificant k v.toRat := by
  obtain ⟨n, hlow, hhigh, hshortened, hfit, hgreatest⟩ := shortened_cases w v
  refine ⟨n, hlow, hshortened, fun m => ⟨fun h => ?_, ?_⟩⟩
  · have hmore := h.more
    have hsame : m = n := by
      rcases Nat.lt_trichotomy m n with hlt | heq | hlt
      · have hone := hfit.resolve_left (not_le.mpr (h.greatest n hlt hhigh))
        omega
      · exact heq
      · exact absurd h.fit (not_le.mpr (hgreatest m hlt h.atMostSix))
    subst hsame
    exact ⟨rfl, hmore, h.differ⟩
  · rintro ⟨rfl, hmore, hdiffer⟩
    exact ⟨hmore, hhigh, hunfit, hfit.resolve_right (by omega), hgreatest, hdiffer⟩

/-! ### The numbers -/

/-- A number rounded to `n` digits is one rounded to `k` digits or fewer if `n` are no more, or if the
other digits do not matter. -/
theorem exists_roundSignificant_iff {x : ℚ} (hk : 1 ≤ k) (hn : 1 ≤ n) :
    (∃ d, 1 ≤ d ∧ d ≤ k ∧ roundSignificant n x = roundSignificant d x) ↔
      n ≤ k ∨ roundSignificant n x = roundSignificant k x := by
  constructor
  · rintro ⟨d, -, hdk, hd⟩
    rcases Nat.lt_or_ge k n with hlt | hle
    · exact .inr (roundSignificant_of_le hdk hlt hd).symm
    · exact .inl hle
  · rintro (hle | hsame)
    · exact ⟨n, hn, hle, rfl⟩
    · exact ⟨k, hk, le_rfl, hsame⟩

theorem exists_ofText?_significant (hn : 1 ≤ n) (v : Decimal) :
    ∃ r, ofText? (v.significant n) = some r ∧ r.toRat = roundSignificant n v.toRat := by
  obtain ⟨r, hr, -, hrat, -⟩ := ofText?_significant n v
  rw [max_eq_left hn] at hrat
  exact ⟨r, hr, hrat⟩

/-! ### The display -/

/-- **No more digits are shown than are wanted**, unless more of them take less room. The text is read
as the number rounded to so many digits or fewer, except where the width is too narrow for the wanted
digits and there are more, of six at most, that fit and matter. These are shown then, and exactly one
of both texts has an exponent. -/
theorem display_wanted (v : Decimal) {k : ℕ} (hk : 1 ≤ k) (hk' : k ≤ 999999999999999999)
    (width : Option ℤ) : ∃ text r,
      v.display ⟨.value k, .ofOption width⟩ = .ok text ∧ ofText? text = some r ∧
      ((∃ d, 1 ≤ d ∧ d ≤ k ∧ r.toRat = roundSignificant d v.toRat) ↔
        ¬ ∃ w n, width = some w ∧ v.ShowsMore k n w) ∧
      ∀ w n, width = some w → v.ShowsMore k n w →
        text = v.significant n ∧ ('e' ∈ v.significant k ↔ 'e' ∉ v.significant n) := by
  have hvalid : ∀ n, some k = some n → n ≤ 999999999999999999 := by
    rintro n ⟨⟩
    exact hk'
  have hdisplay := display_eq_ok hvalid width v
  by_cases hnarrow : ∃ w, width = some w ∧ w < (v.significant k).length
  · obtain ⟨w, rfl, hunfit⟩ := hnarrow
    have hnarrowed : v.narrowed (some w) (v.baseText (some k)) = v.shortened w :=
      narrowed_of_lt hunfit v
    obtain ⟨n, hn, hshortened, hmore⟩ := shortened_wanted hk hunfit
    obtain ⟨r, hr, hrat⟩ := exists_ofText?_significant hn v
    rw [hnarrowed, hshortened] at hdisplay
    refine ⟨_, r, hdisplay, hr, ?_, ?_⟩
    · rw [hrat, exists_roundSignificant_iff hk hn]
      constructor
      · rintro hfew ⟨w', m, hw, h⟩
        cases hw
        obtain ⟨-, hlt, hdiffer⟩ := (hmore m).mp h
        exact hfew.elim (not_le.mpr hlt) hdiffer
      · intro hnone
        by_contra hmany
        rw [not_or, not_le] at hmany
        exact hnone ⟨w, n, rfl, (hmore n).mpr ⟨rfl, hmany⟩⟩
    · rintro w' m hw h
      cases hw
      obtain ⟨rfl, -⟩ := (hmore m).mp h
      have hshorter : (v.significant m).length < (v.significant k).length := by
        have hfit := h.fit
        omega
      exact ⟨rfl, mark_iff_of_length_lt hk h.more.le hshorter⟩
  · have hnarrowed : v.narrowed width (v.baseText (some k)) = v.significant k :=
      narrowed_of_fits (fun w hw => not_lt.mp fun h => hnarrow ⟨w, hw, h⟩) v
    have hnone : ∀ w n, width = some w → ¬ v.ShowsMore k n w := fun w n hw h =>
      hnarrow ⟨w, hw, h.unfit⟩
    obtain ⟨r, hr, hrat⟩ := exists_ofText?_significant hk v
    rw [hnarrowed] at hdisplay
    refine ⟨_, r, hdisplay, hr, iff_of_true ⟨k, hk, le_rfl, hrat⟩ ?_, fun w n hw h =>
      absurd h (hnone w n hw)⟩
    rintro ⟨w, n, hw, h⟩
    exact hnone w n hw h

/-- Of `12345`, five digits are shown where two are wanted. -/
theorem display_more_than_wanted : ∃ text r,
    (⟨false, 12345, 0⟩ : Decimal).display ⟨.value 2, .value 5⟩ = .ok text ∧
      ofText? text = some r ∧ ¬ ∃ d, 1 ≤ d ∧ d ≤ 2 ∧
        r.toRat = roundSignificant d (⟨false, 12345, 0⟩ : Decimal).toRat := by
  refine ⟨"12345".toList, ⟨false, 12345, 0⟩, by decide +kernel, by decide +kernel, ?_⟩
  rintro ⟨d, hlow, hhigh, hd⟩
  have hone : (⟨false, 12345, 0⟩ : Decimal).toDigits 1 = ⟨false, 1, 4⟩ := by decide +kernel
  have htwo : (⟨false, 12345, 0⟩ : Decimal).toDigits 2 = ⟨false, 12, 3⟩ := by decide +kernel
  rw [← toRat_toDigits hlow] at hd
  interval_cases d
  · rw [hone, toRat_of_nonneg rfl, toRat_of_nonneg rfl] at hd
    norm_num at hd
  · rw [htwo, toRat_of_nonneg rfl, toRat_of_nonneg rfl] at hd
    norm_num at hd

/-- Of `9.96e-7`, three digits are shown where two are wanted. -/
theorem display_wanted_sixth : ∃ text r,
    (⟨false, 996, -9⟩ : Decimal).display ⟨.value 2, .value 7⟩ = .ok text ∧
      ofText? text = some r ∧ text = "9.96e-7".toList ∧
      ¬ ∃ d, 1 ≤ d ∧ d ≤ 2 ∧
        r.toRat = roundSignificant d (⟨false, 996, -9⟩ : Decimal).toRat := by
  have htext : (⟨false, 996, -9⟩ : Decimal).significant 6 = "9.96e-7".toList := by decide +kernel
  have hmore : (⟨false, 996, -9⟩ : Decimal).ShowsMore 2 6 7 :=
    { more := by decide
      atMostSix := le_rfl
      unfit := by decide +kernel
      fit := by decide +kernel
      greatest := fun m hm hm6 => absurd hm (not_lt.mpr hm6)
      differ := by
        have htwo : (⟨false, 996, -9⟩ : Decimal).toDigits 2 = ⟨false, 10, -7⟩ := by decide +kernel
        have hsix : (⟨false, 996, -9⟩ : Decimal).toDigits 6 = ⟨false, 996, -9⟩ := by decide +kernel
        rw [← toRat_toDigits (by decide), ← toRat_toDigits (by decide), htwo, hsix,
          toRat_of_nonneg rfl, toRat_of_nonneg rfl]
        norm_num }
  obtain ⟨text, r, hdisplay, hr, hiff, hshown⟩ :=
    display_wanted ⟨false, 996, -9⟩ (k := 2) (by decide) (by decide) (some 7)
  obtain ⟨hshort, -⟩ := hshown 7 6 rfl hmore
  exact ⟨text, r, hdisplay, hr, hshort.trans htext, fun h => hiff.mp h ⟨7, 6, rfl, hmore⟩⟩

end Decimal

end InfixCalculator
