import InfixCalculator.Expression.Alphabet
import InfixCalculator.Proofs.Decimal.Plain

/-! # Spellings of a number

The same number has many literals. Digits may come from any script, and zeros may stand in front or
behind the point.

* `Decimal.ofPlain?_eq_some_iff`: the literals that have a value, and their values.
* `SameNumber`: two literals of the same number.
* `SameNumber.zero_cons`, `append_zero`, `append_point`, `scripts`: the ways to respell a literal. -/

namespace InfixCalculator

open Text

/-! ### Literals with a value -/

theorem exists_of_mapM_eq_some {α β : Type} {f : α → Option β} {xs : List α} {ys : List β}
    (h : xs.mapM f = some ys) {x : α} (hx : x ∈ xs) : ∃ y, f x = some y := by
  induction xs generalizing ys with
  | nil => cases hx
  | cons a xs ih =>
    rw [List.mapM_cons] at h
    obtain ⟨b, hb, h⟩ := Option.bind_eq_some_iff.mp h
    obtain ⟨bs, hbs, -⟩ := Option.bind_eq_some_iff.mp h
    rcases List.mem_cons.mp hx with rfl | hx
    · exact ⟨b, hb⟩
    · exact ih hbs hx

namespace Decimal

variable {text : List Char} {v : Decimal}

/-- **A literal with a value** is digits with a value, around at most one point. -/
theorem ofPlain?_eq_some_iff : ofPlain? text = some v ↔
    ∃ (whole fraction : List Char) (ds : List ℕ), '.' ∉ whole ∧ whole ++ fraction ≠ [] ∧
      (whole ++ fraction).mapM digitValue? = some ds ∧ v = ⟨false, valueOf ds, -fraction.length⟩ ∧
      (text = whole ∧ fraction = [] ∨ text = whole ++ '.' :: fraction) := by
  constructor
  · intro h
    by_cases hdot : '.' ∈ text
    · obtain ⟨whole, fraction, rfl, hwhole⟩ := List.eq_append_cons_of_mem hdot
      rw [ofPlain?_append_point hwhole] at h
      split_ifs at h with hnil
      obtain ⟨ds, hds, rfl⟩ := Option.map_eq_some_iff.mp h
      exact ⟨whole, fraction, ds, hwhole, by simpa using hnil, hds, rfl, .inr rfl⟩
    · rw [ofPlain?_whole hdot] at h
      split_ifs at h with hnil
      obtain ⟨ds, hds, rfl⟩ := Option.map_eq_some_iff.mp h
      exact ⟨text, [], ds, hdot, by simpa using hnil, by simpa using hds, by simp, .inl ⟨rfl, rfl⟩⟩
  · rintro ⟨whole, fraction, ds, hwhole, hne, hds, rfl, ⟨rfl, rfl⟩ | rfl⟩
    · rw [List.append_nil] at hne hds
      rw [ofPlain?_whole hwhole, if_neg hne, hds]
      rfl
    · rw [ofPlain?_append_point hwhole, if_neg (by simpa using hne), hds]
      rfl

end Decimal

/-! ### Literals of the same number -/

/-- The literals have values, and these are equal as numbers. -/
def SameNumber (l l' : List Char) : Prop :=
  ∃ v v', Decimal.ofPlain? l = some v ∧ Decimal.ofPlain? l' = some v' ∧ v.toRat = v'.toRat

/-- The digit of the same value in ASCII. Other characters are kept. -/
def asciiDigit (c : Char) : Char := ((digitValue? c).map digitChar).getD c

theorem asciiDigit_of_none {c : Char} (h : digitValue? c = none) : asciiDigit c = c := by
  rw [asciiDigit, h]
  rfl

theorem digitValue?_asciiDigit (c : Char) : digitValue? (asciiDigit c) = digitValue? c := by
  cases h : digitValue? c with
  | none => rw [asciiDigit_of_none h, h]
  | some n =>
    have hlt : n < 10 := digitValue?_lt h
    rw [asciiDigit, h]
    exact digitValue?_digitChar hlt

theorem asciiDigit_ne_point (c : Char) : asciiDigit c ≠ '.' ↔ c ≠ '.' := by
  have hdot : digitValue? '.' = none := by decide
  constructor
  · rintro h rfl
    exact h (asciiDigit_of_none hdot)
  · intro h hc
    have hnone : digitValue? c = none := by rw [← digitValue?_asciiDigit, hc, hdot]
    exact h ((asciiDigit_of_none hnone).symm.trans hc)

/-- The script of the digits makes no difference. -/
theorem Decimal.ofPlain?_map_asciiDigit (l : List Char) :
    ofPlain? (l.map asciiDigit) = ofPlain? l := by
  have hpoint : (fun c : Char => decide (c ≠ '.')) ∘ asciiDigit = fun c => decide (c ≠ '.') :=
    funext fun c => decide_eq_decide.mpr (asciiDigit_ne_point c)
  have hvalue : digitValue? ∘ asciiDigit = digitValue? := funext digitValue?_asciiDigit
  unfold ofPlain?
  simp only [List.takeWhile_map, List.dropWhile_map, hpoint, ← List.map_drop, List.map_eq_nil_iff,
    ← List.map_append, List.mapM_map, hvalue, List.length_map]

namespace SameNumber

variable {l l' : List Char} {v : Decimal}

theorem of_eq (h : Decimal.ofPlain? l = some v) (h' : Decimal.ofPlain? l' = some v) :
    SameNumber l l' := ⟨v, v, h, h', rfl⟩

/-- A zero in front. -/
theorem zero_cons (h : Decimal.ofPlain? l = some v) : SameNumber l ('0' :: l) := by
  refine of_eq h ?_
  obtain ⟨whole, fraction, ds, hwhole, -, hds, rfl, hl⟩ := Decimal.ofPlain?_eq_some_iff.mp h
  have hzero : (('0' :: whole) ++ fraction).mapM digitValue? = some (0 :: ds) := by
    rw [List.cons_append, List.mapM_cons, hds]
    rfl
  have hval : valueOf (0 :: ds) = valueOf ds := by
    rw [valueOf_eq_horner, valueOf_eq_horner]
    exact horner_replicate_append 1 ds
  refine Decimal.ofPlain?_eq_some_iff.mpr
    ⟨'0' :: whole, fraction, 0 :: ds, ?_, List.cons_ne_nil _ _, hzero, by rw [hval], ?_⟩
  · rintro (_ | ⟨_, hmem⟩)
    exact hwhole hmem
  · rcases hl with ⟨rfl, rfl⟩ | rfl
    · exact .inl ⟨rfl, rfl⟩
    · exact .inr rfl

/-- A zero behind the point. -/
theorem append_zero (h : Decimal.ofPlain? l = some v) (hpoint : point ∈ l) :
    SameNumber l (l ++ ['0']) := by
  obtain ⟨whole, fraction, ds, hwhole, hne, hds, rfl, hl⟩ := Decimal.ofPlain?_eq_some_iff.mp h
  rcases hl with ⟨rfl, rfl⟩ | rfl
  · exact absurd hpoint hwhole
  have hzero : (whole ++ (fraction ++ ['0'])).mapM digitValue? = some (ds ++ [0]) := by
    rw [← List.append_assoc, List.mapM_append, hds]
    rfl
  refine ⟨_, ⟨false, valueOf (ds ++ [0]), -(fraction ++ ['0']).length⟩, h,
    Decimal.ofPlain?_eq_some_iff.mpr
      ⟨whole, fraction ++ ['0'], ds ++ [0], hwhole, by simp, hzero, rfl, .inr (by simp)⟩, ?_⟩
  have hval : valueOf (ds ++ [0]) = valueOf ds * 10 := by
    rw [valueOf_eq_horner, valueOf_eq_horner]
    exact horner_append_replicate ds 1
  rw [Decimal.toRat_of_nonneg rfl, Decimal.toRat_of_nonneg rfl, hval]
  simp only [List.length_append, List.length_singleton]
  push_cast
  rw [neg_add, zpow_add₀ ten_ne_zero_rat]
  norm_num
  ring

/-- A point at the end. -/
theorem append_point (h : Decimal.ofPlain? l = some v) (hpoint : point ∉ l) :
    SameNumber l (l ++ [point]) := by
  refine of_eq h ?_
  obtain ⟨whole, fraction, ds, hwhole, hne, hds, rfl, hl⟩ := Decimal.ofPlain?_eq_some_iff.mp h
  rcases hl with ⟨rfl, rfl⟩ | rfl
  · exact Decimal.ofPlain?_eq_some_iff.mpr ⟨_, [], ds, hwhole, hne, hds, rfl, .inr rfl⟩
  · exact absurd (List.mem_append_right _ List.mem_cons_self) hpoint

/-- Digits of other scripts. -/
theorem scripts (h : Decimal.ofPlain? l = some v) (hmap : l'.map asciiDigit = l.map asciiDigit) :
    SameNumber l l' := by
  refine of_eq h ?_
  rw [← Decimal.ofPlain?_map_asciiDigit, hmap, Decimal.ofPlain?_map_asciiDigit, h]

end SameNumber

end InfixCalculator
