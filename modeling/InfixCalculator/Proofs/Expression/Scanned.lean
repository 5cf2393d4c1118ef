import InfixCalculator.Proofs.Decimal.Spelling
import InfixCalculator.Proofs.Expression.Wrapped

/-! # Scanning a number literal

A literal is scanned as a whole or not at all, with one exception: a run of digits and points that has
the form of a literal is passed before it is read, and reading it fails if one of its digits has no
value.

* `Literal.known_iff`: a literal has a value if its digits do.
* `Cursor.AtLiteral`: the run ahead has the form of a literal.
* `Cursor.number_of_not_atLiteral`, `Cursor.number_of_known`, `Cursor.number_of_unknown`: what is then
  scanned.
* `Cursor.number_scans`: all of it. -/

namespace InfixCalculator

open Text

namespace Literal

variable {l : Literal}

theorem known_of_ofPlain? {v : Decimal} (h : Decimal.ofPlain? l.text = some v) : l.Known := by
  intro x hx hpoint
  obtain ⟨whole, fraction, ds, -, -, hds, -, htext⟩ := Decimal.ofPlain?_eq_some_iff.mp h
  refine exists_of_mapM_eq_some hds (x := x) ?_
  rcases htext with ⟨htext, hnil⟩ | htext
  · rwa [hnil, List.append_nil, ← htext]
  · rw [htext, List.mem_append, List.mem_cons] at hx
    rcases hx with hx | hx | hx
    · exact List.mem_append_left _ hx
    · exact absurd hx hpoint
    · exact List.mem_append_right _ hx

theorem ofPlain?_of_known (h : l.Known) :
    Decimal.ofPlain? l.text = some ⟨false, l.coefficient, -l.fraction.length⟩ := by
  have hvalue := value_of_known h
  unfold value at hvalue
  cases hread : Decimal.ofPlain? l.text with
  | none =>
    rw [hread] at hvalue
    cases hvalue
  | some v =>
    rw [hread] at hvalue
    rw [Except.ok.inj hvalue]

theorem ofPlain?_of_not_known (h : ¬ l.Known) : Decimal.ofPlain? l.text = none :=
  Option.eq_none_iff_forall_ne_some.mpr fun _ hv => h (known_of_ofPlain? hv)

end Literal

namespace Cursor

variable {c d : Cursor}

/-- The run of digits and points ahead has the form of a literal: it is not empty, has at most one
point and is not just a point. -/
structure AtLiteral (c : Cursor) : Prop where
  ne_nil : c.literal ≠ []
  points : c.literal.count point ≤ 1
  ne_point : c.literal ≠ [point]

/-- The literal that the run is. -/
def AtLiteral.toLiteral (h : c.AtLiteral) : Literal where
  text := c.literal
  chars _ := isNumberChar_of_mem_literal
  points := h.points
  digit := exists_ne_point h.ne_nil h.points h.ne_point

/-! ### What is scanned -/

/-- **A literal with known digits** is passed and has its exact value. -/
theorem number_of_known (h : c.AtLiteral) (hknown : h.toLiteral.Known) : c.number =
    .value ⟨false, h.toLiteral.coefficient, -h.toLiteral.fraction.length⟩
      (c.advance c.literal.length) := by
  have hread : Decimal.ofPlain? c.literal = _ := Literal.ofPlain?_of_known hknown
  unfold number
  dsimp only
  rw [if_neg h.ne_nil, if_neg (not_lt.mpr h.points), if_neg h.ne_point, hread]

/-- **A literal with an unknown digit** is passed and has no value. -/
theorem number_of_unknown (h : c.AtLiteral) (hunknown : ¬ h.toLiteral.Known) : c.number =
    .problem (.unreadableLiteral c.literal) (c.advance c.literal.length) := by
  have hread : Decimal.ofPlain? c.literal = none := Literal.ofPlain?_of_not_known hunknown
  unfold number
  dsimp only
  rw [if_neg h.ne_nil, if_neg (not_lt.mpr h.points), if_neg h.ne_point, hread]

theorem noLiteral_cases (c : Cursor) : c.noLiteral = .missingNumber c.position ∨
    ∃ x, c.noLiteral = .unexpectedCharacter c.position x := by
  unfold noLiteral
  cases c.peek with
  | none => exact .inl rfl
  | some x =>
    by_cases hx : isAlphabet x = true
    · exact .inl (if_pos hx)
    · exact .inr ⟨x, if_neg hx⟩

/-- The kinds of error that are reported where no literal is. -/
def noLiteralKinds : List ErrorKind := [.invalidNumber, .multipleDecimalPoints, .unexpectedCharacter]

/-- **Where no literal is**, nothing is passed, and the problem is there. -/
theorem number_of_not_atLiteral (h : ¬ c.AtLiteral) : ∃ p, c.number = .problem p c ∧
    p.kind ∈ noLiteralKinds ∧ p.position? = some c.position := by
  unfold number
  dsimp only
  split_ifs with hnil hpoints hpoint
  · refine ⟨_, rfl, ?_⟩
    rcases c.noLiteral_cases with hmissing | ⟨x, hunexpected⟩
    · rw [hmissing]
      exact ⟨by simp [noLiteralKinds, Problem.kind], rfl⟩
    · rw [hunexpected]
      exact ⟨by simp [noLiteralKinds, Problem.kind], rfl⟩
  · exact ⟨_, rfl, by simp [noLiteralKinds, Problem.kind], rfl⟩
  · exact ⟨_, rfl, by simp [noLiteralKinds, Problem.kind], rfl⟩
  · exact absurd ⟨hnil, not_lt.mp hpoints, hpoint⟩ h

/-! ### All or nothing -/

/-- Scanning has passed the run ahead and has its exact value. -/
structure Passes (c : Cursor) (v : Decimal) (d : Cursor) : Prop where
  stop : d = c.advance c.literal.length
  position : d.position = c.position + c.literal.length
  points : c.literal.count point ≤ 1
  digit : ∃ x ∈ c.literal, isDigit x = true
  value : ∃ l : Literal, l.text = c.literal ∧ l.Known ∧ v = ⟨false, l.coefficient, -l.fraction.length⟩

/-- Scanning has passed nothing, and the problem is reported at its start and with the text. -/
structure Refuses (c : Cursor) (p : Problem) (d : Cursor) : Prop where
  stop : d = c
  kind : p.kind ∈ noLiteralKinds
  position : p.position? = some c.position
  expression : (EvaluationError.mk c.text p).expression? = some c.text

/-- Scanning has passed the run ahead but one of its digits has no value. The problem is reported
without a place. -/
structure Loses (c : Cursor) (p : Problem) (d : Cursor) : Prop where
  stop : d = c.advance c.literal.length
  digit : ∃ x ∈ c.literal, isDigit x = true ∧ digitValue? x = none
  problem : p = .unreadableLiteral c.literal
  kind : p.kind = .invalidNumber
  position : p.position? = none

theorem ne_point_iff_isDigit {x : Char} (h : x ∈ c.literal) : x ≠ point ↔ isDigit x = true := by
  have hchar := isNumberChar_of_mem_literal h
  have hpoint : isDigit point = false := by decide
  constructor
  · intro hne
    simpa [isNumberChar, hne] using hchar
  · rintro hdigit rfl
    rw [hpoint] at hdigit
    cases hdigit

theorem position_behind_literal (c : Cursor) :
    (c.advance c.literal.length).position = c.position + c.literal.length :=
  position_advance c.length_literal_le

theorem passes_of_known (h : c.AtLiteral) (hknown : h.toLiteral.Known) :
    c.Passes ⟨false, h.toLiteral.coefficient, -h.toLiteral.fraction.length⟩
      (c.advance c.literal.length) where
  stop := rfl
  position := c.position_behind_literal
  points := h.points
  digit := by
    obtain ⟨x, hx, hpoint⟩ := h.toLiteral.digit
    exact ⟨x, hx, (ne_point_iff_isDigit hx).mp hpoint⟩
  value := ⟨h.toLiteral, rfl, hknown, rfl⟩

theorem loses_of_unknown (h : c.AtLiteral) (hunknown : ¬ h.toLiteral.Known) :
    c.Loses (.unreadableLiteral c.literal) (c.advance c.literal.length) where
  stop := rfl
  digit := by
    simp only [Literal.Known, not_forall, not_exists] at hunknown
    obtain ⟨x, hx, hpoint, hnone⟩ := hunknown
    exact ⟨x, hx, (ne_point_iff_isDigit hx).mp hpoint, Option.eq_none_iff_forall_ne_some.mpr hnone⟩
  problem := rfl
  kind := rfl
  position := rfl

/-- **A literal is scanned as a whole or not at all**, except where a digit has no value. The run of
digits and points ahead is as long as possible. There is a value if and only if the run has the form
of a literal and all its digits have values; then it is passed and its value is exact. Otherwise
nothing is passed and the problem is reported with its place and the text, or the run has the form of
a literal with a digit that has no value, and is passed all the same. -/
theorem number_scans (c : Cursor) :
    (c.literal ++ (c.advance c.literal.length).rest = c.rest ∧
      (∀ x ∈ c.literal, isNumberChar x = true) ∧
      ∀ x, (c.advance c.literal.length).rest.head? = some x → isNumberChar x = false) ∧
    ((∃ v d, c.number = .value v d) ↔
      c.AtLiteral ∧ ∀ x ∈ c.literal, isDigit x = true → ∃ n, digitValue? x = some n) ∧
    (∀ v d, c.number = .value v d → c.Passes v d) ∧
    ∀ f d, c.number = .fault f d →
      ∃ p, f = .problem p ∧ (c.Refuses p d ∨ c.AtLiteral ∧ c.Loses p d) := by
  refine ⟨⟨c.literal_append_rest, fun _ => isNumberChar_of_mem_literal,
    fun _ => isNumberChar_behind_literal⟩, ?_⟩
  by_cases h : c.AtLiteral
  · have hknown_iff : h.toLiteral.Known ↔
        ∀ x ∈ c.literal, isDigit x = true → ∃ n, digitValue? x = some n :=
      forall₂_congr fun x hx => imp_congr_left (ne_point_iff_isDigit hx)
    rw [← hknown_iff]
    by_cases hknown : h.toLiteral.Known
    · rw [number_of_known h hknown]
      refine ⟨iff_of_true ⟨_, _, rfl⟩ ⟨h, hknown⟩, fun v d hvalue => ?_, fun f d hfault => ?_⟩
      · cases hvalue
        exact passes_of_known h hknown
      · cases hfault
    · rw [number_of_unknown h hknown]
      refine ⟨iff_of_false ?_ fun hread => hknown hread.2, fun v d hvalue => ?_, fun f d hfault => ?_⟩
      · rintro ⟨v, d, hvalue⟩
        cases hvalue
      · cases hvalue
      · cases hfault
        exact ⟨_, rfl, .inr ⟨h, loses_of_unknown h hknown⟩⟩
  · obtain ⟨p, hp, hkind, hposition⟩ := number_of_not_atLiteral h
    rw [hp]
    refine ⟨iff_of_false ?_ fun hread => h hread.1, fun v d hvalue => ?_, fun f d hfault => ?_⟩
    · rintro ⟨v, d, hvalue⟩
      cases hvalue
    · cases hvalue
    · cases hfault
      refine ⟨p, rfl, .inl ⟨rfl, hkind, hposition, ?_⟩⟩
      have hnames : p.namesExpression = true := by
        rw [Problem.namesExpression, hposition]
        rfl
      exact if_pos hnames

/-- The digit five of a script whose digits have no values. -/
def unvaluedFive : Char := Char.ofNat 0x10D45

/-- A digit is a literal, and is passed without a value. -/
theorem number_unvaluedFive :
    (start [unvaluedFive] none).AtLiteral ∧ isDigit unvaluedFive = true ∧
      (start [unvaluedFive] none).number =
        .problem (.unreadableLiteral [unvaluedFive]) ((start [unvaluedFive] none).advance 1) ∧
      (Problem.unreadableLiteral [unvaluedFive]).position? = none ∧
      ((start [unvaluedFive] none).advance 1).position ≠ (start [unvaluedFive] none).position :=
  ⟨⟨by decide, by decide, by decide⟩, by decide, rfl, rfl, by decide⟩

end Cursor

end InfixCalculator
