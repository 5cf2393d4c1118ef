import InfixCalculator.Proofs.Decimal.Shown
import InfixCalculator.Proofs.Decimal.Spelling
import InfixCalculator.Proofs.Text.Digits

/-! # Printed numbers are read back

* `Decimal.ofText?_plain`: plain notation is read as the number, and as the same decimal unless zeros
  were written for a positive exponent.
* `Decimal.ofText?_scientific`: scientific notation keeps coefficient and exponent apart.
* `Decimal.ofText?_general`: so general notation is read as it is written.
* `Decimal.mark_mem_general_iff`: it has an exponent where it is not plain. -/

namespace InfixCalculator

namespace Decimal

open Text

variable {d r : Decimal} {text body rest : List Char} {negative : Bool} {mark x : Char}

/-! ### Signs and marks -/

/-- The character starts an exponent. -/
def IsMark (c : Char) : Prop := c = 'E' ∨ c = 'e'

theorem not_isMark_of_notation (h : x = point ∨ ∃ n < 10, x = digitChar n) : ¬ IsMark x := by
  have hdigits : ∀ n < 10, digitChar n ≠ 'E' ∧ digitChar n ≠ 'e' := by decide
  rcases h with rfl | ⟨n, hn, rfl⟩
  · rintro (h | h) <;> cases h
  · obtain ⟨h1, h2⟩ := hdigits n hn
    rintro (h | h)
    · exact h1 h
    · exact h2 h

theorem not_sign_of_notation (h : x = point ∨ ∃ n < 10, x = digitChar n) : x ≠ '-' ∧ x ≠ '+' := by
  have hdigits : ∀ n < 10, digitChar n ≠ '-' ∧ digitChar n ≠ '+' := by decide
  rcases h with rfl | ⟨n, hn, rfl⟩
  · decide
  · exact hdigits n hn

/-- A text without a sign has none. -/
theorem splitSign_unsigned (h : ∀ x, text.head? = some x → x ≠ '-' ∧ x ≠ '+') :
    splitSign text = (false, text) := by
  cases text with
  | nil => rfl
  | cons x xs =>
    obtain ⟨hminus, hplus⟩ := h x rfl
    simp [splitSign, hminus, hplus]

theorem splitSign_signText (d : Decimal) (h : ∀ x, text.head? = some x → x ≠ '-' ∧ x ≠ '+') :
    splitSign (d.signText ++ text) = (d.negative, text) := by
  unfold signText
  cases d.negative with
  | true => rfl
  | false => exact splitSign_unsigned h

/-! ### The parts of a text -/

theorem ofText?_unmarked (hsplit : splitSign text = (negative, body)) (hbody : ∀ x ∈ body, ¬ IsMark x)
    (hread : ofPlain? body = some r) : ofText? text = some { r with negative } := by
  have hall : ∀ x ∈ body, (!(x = 'E' || x = 'e' : Bool)) = true := fun x hx => by
    simpa [IsMark] using hbody x hx
  have htake : (body.takeWhile fun c => !(c = 'E' || c = 'e' : Bool)) = body :=
    List.takeWhile_eq_self_iff.mpr hall
  have hdrop : (body.dropWhile fun c => !(c = 'E' || c = 'e' : Bool)) = [] :=
    List.dropWhile_eq_nil_iff.mpr hall
  simp only [ofText?, hsplit, htake, hdrop, hread]
  rfl

theorem ofText?_marked {e : ℤ} (hsplit : splitSign text = (negative, body ++ mark :: rest))
    (hbody : ∀ x ∈ body, ¬ IsMark x) (hmark : IsMark mark) (hread : ofPlain? body = some r)
    (hexponent : exponentOf? rest = some e) :
    ofText? text = some ⟨negative, r.coefficient, r.exponent + e⟩ := by
  have hall : ∀ x ∈ body, (!(x = 'E' || x = 'e' : Bool)) = true := fun x hx => by
    simpa [IsMark] using hbody x hx
  have hstop : (!(mark = 'E' || mark = 'e' : Bool)) = false := by
    rcases hmark with rfl | rfl <;> rfl
  have htake : ((body ++ mark :: rest).takeWhile fun c => !(c = 'E' || c = 'e' : Bool)) = body := by
    rw [List.takeWhile_append_of_pos hall, List.takeWhile_cons_of_neg (by simp [hstop]),
      List.append_nil]
  have hdrop : ((body ++ mark :: rest).dropWhile fun c => !(c = 'E' || c = 'e' : Bool)) =
      mark :: rest := by
    rw [List.dropWhile_append_of_pos hall, List.dropWhile_cons_of_neg (by simp [hstop])]
  simp only [ofText?, hsplit, htake, hdrop, hread, hexponent]
  rfl

/-! ### Plain notation -/

/-- **Plain notation is read as the number.** -/
theorem ofText?_plain (d : Decimal) : ∃ r, ofText? d.plain = some r ∧ r.toRat = d.toRat ∧
    (d.exponent ≤ 0 → r = d) := by
  obtain ⟨r, hread, hrat, hexact⟩ := ofPlain?_plain d
  have hsplit : splitSign d.plain = (d.negative, d.abs.plain) := by
    rw [plain_eq]
    refine splitSign_signText d fun x hx => not_sign_of_notation (mem_plain (d := d) ?_)
    exact List.mem_of_mem_head? hx
  have hbody : ∀ x ∈ d.abs.plain, ¬ IsMark x := fun x hx => not_isMark_of_notation (mem_plain hx)
  have hr : r.negative = false := by
    obtain ⟨_, _, _, -, -, -, rfl, -⟩ := ofPlain?_eq_some_iff.mp hread
    rfl
  refine ⟨_, ofText?_unmarked hsplit hbody hread, ?_, fun he => ?_⟩
  · rw [toRat_of_nonneg hr, abs_toRat] at hrat
    rw [toRat_eq_signed, toRat_eq_signed, hrat]
  · rw [hexact he]
    rfl

/-! ### Scientific notation -/

theorem exponentOf?_exponentText (n : ℤ) :
    exponentOf? ((if n < 0 then '-' else '+') :: numeral n.natAbs) = some n := by
  have hne : numeral n.natAbs ≠ [] := List.map_eq_nil_iff.not.mpr (digitsOf_ne_nil _)
  have hmap : (numeral n.natAbs).mapM digitValue? = some (digitsOf n.natAbs) :=
    mapM_digitValue? fun d hd => mem_digitsOf_lt hd
  by_cases h : n < 0
  · have hsplit : splitSign ('-' :: numeral n.natAbs) = (true, numeral n.natAbs) := rfl
    simp only [if_pos h, exponentOf?, hsplit, if_neg hne, hmap, Option.map_some, if_true,
      valueOf_digitsOf]
    congr 1
    omega
  · have hsplit : splitSign ('+' :: numeral n.natAbs) = (false, numeral n.natAbs) := rfl
    simp only [if_neg h, exponentOf?, hsplit, if_neg hne, hmap, Option.map_some, Bool.false_eq_true,
      if_false, valueOf_digitsOf]
    congr 1
    omega

/-- The digits of scientific notation, with a point behind the first one. -/
theorem exists_scientific (mark : Char) (d : Decimal) : ∃ body, d.scientific mark =
    d.signText ++ (body ++ exponentText mark d.adjusted) ∧ body ≠ [] ∧
    (∀ x ∈ body, x = point ∨ ∃ n < 10, x = digitChar n) ∧
    ofPlain? body = some ⟨false, d.coefficient, d.exponent - d.adjusted⟩ := by
  have hlt : ∀ n ∈ digitsOf d.coefficient, n < 10 := fun n hn => mem_digitsOf_lt hn
  have hlength := length_digitsOf d.coefficient
  have hvalue := valueOf_digitsOf d.coefficient
  obtain ⟨n, ns, hdigits⟩ := List.exists_cons_of_ne_nil (digitsOf_ne_nil d.coefficient)
  rw [hdigits] at hlt hlength hvalue
  have hexponent : -(ns.length : ℤ) = d.exponent - d.adjusted := by
    rw [List.length_cons] at hlength
    rw [adjusted]
    omega
  have hnumeral : numeral d.coefficient = digitChar n :: ns.map digitChar := by
    rw [numeral, hdigits, List.map_cons]
  have hn : ∀ m ∈ [n], m < 10 := fun m hm =>
    hlt m (List.mem_cons.mpr (.inl (List.mem_singleton.mp hm)))
  have hns : ∀ m ∈ ns, m < 10 := fun m hm => hlt m (List.mem_cons_of_mem n hm)
  by_cases hnil : ns = []
  · rw [hnil, List.map_nil] at hnumeral
    refine ⟨[digitChar n], ?_, List.cons_ne_nil _ _, ?_, ?_⟩
    · simp [scientific, hnumeral]
    · simpa using .inr ⟨n, hn n List.mem_cons_self, rfl⟩
    · have hread := ofPlain?_whole (point_notMem_digits hn)
      rw [mapM_digitValue? hn] at hread
      rw [hnil] at hexponent hvalue
      simpa [hvalue, ← hexponent] using hread
  · refine ⟨digitChar n :: '.' :: ns.map digitChar, ?_, List.cons_ne_nil _ _, ?_, ?_⟩
    · have hlong : ¬ (digitChar n :: ns.map digitChar).length ≤ 1 := by
        have hpos := List.length_pos_iff.mpr hnil
        rw [List.length_cons, List.length_map]
        omega
      simp only [scientific, hnumeral, if_neg hlong, List.append_assoc]
      rfl
    · intro x hx
      simp only [List.mem_cons, List.mem_map] at hx
      rcases hx with rfl | rfl | ⟨m, hm, rfl⟩
      · exact .inr ⟨n, hn n List.mem_cons_self, rfl⟩
      · exact .inl rfl
      · exact .inr ⟨m, hns m hm, rfl⟩
    · have hread := ofPlain?_append_point (point_notMem_digits hn) (ns.map digitChar)
      rw [if_neg (by simp), ← List.map_append, mapM_digitValue? (by simpa using hlt)] at hread
      simpa [hvalue, ← hexponent] using hread

/-- **Scientific notation keeps coefficient and exponent apart.** -/
theorem ofText?_scientific (hmark : IsMark mark) (d : Decimal) :
    ofText? (d.scientific mark) = some d := by
  obtain ⟨body, htext, hne, hchars, hread⟩ := exists_scientific mark d
  have hsplit : splitSign (d.scientific mark) = (d.negative,
      body ++ mark :: (if d.adjusted < 0 then '-' else '+') :: numeral d.adjusted.natAbs) := by
    rw [htext]
    refine splitSign_signText d fun x hx => not_sign_of_notation (hchars x ?_)
    obtain ⟨y, ys, rfl⟩ := List.exists_cons_of_ne_nil hne
    obtain rfl : y = x := by simpa using hx
    exact List.mem_cons_self
  rw [ofText?_marked hsplit (fun x hx => not_isMark_of_notation (hchars x hx)) hmark hread
    (exponentOf?_exponentText d.adjusted)]
  simp

/-! ### General notation -/

/-- **General notation is read as it is written.** -/
theorem ofText?_general (hmark : IsMark mark) (d : Decimal) : ofText? (d.general mark) = some d := by
  unfold general
  split_ifs with hpositional
  · have he : d.exponent ≤ 0 := by
      simp only [isPositional, Bool.and_eq_true, decide_eq_true_eq] at hpositional
      exact hpositional.1
    obtain ⟨r, hread, -, hexact⟩ := ofText?_plain d
    rw [hread, hexact he]
  · exact ofText?_scientific hmark d

theorem mark_notMem_plain (hmark : IsMark mark) (d : Decimal) : mark ∉ d.plain := by
  intro h
  rw [plain_eq, List.mem_append] at h
  rcases h with h | h
  · unfold signText at h
    split_ifs at h
    · rw [List.mem_singleton] at h
      subst h
      rcases hmark with h | h <;> cases h
    · cases h
  · exact not_isMark_of_notation (mem_plain h) hmark

/-- **There is an exponent** where the digits are not all in their places. -/
theorem mark_mem_general_iff (hmark : IsMark mark) (d : Decimal) :
    mark ∈ d.general mark ↔ 0 < d.exponent ∨ d.adjusted < -6 := by
  have hpositional : d.isPositional = true ↔ ¬(0 < d.exponent ∨ d.adjusted < -6) := by
    simp only [isPositional, Bool.and_eq_true, decide_eq_true_eq]
    omega
  unfold general
  split_ifs with h
  · exact ⟨fun hmem => absurd hmem (mark_notMem_plain hmark d), fun hor => absurd hor (hpositional.mp h)⟩
  · refine ⟨fun _ => not_not.mp (hpositional.not.mp h), fun _ => ?_⟩
    obtain ⟨body, htext, -⟩ := exists_scientific mark d
    rw [htext, exponentText]
    simp

end Decimal

end InfixCalculator
