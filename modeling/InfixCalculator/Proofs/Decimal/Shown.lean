import InfixCalculator.Decimal.Layout
import InfixCalculator.Proofs.Expression.Printed
import InfixCalculator.Proofs.Text.Visible

/-! # Numbers as they are shown

* `Decimal.NotationChar`: the characters of numbers in general notation.
* `Decimal.laidOut_cases`: a number is shown in plain notation or with some count of significant
  digits.
* `Decimal.notationChar_laidOut`: no other characters are shown, whatever the layout. -/

namespace InfixCalculator

open Text

namespace Decimal

variable {d : Decimal} {x mark : Char}

/-! ### Characters -/

/-- The character is a digit, a sign, the point or the mark of an exponent. -/
def NotationChar (mark x : Char) : Prop := x ∈ ['-', '+', '.', mark] ∨ ∃ n < 10, x = digitChar n

theorem notationChar_numeral {n : ℕ} (h : x ∈ numeral n) : NotationChar mark x := .inr (mem_numeral h)

theorem notationChar_signText (h : x ∈ d.signText) : NotationChar mark x := by
  unfold signText at h
  split_ifs at h
  · rw [List.mem_singleton.mp h]
    exact .inl List.mem_cons_self
  · cases h

theorem notationChar_plain (h : x ∈ d.plain) : NotationChar mark x := by
  rw [plain_eq, List.mem_append] at h
  rcases h with h | h
  · exact notationChar_signText h
  · rcases mem_plain h with rfl | hdigit
    · exact .inl (by simp [point])
    · exact .inr hdigit

theorem notationChar_exponentText {n : ℤ} (h : x ∈ exponentText mark n) : NotationChar mark x := by
  rw [exponentText, List.mem_cons, List.mem_cons] at h
  rcases h with rfl | rfl | h
  · exact .inl (by simp)
  · split_ifs
    · exact .inl (by simp)
    · exact .inl (by simp)
  · exact notationChar_numeral h

theorem notationChar_scientific (h : x ∈ d.scientific mark) : NotationChar mark x := by
  simp only [scientific, List.mem_append] at h
  rcases h with ((h | h) | h) | h
  · exact notationChar_signText h
  · exact notationChar_numeral (List.mem_of_mem_take h)
  · split_ifs at h
    · cases h
    · rcases List.mem_cons.mp h with rfl | h
      · exact .inl (by simp)
      · exact notationChar_numeral (List.mem_of_mem_drop h)
  · exact notationChar_exponentText h

theorem notationChar_general (h : x ∈ d.general mark) : NotationChar mark x := by
  unfold general at h
  split_ifs at h
  · exact notationChar_plain h
  · exact notationChar_scientific h

theorem isAsciiText_of_notationChar (hmark : isAsciiText mark = true) (h : NotationChar mark x) :
    isAsciiText x = true := by
  rcases h with h | ⟨n, hn, rfl⟩
  · simp only [List.mem_cons, List.not_mem_nil, or_false] at h
    rcases h with rfl | rfl | rfl | rfl
    · decide
    · decide
    · decide
    · exact hmark
  · exact isAsciiText_digitChar n hn

theorem visible_toText (d : Decimal) : Visible d.toText := fun _ hx =>
  isPrintable_of_ascii (isAsciiText_of_notationChar (by decide) (notationChar_general hx))

/-! ### Layouts -/

/-- **What is shown of a number** is its plain notation or some of its digits. -/
theorem laidOut_cases (layout : Layout) (d : Decimal) :
    d.laidOut layout = d.plain ∨ ∃ digits, d.laidOut layout = d.significant digits := by
  have hshort : ∀ w, ∃ digits, d.shortened w = d.significant digits := fun w => by
    unfold shortened
    cases hfind : ([6, 5, 4, 3, 2].map fun digits => d.significant digits).find? (fits w) with
    | none => exact ⟨1, rfl⟩
    | some text =>
      obtain ⟨digits, -, rfl⟩ := List.mem_map.mp (List.mem_of_find?_eq_some hfind)
      exact ⟨digits, rfl⟩
  have hbase : ∀ text, (text = d.plain ∨ ∃ digits, text = d.significant digits) →
      d.narrowed layout.width text = d.plain ∨
        ∃ digits, d.narrowed layout.width text = d.significant digits := fun text htext => by
    unfold narrowed
    split
    · exact htext
    · split_ifs
      · exact htext
      · exact .inr (hshort _)
  rw [laidOut]
  refine hbase _ ?_
  split
  · exact .inl rfl
  · exact .inr ⟨_, rfl⟩

theorem notationChar_laidOut {layout : Layout} (h : x ∈ d.laidOut layout) : NotationChar 'e' x := by
  rcases laidOut_cases layout d with hplain | ⟨digits, hdigits⟩
  · exact notationChar_plain (hplain ▸ h)
  · rw [hdigits] at h
    exact notationChar_general h

theorem visible_laidOut (layout : Layout) (d : Decimal) : Visible (d.laidOut layout) := fun _ hx =>
  isPrintable_of_ascii (isAsciiText_of_notationChar (by decide) (notationChar_laidOut hx))

end Decimal

end InfixCalculator
