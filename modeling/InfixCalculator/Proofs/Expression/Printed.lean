import InfixCalculator.Proofs.Decimal.Plain
import InfixCalculator.Proofs.Expression.Exact
import InfixCalculator.Proofs.Expression.Normal

/-! # Printed numbers as expressions

* `Decimal.mem_plain`: the characters of plain notation; `Decimal.normalize_plain`: it is in normal
  form.
* `Decimal.literal`: plain notation without a sign is a number literal.
* `Decimal.tree`: plain notation is an expression without any nesting; `Decimal.value_tree`: its
  value is the number. -/

namespace InfixCalculator

namespace Decimal

open Text

variable {ds : List ℕ}

/-! ### Characters -/

theorem mem_pointed (h : ∀ d ∈ ds, d < 10) {places : ℕ} {x : Char}
    (hx : x ∈ pointed (ds.map digitChar) places) : x = point ∨ ∃ d < 10, x = digitChar d := by
  have hdigit : ∀ es : List ℕ, (∀ d ∈ es, d < 10) → x ∈ es.map digitChar →
      ∃ d < 10, x = digitChar d := by
    intro es hes hmem
    obtain ⟨d, hd, rfl⟩ := List.mem_map.mp hmem
    exact ⟨d, hes d hd, rfl⟩
  rcases pointed_cases h places with
    ⟨-, htext⟩ | ⟨whole, fraction, hwhole, hfraction, -, -, -, htext⟩
  · rw [htext] at hx
    exact .inr (hdigit ds h hx)
  · rw [htext, List.mem_append, List.mem_cons] at hx
    rcases hx with hx | rfl | hx
    · exact .inr (hdigit whole hwhole hx)
    · exact .inl rfl
    · exact .inr (hdigit fraction hfraction hx)

theorem count_point_pointed (h : ∀ d ∈ ds, d < 10) (places : ℕ) :
    (pointed (ds.map digitChar) places).count point ≤ 1 := by
  have hcount : ∀ es : List ℕ, (∀ d ∈ es, d < 10) → (es.map digitChar).count point = 0 :=
    fun es hes => List.count_eq_zero.mpr (point_notMem_digits hes)
  rcases pointed_cases h places with
    ⟨-, htext⟩ | ⟨whole, fraction, hwhole, hfraction, -, -, -, htext⟩
  · rw [htext, hcount ds h]
    exact Nat.zero_le 1
  · rw [htext, List.count_append, hcount whole hwhole, List.count_cons, hcount fraction hfraction]
    decide

theorem exists_digit_pointed (h : ∀ d ∈ ds, d < 10) (hne : ds ≠ []) (places : ℕ) :
    ∃ x ∈ pointed (ds.map digitChar) places, x ≠ point := by
  have hhead : ∀ es : List ℕ, (∀ d ∈ es, d < 10) → es ≠ [] → ∃ x ∈ es.map digitChar, x ≠ point := by
    intro es hes hne
    obtain ⟨x, hx⟩ := List.exists_mem_of_ne_nil _ (List.map_eq_nil_iff.not.mpr hne)
    exact ⟨x, hx, ne_of_mem_of_not_mem hx (point_notMem_digits hes)⟩
  rcases pointed_cases h places with ⟨-, htext⟩ | ⟨whole, fraction, hwhole, -, hne', -, -, htext⟩
  · rw [htext]
    exact hhead ds h hne
  · obtain ⟨x, hx, hpoint⟩ := hhead whole hwhole hne'
    exact ⟨x, by rw [htext]; exact List.mem_append_left _ hx, hpoint⟩

theorem mem_plain {d : Decimal} {x : Char} (hx : x ∈ d.abs.plain) :
    x = point ∨ ∃ n < 10, x = digitChar n := by
  obtain ⟨ds, places, hlt, -, htext, -⟩ := exists_digits d
  exact mem_pointed hlt (htext ▸ hx)

/-- **Plain notation is in normal form.** -/
theorem normalize_plain (d : Decimal) : normalize d.plain = d.plain := by
  have hdigits : ∀ n < 10, IsNormal (digitChar n) := by decide
  refine normalize_of_normal fun x hx => ?_
  rw [plain_eq, List.mem_append] at hx
  rcases hx with hx | hx
  · unfold signText at hx
    split_ifs at hx
    · rw [List.mem_singleton.mp hx]
      decide
    · cases hx
  · rcases mem_plain hx with rfl | ⟨n, hn, rfl⟩
    · decide
    · exact hdigits n hn

/-! ### Trees -/

/-- Plain notation without a sign as a number literal. -/
def literal (d : Decimal) : Literal where
  text := d.abs.plain
  chars x hx := by
    have hdigits : ∀ n < 10, isNumberChar (digitChar n) = true := by decide
    rcases mem_plain hx with rfl | ⟨n, hn, rfl⟩
    · decide
    · exact hdigits n hn
  points := by
    obtain ⟨ds, places, hlt, -, htext, -⟩ := exists_digits d
    rw [htext]
    exact count_point_pointed hlt places
  digit := by
    obtain ⟨ds, places, hlt, hne, htext, -⟩ := exists_digits d
    rw [htext]
    exact exists_digit_pointed hlt hne places

/-- Plain notation as a primary. -/
def primary (d : Decimal) : Tree .primary :=
  if d.negative then .signed .minus (.number d.literal) else .unsigned (.number d.literal)

/-- Plain notation as an expression. -/
def tree (d : Decimal) : Tree .expression :=
  .expression (.term (.base d.primary) .noFactor) .noSummand

theorem text_tree (d : Decimal) : d.tree.text = d.plain := by
  rw [plain_eq, tree]
  simp only [Tree.text, List.append_nil]
  unfold primary signText
  split_ifs <;> rfl

/-- **The value of a printed number is the number**, and the same decimal unless zeros were written
for a positive exponent. -/
theorem value_tree (k : Calculator) (v d : Decimal) : ∃ w, d.tree.value k v = .ok w ∧
    w.toRat = d.toRat ∧ (d.exponent ≤ 0 → w = d) := by
  obtain ⟨u, hu, hrat, hexact⟩ := ofPlain?_plain d
  have hliteral : d.literal.value = .ok u := by rw [Literal.value, literal, hu]
  have hprimary : ∃ w, d.primary.value k v = .ok w ∧ w.toRat = d.toRat ∧
      (d.exponent ≤ 0 → w = d) := by
    unfold primary
    cases hneg : d.negative with
    | false =>
      refine ⟨u, hliteral, ?_, fun he => ?_⟩
      · rw [hrat, abs_toRat, toRat_of_nonneg hneg]
      · rw [hexact he, abs, ← hneg]
    | true =>
      refine ⟨u.neg, ?_, ?_, fun he => ?_⟩
      · rw [if_pos rfl, Tree.value, Tree.value, hliteral]
        rfl
      · rw [toRat_neg, hrat, abs_toRat, toRat_of_negative hneg]
      · rw [hexact he, abs, neg, Bool.not_false, ← hneg]
  obtain ⟨w, hw, hwrat⟩ := hprimary
  refine ⟨w, ?_, hwrat⟩
  simp only [tree, Tree.value, hw]
  rfl

theorem depth_tree (d : Decimal) : d.tree.depth = 0 := by
  simp only [tree, Tree.depth, primary]
  split_ifs <;> rfl

end Decimal

end InfixCalculator
