import InfixCalculator.Proofs.Expression.Meaning
import InfixCalculator.Proofs.Expression.Normal
import Mathlib

/-! # The order of operands

Two complete operands with an operator between them are read as these operands, whatever signs, roots,
powers and groups they consist of. Sums and products do not depend on the order of their operands, in
all digits and the exponent, and hence evaluations of sums and products do not.

* `Tree.normalize_text`: the text of a parse tree is in normal form.
* `Calculator.ReadsWhole`: a rule reads a text as a whole.
* `Calculator.evaluate_signs`, `Calculator.evaluate_scales`: two operands with an operator between them.
* `Decimal.add_comm`, `Decimal.mul_comm`: rounded sums and products.
* `Calculator.evaluate_swapped`: the operands of a sum or product may be swapped. -/

namespace InfixCalculator

/-! ### Rounded sums and products -/

namespace Decimal

protected theorem add_comm (p : Precision) (a b : Decimal) : a.add p b = b.add p a := by
  unfold add
  rw [min_comm, Bool.and_comm]
  dsimp only
  rw [Int.add_comm]

protected theorem mul_comm (p : Precision) (a b : Decimal) : a.mul p b = b.mul p a := by
  unfold mul
  dsimp only
  rw [bne_comm, Int.add_comm, Bool.or_comm, Nat.mul_comm]

end Decimal

theorem Sign.combine_comm (k : Calculator) (a b : Decimal) :
    plus.combine k a b = plus.combine k b a := by
  rw [combine, combine, Decimal.add_comm]

theorem Scale.combine_comm (k : Calculator) (a b : Decimal) :
    times.combine k a b = times.combine k b a := by
  rw [combine, combine, Decimal.mul_comm]

/-! ### Texts of the grammar -/

namespace Tree

variable {r : Rule}

theorem isNormal_of_mem_text (t : Tree r) {x : Char} (h : x ∈ t.text) : IsNormal x := by
  have hsign : ∀ s : Sign, IsNormal s.char := by
    intro s
    cases s <;> decide
  have hscale : ∀ s : Scale, IsNormal s.char := by
    intro s
    cases s <;> decide
  induction t with
  | noSummand | noFactor => cases h
  | base p ih | unsigned o ih => exact ih h
  | expression first more ih1 ih2 | term first more ih1 ih2 =>
    exact (List.mem_append.mp h).elim ih1 ih2
  | summand s t more ih1 ih2 =>
    rcases List.mem_cons.mp h with rfl | h
    · exact hsign s
    · exact (List.mem_append.mp h).elim ih1 ih2
  | factor s t more ih1 ih2 =>
    rcases List.mem_cons.mp h with rfl | h
    · exact hscale s
    · exact (List.mem_append.mp h).elim ih1 ih2
  | power p e ih1 ih2 =>
    rcases List.mem_append.mp h with h | h
    · exact ih1 h
    · rcases List.mem_cons.mp h with rfl | h
      · decide
      · exact ih2 h
  | signed s o ih =>
    rcases List.mem_cons.mp h with rfl | h
    · exact hsign s
    · exact ih h
  | root p ih =>
    rcases List.mem_cons.mp h with rfl | h
    · decide
    · exact ih h
  | group e ih =>
    simp only [text, List.mem_cons, List.mem_append, List.not_mem_nil, or_false] at h
    rcases h with rfl | h | rfl
    · decide
    · exact ih h
    · decide
  | number l => exact isNormal_of_isNumberChar (l.chars x h)

/-- **The text of a parse tree** is in normal form. -/
theorem normalize_text (t : Tree r) : normalize t.text = t.text :=
  normalize_of_normal fun _ => t.isNormal_of_mem_text

end Tree

/-! ### Operands -/

namespace Calculator

variable {k : Calculator} {r : Rule} {A B : List Char} {a b : Decimal}

/-- The rule reads the whole text, under the limit of evaluations, and gives it the value. -/
def ReadsWhole (k : Calculator) (r : Rule) (text : List Char) (v : Decimal) : Prop :=
  ∃ c, k.read r (.ofNat 0) (.start text (some nestingLimit)) = .value v c ∧ c.atEnd = true

/-- A text that is read as a whole has a tree, if the rule does not look at the value before it. -/
theorem ReadsWhole.exists_tree (h : k.ReadsWhole r A a) (v : Decimal)
    (hr : k.read r v = k.read r (.ofNat 0)) :
    ∃ t : Tree r, t.text = A ∧ t.depth ≤ 100 ∧ t.value k v = .ok a := by
  obtain ⟨c, hread, hend⟩ := h
  rw [← hr] at hread
  obtain ⟨t, hspan, hdepth, -, hvalue⟩ := exists_tree_of_value (room_start A) hread
  have hrest : c.rest = [] := List.isEmpty_iff.mp hend
  have htext : A = t.text ++ c.rest := hspan.rest
  rw [hrest, List.append_nil] at htext
  rw [Tree.valueWithin_of_depth_le t v hdepth] at hvalue
  exact ⟨t, htext.symm, hdepth, hvalue⟩

theorem shows_of_tree (t : Tree .expression) (hdepth : t.depth ≤ 100) :
    Shows (k.evaluate t.text) (t.value k (.ofNat 0)) :=
  evaluate_of_derivation k (.ofTree t t.normalize_text.symm) (le_nestingLimit_iff.mpr hdepth)

/-- **Two terms with a sign between them** are read as these terms. -/
theorem evaluate_signs (s : Sign) (hA : k.ReadsWhole .term A a) (hB : k.ReadsWhole .term B b) :
    Shows (k.evaluate (A ++ s.char :: B)) (s.combine k a b) := by
  obtain ⟨t, rfl, ht, hta⟩ := hA.exists_tree (.ofNat 0) rfl
  obtain ⟨u, rfl, hu, hub⟩ := hB.exists_tree a rfl
  have hvalue : (Tree.expression t (.summand s u .noSummand)).value k (.ofNat 0) =
      s.combine k a b := by
    rw [Tree.value, hta]
    show (u.value k a >>= fun w => s.combine k a w >>= pure) = _
    rw [hub]
    exact bind_pure (s.combine k a b)
  have hshows := shows_of_tree (k := k) (.expression t (.summand s u .noSummand)) (by
    simp only [Tree.depth]
    omega)
  rw [hvalue] at hshows
  simpa only [Tree.text, List.append_nil] using hshows

/-- **Two factors with an operator between them** are read as these factors. -/
theorem evaluate_scales (s : Scale) (hA : k.ReadsWhole .exponent A a)
    (hB : k.ReadsWhole .exponent B b) :
    Shows (k.evaluate (A ++ s.char :: B)) (s.combine k a b) := by
  obtain ⟨t, rfl, ht, hta⟩ := hA.exists_tree (.ofNat 0) rfl
  obtain ⟨u, rfl, hu, hub⟩ := hB.exists_tree a rfl
  have hvalue : (Tree.expression (.term t (.factor s u .noFactor)) .noSummand).value k (.ofNat 0) =
      s.combine k a b := by
    rw [Tree.value, Tree.value, hta]
    show ((u.value k a >>= fun w => s.combine k a w >>= pure) >>= pure) = _
    rw [hub]
    exact (bind_pure _).trans (bind_pure (s.combine k a b))
  have hshows := shows_of_tree (k := k) (.expression (.term t (.factor s u .noFactor)) .noSummand) (by
    simp only [Tree.depth]
    omega)
  rw [hvalue] at hshows
  simpa only [Tree.text, List.append_nil] using hshows

/-! ### Swapped operands -/

/-- Both evaluations have the same value, or both exceed all decimals. -/
def SameOrTooLarge (o o' : Except Failure Decimal) : Prop :=
  (∃ v, o = .ok v ∧ o' = .ok v) ∨
    ∃ e e', o = .error (.error e) ∧ o' = .error (.error e') ∧
      e.kind = .numericOverflow ∧ e'.kind = .numericOverflow

theorem Shows.sameOrTooLarge {o o' : Except Failure Decimal} {m : Except ErrorKind Decimal}
    (h : Shows o m) (h' : Shows o' m) (hm : ∀ kind, m = .error kind → kind = .numericOverflow) :
    SameOrTooLarge o o' := by
  cases hm' : m with
  | ok w => exact .inl ⟨_, h.of_ok w hm', h'.of_ok w hm'⟩
  | error kind =>
    obtain rfl := hm kind hm'
    obtain ⟨e, he, hkind⟩ := h.of_error _ hm'
    obtain ⟨e', he', hkind'⟩ := h'.of_error _ hm'
    exact .inr ⟨e, e', he, he', hkind, hkind'⟩

theorem eq_of_mapError_eq_error {o : Except Signal Decimal} {kind kind' : ErrorKind}
    (h : o.mapError (fun _ => kind') = .error kind) : kind = kind' := by
  cases o with
  | ok v => cases h
  | error s => exact (Except.error.inj h).symm

/-- **The order of operands does not matter** for sums and products. Whatever two texts are read as
terms, their sum has the same value in both orders, with the same digits and exponent, or is too large
in both. The same holds for two texts that are read as factors and their product. -/
theorem evaluate_swapped (k : Calculator) (A B : List Char) (a b : Decimal) :
    (k.ReadsWhole .term A a → k.ReadsWhole .term B b →
      SameOrTooLarge (k.evaluate (A ++ '+' :: B)) (k.evaluate (B ++ '+' :: A))) ∧
    (k.ReadsWhole .exponent A a → k.ReadsWhole .exponent B b →
      SameOrTooLarge (k.evaluate (A ++ '*' :: B)) (k.evaluate (B ++ '*' :: A))) := by
  constructor
  · intro hA hB
    have hswapped := evaluate_signs .plus hB hA
    rw [Sign.combine_comm] at hswapped
    exact (evaluate_signs .plus hA hB).sameOrTooLarge hswapped fun _ => eq_of_mapError_eq_error
  · intro hA hB
    have hswapped := evaluate_scales .times hB hA
    rw [Scale.combine_comm] at hswapped
    exact (evaluate_scales .times hA hB).sameOrTooLarge hswapped fun _ => eq_of_mapError_eq_error

/-- A product of a zero with two places is swapped with a group, and so is the zero. -/
theorem evaluate_swapped_zero :
    SameOrTooLarge (standard.evaluate "0.00*3+(1-2)".toList)
      (standard.evaluate "(1-2)+0.00*3".toList) ∧
    SameOrTooLarge (standard.evaluate "0.00*(1-2)".toList)
      (standard.evaluate "(1-2)*0.00".toList) := by
  have hterm : standard.ReadsWhole .term "0.00*3".toList ⟨false, 0, -2⟩ :=
    ⟨(Cursor.start "0.00*3".toList (some nestingLimit)).advance 6, by cbv, rfl⟩
  have hgroup : standard.ReadsWhole .term "(1-2)".toList ⟨true, 1, 0⟩ :=
    ⟨(Cursor.start "(1-2)".toList (some nestingLimit)).advance 5, by cbv, rfl⟩
  have hzero : standard.ReadsWhole .exponent "0.00".toList ⟨false, 0, -2⟩ :=
    ⟨(Cursor.start "0.00".toList (some nestingLimit)).advance 4, by cbv, rfl⟩
  have hgroup' : standard.ReadsWhole .exponent "(1-2)".toList ⟨true, 1, 0⟩ :=
    ⟨(Cursor.start "(1-2)".toList (some nestingLimit)).advance 5, by cbv, rfl⟩
  exact ⟨(evaluate_swapped standard _ _ _ _).1 hterm hgroup,
    (evaluate_swapped standard _ _ _ _).2 hzero hgroup'⟩

end Calculator

end InfixCalculator
