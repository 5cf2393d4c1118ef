import InfixCalculator.Proofs.Decimal.Plain
import InfixCalculator.Proofs.Text.Digits

/-! # Canonical plain notation

A number that is read from digits around a point is written with the same digits, without zeros in
front, except for the one that stands alone before the point.

* `Decimal.filled_digitsOf`: zeros fill up the digits to those that have been read.
* `Decimal.plain_of_digits`: the canonical notation. -/

namespace InfixCalculator

namespace Decimal

open Text

variable {ws fs : List ℕ}

theorem eq_replicate_of_dropWhile (h : fs.dropWhile (· = 0) = []) :
    fs = List.replicate fs.length 0 := by
  refine List.eq_replicate_of_mem fun d hd => ?_
  simpa using List.dropWhile_eq_nil_iff.mp h d hd

theorem eq_replicate_append_dropWhile (fs : List ℕ) :
    fs = List.replicate (fs.length - (fs.dropWhile (· = 0)).length) 0 ++ fs.dropWhile (· = 0) := by
  have hsplit := List.takeWhile_append_dropWhile (p := fun d : ℕ => decide (d = 0)) (l := fs)
  have hzeros : fs.takeWhile (· = 0) = List.replicate (fs.takeWhile (· = 0)).length 0 :=
    List.eq_replicate_of_mem fun d hd => by simpa using List.mem_takeWhile_imp hd
  have hlen : fs.length - (fs.dropWhile (· = 0)).length = (fs.takeWhile (· = 0)).length := by
    have := congrArg List.length hsplit
    rw [List.length_append] at this
    omega
  rw [hlen, ← hzeros, hsplit]

/-- **Zeros fill up the digits** to those that have been read, without zeros in front. -/
theorem filled_digitsOf (hw : ∀ d ∈ ws, d < 10) (hf : ∀ d ∈ fs, d < 10) :
    filled (digitsOf (horner (ws ++ fs))) fs.length = withoutZeros ws ++ fs := by
  have hall : ∀ d ∈ ws ++ fs, d < 10 := fun d hd => (List.mem_append.mp hd).elim (hw d) (hf d)
  rw [digitsOf_horner hall, filled]
  by_cases hws : ws.dropWhile (· = 0) = []
  · have hdrop : (ws ++ fs).dropWhile (· = 0) = fs.dropWhile (· = 0) := by
      rw [List.dropWhile_append, hws]
      rfl
    rw [withoutZeros, withoutZeros, hdrop, if_pos hws, List.singleton_append]
    by_cases hfs : fs.dropWhile (· = 0) = []
    · -- There are only zeros, and one of them is a digit of zero.
      conv_rhs => rw [eq_replicate_of_dropWhile hfs]
      rw [if_pos hfs, List.length_singleton, Nat.add_sub_cancel, ← List.replicate_succ',
        List.replicate_succ]
    · have hle : (fs.dropWhile (· = 0)).length ≤ fs.length := (List.dropWhile_sublist _).length_le
      conv_rhs => rw [eq_replicate_append_dropWhile fs]
      rw [if_neg hfs, Nat.succ_sub hle, List.replicate_succ, List.cons_append]
  · have hdrop : (ws ++ fs).dropWhile (· = 0) = ws.dropWhile (· = 0) ++ fs := by
      rw [List.dropWhile_append, if_neg (by simpa using hws)]
    have hlen : 0 < (ws.dropWhile (· = 0)).length := List.length_pos_iff.mpr hws
    have hzero : fs.length + 1 - (ws.dropWhile (· = 0) ++ fs).length = 0 := by
      rw [List.length_append]
      omega
    have hne : ws.dropWhile (· = 0) ++ fs ≠ [] := List.append_ne_nil_of_left_ne_nil hws fs
    rw [withoutZeros, withoutZeros, hdrop, if_neg hws, if_neg hne, hzero]
    rfl

/-- **Canonical plain notation**: what has been read from the digits before and behind a point is
written with the same ones, without zeros in front. -/
theorem plain_of_digits (negative : Bool) (hw : ∀ d ∈ ws, d < 10) (hf : ∀ d ∈ fs, d < 10) :
    (⟨negative, horner (ws ++ fs), -fs.length⟩ : Decimal).plain =
      (if negative then ['-'] else []) ++ (withoutZeros ws).map digitChar ++
        if fs = [] then [] else '.' :: fs.map digitChar := by
  have hfilled := filled_digitsOf hw hf
  have hdigits : ∀ d ∈ digitsOf (horner (ws ++ fs)), d < 10 := fun d hd => mem_digitsOf_lt hd
  have hplaces : (-(-(fs.length : ℤ))).toNat = fs.length := by omega
  have hpointed : pointed ((digitsOf (horner (ws ++ fs))).map digitChar) fs.length =
      (withoutZeros ws).map digitChar ++ if fs = [] then [] else '.' :: fs.map digitChar := by
    by_cases hne : fs = []
    · rw [if_pos hne, List.append_nil, hne, List.append_nil, digitsOf_horner hw]
      exact if_pos rfl
    · rw [if_neg hne]
      rcases pointed_cases hdigits fs.length with
        ⟨hlen, -⟩ | ⟨whole, fraction, -, -, -, hsplit, hlen, htext⟩
      · exact absurd (List.length_eq_zero_iff.mp hlen) hne
      · obtain ⟨rfl, rfl⟩ := List.append_inj' (hfilled.symm.trans hsplit) hlen.symm
        exact htext
  have hexponent : -(fs.length : ℤ) ≤ 0 := by omega
  rw [plain, List.append_assoc, ← hpointed]
  simp only [hplaces, if_pos hexponent]
  rfl

end Decimal

end InfixCalculator
