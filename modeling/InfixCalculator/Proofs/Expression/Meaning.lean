import InfixCalculator.Proofs.Expression.Signals

/-! # What an evaluation means

* `Calculator.evaluateNormal_of_derivation`: the evaluation of a text with a derivation.
* `Calculator.exists_derivation`: a text with a value has a derivation that is not too deep.
* `Calculator.evaluate_iff_derivation`: evaluation accepts the grammar and computes its meaning. -/

namespace InfixCalculator

namespace Calculator

variable {k : Calculator} {text : List Char}

theorem le_nestingLimit_iff {n : ℕ} : (n : ℤ) ≤ nestingLimit ↔ n ≤ 100 := by
  unfold nestingLimit
  omega

theorem evaluate_of_ne_nil {s : List Char} (h : normalize s ≠ []) :
    k.evaluate s = k.evaluateNormal (normalize s) := by rw [evaluate, if_neg h]

theorem room_start (text : List Char) : (Cursor.start text (some nestingLimit)).Room 100 := rfl

/-- The outcome of an evaluation, as the user sees it: the value up to the sign of a zero, or the
kind of error. -/
structure Shows (o : Except Failure Decimal) (m : Except ErrorKind Decimal) : Prop where
  of_ok : ∀ w, m = .ok w → o = .ok (unsignedZero w)
  of_error : ∀ kind, m = .error kind → ∃ e, o = .error (.error e) ∧ e.kind = kind

/-- A text that has a derivation shows the value of its tree within the limit of nesting. -/
theorem evaluateNormal_of_derivation (k : Calculator) (d : Derivation text) :
    Shows (k.evaluateNormal text) (d.tree.valueWithin k 100 (.ofNat 0)) := by
  have hspan : (Cursor.start text (some nestingLimit)).Spans d.tree.text _ :=
    Cursor.spans_advance (show text = d.tree.text ++ [] by rw [d.text_eq, List.append_nil])
  have hrest : ((Cursor.start text (some nestingLimit)).advance d.tree.text.length).rest = [] := by
    rw [Cursor.rest_advance, d.text_eq]
    exact List.drop_length
  have hread := read_yields (k := k) (v := .ofNat 0) d.tree hspan
    (by rw [hrest]; exact Rule.EndsBefore.nil _) (room_start text)
  constructor
  · intro w hw
    have h : k.expression _ = _ := hread.of_ok w hw
    rw [evaluateNormal, h]
    simp only [Cursor.atEnd, hrest, List.isEmpty_nil, if_true]
  · intro kind hkind
    obtain ⟨f, c, h, hf⟩ := hread.of_error kind hkind
    rw [← hf]
    exact evaluateNormal_of_fault h

/-- A text whose derivation is within the limit shows what the derivation denotes. -/
theorem evaluate_of_derivation {s : List Char} (k : Calculator) (d : Derivation (normalize s))
    (hd : d.depth ≤ nestingLimit) : Shows (k.evaluate s) (d.value k) := by
  have hdepth : d.tree.depth ≤ 100 := le_nestingLimit_iff.mp hd
  have h := evaluateNormal_of_derivation k d
  rw [Tree.valueWithin_of_depth_le d.tree _ hdepth] at h
  rwa [evaluate_of_ne_nil d.text_ne_nil]

theorem evaluate_of_tree {s : List Char} {w : Decimal} (t : Tree .expression)
    (htext : t.text = normalize s) (hdepth : t.depth ≤ 100)
    (hw : t.value k (.ofNat 0) = .ok w) : k.evaluate s = .ok (unsignedZero w) :=
  (evaluate_of_derivation k (.ofTree t htext) (le_nestingLimit_iff.mpr hdepth)).of_ok w hw

/-- A text that has a value has a derivation. -/
theorem exists_derivation {v : Decimal} (h : k.evaluateNormal text = .ok v) :
    ∃ d : Derivation text, d.depth ≤ 100 := by
  unfold evaluateNormal at h
  cases hread : k.expression (.start text (some nestingLimit)) with
  | fault f c => rw [hread] at h; cases h
  | value w c =>
    rw [hread] at h
    dsimp only at h
    split_ifs at h with hend
    obtain ⟨t, hspan, hdepth⟩ :=
      exists_tree (r := .expression) (v := .ofNat 0) (room_start text) hread
    have hrest : c.rest = [] := List.isEmpty_iff.mp hend
    have htext : text = t.text := by rw [← List.append_nil t.text, ← hrest]; exact hspan.rest
    exact ⟨.ofTree t htext.symm, hdepth⟩

/-- A text that has a value has a derivation within the limit that denotes it. -/
theorem exists_derivation_of_evaluate {s : List Char} {v : Decimal} (hne : normalize s ≠ [])
    (hv : k.evaluate s = .ok v) : ∃ d : Derivation (normalize s),
      d.depth ≤ nestingLimit ∧ ∃ w, d.value k = .ok w ∧ v = unsignedZero w := by
  have hnormal : k.evaluateNormal (normalize s) = .ok v := by rwa [evaluate_of_ne_nil hne] at hv
  obtain ⟨d, hdepth⟩ := exists_derivation hnormal
  have hd : d.depth ≤ nestingLimit := le_nestingLimit_iff.mpr hdepth
  have hshows := evaluate_of_derivation k d hd
  refine ⟨d, hd, ?_⟩
  cases hm : d.value k with
  | ok w =>
    have hw := hshows.of_ok w hm
    rw [hv] at hw
    exact ⟨w, rfl, Except.ok.inj hw⟩
  | error kind =>
    obtain ⟨e, he, -⟩ := hshows.of_error kind hm
    rw [hv] at he
    cases he

/-- Where there is no derivation, there is an error. -/
theorem evaluateNormal_of_isEmpty (k : Calculator) (h : IsEmpty (Derivation text)) :
    ∃ e, k.evaluateNormal text = .error (.error e) := by
  cases hread : k.expression (.start text (some nestingLimit)) with
  | fault f c =>
    obtain ⟨e, he, -⟩ := evaluateNormal_of_fault hread
    exact ⟨e, he⟩
  | value w c =>
    by_cases hend : c.atEnd = true
    · have hv : k.evaluateNormal text = .ok (unsignedZero w) := by
        rw [evaluateNormal, hread]
        exact if_pos hend
      obtain ⟨d, -⟩ := exists_derivation hv
      exact h.elim d
    · refine ⟨⟨text, .trailingInput c.position⟩, ?_⟩
      rw [evaluateNormal, hread]
      exact if_neg hend

/-- **Evaluation accepts the grammar and computes its meaning.** A text whose normal form is empty
is zero. Any other text has at most one derivation; it has the value `v` if and only if the
derivation is within the limit of nesting and denotes `v`, up to the sign of a zero. If the
derivation denotes an error, the evaluation ends with an error of this kind, unless the limit was met
before. Texts without a derivation are errors. -/
theorem evaluate_iff_derivation (k : Calculator) (s : List Char) :
    (normalize s = [] → k.evaluate s = .ok (.ofNat 0)) ∧
    (∀ d d' : Derivation (normalize s), d = d') ∧
    (normalize s ≠ [] →
      (∀ v, k.evaluate s = .ok v ↔ ∃ d : Derivation (normalize s),
        d.depth ≤ nestingLimit ∧ ∃ w, d.value k = .ok w ∧ v = unsignedZero w) ∧
      (∀ (d : Derivation (normalize s)) (kind : ErrorKind),
        d.depth ≤ nestingLimit → d.value k = .error kind →
          ∃ e, k.evaluate s = .error (.error e) ∧ e.kind = kind) ∧
      (∀ d : Derivation (normalize s), nestingLimit < d.depth →
        ∃ e, k.evaluate s = .error (.error e) ∧
          (e.kind = .nestingTooDeep ∨ d.value k = .error e.kind)) ∧
      (IsEmpty (Derivation (normalize s)) → ∃ e, k.evaluate s = .error (.error e))) := by
  refine ⟨fun h => by rw [evaluate, if_pos h], Subsingleton.elim, fun h => ?_⟩
  have heval := evaluate_of_ne_nil (k := k) h
  refine ⟨fun v => ⟨exists_derivation_of_evaluate h, ?_⟩, fun d kind hd hkind => ?_,
    fun d hd => ?_, fun hempty => ?_⟩
  · rintro ⟨d, hd, w, hw, rfl⟩
    exact (evaluate_of_derivation k d hd).of_ok w hw
  · exact (evaluate_of_derivation k d hd).of_error kind hkind
  · have hdepth : 100 < d.tree.depth := not_le.mp fun h => not_lt.mpr (le_nestingLimit_iff.mpr h) hd
    obtain ⟨kind, hkind, hor⟩ := Tree.valueWithin_of_lt_depth (k := k) d.tree (.ofNat 0) hdepth
    obtain ⟨e, he, rfl⟩ := (evaluateNormal_of_derivation k d).of_error kind hkind
    exact ⟨e, heval ▸ he, hor⟩
  · exact heval ▸ evaluateNormal_of_isEmpty k hempty

end Calculator

end InfixCalculator
