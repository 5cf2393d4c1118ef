import InfixCalculator.Proofs.Expression.Meaning
import InfixCalculator.Proofs.Expression.Normal
import InfixCalculator.Proofs.Expression.Online
import Mathlib

/-! # What lies beyond does not matter

Where a reading stops, only the digits and points ahead and one character more have been seen.

* `Calculator.read_value_kept`: a value is the same in all texts that agree up to its end and do not
  continue it.
* `Calculator.evaluate_error_kept`: an error is the same in all texts that agree up to one character
  behind it.
* `Calculator.evaluate_online`: both. -/

namespace InfixCalculator

variable {xs ys zs : List Char}

/-! ### Two texts -/

/-- Where two texts agree, the same is ahead in both. -/
theorem drop_of_take_eq {text text' : List Char} {s : ℕ} (hs : s ≤ text.length)
    (hdrop : text.drop s = xs ++ ys)
    (htake : text'.take (s + xs.length) = text.take (s + xs.length)) :
    text'.drop s = xs ++ text'.drop (s + xs.length) := by
  have hlength : s ≤ (text.take (s + xs.length)).length := by
    have := congrArg List.length hdrop
    rw [List.length_drop, List.length_append] at this
    rw [List.length_take]
    omega
  calc text'.drop s
      = (text.take (s + xs.length) ++ text'.drop (s + xs.length)).drop s := by
        rw [← htake, List.take_append_drop]
    _ = (text.take (s + xs.length)).drop s ++ text'.drop (s + xs.length) :=
        List.drop_append_of_le_length hlength
    _ = xs ++ text'.drop (s + xs.length) := by
        rw [List.drop_take, hdrop, Nat.add_sub_cancel_left, List.take_left]

theorem sameAhead_of_head? (h : zs.head? = (xs.dropWhile isNumberChar).head?) :
    SameAhead xs (xs.takeWhile isNumberChar ++ zs) := by
  have hzs : StartsNoNumber zs := fun x hx => startsNoNumber_dropWhile xs x (h ▸ hx)
  have hrun : ∀ x ∈ xs.takeWhile isNumberChar, isNumberChar x = true := fun x hx =>
    List.mem_takeWhile_imp hx
  constructor
  · rw [List.takeWhile_append_of_pos hrun, takeWhile_of_startsNoNumber hzs, List.append_nil]
  · rw [List.dropWhile_append_of_pos hrun, ← h]
    cases zs with
    | nil => rfl
    | cons z zs => simp [hzs z rfl]

/-- A text that agrees with another one up to the digits and points behind `xs`, and in the next
character, has the same ahead there. -/
theorem exists_sameAhead {text text' : List Char} (h : text = xs ++ ys)
    (htake : text'.take (xs.length + (ys.takeWhile isNumberChar).length) =
      text.take (xs.length + (ys.takeWhile isNumberChar).length))
    (hnext : text'[xs.length + (ys.takeWhile isNumberChar).length]? =
      text[xs.length + (ys.takeWhile isNumberChar).length]?) :
    ∃ zs, text' = xs ++ zs ∧ SameAhead ys zs := by
  have hsplit : text = xs ++ ys.takeWhile isNumberChar ++ ys.dropWhile isNumberChar := by
    rw [List.append_assoc, List.takeWhile_append_dropWhile, h]
  rw [← List.length_append] at htake hnext
  generalize hseen : xs ++ ys.takeWhile isNumberChar = seen at htake hnext hsplit
  refine ⟨ys.takeWhile isNumberChar ++ text'.drop seen.length, ?_, sameAhead_of_head? ?_⟩
  · calc text' = text'.take seen.length ++ text'.drop seen.length :=
          (List.take_append_drop _ _).symm
      _ = seen ++ text'.drop seen.length := by rw [htake, hsplit, List.take_left]
      _ = xs ++ (ys.takeWhile isNumberChar ++ text'.drop seen.length) := by
          rw [← hseen, List.append_assoc]
  · rw [List.head?_drop, hnext, ← List.head?_drop, hsplit, List.drop_left]

/-- Where the text of a cursor agrees with that of another one at the same position, the same is
ahead of both. -/
theorem Cursor.Alongside.rest_eq {c c' : Cursor} (h : c.Alongside c') (hrest : c.rest = xs ++ ys)
    (htake : c'.text.take (c.position + xs.length) = c.text.take (c.position + xs.length)) :
    c'.rest = xs ++ c'.text.drop (c.position + xs.length) := by
  rw [c'.rest_eq_drop, h.position]
  rw [c.rest_eq_drop] at hrest
  exact drop_of_take_eq (Nat.sub_le _ _) hrest htake

namespace Calculator

variable {k : Calculator} {v : Decimal} {c c' d : Cursor}

/-! ### Values -/

/-- **A value is kept** in a text that agrees up to its end and does not continue it. -/
theorem read_value_kept {r : Rule} {u : Decimal} (halong : c.Alongside c')
    (h : k.read r u c = .value v d)
    (htext : c'.text.take d.position = c.text.take d.position)
    (hnext : NothingFollows (c'.text.drop d.position)) :
    ∃ d', k.read r u c' = .value v d' ∧ d.Alongside d' := by
  obtain ⟨xs, hspans, hkept⟩ := k.online_read r u c
  rw [h] at hspans hkept
  have hposition : d.position = c.position + xs.length := hspans.position
  obtain ⟨hrest, hd⟩ : c.Spans xs d := hspans
  rw [hposition] at htext hnext
  have hrest' := halong.rest_eq hrest htext
  refine ⟨c'.advance xs.length, hkept halong hrest' (.inr ⟨⟨v, d, rfl⟩, hnext⟩), ?_⟩
  rw [hd]
  exact halong.advance hrest hrest'

/-! ### Errors -/

theorem alongside_start (b b' : List Char) (limit : Option ℤ) :
    (Cursor.start b limit).Alongside (.start b' limit) :=
  ⟨by rw [Cursor.position_start, Cursor.position_start], rfl, rfl⟩

/-- What is read of a text as an expression. -/
def reading (k : Calculator) (text : List Char) : Outcome :=
  k.expression (.start text (some nestingLimit))

/-- The position where it stops. -/
def stopPosition (k : Calculator) (text : List Char) : ℕ := (k.reading text).stop.position

/-- The position behind the digits and points that are ahead where it stops. -/
def seenPosition (k : Calculator) (text : List Char) : ℕ :=
  k.stopPosition text + ((text.drop (k.stopPosition text)).takeWhile isNumberChar).length

variable {b b' : List Char}

/-- **What is read is kept** in a text that agrees up to there and in the next character. -/
theorem reading_kept (htake : b'.take (k.seenPosition b) = b.take (k.seenPosition b))
    (hnext : b'[k.seenPosition b]? = b[k.seenPosition b]?) :
    ∃ d, k.reading b' = (k.reading b).stoppedAt d ∧ (k.reading b).stop.Alongside d ∧
      SameAhead (k.reading b).stop.rest d.rest := by
  obtain ⟨xs, h⟩ : ∃ xs, Online k.expression (.start b (some nestingLimit)) xs :=
    k.online_read .expression default _
  have halong := alongside_start b b' (some nestingLimit)
  have hspans : (Cursor.start b (some nestingLimit)).Spans xs (k.reading b).stop := h.spans
  have hstop : k.stopPosition b = xs.length := by
    rw [stopPosition, hspans.position, Cursor.position_start, Nat.zero_add]
  have hb : b = xs ++ (k.reading b).stop.rest := hspans.rest
  have hdrop : b.drop xs.length = (k.reading b).stop.rest :=
    (congrArg (List.drop xs.length) hb).trans List.drop_left
  rw [seenPosition, hstop, hdrop] at htake hnext
  obtain ⟨zs, hb', hahead⟩ := exists_sameAhead hb htake hnext
  refine ⟨_, h.kept halong hb' (.inl hahead), ?_, ?_⟩
  · rw [hspans.stop]
    exact halong.advance hspans.rest hb'
  · rw [Cursor.rest_advance, show (Cursor.start b' (some nestingLimit)).rest = _ from hb',
      List.drop_left]
    exact hahead

theorem ofFault_kept {f : Fault} {e : EvaluationError} (b' : List Char)
    (h : Failure.ofFault b f = .error e) : Failure.ofFault b' f = .error ⟨b', e.problem⟩ := by
  cases f with
  | problem p =>
    cases h
    rfl
  | signal s =>
    cases s with
    | overflow =>
      cases h
      rfl
    | _ => cases h

theorem evaluateNormal_kept {e : EvaluationError} (h : k.evaluateNormal b = .error (.error e))
    (htake : b'.take (k.seenPosition b) = b.take (k.seenPosition b))
    (hnext : b'[k.seenPosition b]? = b[k.seenPosition b]?) :
    k.evaluateNormal b' = .error (.error ⟨b', e.problem⟩) := by
  obtain ⟨d', hread', halong, hahead⟩ := reading_kept htake hnext
  rw [evaluateNormal, ← reading] at h ⊢
  rw [hread']
  cases hread : k.reading b with
  | fault f d =>
    rw [hread] at h
    exact congrArg Except.error (ofFault_kept b' (Except.error.inj h))
  | value v d =>
    rw [hread] at h halong hahead
    have hend : d'.atEnd = d.atEnd := hahead.isEmpty_eq
    dsimp only [Outcome.stoppedAt] at h ⊢
    rw [hend]
    cases hatEnd : d.atEnd with
    | true =>
      rw [hatEnd] at h
      cases h
    | false =>
      rw [hatEnd] at h
      cases h
      rw [show d'.position = d.position from halong.position]
      rfl

/-- **An error is kept** in a text that agrees up to what has been seen and in the next character. -/
theorem evaluate_error_kept {e : EvaluationError} (hb : ∀ x ∈ b, IsNormal x)
    (hb' : ∀ x ∈ b', IsNormal x) (h : k.evaluate b = .error (.error e))
    (htake : b'.take (k.seenPosition b) = b.take (k.seenPosition b))
    (hnext : b'[k.seenPosition b]? = b[k.seenPosition b]?) :
    k.evaluate b' = .error (.error ⟨b', e.problem⟩) := by
  cases b with
  | nil => cases h
  | cons x rest =>
    have hne : b' ≠ [] := by
      rintro rfl
      rw [List.take_nil] at htake
      have hzero : k.seenPosition (x :: rest) = 0 := by simpa using htake.symm
      rw [hzero] at hnext
      cases hnext
    rw [evaluate_of_ne_nil (by rw [normalize_of_normal hb]; exact List.cons_ne_nil _ _),
      normalize_of_normal hb] at h
    rw [evaluate_of_ne_nil (by rwa [normalize_of_normal hb']), normalize_of_normal hb']
    exact evaluateNormal_kept h htake hnext

/-- **Evaluation is on-line.** Of the text in normal form that has an error, only the digits and
points where its reading stops have been seen, and one character more: the same error is in every text
that agrees up to there. Of the text that has a value, nothing behind it has been seen but one
character: a rule reads the same value in every text that agrees up to its end and does not continue
it. -/
theorem evaluate_online (k : Calculator) :
    (∀ (b b' : List Char) (e : EvaluationError), (∀ x ∈ b, IsNormal x) → (∀ x ∈ b', IsNormal x) →
      k.evaluate b = .error (.error e) →
      b'.take (k.seenPosition b) = b.take (k.seenPosition b) →
      b'[k.seenPosition b]? = b[k.seenPosition b]? →
      ∃ e', k.evaluate b' = .error (.error e') ∧ e'.problem = e.problem ∧ e'.kind = e.kind ∧
        e'.position? = e.position?) ∧
    (∀ (r : Rule) (u v : Decimal) (c c' d : Cursor), c.Alongside c' →
      k.read r u c = .value v d → c'.text.take d.position = c.text.take d.position →
      (∀ x, c'.text[d.position]? = some x → x ∉ operators ∧ isNumberChar x = false) →
      ∃ d', k.read r u c' = .value v d' ∧ d'.position = d.position ∧ d'.depth = d.depth) := by
  refine ⟨fun b b' e hb hb' h htake hnext => ?_, fun r u v c c' d halong h htext hnext => ?_⟩
  · exact ⟨_, evaluate_error_kept hb hb' h htake hnext, rfl, rfl, rfl⟩
  · have hnothing : NothingFollows (c'.text.drop d.position) := fun x hx => by
      rw [List.head?_drop] at hx
      exact hnext x hx
    obtain ⟨d', hread, hd⟩ := read_value_kept halong h htext hnothing
    exact ⟨d', hread, hd.position, hd.depth⟩

/-- `1/0+2` has the error of `1/0+(`, and `1+2)` begins with the value of `1+2`. -/
theorem evaluate_online_division :
    (∃ e, Calculator.standard.evaluate "1/0+(".toList = .error (.error e) ∧
      e.kind = .divideByZero ∧ e.position? = some 1) ∧
    ∃ d, Calculator.standard.expression (.start "1+2)".toList none) = .value (.ofNat 3) d ∧
      d.position = 3 ∧ d.depth = 0 := by
  obtain ⟨herror, hvalue⟩ := evaluate_online .standard
  constructor
  · have hstop : Calculator.standard.stopPosition "1/0+2".toList = 3 := by cbv
    have hseen : Calculator.standard.seenPosition "1/0+2".toList = 3 := by
      rw [seenPosition, hstop]
      decide +kernel
    have hfirst : Calculator.standard.evaluate "1/0+2".toList =
        .error (.error ⟨"1/0+2".toList, .divisionByZero 1⟩) := by cbv
    have hnormal : "1/0+2".toList.all (decide <| IsNormal ·) = true := by decide +kernel
    have hnormal' : "1/0+(".toList.all (decide <| IsNormal ·) = true := by decide +kernel
    obtain ⟨e, he, -, hkind, hposition⟩ := herror "1/0+2".toList "1/0+(".toList _
      (fun x hx => of_decide_eq_true (List.all_eq_true.mp hnormal x hx))
      (fun x hx => of_decide_eq_true (List.all_eq_true.mp hnormal' x hx)) hfirst
      (by rw [hseen]; decide) (by rw [hseen]; decide)
    exact ⟨e, he, hkind, hposition⟩
  · have hfirst : Calculator.standard.read .expression default (.start "1+2".toList none) =
        .value (.ofNat 3) ((Cursor.start "1+2".toList none).advance 3) := by cbv
    refine hvalue .expression default _ _ (.start "1+2)".toList none) _
      (alongside_start "1+2".toList "1+2)".toList none) hfirst (by decide) fun x hx => ?_
    obtain rfl : closeParen = x := Option.some.inj hx
    exact ⟨by decide, by decide +kernel⟩

end Calculator

end InfixCalculator
