import InfixCalculator.Expression.Literal
import Mathlib.Data.List.TakeWhile

/-! # Moves of a cursor

* `Cursor.position_advance`, `position_le_advance`, `rest_eq_drop`: positions and what is ahead there.
* `Cursor.accept?_eq_some_iff`, `accept?_eq_none_iff`: a move over one character, by what is still
  to be read.
* `Cursor.enter?_eq_ok_iff`, `enter?_eq_error_iff`: one more level of nesting.
* `Cursor.Room`: how many more levels a cursor may open.
* `Cursor.Spans`: the characters between two cursors. -/

namespace InfixCalculator

attribute [ext] Cursor

namespace Cursor

variable {c d : Cursor}

/-! ### Fields -/

@[simp] theorem text_advance (n : Nat) (c : Cursor) : (c.advance n).text = c.text := rfl

@[simp] theorem rest_advance (n : Nat) (c : Cursor) : (c.advance n).rest = c.rest.drop n := rfl

@[simp] theorem depth_advance (n : Nat) (c : Cursor) : (c.advance n).depth = c.depth := rfl

@[simp] theorem limit_advance (n : Nat) (c : Cursor) : (c.advance n).limit = c.limit := rfl

@[simp] theorem depth_enter (c : Cursor) : c.enter.depth = c.depth + 1 := rfl

@[simp] theorem limit_enter (c : Cursor) : c.enter.limit = c.limit := rfl

@[simp] theorem advance_advance (m n : Nat) (c : Cursor) :
    (c.advance m).advance n = c.advance (m + n) := by
  ext1 <;> simp

/-! ### Positions -/

@[simp] theorem position_start (text : List Char) (limit : Option ℤ) :
    (start text limit).position = 0 := Nat.sub_self _

theorem position_advance {n : ℕ} (h : n ≤ c.left) : (c.advance n).position = c.position + n := by
  have h1 := c.position_add_left
  have h2 := (c.advance n).position_add_left
  rw [left_advance, text_advance] at h2
  omega

/-- A cursor moves forward only. -/
theorem position_le_advance (n : ℕ) (c : Cursor) : c.position ≤ (c.advance n).position := by
  have h1 := c.position_add_left
  have h2 := (c.advance n).position_add_left
  rw [left_advance, text_advance] at h2
  omega

/-- What is ahead of a cursor is the text from its position on. -/
theorem rest_eq_drop (c : Cursor) : c.rest = c.text.drop c.position :=
  List.suffix_iff_eq_drop.mp c.rest_suffix

/-! ### Characters ahead -/

theorem accept?_eq_some_iff {chars : List Char} {x : Char} :
    c.accept? chars = some (x, d) ↔ x ∈ chars ∧ c.rest.head? = some x ∧ d = c.advance 1 := by
  unfold accept? peek
  cases c.rest.head? with
  | none => simp
  | some y =>
    by_cases hy : y ∈ chars
    · simp only [List.contains_iff_mem, hy, if_true, Option.some.injEq, Prod.mk.injEq]
      constructor
      · rintro ⟨rfl, rfl⟩
        exact ⟨hy, rfl, rfl⟩
      · rintro ⟨-, h, rfl⟩
        exact ⟨h, rfl⟩
    · simp only [List.contains_iff_mem, hy, if_false, reduceCtorEq, Option.some.injEq, false_iff]
      rintro ⟨hx, rfl, -⟩
      exact hy hx

theorem accept?_eq_none_iff {chars : List Char} :
    c.accept? chars = none ↔ ∀ x, c.rest.head? = some x → x ∉ chars := by
  unfold accept? peek
  cases c.rest.head? with
  | none => simp
  | some y => by_cases hy : y ∈ chars <;> simp [hy]

/-- The next character is accepted if it is among those that may be. -/
theorem accept?_cons {chars xs : List Char} {x : Char} (h : c.rest = x :: xs) (hx : x ∈ chars) :
    c.accept? chars = some (x, c.advance 1) :=
  accept?_eq_some_iff.mpr ⟨hx, by rw [h, List.head?_cons], rfl⟩

theorem accept?_cons_none {chars xs : List Char} {x : Char} (h : c.rest = x :: xs)
    (hx : x ∉ chars) : c.accept? chars = none := by
  refine accept?_eq_none_iff.mpr fun y hy => ?_
  rw [h, List.head?_cons, Option.some.injEq] at hy
  exact hy ▸ hx

/-- An accepted character is the first of what was to be read. -/
theorem rest_of_accept? {chars : List Char} {x : Char} (h : c.accept? chars = some (x, d)) :
    c.rest = x :: d.rest ∧ d = c.advance 1 ∧ x ∈ chars := by
  obtain ⟨hx, hhead, rfl⟩ := accept?_eq_some_iff.mp h
  obtain ⟨xs, hxs⟩ := List.head?_eq_some_iff.mp hhead
  exact ⟨by rw [rest_advance, hxs, List.drop_succ_cons, List.drop_zero], rfl, hx⟩

theorem text_of_accept? {chars : List Char} {x : Char} (h : c.accept? chars = some (x, d)) :
    d.text = c.text := by
  rw [(rest_of_accept? h).2.1, text_advance]

theorem limit_of_accept? {chars : List Char} {x : Char} (h : c.accept? chars = some (x, d)) :
    d.limit = c.limit := by
  rw [(rest_of_accept? h).2.1, limit_advance]

/-! ### Literals -/

/-- What is left behind a literal. -/
theorem rest_behind_literal (c : Cursor) :
    (c.advance c.literal.length).rest = c.rest.dropWhile isNumberChar := by
  calc (c.advance c.literal.length).rest
      = (c.literal ++ c.rest.dropWhile isNumberChar).drop c.literal.length := by
        rw [rest_advance, literal, List.takeWhile_append_dropWhile]
    _ = c.rest.dropWhile isNumberChar := List.drop_left

theorem literal_append_rest (c : Cursor) :
    c.literal ++ (c.advance c.literal.length).rest = c.rest := by
  rw [rest_behind_literal, literal, List.takeWhile_append_dropWhile]

theorem isNumberChar_of_mem_literal {x : Char} (h : x ∈ c.literal) : isNumberChar x = true :=
  List.mem_takeWhile_imp h

/-- A literal goes as far as digits and points do. -/
theorem isNumberChar_behind_literal {x : Char}
    (h : (c.advance c.literal.length).rest.head? = some x) : isNumberChar x = false := by
  have hnot := List.head?_dropWhile_not isNumberChar c.rest
  rw [← rest_behind_literal, h] at hnot
  simpa using hnot

theorem literal_eq_nil_iff :
    c.literal = [] ↔ ∀ x, c.rest.head? = some x → isNumberChar x = false := by
  rw [literal]
  cases c.rest with
  | nil => simp
  | cons y ys => simp [List.takeWhile_cons]

/-- A run that is not just a point has a digit, if it has at most one point. -/
theorem exists_ne_point (hnil : c.literal ≠ []) (hpoints : c.literal.count point ≤ 1)
    (hpoint : c.literal ≠ [point]) : ∃ x ∈ c.literal, x ≠ point := by
  by_contra hall
  simp only [not_exists, not_and, not_not] at hall
  have hrep := List.eq_replicate_of_mem hall
  rw [hrep, List.count_replicate_self] at hpoints
  have hlength : c.literal.length = 1 := by
    have hpos := List.length_pos_iff.mpr hnil
    omega
  rw [hlength] at hrep
  exact hpoint hrep

theorem number_of_literal_eq_nil (h : c.literal = []) : c.number = .problem c.noLiteral c := if_pos h

/-! ### Levels -/

theorem enter?_eq_ok_iff :
    c.enter? = .ok d ↔ (∀ limit, c.limit = some limit → c.depth < limit) ∧ d = c.enter := by
  unfold enter?
  cases c.limit with
  | none => simp [eq_comm]
  | some limit =>
    by_cases h : limit ≤ c.depth
    · simp only [h, if_true, reduceCtorEq, Option.some.injEq, forall_eq', false_iff]
      omega
    · simp only [h, if_false, Except.ok.injEq, Option.some.injEq, forall_eq']
      exact ⟨fun hd => ⟨by omega, hd.symm⟩, fun hd => hd.2.symm⟩

theorem enter?_eq_error_iff {p : Problem} :
    c.enter? = .error p ↔
      ∃ limit, c.limit = some limit ∧ limit ≤ c.depth ∧ p = .nestingTooDeep c.position limit := by
  unfold enter?
  cases c.limit with
  | none => simp
  | some limit =>
    by_cases h : limit ≤ c.depth
    · simp [h, eq_comm]
    · simp [h]

theorem text_of_enter? (h : c.enter? = .ok d) : d.text = c.text := by
  rw [(enter?_eq_ok_iff.mp h).2]
  rfl

/-- Exactly `room` more levels may be opened. -/
def Room (c : Cursor) (room : Nat) : Prop := c.limit = some ((c.depth + room : Nat) : Int)

theorem Room.enter {room : Nat} (h : c.Room (room + 1)) :
    c.enter? = .ok c.enter ∧ c.enter.Room room := by
  constructor
  · refine enter?_eq_ok_iff.mpr ⟨fun limit hl => ?_, rfl⟩
    rw [h, Option.some.injEq] at hl
    omega
  · rw [Room, limit_enter, h, depth_enter, Nat.add_right_comm, Nat.add_assoc]

theorem Room.refuse (h : c.Room 0) :
    c.enter? = .error (.nestingTooDeep c.position c.depth) :=
  enter?_eq_error_iff.mpr ⟨_, h, Int.le_refl _, rfl⟩

theorem Room.of_enter? {room : Nat} (h : c.Room room) (hd : c.enter? = .ok d) :
    ∃ n, room = n + 1 ∧ d = c.enter ∧ d.Room n := by
  cases room with
  | zero =>
    rw [h.refuse] at hd
    cases hd
  | succ n =>
    obtain ⟨he, hr⟩ := h.enter
    rw [he] at hd
    cases hd
    exact ⟨n, rfl, rfl, hr⟩

/-! ### Spans -/

/-- The characters `xs` are ahead of `c`, and `d` stands behind them. -/
structure Spans (c : Cursor) (xs : List Char) (d : Cursor) : Prop where
  rest : c.rest = xs ++ d.rest
  stop : d = c.advance xs.length

variable {e : Cursor} {xs ys : List Char} {x : Char}

theorem spans_nil (c : Cursor) : c.Spans [] c := ⟨rfl, rfl⟩

theorem spans_advance (h : c.rest = xs ++ ys) : c.Spans xs (c.advance xs.length) :=
  ⟨by rw [rest_advance, h, List.drop_left], rfl⟩

theorem Spans.position (h : c.Spans xs d) : d.position = c.position + xs.length := by
  have hleft : xs.length ≤ c.left := by rw [left, h.rest, List.length_append]; omega
  rw [h.stop, position_advance hleft]

theorem Spans.rest_eq (h : c.Spans xs d) (hc : c.rest = xs ++ ys) : d.rest = ys :=
  List.append_cancel_left (h.rest.symm.trans hc)

theorem spans_of_accept? {chars : List Char} (h : c.accept? chars = some (x, d)) :
    c.Spans [x] d :=
  ⟨(rest_of_accept? h).1, (rest_of_accept? h).2.1⟩

theorem Spans.trans (h : c.Spans xs d) (h' : d.Spans ys e) : c.Spans (xs ++ ys) e := by
  refine ⟨by rw [h.rest, h'.rest, List.append_assoc], ?_⟩
  rw [h'.stop, h.stop, advance_advance, List.length_append]

theorem Spans.split (h : c.Spans (xs ++ ys) d) : ∃ e, c.Spans xs e ∧ e.Spans ys d := by
  have hrest := h.rest
  rw [List.append_assoc] at hrest
  refine ⟨_, spans_advance hrest, ?_, ?_⟩
  · rw [rest_advance, hrest, List.drop_left]
  · rw [advance_advance, ← List.length_append, ← h.stop]

/-- The first of the characters can be accepted, and nothing else. -/
theorem Spans.uncons (h : c.Spans (x :: xs) d) : ∃ e, e.Spans xs d ∧
    (∀ chars, x ∈ chars → c.accept? chars = some (x, e)) ∧
      ∀ chars, x ∉ chars → c.accept? chars = none := by
  rw [← List.singleton_append] at h
  obtain ⟨e, hx, he⟩ := h.split
  rw [hx.stop] at he
  exact ⟨_, he, fun _ hmem => accept?_cons h.rest hmem, fun _ hmem => accept?_cons_none h.rest hmem⟩

/-- Levels are closed again where they were opened. -/
theorem Spans.enter (h : c.Spans xs d) : c.enter.Spans xs d.enter := by
  refine ⟨h.rest, ?_⟩
  rw [h.stop]
  rfl

theorem Spans.leave (h : c.enter.Spans xs d) : c.Spans xs d.leave := by
  refine ⟨h.rest, ?_⟩
  rw [h.stop]
  rfl

theorem Spans.room {room : Nat} (h : c.Spans xs d) (hc : c.Room room) : d.Room room := by
  rw [h.stop]
  exact hc

end Cursor

end InfixCalculator
