import InfixCalculator.Proofs.Expression.Equality
import InfixCalculator.Proofs.Expression.Printed

/-! # Groups in place of groups

Two texts that are the same up to some groups: where one has an expression in parentheses, the other
has the number of its value. They are read in step, a pair of such groups at a time.

* `Filled`: texts that are the same up to these groups.
* `Link.filled`: the link between their readings; the reading of the expressions is excused if it
  meets the limit of nesting.
* `simulates_filled`: the link goes from step to step.
* `AgreeNumerically`, `evaluateNormal_linked`: evaluations of linked texts agree.
* `evaluateNormal_filled`: so do those of the two texts. -/

namespace InfixCalculator

open Decimal Calculator

/-! ### Texts -/

/-- The texts are the same up to groups that hold `E` in the first text and `P` in the second. -/
inductive Filled (E P : List Char) : List Char → List Char → Prop
  | nil : Filled E P [] []
  | cons (x : Char) {xs ys : List Char} (h : Filled E P xs ys) : Filled E P (x :: xs) (x :: ys)
  | group {xs ys : List Char} (h : Filled E P xs ys) :
    Filled E P (openParen :: (E ++ closeParen :: xs)) (openParen :: (P ++ closeParen :: ys))

namespace Filled

variable {E P xs ys : List Char}

theorem append (h : Filled E P xs ys) (zs : List Char) : Filled E P (zs ++ xs) (zs ++ ys) := by
  induction zs with
  | nil => exact h
  | cons z zs ih => exact .cons z ih

theorem head? (h : Filled E P xs ys) : xs.head? = ys.head? := by
  cases h <;> rfl

theorem isEmpty (h : Filled E P xs ys) : xs.isEmpty = ys.isEmpty := by
  cases h <;> rfl

/-- No run of digits and points reaches into a group. -/
theorem literal (h : Filled E P xs ys) :
    ys.takeWhile isNumberChar = xs.takeWhile isNumberChar ∧
      Filled E P (xs.dropWhile isNumberChar) (ys.dropWhile isNumberChar) := by
  have hopen : isNumberChar openParen = false := by decide
  induction h with
  | nil => exact ⟨rfl, .nil⟩
  | cons x h ih =>
    by_cases hx : isNumberChar x = true
    · rw [List.takeWhile_cons_of_pos hx, List.takeWhile_cons_of_pos hx,
        List.dropWhile_cons_of_pos hx, List.dropWhile_cons_of_pos hx, ih.1]
      exact ⟨rfl, ih.2⟩
    · rw [List.takeWhile_cons_of_neg hx, List.takeWhile_cons_of_neg hx,
        List.dropWhile_cons_of_neg hx, List.dropWhile_cons_of_neg hx]
      exact ⟨rfl, .cons x h⟩
  | group h _ =>
    simp only [List.takeWhile_cons, List.dropWhile_cons, hopen, Bool.false_eq_true, if_false]
    exact ⟨trivial, .group h⟩

end Filled

/-! ### Cursors -/

/-- Two cursors with such texts ahead, at the same depth and with the same limit. -/
structure Cursor.FilledAhead (E P : List Char) (c c' : Cursor) : Prop where
  rest : Filled E P c.rest c'.rest
  depth : c'.depth = c.depth
  limit : c'.limit = c.limit
  room : ∃ room, c.Room room

variable {E P : List Char} {c c' : Cursor} {k : Calculator}

namespace Cursor.FilledAhead

theorem room_right (h : c.FilledAhead E P c') {room : ℕ} (hroom : c.Room room) : c'.Room room := by
  rw [Room, h.limit, h.depth]
  exact hroom

theorem enter (h : c.FilledAhead E P c') {d : Cursor} (hd : c.enter? = .ok d) :
    c'.enter? = .ok c'.enter ∧ d.FilledAhead E P c'.enter := by
  obtain ⟨room, hroom⟩ := h.room
  obtain ⟨n, rfl, rfl, hn⟩ := hroom.of_enter? hd
  refine ⟨(h.room_right hroom).enter.1, h.rest, ?_, h.limit, n, hn⟩
  rw [depth_enter, depth_enter, h.depth]

theorem leave (h : c.FilledAhead E P c') : c.leave.FilledAhead E P c'.leave := by
  obtain ⟨room, hroom⟩ := h.room
  refine ⟨h.rest, congrArg (· - 1) h.depth, h.limit, c.depth - (c.depth - 1) + room, ?_⟩
  have hdepth : c.depth + room = c.depth - 1 + (c.depth - (c.depth - 1) + room) := by omega
  show c.limit = some ((c.depth - 1 + (c.depth - (c.depth - 1) + room) : ℕ) : ℤ)
  rw [← hdepth]
  exact hroom

theorem advance (h : c.FilledAhead E P c') {m n : ℕ}
    (hrest : Filled E P (c.rest.drop m) (c'.rest.drop n)) :
    (c.advance m).FilledAhead E P (c'.advance n) :=
  ⟨hrest, h.depth, h.limit, h.room⟩

end Cursor.FilledAhead

/-- The link between the readings of two such texts. -/
def Link.filled (E P : List Char) : Link :=
  Link.numeric (Cursor.FilledAhead E P) fun f => f.kind = .nestingTooDeep

/-- What is ahead on both sides: nothing, the same character, or two groups. -/
theorem filledAhead_cases (h : c.FilledAhead E P c') :
    (∀ chars, (Link.filled E P).Accepts chars c c') ∨ ∃ xs ys, Filled E P xs ys ∧
      c.rest = openParen :: (E ++ closeParen :: xs) ∧
      c'.rest = openParen :: (P ++ closeParen :: ys) := by
  have hrest := h.rest
  cases hc : c.rest with
  | nil =>
    have hhead : c'.rest.head? = none := by rw [← h.rest.head?, hc, List.head?_nil]
    refine .inl fun chars => Link.accepts_none (fun x hx => ?_) fun x hx => ?_
    · rw [hc] at hx
      cases hx
    · rw [hhead] at hx
      cases hx
  | cons x xs =>
    cases hc' : c'.rest with
    | nil => rw [hc, hc'] at hrest; cases hrest
    | cons y ys =>
      rw [hc, hc'] at hrest
      cases hrest with
      | cons _ hf =>
        refine .inl (Link.accepts_cons hc hc' (h.advance ?_))
        rwa [hc, hc', List.drop_succ_cons, List.drop_succ_cons, List.drop_zero, List.drop_zero]
      | group hf => exact .inr ⟨_, _, hf, rfl, rfl⟩

theorem accepts_filled (h : c.FilledAhead E P c') {chars : List Char} (hopen : openParen ∉ chars) :
    (Link.filled E P).Accepts chars c c' := by
  rcases filledAhead_cases h with haccepts | ⟨xs, ys, -, hc, hc'⟩
  · exact haccepts chars
  · exact .inl ⟨Cursor.accept?_cons_none hc hopen, Cursor.accept?_cons_none hc' hopen⟩

/-! ### Numbers -/

theorem number_filled (h : c.FilledAhead E P c') : c.number.Linked (Link.filled E P) c'.number := by
  obtain ⟨htake, hdrop⟩ := h.rest.literal
  refine Link.number_numeric htake h.rest.head?.symm (h.advance ?_)
  rw [← Cursor.rest_advance, ← Cursor.rest_advance, Cursor.rest_behind_literal,
    show c.literal = c'.literal from htake.symm, Cursor.rest_behind_literal]
  exact hdrop

/-! ### Groups -/

/-- Where such groups are ahead, they are read as a whole. -/
theorem operand_filled {t : Tree .expression} (ht : t.text = E) {w d : Decimal}
    (hw : t.value k (.ofNat 0) = .ok w) (hd : w.toRat = d.toRat) {xs ys : List Char}
    (h : c.FilledAhead E d.plain c') (hc : c.rest = openParen :: (E ++ closeParen :: xs))
    (hc' : c'.rest = openParen :: (d.plain ++ closeParen :: ys)) (hf : Filled E d.plain xs ys) :
    (k.operand c).Linked (Link.filled E d.plain) (k.operand c') := by
  obtain ⟨room, hroom⟩ := h.room
  have htext : c.rest = (Tree.group t).text ++ xs := by simp [hc, Tree.text, ht]
  have htext' : c'.rest = (Tree.group d.tree).text ++ ys := by simp [hc', Tree.text, text_tree]
  have hspan := Cursor.spans_advance htext
  have hspan' := Cursor.spans_advance htext'
  have hleft := group_yields (k := k) (v := .ofNat 0)
    (fun h1 h2 h3 => read_yields t h1 h2 h3) hspan hroom
  have hright := group_yields (k := k) (v := .ofNat 0)
    (fun h1 h2 h3 => read_yields d.tree h1 h2 h3) hspan' (h.room_right hroom)
  rw [Tree.valueWithin] at hleft hright
  cases room with
  | zero =>
    obtain ⟨f, e, he, hkind⟩ := hleft.of_error _ rfl
    rw [he]
    exact .excused hkind _ _
  | succ n =>
    rw [Tree.deeper] at hleft hright
    rcases Nat.lt_or_ge n t.depth with hdeep | hdepth
    · obtain ⟨kind, hkind, hor⟩ := Tree.valueWithin_of_lt_depth (k := k) t (.ofNat 0) hdeep
      obtain ⟨f, e, he, hf⟩ := hleft.of_error kind hkind
      rw [he]
      refine .excused (hf.trans (hor.resolve_right fun herr => ?_)) _ _
      rw [hw] at herr
      cases herr
    · obtain ⟨u, hu, hurat, -⟩ := value_tree k (.ofNat 0) d
      rw [Tree.valueWithin_of_depth_le t _ hdepth] at hleft
      rw [Tree.valueWithin_of_depth_le d.tree _ (by rw [depth_tree]; exact Nat.zero_le n)] at hright
      rw [hleft.of_ok w hw, hright.of_ok u hu]
      refine .value (hd.trans hurat.symm) (h.advance ?_)
      rw [← Cursor.rest_advance, ← Cursor.rest_advance, hspan.rest_eq htext,
        hspan'.rest_eq htext']
      exact hf

/-! ### Whole texts -/

/-- **The texts are read in step.** -/
theorem simulates_filled {t : Tree .expression} (ht : t.text = E) {w d : Decimal}
    (hw : t.value k (.ofNat 0) = .ok w) (hd : w.toRat = d.toRat)
    (hf : k.functions.RespectAlike) : (Link.filled E d.plain).Simulates k where
  addOrSub op _ _ _ _ hv hw := Link.addOrSub_numeric op hv hw
  mulOrDiv op c c' _ _ _ _ _ hv hw := Link.mulOrDiv_numeric op c c' hv hw
  power _ _ _ _ hv hw := Link.power_numeric hf hv hw
  squareRoot _ _ hv := Link.squareRoot_numeric hf hv
  signed sign _ _ hv := Link.signed_numeric sign hv
  accepts chars hchars c c' h := accepts_filled h (by revert chars; decide)
  enters c c' h := by
    cases he : c.enter? with
    | ok e =>
      obtain ⟨h1, h2⟩ := h.enter he
      exact .inl ⟨e, _, he, h1, h2⟩
    | error p =>
      obtain ⟨limit, -, -, rfl⟩ := Cursor.enter?_eq_error_iff.mp he
      exact .inr ⟨_, he, .inl rfl⟩
  leave _ _ h := h.leave
  unclosed _ _ _ := rfl
  operand c c' h := by
    rcases filledAhead_cases h with haccepts | ⟨xs, ys, hfilled, hc, hc'⟩
    · exact .inr ⟨haccepts _, haccepts _, number_filled h⟩
    · exact .inl (operand_filled ht hw hd h hc hc' hfilled)

/-- Two evaluations that are equal as numbers: their values are, or their errors are of the same
kind. -/
inductive AgreeNumerically : Evaluated → Evaluated → Prop
  | ok {v w : Decimal} (h : v.toRat = w.toRat) : AgreeNumerically (.ok v) (.ok w)
  | error {e e' : EvaluationError} (h : e.kind = e'.kind) : AgreeNumerically (.error e) (.error e')

/-- **Readings that are linked evaluate to the same number** or end with errors of the same kind,
unless the first one ends with a fault that excuses it. -/
theorem evaluateNormal_linked {R : Cursor → Cursor → Prop} {X : Fault → Prop} {xs ys : List Char}
    (hend : ∀ c c', R c c' → c.atEnd = c'.atEnd)
    (h : (k.expression (.start xs (some nestingLimit))).Linked (Link.numeric R X)
      (k.expression (.start ys (some nestingLimit)))) :
    (∃ f e, X f ∧ k.evaluateNormal xs = .error (.error e) ∧ e.kind = f.kind) ∨
      ∃ r r', AgreeNumerically r r' ∧ k.evaluateNormal xs = r.mapError .error ∧
        k.evaluateNormal ys = r'.mapError .error := by
  cases hx : k.expression (.start xs (some nestingLimit)) with
  | value u c =>
    cases hy : k.expression (.start ys (some nestingLimit)) with
    | fault f c' => rw [hx, hy] at h; cases h
    | value u' c' =>
      rw [hx, hy] at h
      cases h with
      | value hu hc =>
        right
        unfold evaluateNormal
        rw [hx, hy]
        dsimp only
        rw [hend c c' hc]
        cases c'.atEnd with
        | true =>
          refine ⟨.ok (unsignedZero u), .ok (unsignedZero u'), .ok ?_, rfl, rfl⟩
          rw [toRat_unsignedZero, toRat_unsignedZero]
          exact hu
        | false =>
          exact ⟨.error ⟨xs, .trailingInput c.position⟩, .error ⟨ys, .trailingInput c'.position⟩,
            .error rfl, rfl, rfl⟩
  | fault f c =>
    obtain ⟨e, he, hkind⟩ := evaluateNormal_of_fault hx
    cases hy : k.expression (.start ys (some nestingLimit)) with
    | value u' c' =>
      rw [hx, hy] at h
      cases h with
      | excused hexcused => exact .inl ⟨f, e, hexcused, he, hkind⟩
    | fault f' c' =>
      rw [hx, hy] at h
      cases h with
      | excused hexcused => exact .inl ⟨f, e, hexcused, he, hkind⟩
      | fault hfaults =>
        obtain ⟨e', he', hkind'⟩ := evaluateNormal_of_fault hy
        exact .inr ⟨.error e, .error e', .error (hkind.trans (hfaults.trans hkind'.symm)), he, he'⟩

/-- **The texts evaluate to the same number** or end with errors of the same kind, unless the first
one is nested too deep. -/
theorem evaluateNormal_filled {t : Tree .expression} (ht : t.text = E) {w d : Decimal}
    (hw : t.value k (.ofNat 0) = .ok w) (hd : w.toRat = d.toRat) (hf : k.functions.RespectAlike)
    {xs ys : List Char} (h : Filled E d.plain xs ys) :
    (∃ e, k.evaluateNormal xs = .error (.error e) ∧ e.kind = .nestingTooDeep) ∨
      ∃ r r', AgreeNumerically r r' ∧ k.evaluateNormal xs = r.mapError .error ∧
        k.evaluateNormal ys = r'.mapError .error := by
  have hstart : (Cursor.start xs (some nestingLimit)).FilledAhead E d.plain
      (.start ys (some nestingLimit)) := ⟨h, rfl, rfl, 100, room_start xs⟩
  have hzero : (Link.filled E d.plain).values (.ofNat 0) (.ofNat 0) := rfl
  have hread := (simulates_filled ht hw hd hf).read .expression hzero hstart
  rcases evaluateNormal_linked (fun c c' hc => hc.rest.isEmpty) hread with
    ⟨f, e, hdeep, he, hkind⟩ | hagree
  · exact .inl ⟨e, he, hkind.trans hdeep⟩
  · exact .inr hagree

end InfixCalculator
