import InfixCalculator.Proofs.Expression.Boundary

/-! # On-line readings

A reading is on-line: it looks at no more of the text than what it reads, the digits and points
behind it, and one character more.

* `SameAhead`, `NothingFollows`: what may change behind a reading; `Outcome.KeptBefore`: such a change
  keeps the outcome.
* `Online`: what a reading comes to depends on no more of the text; `Online.andThen`,
  `Online.within`, `Online.accepted`: this passes from the parts of a reading to the whole.
* `Calculator.online_read`: all readings are on-line. -/

namespace InfixCalculator

/-! ### What is ahead -/

/-- The texts start with the same digits and points, and go on with the same character, if any. -/
structure SameAhead (xs ys : List Char) : Prop where
  run : ys.takeWhile isNumberChar = xs.takeWhile isNumberChar
  next : (ys.dropWhile isNumberChar).head? = (xs.dropWhile isNumberChar).head?

/-- The text starts with nothing that could continue a value. -/
def NothingFollows (ys : List Char) : Prop :=
  ∀ x, ys.head? = some x → x ∉ operators ∧ isNumberChar x = false

/-- The text is empty or starts with something else than a digit or a point. -/
def StartsNoNumber (xs : List Char) : Prop := ∀ x, xs.head? = some x → isNumberChar x = false

variable {xs ys zs : List Char}

theorem takeWhile_of_startsNoNumber (h : StartsNoNumber xs) : xs.takeWhile isNumberChar = [] := by
  cases xs with
  | nil => rfl
  | cons x rest => simp [h x rfl]

theorem startsNoNumber_dropWhile (xs : List Char) : StartsNoNumber (xs.dropWhile isNumberChar) := by
  intro x hx
  have hnot := List.head?_dropWhile_not isNumberChar xs
  rw [hx] at hnot
  simpa using hnot

theorem NothingFollows.startsNoNumber (h : NothingFollows ys) : StartsNoNumber ys :=
  fun x hx => (h x hx).2

theorem SameAhead.head?_eq (h : SameAhead xs ys) : ys.head? = xs.head? := by
  rw [← List.takeWhile_append_dropWhile (p := isNumberChar) (l := xs),
    ← List.takeWhile_append_dropWhile (p := isNumberChar) (l := ys), h.run, List.head?_append,
    List.head?_append, h.next]

theorem SameAhead.isEmpty_eq (h : SameAhead xs ys) : ys.isEmpty = xs.isEmpty := by
  have hhead := h.head?_eq
  cases xs <;> cases ys <;> simp_all

theorem SameAhead.startsNoNumber (h : SameAhead xs ys) (hxs : StartsNoNumber xs) :
    StartsNoNumber ys := by
  intro x hx
  rw [h.head?_eq] at hx
  exact hxs x hx

/-- Behind the same text that starts no number, anything may follow. -/
theorem sameAhead_append (hne : zs ≠ []) (h : StartsNoNumber zs) :
    SameAhead (zs ++ xs) (zs ++ ys) := by
  obtain ⟨z, zs, rfl⟩ := List.exists_cons_of_ne_nil hne
  have hz : isNumberChar z = false := h z rfl
  constructor
  · simp [hz]
  · simp [hz]

/-! ### Outcomes -/

namespace Outcome

variable {o : Outcome} {c : Cursor}

/-- The outcome with another place where reading stopped. -/
def stoppedAt (o : Outcome) (c : Cursor) : Outcome :=
  match o with
  | value v _ => value v c
  | fault f _ => fault f c

/-- **The outcome is kept** if other characters lie ahead where reading stopped: they start in the
same way, or there is a value that they do not continue. -/
def KeptBefore (o : Outcome) (ys : List Char) : Prop :=
  SameAhead o.stop.rest ys ∨ (∃ v c, o = value v c) ∧ NothingFollows ys

theorem stop_stoppedAt (o : Outcome) (c : Cursor) : (o.stoppedAt c).stop = c := by cases o <;> rfl

theorem stoppedAt_stoppedAt (o : Outcome) (c d : Cursor) :
    (o.stoppedAt c).stoppedAt d = o.stoppedAt d := by cases o <;> rfl

variable {f : Decimal → Decimal}

theorem stop_leave : o.leave.stop = o.stop.leave := by cases o <;> rfl

theorem KeptBefore.of_map (h : (o.map f).KeptBefore ys) : o.KeptBefore ys := by
  cases o with
  | value v c => exact h.imp id fun ⟨_, hys⟩ => ⟨⟨v, c, rfl⟩, hys⟩
  | fault e c => exact h

theorem KeptBefore.of_leave (h : o.leave.KeptBefore ys) : o.KeptBefore ys := by
  cases o with
  | value v c => exact h.imp id fun ⟨_, hys⟩ => ⟨⟨v, c, rfl⟩, hys⟩
  | fault e c => exact h.imp id fun ⟨⟨_, _, hvalue⟩, _⟩ => nomatch hvalue

end Outcome

/-! ### Cursors in two texts -/

namespace Cursor

variable {c c' d e : Cursor} {chars : List Char} {x : Char}

/-- The cursors stand at the same position, inside as many levels and under the same limit. -/
structure Alongside (c c' : Cursor) : Prop where
  position : c'.position = c.position
  depth : c'.depth = c.depth
  limit : c'.limit = c.limit

theorem Alongside.enter (h : c.Alongside c') : c.enter.Alongside c'.enter :=
  ⟨h.position, congrArg (· + 1) h.depth, h.limit⟩

theorem Alongside.advance (h : c.Alongside c') (hc : c.rest = xs ++ ys) (hc' : c'.rest = xs ++ zs) :
    (c.advance xs.length).Alongside (c'.advance xs.length) := by
  have hleft : xs.length ≤ c.left := by rw [left, hc, List.length_append]; omega
  have hleft' : xs.length ≤ c'.left := by rw [left, hc', List.length_append]; omega
  refine ⟨?_, h.depth, h.limit⟩
  rw [position_advance hleft, position_advance hleft', h.position]

/-- The same character is accepted where the same one is ahead. -/
theorem accept?_eq_none_of_head? (h : c'.rest.head? = c.rest.head?) (hc : c.accept? chars = none) :
    c'.accept? chars = none := by
  rw [accept?_eq_none_iff] at hc ⊢
  rwa [h]

theorem Alongside.enter?_ok (h : c.Alongside c') (he : c.enter? = .ok e) :
    c'.enter? = .ok c'.enter := by
  rw [enter?_eq_ok_iff] at he ⊢
  refine ⟨fun limit hlimit => ?_, rfl⟩
  rw [h.depth]
  exact he.1 limit (h.limit ▸ hlimit)

theorem Alongside.enter?_error {p : Problem} (h : c.Alongside c') (hp : c.enter? = .error p) :
    c'.enter? = .error p := by
  rw [enter?_eq_error_iff] at hp ⊢
  obtain ⟨limit, hlimit, hdepth, rfl⟩ := hp
  exact ⟨limit, h.limit.trans hlimit, by rw [h.depth]; exact hdepth, by rw [h.position]⟩

/-- What is read behind the next character if it is among the given ones, or else instead. -/
def either (c : Cursor) (chars : List Char) (refused : Outcome) (accepted : Char → Cursor → Outcome) :
    Outcome :=
  match c.accept? chars with
  | none => refused
  | some (x, d) => accepted x d

end Cursor

/-! ### On-line readings -/

open Cursor

/-- **The reading is on-line** at the cursor: it reads `xs`, and in any text it comes to the same
where `xs` is ahead and what follows keeps the outcome. -/
structure Online (read : Cursor → Outcome) (c : Cursor) (xs : List Char) : Prop where
  spans : c.Spans xs (read c).stop
  kept : ∀ {c' : Cursor} {ys : List Char}, c.Alongside c' → c'.rest = xs ++ ys →
    (read c).KeptBefore ys → read c' = (read c).stoppedAt (c'.advance xs.length)

namespace Online

variable {read : Cursor → Outcome} {c c' d : Cursor} {v : Decimal}

/-- Nothing is read. -/
theorem nil (hstop : (read c).stop = c)
    (h : ∀ {c' : Cursor}, c.Alongside c' → (read c).KeptBefore c'.rest →
      read c' = (read c).stoppedAt c') : Online read c [] := by
  refine ⟨by rw [hstop]; exact spans_nil c, fun {c' ys} halong hrest hkept => ?_⟩
  rw [List.nil_append] at hrest
  subst hrest
  exact h halong hkept

theorem of (result : Except Fault Decimal) (c : Cursor) : Online (.of result) c [] := by
  refine nil (Outcome.stop_of result c) fun _ _ => ?_
  cases result <;> rfl

/-- The value is changed. -/
theorem map (f : Decimal → Decimal) (h : Online read c xs) :
    Online (fun c => (read c).map f) c xs := by
  refine ⟨by rw [Outcome.stop_map]; exact h.spans, fun halong hrest hys => ?_⟩
  rw [h.kept halong hrest hys.of_map]
  cases read c <;> rfl

/-- A fault ends the reading. -/
theorem andThen_fault {f : Fault} (next : Decimal → Cursor → Outcome) (h : Online read c xs)
    (hread : read c = .fault f d) : Online (fun c => (read c).andThen next) c xs := by
  obtain ⟨hspans, hkept⟩ := h
  rw [hread] at hspans hkept
  refine ⟨by rw [hread]; exact hspans, fun halong hrest hys => ?_⟩
  rw [hread] at hys ⊢
  rw [hkept halong hrest hys]
  rfl

/-- **One reading after another.** What the second one reads starts no number, so that the first one
cannot run into it. -/
theorem andThen_value {next : Decimal → Cursor → Outcome} (h : Online read c xs)
    (hread : read c = .value v d) (hnext : Online (next v) d zs) (hzs : StartsNoNumber zs) :
    Online (fun c => (read c).andThen next) c (xs ++ zs) := by
  obtain ⟨hspans, hkept⟩ := h
  rw [hread] at hspans hkept
  have hall : (read c).andThen next = next v d := by rw [hread, Outcome.andThen]
  refine ⟨by rw [hall]; exact hspans.trans hnext.spans, fun {c' ys} halong hrest hys => ?_⟩
  rw [hall] at hys ⊢
  rw [List.append_assoc] at hrest
  -- What the second reading reads is ahead of the first one, in both texts.
  have hfirst : (Outcome.value v d).KeptBefore (zs ++ ys) := by
    by_cases hne : zs = []
    · subst hne
      have hd : (next v d).stop.rest = d.rest := hnext.spans.rest.symm
      rcases hys with hys | ⟨-, hys⟩
      · exact .inl (hd ▸ hys)
      · exact .inr ⟨⟨v, d, rfl⟩, hys⟩
    · refine .inl ?_
      rw [Outcome.stop, hnext.spans.rest]
      exact sameAhead_append hne hzs
  have hd : d.Alongside (c'.advance xs.length) := by
    obtain ⟨hc, rfl⟩ : c.Spans xs d := hspans
    exact halong.advance hc hrest
  have hrest' : (c'.advance xs.length).rest = zs ++ ys := by
    rw [rest_advance, hrest, List.drop_left]
  rw [hkept halong hrest hfirst]
  show next v (c'.advance xs.length) = _
  rw [hnext.kept hd hrest' hys, advance_advance, List.length_append]

theorem andThen {next : Decimal → Cursor → Outcome} (h : ∃ xs, Online read c xs)
    (hnext : ∀ v d, read c = .value v d → ∃ zs, Online (next v) d zs ∧ StartsNoNumber zs) :
    ∃ xs, Online (fun c => (read c).andThen next) c xs := by
  obtain ⟨xs, h⟩ := h
  cases hread : read c with
  | fault f d => exact ⟨xs, h.andThen_fault next hread⟩
  | value v d =>
    obtain ⟨zs, hzs, hstarts⟩ := hnext v d hread
    exact ⟨xs ++ zs, h.andThen_value hread hzs hstarts⟩

/-- An operation on the value of a reading. -/
theorem operation (h : ∃ xs, Online read c xs) (result : Decimal → Except Fault Decimal) :
    ∃ xs, Online (fun c => (read c).andThen fun w e => .of (result w) e) c xs :=
  andThen h fun w d _ => ⟨[], of (result w) d, nofun⟩

/-- An operation on the value of a reading, from which another reading continues. -/
theorem operationThen {rest : Decimal → Cursor → Outcome} (h : ∃ xs, Online read c xs)
    (result : Decimal → Except Fault Decimal)
    (hrest : ∀ w s d, read c = .value w d → ∃ zs, Online (rest s) d zs ∧ StartsNoNumber zs) :
    ∃ xs, Online (fun c => (read c).andThen fun w e => (Outcome.of (result w) e).andThen rest) c
      xs := by
  refine andThen h fun w d hw => ?_
  cases result w with
  | ok s => exact hrest w s d hw
  | error f => exact ⟨[], of (.error f) d, nofun⟩

/-- One level further inside. -/
theorem within (h : ∀ d, c.enter? = .ok d → ∃ xs, Online read d xs) :
    ∃ xs, Online (fun c => c.within read) c xs := by
  cases henter : c.enter? with
  | error p =>
    have hall : c.within read = .problem p c := by rw [Cursor.within, henter]
    refine ⟨[], nil (by rw [hall]; rfl) fun {c'} halong _ => ?_⟩
    rw [hall, Cursor.within, halong.enter?_error henter]
    rfl
  | ok d =>
    obtain ⟨xs, hspans, hkept⟩ := h d henter
    obtain rfl := (enter?_eq_ok_iff.mp henter).2
    have hall : c.within read = (read c.enter).leave := by rw [Cursor.within, henter]
    refine ⟨xs, ?_, fun {c' ys} halong hrest hys => ?_⟩
    · rw [hall, Outcome.stop_leave]
      exact hspans.leave
    · rw [hall] at hys ⊢
      rw [Cursor.within, halong.enter?_ok henter]
      dsimp only
      rw [hkept halong.enter hrest hys.of_leave]
      cases read c.enter <;> rfl

/-- Behind an accepted character. -/
theorem accepted {chars : List Char} {refused : Cursor → Outcome}
    {accept : Cursor → Char → Cursor → Outcome} {x : Char} (hx : c.accept? chars = some (x, d))
    (hsame : ∀ c', c.Alongside c' → accept c' = accept c) (h : Online (accept c x) d xs) :
    Online (fun c => c.either chars (refused c) (accept c)) c (x :: xs) := by
  obtain ⟨hspans, hkept⟩ := h
  have hall : c.either chars (refused c) (accept c) = accept c x d := by rw [either, hx]
  have hstep := spans_of_accept? hx
  refine ⟨by rw [hall]; exact hstep.trans hspans, fun {c' ys} halong hrest hys => ?_⟩
  have hx' : c'.accept? chars = some (x, c'.advance 1) :=
    accept?_cons hrest (accept?_eq_some_iff.mp hx).1
  have hd : d.Alongside (c'.advance 1) := by
    rw [hstep.stop]
    exact halong.advance hstep.rest hrest
  rw [hall] at hys ⊢
  rw [either, hx', hsame c' halong]
  dsimp only
  rw [hkept hd (by rw [rest_advance, hrest]; rfl) hys, advance_advance]
  rw [List.length_cons, Nat.add_comm]

/-- Instead of an accepted character. -/
theorem refused {chars : List Char} {refuse : Cursor → Outcome}
    {accept : Cursor → Char → Cursor → Outcome} (hx : c.accept? chars = none)
    (h : Online refuse c xs)
    (hhead : ∀ {c' : Cursor} {ys : List Char}, c'.rest = xs ++ ys → (refuse c).KeptBefore ys →
      c'.accept? chars = none) :
    Online (fun c => c.either chars (refuse c) (accept c)) c xs := by
  obtain ⟨hspans, hkept⟩ := h
  have hall : c.either chars (refuse c) (accept c) = refuse c := by rw [either, hx]
  refine ⟨by rw [hall]; exact hspans, fun {c' ys} halong hrest hys => ?_⟩
  rw [hall] at hys ⊢
  rw [either, hhead hrest hys]
  exact hkept halong hrest hys

/-- The next character is seen by a reading that makes no value out of nothing. -/
theorem refused_of_left {chars : List Char} {refuse : Cursor → Outcome}
    {accept : Cursor → Char → Cursor → Outcome} (hx : c.accept? chars = none)
    (h : Online refuse c xs) (hleft : ∀ v d, refuse c = .value v d → d.left < c.left) :
    Online (fun c => c.either chars (refuse c) (accept c)) c xs := by
  refine refused hx h fun {c' ys} hrest hkept => accept?_eq_none_of_head? ?_ hx
  rw [hrest, h.spans.rest]
  cases xs with
  | cons x xs => rfl
  | nil =>
    rcases hkept with hahead | ⟨⟨v, d, hvalue⟩, -⟩
    · exact hahead.head?_eq
    · have hspans := h.spans
      have hless := hleft v d hvalue
      rw [hvalue] at hspans
      obtain rfl : d = c := hspans.stop
      exact absurd hless (Nat.lt_irrefl _)

/-- **What an operator continues.** Behind a value, an operator and what follows it are read, or
nothing. -/
theorem tail {chars : List Char} (hchars : chars ⊆ operators) (v : Decimal)
    (accept : Cursor → Char → Cursor → Outcome)
    (hsame : ∀ c', c.Alongside c' → accept c' = accept c)
    (h : ∀ x d, c.accept? chars = some (x, d) → ∃ zs, Online (accept c x) d zs) :
    ∃ zs, Online (fun c => c.either chars (.value v c) (accept c)) c zs ∧ StartsNoNumber zs := by
  cases hx : c.accept? chars with
  | none =>
    have hvalue : Online (.value v) c [] := nil rfl fun _ _ => rfl
    refine ⟨[], refused hx hvalue fun {c' ys} hrest hkept => ?_, nofun⟩
    rw [List.nil_append] at hrest
    subst hrest
    rcases hkept with hahead | ⟨-, hnothing⟩
    · exact accept?_eq_none_of_head? hahead.head?_eq hx
    · exact accept?_eq_none_iff.mpr fun x hhead hmem => (hnothing x hhead).1 (hchars hmem)
  | some accepted =>
    obtain ⟨x, d⟩ := accepted
    obtain ⟨zs, hzs⟩ := h x d hx
    have hpunctuation : operators ⊆ punctuation := by decide
    refine ⟨x :: zs, accepted hx hsame hzs, fun y hy => ?_⟩
    cases hy
    exact isNumberChar_of_mem_punctuation (hpunctuation (hchars (accept?_eq_some_iff.mp hx).1))

/-- The end of a group. -/
theorem close {chars : List Char} (hchars : chars ⊆ punctuation) (v : Decimal)
    (p : Problem) (c : Cursor) :
    ∃ zs, Online (fun c => c.either chars (.problem p c) fun _ d => .value v d) c zs ∧
      StartsNoNumber zs := by
  cases hx : c.accept? chars with
  | none =>
    have hproblem : Online (.problem p) c [] := nil rfl fun _ _ => rfl
    exact ⟨[], refused_of_left hx hproblem nofun, nofun⟩
  | some closed =>
    obtain ⟨x, d⟩ := closed
    have hvalue : Online (.value v) d [] := nil rfl fun _ _ => rfl
    refine ⟨[x], accepted hx (fun _ _ => rfl) hvalue, fun y hy => ?_⟩
    cases hy
    exact isNumberChar_of_mem_punctuation (hchars (accept?_eq_some_iff.mp hx).1)

end Online

/-! ### Literals -/

namespace Cursor

/-- A literal either fails where it starts or is read to its end. What it comes to depends on it
alone, or on the next character where there is none. -/
theorem number_cases (c : Cursor) :
    (∃ f, c.number = .fault f c ∧ ∀ c', c.Alongside c' → c'.literal = c.literal →
      c'.peek = c.peek → c'.number = .fault f c') ∨
    c.number.stop = c.advance c.literal.length ∧ ∀ c' : Cursor, c'.literal = c.literal →
      c'.number = c.number.stoppedAt (c'.advance c.literal.length) := by
  by_cases hempty : c.literal = []
  · refine .inl ⟨_, number_of_literal_eq_nil hempty, fun c' halong hliteral hpeek => ?_⟩
    rw [number_of_literal_eq_nil (hliteral.trans hempty), noLiteral, noLiteral, hpeek,
      halong.position]
    rfl
  by_cases hpoints : 1 < c.literal.count point
  · refine .inl ⟨.problem (.multiplePoints c.position c.literal), ?_, fun c' halong hliteral _ => ?_⟩
    · rw [number, if_neg hempty, if_pos hpoints]
      rfl
    · rw [number, hliteral, if_neg hempty, if_pos hpoints, halong.position]
      rfl
  by_cases hpoint : c.literal = [point]
  · refine .inl ⟨.problem (.noDigits c.position), ?_, fun c' halong hliteral _ => ?_⟩
    · rw [number, if_neg hempty, if_neg hpoints, if_pos hpoint]
      rfl
    · rw [number, hliteral, if_neg hempty, if_neg hpoints, if_pos hpoint, halong.position]
      rfl
  obtain ⟨o, ho⟩ : ∃ o : Outcome, ∀ c' : Cursor, c'.literal = c.literal →
      c'.number = o.stoppedAt (c'.advance c.literal.length) := by
    cases hv : Decimal.ofPlain? c.literal with
    | some v =>
      refine ⟨.value v c, fun c' hliteral => ?_⟩
      simp [number, hliteral, hempty, hpoints, hpoint, hv, Outcome.stoppedAt]
    | none =>
      refine ⟨.problem (.unreadableLiteral c.literal) c, fun c' hliteral => ?_⟩
      simp [number, hliteral, hempty, hpoints, hpoint, hv, Outcome.stoppedAt, Outcome.problem]
  refine .inr ⟨by rw [ho c rfl, Outcome.stop_stoppedAt], fun c' hliteral => ?_⟩
  rw [ho c' hliteral, ho c rfl, Outcome.stoppedAt_stoppedAt]

/-- The literal ends where its characters do. -/
theorem literal_of_rest {c c' : Cursor} {ys : List Char} (hrest : c'.rest = c.literal ++ ys)
    (hys : StartsNoNumber ys) : c'.literal = c.literal := by
  rw [literal, hrest, List.takeWhile_append_of_pos fun _ => isNumberChar_of_mem_literal,
    takeWhile_of_startsNoNumber hys, List.append_nil]

end Cursor

/-- **A literal is on-line.** -/
theorem online_number (c : Cursor) : ∃ xs, Online number c xs := by
  rcases c.number_cases with ⟨f, hnumber, hsame⟩ | ⟨hstop, hsame⟩
  · refine ⟨[], .nil (by rw [hnumber]; rfl) fun {c'} halong hkept => ?_⟩
    rw [hnumber] at hkept ⊢
    rcases hkept with hahead | ⟨⟨_, _, hvalue⟩, -⟩
    · exact hsame c' halong hahead.run hahead.head?_eq
    · cases hvalue
  · have hspans : c.Spans c.literal c.number.stop := by
      rw [hstop]
      exact ⟨c.literal_append_rest.symm, rfl⟩
    refine ⟨c.literal, hspans, fun {c' ys} _ hrest hkept => hsame c' (literal_of_rest hrest ?_)⟩
    rcases hkept with hahead | ⟨-, hnothing⟩
    · refine hahead.startsNoNumber ?_
      rw [hstop, rest_behind_literal]
      exact startsNoNumber_dropWhile _
    · exact hnothing.startsNoNumber

/-! ### The rules -/

namespace Calculator

variable {k : Calculator} {v : Decimal} {c : Cursor}

/-- What is to be shown of a reading: it is on-line, and a repetition starts no number. -/
def ReadsOnline (k : Calculator) (r : Rule) (v : Decimal) (c : Cursor) : Prop :=
  ∃ xs, Online (k.read r v) c xs ∧ (r = .sumTail ∨ r = .productTail → StartsNoNumber xs)

theorem readsOnline_of {r : Rule} (h : ∃ xs, Online (k.read r v) c xs) (hr : r ≠ .sumTail)
    (hr' : r ≠ .productTail) : k.ReadsOnline r v c :=
  h.imp fun _ h => ⟨h, fun htail => (htail.elim hr hr').elim⟩

theorem readsOnline_tail {r : Rule} (h : ∃ xs, Online (k.read r v) c xs ∧ StartsNoNumber xs) :
    k.ReadsOnline r v c :=
  h.imp fun _ h => ⟨h.1, fun _ => h.2⟩

theorem ReadsOnline.tail {r : Rule} (h : k.ReadsOnline r v c) (hr : r = .sumTail ∨ r = .productTail) :
    ∃ xs, Online (k.read r v) c xs ∧ StartsNoNumber xs :=
  h.imp fun _ h => ⟨h.1, h.2 hr⟩

theorem ReadsOnline.online {r : Rule} (h : k.ReadsOnline r v c) : ∃ xs, Online (k.read r v) c xs :=
  h.imp fun _ h => h.1

/-- What is read behind a base: a power that it has, or nothing. -/
def powerTail (k : Calculator) (base : Decimal) (c : Cursor) : Outcome :=
  c.either ['^'] (.value base c) fun _ d => (d.within k.exponent).andThen fun w e =>
    .of (powerResult (base.power k.functions w)) e

theorem exponent_eq_powerTail (k : Calculator) (c : Cursor) :
    k.exponent c = (k.primary c).andThen k.powerTail := k.exponent_eq_within c

theorem online_powerTail (base : Decimal) (hexponent : ∀ x d e, c.accept? ['^'] = some (x, d) →
    d.enter? = .ok e → ∃ xs, Online k.exponent e xs) :
    ∃ zs, Online (k.powerTail base) c zs ∧ StartsNoNumber zs :=
  Online.tail (by decide) base (fun _ _ d => (d.within k.exponent).andThen fun w e =>
    .of (powerResult (base.power k.functions w)) e) (fun _ _ => rfl) fun x d hd =>
      Online.operation (Online.within (hexponent x d · hd)) fun w =>
        powerResult (base.power k.functions w)

/-- What is read where there is no root: a group or a number. -/
def groupOrNumber (k : Calculator) (c : Cursor) : Outcome :=
  c.either [openParen] c.number fun _ d => (d.within k.expression).andThen fun v e =>
    e.either [closeParen] (.problem (.unclosedGroup c.position) e) fun _ f => .value v f

theorem operand_eq_either (k : Calculator) (c : Cursor) : k.operand c =
    c.either [rootSign] (k.groupOrNumber c) fun _ d =>
      (d.within k.primary).andThen fun v e => .of (powerResult (v.squareRoot k.functions)) e := by
  rw [operand_eq_within, either]
  cases c.accept? [rootSign] with
  | some accepted => rfl
  | none =>
    dsimp only
    rw [groupOrNumber, either]
    cases c.accept? [openParen] with
    | some accepted =>
      dsimp only
      congr 1
      funext v e
      rw [either]
      cases e.accept? [closeParen] <;> rfl
    | none => rfl

theorem online_groupOrNumber (hexpression : ∀ x d e, c.accept? [openParen] = some (x, d) →
    d.enter? = .ok e → ∃ xs, Online k.expression e xs) : ∃ xs, Online k.groupOrNumber c xs := by
  show ∃ xs, Online (fun c => c.either [openParen] c.number fun _ d =>
    (d.within k.expression).andThen fun v e =>
      e.either [closeParen] (.problem (.unclosedGroup c.position) e) fun _ f => .value v f) c xs
  cases hx : c.accept? [openParen] with
  | some opened =>
    obtain ⟨x, d⟩ := opened
    have hclose : [closeParen] ⊆ punctuation := by decide
    obtain ⟨xs, h⟩ := Online.andThen (Online.within (hexpression x d · hx)) fun v e _ =>
      Online.close hclose v (.unclosedGroup c.position) e
    exact ⟨_, Online.accepted hx (fun c' halong => by simp only [halong.position]) h⟩
  | none =>
    obtain ⟨xs, h⟩ := online_number c
    refine ⟨xs, Online.refused_of_left hx h fun v d hvalue => ?_⟩
    have hleaves := c.leavesBelow_number
    rwa [hvalue] at hleaves

theorem hereditary_readsOnline (k : Calculator) : k.Hereditary k.ReadsOnline where
  expression v c hterm htail := by
    refine readsOnline_of ?_ nofun nofun
    have hrule : k.expression = fun c => (k.term c).andThen k.sumTail := funext k.expression_eq
    show ∃ xs, Online k.expression c xs
    rw [hrule]
    exact Online.andThen hterm.online fun w d hw => (htail w d hw).tail (.inl rfl)
  sumTail v c hterm htail := by
    refine readsOnline_tail ?_
    have hrule : k.sumTail v = fun c => c.either ['+', '-'] (.value v c) fun op d =>
        (k.term d).andThen fun w e => (Outcome.of (k.addOrSub op v w) e).andThen k.sumTail :=
      funext fun c => k.sumTail_eq v c
    show ∃ xs, Online (k.sumTail v) c xs ∧ StartsNoNumber xs
    rw [hrule]
    refine Online.tail (by decide) v (fun _ op d => (k.term d).andThen fun w e =>
      (Outcome.of (k.addOrSub op v w) e).andThen k.sumTail) (fun _ _ => rfl) fun op d hop => ?_
    exact Online.operationThen (hterm op d hop).online (k.addOrSub op v) fun w s e hw =>
      (htail op d w e s hop hw).tail (.inl rfl)
  term v c hexponent htail := by
    refine readsOnline_of ?_ nofun nofun
    have hrule : k.term = fun c => (k.exponent c).andThen k.productTail := funext k.term_eq
    show ∃ xs, Online k.term c xs
    rw [hrule]
    exact Online.andThen hexponent.online fun w d hw => (htail w d hw).tail (.inr rfl)
  productTail v c hexponent htail := by
    refine readsOnline_tail ?_
    have hrule : k.productTail v = fun c => c.either ['*', '/'] (.value v c) fun op d =>
        (k.exponent d).andThen fun w e =>
          (Outcome.of (k.mulOrDiv op c v w) e).andThen k.productTail :=
      funext fun c => k.productTail_eq v c
    -- A quotient knows the place of its operator, which is the same in both texts.
    have hplace : ∀ c', c.Alongside c' → ∀ op w, k.mulOrDiv op c' v w = k.mulOrDiv op c v w :=
      fun c' halong op w => by rw [mulOrDiv, mulOrDiv, halong.position]
    show ∃ xs, Online (k.productTail v) c xs ∧ StartsNoNumber xs
    rw [hrule]
    refine Online.tail (by decide) v (fun c op d => (k.exponent d).andThen fun w e =>
      (Outcome.of (k.mulOrDiv op c v w) e).andThen k.productTail)
      (fun c' halong => by simp only [hplace c' halong]) fun op d hop => ?_
    exact Online.operationThen (hexponent op d hop).online (k.mulOrDiv op c v) fun w s e hw =>
      (htail op d w e s hop hw).tail (.inr rfl)
  exponent v c hprimary hexponent := by
    refine readsOnline_of ?_ nofun nofun
    have hrule : k.exponent = fun c => (k.primary c).andThen k.powerTail :=
      funext k.exponent_eq_powerTail
    show ∃ xs, Online k.exponent c xs
    rw [hrule]
    exact Online.andThen hprimary.online fun b d hb =>
      online_powerTail b fun x e f he hf => (hexponent b d x e f hb he hf).online
  primary v c hoperand hsigned := by
    refine readsOnline_of ?_ nofun nofun
    have hrule : k.primary = fun c => c.either ['+', '-'] (k.operand c) fun s d =>
        (k.operand d).map (signed s) := funext k.primary_eq
    show ∃ xs, Online k.primary c xs
    rw [hrule]
    cases hx : c.accept? ['+', '-'] with
    | some accepted =>
      obtain ⟨s, d⟩ := accepted
      obtain ⟨xs, h⟩ := (hsigned s d hx).online
      exact ⟨_, Online.accepted hx (fun _ _ => rfl) (h.map (signed s))⟩
    | none =>
      obtain ⟨xs, h⟩ := hoperand.online
      exact ⟨xs, Online.refused_of_left hx h fun _ _ => left_lt_of_operand⟩
  operand v c hroot hgroup := by
    refine readsOnline_of ?_ nofun nofun
    have hrule : k.operand = fun c => c.either [rootSign] (k.groupOrNumber c) fun _ d =>
        (d.within k.primary).andThen fun v e => .of (powerResult (v.squareRoot k.functions)) e :=
      funext k.operand_eq_either
    show ∃ xs, Online k.operand c xs
    rw [hrule]
    cases hx : c.accept? [rootSign] with
    | some opened =>
      obtain ⟨x, d⟩ := opened
      obtain ⟨xs, h⟩ := Online.operation (Online.within fun e he => (hroot x d e hx he).online)
        fun w => powerResult (w.squareRoot k.functions)
      exact ⟨_, Online.accepted hx (fun _ _ => rfl) h⟩
    | none =>
      obtain ⟨xs, h⟩ := online_groupOrNumber fun x d e hd he => (hgroup x d e hd he).online
      refine ⟨xs, Online.refused_of_left hx h fun w d hvalue => ?_⟩
      have hoperand : k.operand c = k.groupOrNumber c := by rw [operand_eq_either, either, hx]
      exact left_lt_of_operand (hoperand.trans hvalue)

/-- **All readings are on-line.** -/
theorem online_read (k : Calculator) (r : Rule) (v : Decimal) (c : Cursor) :
    ∃ xs, Online (k.read r v) c xs :=
  ((hereditary_readsOnline k).read r v c).online

end Calculator

end InfixCalculator
