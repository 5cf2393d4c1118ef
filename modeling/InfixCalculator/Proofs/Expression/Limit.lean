import InfixCalculator.Proofs.Expression.Nesting

/-! # The limit of nesting

A limit ends a reading where one level too many is opened, and does nothing else.

* `Cursor.under`, `Outcome.under`: the same under another limit.
* `Outcome.Limited`: what a limit makes of an outcome without it.
* `Nests`: the levels that a reading opens, and what a limit makes of it; `Nests.andThen`,
  `Nests.within`, `Nests.either`: this passes from the parts of a reading to the whole.
* `Calculator.nests_read`: all readings open the levels of `OpensAt`.
* `Calculator.limit_only_cuts`: so a limit cuts an expression at the first level beyond it. -/

namespace InfixCalculator

/-! ### Other limits -/

namespace Cursor

/-- The cursor under another limit, or under none. -/
def under (limit : Option ℤ) (c : Cursor) : Cursor := { c with limit }

variable {c d : Cursor} {chars : List Char} {x : Char} {limit : Option ℤ}

@[simp] theorem position_under (limit : Option ℤ) (c : Cursor) :
    (c.under limit).position = c.position := rfl

@[simp] theorem depth_under (limit : Option ℤ) (c : Cursor) :
    (c.under limit).depth = c.depth := rfl

theorem accept?_under_some (limit : Option ℤ) (h : c.accept? chars = some (x, d)) :
    (c.under limit).accept? chars = some (x, d.under limit) := by
  obtain ⟨hx, hhead, rfl⟩ := accept?_eq_some_iff.mp h
  exact accept?_eq_some_iff.mpr ⟨hx, hhead, rfl⟩

theorem accept?_under_none (limit : Option ℤ) (h : c.accept? chars = none) :
    (c.under limit).accept? chars = none := by
  rw [accept?_eq_none_iff] at h ⊢
  exact h

end Cursor

namespace Outcome

/-- The outcome with its cursor under another limit, or under none. -/
def under (limit : Option ℤ) : Outcome → Outcome
  | value v c => value v (c.under limit)
  | fault f c => fault f (c.under limit)

theorem under_under (limit limit' : Option ℤ) (o : Outcome) :
    (o.under limit).under limit' = o.under limit' := by cases o <;> rfl

theorem under_of_limit_stop {o : Outcome} {limit : Option ℤ} (h : o.stop.limit = limit) :
    o.under limit = o := by
  subst h
  cases o <;> rfl

theorem under_of (result : Except Fault Decimal) (c : Cursor) (limit : Option ℤ) :
    (of result c).under limit = of result (c.under limit) := by cases result <;> rfl

theorem under_leave (o : Outcome) (limit : Option ℤ) :
    o.leave.under limit = (o.under limit).leave := by cases o <;> rfl

theorem under_map (f : Decimal → Decimal) (o : Outcome) (limit : Option ℤ) :
    (o.map f).under limit = (o.under limit).map f := by cases o <;> rfl

/-- **What a limit makes of an outcome** `o` which has been read without one, where `room` of the levels
that have been opened are left under the limit. Either all of them are within it, and the outcome is
the same; or the reading ends by the first level that is not. -/
inductive Limited (limit room : ℕ) (opens : ℕ → ℕ → Prop) (o o' : Outcome) : Prop
  | kept (h : ∀ n p, opens n p → n < room) (ho : o' = o.under (some limit))
  | cut {p : ℕ} {stop : Cursor} (hp : opens room p) (hfirst : ∀ n q, opens n q → room ≤ n → p ≤ q)
    (ho : o' = .problem (.nestingTooDeep p limit) stop)

end Outcome

theorem Cursor.number_under (limit : Option ℤ) (c : Cursor) :
    (c.under limit).number = c.number.under limit := by
  have hliteral : (c.under limit).literal = c.literal := rfl
  have hnone : (c.under limit).noLiteral = c.noLiteral := rfl
  unfold number
  simp only [hliteral, hnone, position_under]
  split_ifs
  · rfl
  · rfl
  · rfl
  · cases Decimal.ofPlain? c.literal <;> rfl

/-! ### Readings and their levels -/

open Cursor Outcome

/-- **The levels of a reading** at a cursor without a limit: it opens those that are given, between
where it starts and where it stops, and a limit does nothing else to it than to cut it. -/
structure Nests (read : Cursor → Outcome) (c : Cursor) (opens : ℕ → ℕ → Prop) : Prop where
  stop : ∃ n, (read c).stop = c.advance n
  start_le : ∀ n p, opens n p → c.position ≤ p
  le_stop : ∀ n p, opens n p → p ≤ (read c).stop.position
  limited : ∀ limit room : ℕ, c.depth + room = limit →
    (read c).Limited limit room opens (read (c.under (some limit)))

namespace Nests

variable {read : Cursor → Outcome} {c d : Cursor} {opens opens' whole : ℕ → ℕ → Prop}

theorem position_le_stop (h : Nests read c opens) : c.position ≤ (read c).stop.position := by
  obtain ⟨n, hn⟩ := h.stop
  rw [hn]
  exact c.position_le_advance n

/-- A limit stays as it is. -/
theorem limit_of_value {v : Decimal} (h : Nests read c opens) (hread : read c = .value v d) :
    d.limit = c.limit := by
  obtain ⟨n, hn⟩ := h.stop
  rw [hread, Outcome.stop] at hn
  rw [hn, limit_advance]

/-- Where no level is opened, the limit does not matter. -/
theorem leaf (hstop : ∃ n, (read c).stop = c.advance n)
    (hunder : ∀ limit, read (c.under limit) = (read c).under limit) :
    Nests read c fun _ _ => False := by
  refine ⟨hstop, nofun, nofun, fun limit room _ => ?_⟩
  exact .kept nofun (hunder _)

theorem of (result : Except Fault Decimal) (c : Cursor) :
    Nests (Outcome.of result) c fun _ _ => False :=
  leaf ⟨0, stop_of result c⟩ fun limit => (under_of result c limit).symm

theorem number (c : Cursor) : Nests Cursor.number c fun _ _ => False := by
  refine leaf ?_ fun limit => number_under limit c
  obtain ⟨xs, hspans, -⟩ := online_number c
  exact ⟨xs.length, hspans.stop⟩

theorem congr (h : Nests read c opens) (hopens : ∀ n p, whole n p ↔ opens n p) :
    Nests read c whole := by
  obtain rfl : whole = opens := funext fun n => funext fun p => propext (hopens n p)
  exact h

/-- **One reading after another.** The levels of the first one have been left where the second one
starts. -/
theorem andThen {next : Decimal → Cursor → Outcome} {later : Decimal → Cursor → ℕ → ℕ → Prop}
    (h : Nests read c opens) (hnext : ∀ v d, read c = .value v d → Nests (next v) d (later v d)) :
    Nests (fun c => (read c).andThen next) c fun n p =>
      opens n p ∨ ∃ v d, read c = .value v d ∧ later v d n p := by
  obtain ⟨m, hm⟩ := h.stop
  have hvalue : ∀ {v d}, read c = .value v d → d = c.advance m := fun hv => by rw [← hm, hv]; rfl
  refine ⟨?_, ?_, ?_, ?_⟩
  · cases hread : read c with
    | fault f d => exact ⟨m, by rw [← hm, hread]; rfl⟩
    | value v d =>
      obtain ⟨n, hn⟩ := (hnext v d hread).stop
      exact ⟨m + n, by rw [← advance_advance, ← hvalue hread]; exact hn⟩
  · rintro n p (hp | ⟨v, d, hread, hp⟩)
    · exact h.start_le n p hp
    · refine le_trans ?_ ((hnext v d hread).start_le n p hp)
      rw [hvalue hread]
      exact c.position_le_advance m
  · rintro n p (hp | ⟨v, d, hread, hp⟩)
    · refine (h.le_stop n p hp).trans ?_
      cases hread : read c with
      | fault f d => exact Nat.le_refl _
      | value v d => exact (hnext v d hread).position_le_stop
    · have hall : (read c).andThen next = next v d := by rw [hread, Outcome.andThen]
      rw [hall]
      exact (hnext v d hread).le_stop n p hp
  · intro limit room hroom
    cases h.limited limit room hroom with
    | kept hall ho =>
      rw [ho]
      cases hread : read c with
      | fault f d =>
        refine .kept ?_ rfl
        rintro n p (hp | ⟨v, d, hread, -⟩)
        · exact hall n p hp
        · cases hread
      | value v d =>
        have hd : d.depth + room = limit := by rw [hvalue hread]; exact hroom
        cases (hnext v d hread).limited limit room hd with
        | kept hall' ho' =>
          refine .kept ?_ ho'
          rintro n p (hp | ⟨_, _, ⟨⟩, hp⟩)
          · exact hall n p hp
          · exact hall' n p hp
        | cut hp hfirst ho' =>
          refine .cut (.inr ⟨v, d, rfl, hp⟩) ?_ ho'
          rintro n q (hq | ⟨_, _, ⟨⟩, hq⟩) hn
          · exact absurd (hall n q hq) (Nat.not_lt.mpr hn)
          · exact hfirst n q hq hn
    | cut hp hfirst ho =>
      refine .cut (.inl hp) ?_ (by rw [ho]; rfl)
      rintro n q (hq | ⟨v, d, hread, hq⟩) hn
      · exact hfirst n q hq hn
      · have hbefore := h.le_stop _ _ hp
        rw [hread] at hbefore
        exact hbefore.trans ((hnext v d hread).start_le n q hq)

/-- The value is changed. -/
theorem map (f : Decimal → Decimal) (h : Nests read c opens) :
    Nests (fun c => (read c).map f) c opens := by
  refine ⟨?_, h.start_le, ?_, fun limit room hroom => ?_⟩
  · simpa only [stop_map] using h.stop
  · simpa only [stop_map] using h.le_stop
  · cases h.limited limit room hroom with
    | kept hall ho => exact .kept hall (by rw [ho, under_map])
    | cut hp hfirst ho => exact .cut hp hfirst (by rw [ho]; rfl)

/-- An operation on the value of a reading. -/
theorem operation (h : Nests read c opens) (result : Decimal → Except Fault Decimal) :
    Nests (fun c => (read c).andThen fun w e => .of (result w) e) c opens :=
  (h.andThen fun w d _ => of (result w) d).congr fun n p => by simp

/-- An operation on the value of a reading, from which another reading continues. -/
theorem operationThen {rest : Decimal → Cursor → Outcome} {later : Decimal → Cursor → ℕ → ℕ → Prop}
    (h : Nests read c opens) (result : Decimal → Except Fault Decimal)
    (hrest : ∀ w s d, read c = .value w d → result w = .ok s → Nests (rest s) d (later s d)) :
    Nests (fun c => (read c).andThen fun w e => (Outcome.of (result w) e).andThen rest) c fun n p =>
      opens n p ∨ ∃ w s d, read c = .value w d ∧ result w = .ok s ∧ later s d n p := by
  have hnext : ∀ w d, read c = .value w d → Nests (fun e => (Outcome.of (result w) e).andThen rest) d
      fun n p => ∃ s, result w = .ok s ∧ later s d n p := by
    intro w d hw
    cases hs : result w with
    | ok s => exact (hrest w s d hw hs).congr fun n p => by simp
    | error f => exact (of (.error f) d).congr fun n p => by simp
  refine (h.andThen hnext).congr fun n p => or_congr_right ⟨?_, ?_⟩
  · rintro ⟨w, s, d, hw, hs, hp⟩
    exact ⟨w, d, hw, s, hs, hp⟩
  · rintro ⟨w, d, hw, s, hs, hp⟩
    exact ⟨w, s, d, hw, hs, hp⟩

/-- **One level further inside.** It is opened where the reading starts, with no other one open, and
one more is open around those inside it. -/
theorem within (hlimit : c.limit = none) (h : Nests read c.enter opens) :
    Nests (fun c => c.within read) c fun n p =>
      (n = 0 ∧ p = c.position) ∨ ∃ m, n = m + 1 ∧ opens m p := by
  have hok : c.enter? = .ok c.enter := enter?_eq_ok_iff.mpr ⟨by simp [hlimit], rfl⟩
  have hall : c.within read = (read c.enter).leave := by rw [Cursor.within, hok]
  obtain ⟨m, hm⟩ := h.stop
  refine ⟨⟨m, by rw [hall, stop_leave, hm]; rfl⟩, ?_, ?_, ?_⟩
  · rintro n p (⟨-, rfl⟩ | ⟨n, rfl, hp⟩)
    · exact Nat.le_refl _
    · exact h.start_le n p hp
  · rw [hall, stop_leave]
    rintro n p (⟨-, rfl⟩ | ⟨n, rfl, hp⟩)
    · exact h.position_le_stop
    · exact h.le_stop n p hp
  · intro limit room hroom
    rw [hall]
    cases room with
    | zero =>
      have hrefuse : (c.under (some limit)).enter? = .error (.nestingTooDeep c.position limit) :=
        enter?_eq_error_iff.mpr ⟨limit, rfl, by simp [← hroom], rfl⟩
      refine .cut (.inl ⟨rfl, rfl⟩) ?_ (by rw [Cursor.within, hrefuse])
      rintro n q (⟨-, rfl⟩ | ⟨n, rfl, hq⟩) -
      · exact Nat.le_refl _
      · exact h.start_le n q hq
    | succ room =>
      have henter : (c.under (some limit)).enter? = .ok (c.enter.under (some limit)) := by
        refine enter?_eq_ok_iff.mpr ⟨?_, rfl⟩
        rintro _ ⟨⟩
        show (c.depth : ℤ) < limit
        omega
      have hroom' : c.enter.depth + room = limit := by rw [depth_enter]; omega
      rw [Cursor.within, henter]
      cases h.limited limit room hroom' with
      | kept hkept ho =>
        refine .kept ?_ (by rw [under_leave, ← ho])
        rintro n p (⟨rfl, -⟩ | ⟨n, rfl, hp⟩)
        · exact Nat.succ_pos room
        · exact Nat.succ_lt_succ (hkept n p hp)
      | cut hp hfirst ho =>
        refine .cut (.inr ⟨room, rfl, hp⟩) ?_ (by dsimp only; rw [ho]; rfl)
        rintro n q (⟨rfl, -⟩ | ⟨n, rfl, hq⟩) hn
        · exact absurd hn (Nat.not_succ_le_zero room)
        · exact hfirst n q hq (Nat.le_of_succ_le_succ hn)

/-- Behind an accepted character, or instead of one. -/
theorem either {chars : List Char} {refuse : Cursor → Outcome}
    {accept : Cursor → Char → Cursor → Outcome} {inside : Char → Cursor → ℕ → ℕ → Prop}
    (hsame : ∀ limit, accept (c.under limit) = accept c)
    (hrefuse : c.accept? chars = none → Nests refuse c opens)
    (haccept : ∀ x d, c.accept? chars = some (x, d) → Nests (accept c x) d (inside x d)) :
    Nests (fun c => c.either chars (refuse c) (accept c)) c fun n p =>
      (c.accept? chars = none ∧ opens n p) ∨
        ∃ x d, c.accept? chars = some (x, d) ∧ inside x d n p := by
  cases hx : c.accept? chars with
  | none =>
    have h := hrefuse hx
    have hall : c.either chars (refuse c) (accept c) = refuse c := by rw [Cursor.either, hx]
    have hrefused : Nests (fun c => c.either chars (refuse c) (accept c)) c opens := by
      refine ⟨?_, h.start_le, ?_, fun limit room hroom => ?_⟩
      · simpa only [hall] using h.stop
      · simpa only [hall] using h.le_stop
      · rw [hall, Cursor.either, accept?_under_none _ hx]
        exact h.limited limit room hroom
    exact hrefused.congr fun n p => by simp
  | some accepted =>
    obtain ⟨x, d⟩ := accepted
    have h := haccept x d hx
    have hall : c.either chars (refuse c) (accept c) = accept c x d := by rw [Cursor.either, hx]
    obtain rfl := (rest_of_accept? hx).2.1
    have haccepted : Nests (fun c => c.either chars (refuse c) (accept c)) c
        (inside x (c.advance 1)) := by
      refine ⟨?_, ?_, ?_, fun limit room hroom => ?_⟩
      · obtain ⟨m, hm⟩ := h.stop
        exact ⟨1 + m, by rw [hall, hm, advance_advance]⟩
      · exact fun n p hp => (c.position_le_advance 1).trans (h.start_le n p hp)
      · simpa only [hall] using h.le_stop
      · rw [hall, Cursor.either, accept?_under_some _ hx]
        dsimp only
        rw [hsame]
        exact h.limited limit room hroom
    exact haccepted.congr fun n p => by simp

/-- What an operator continues. -/
theorem tail (chars : List Char) (v : Decimal) {accept : Cursor → Char → Cursor → Outcome}
    {inside : Char → Cursor → ℕ → ℕ → Prop}
    (hsame : ∀ limit, accept (c.under limit) = accept c)
    (haccept : ∀ x d, c.accept? chars = some (x, d) → Nests (accept c x) d (inside x d)) :
    Nests (fun c => c.either chars (.value v c) (accept c)) c fun n p =>
      ∃ x d, c.accept? chars = some (x, d) ∧ inside x d n p :=
  (either hsame (fun _ => leaf ⟨0, rfl⟩ fun _ => rfl) haccept).congr fun n p => by simp

/-- Operators of one rank and their right sides, one after another. -/
theorem operators {chars : List Char} {part : Cursor → Outcome} {rest : Decimal → Cursor → Outcome}
    {result : Cursor → Char → Decimal → Except Fault Decimal} {inside : Cursor → ℕ → ℕ → Prop}
    {later : Decimal → Cursor → ℕ → ℕ → Prop} (v : Decimal) (hlimit : c.limit = none)
    (hsame : ∀ limit, result (c.under limit) = result c)
    (hpart : ∀ op d, c.accept? chars = some (op, d) → d.limit = none → Nests part d (inside d))
    (hrest : ∀ op d w e s, c.accept? chars = some (op, d) → part d = .value w e → e.limit = none →
      Nests (rest s) e (later s e)) :
    Nests (fun c => c.either chars (.value v c) fun op d =>
        (part d).andThen fun w e => (Outcome.of (result c op w) e).andThen rest) c fun n p =>
      ∃ op d, c.accept? chars = some (op, d) ∧ (inside d n p ∨
        ∃ w s e, part d = .value w e ∧ result c op w = .ok s ∧ later s e n p) := by
  refine tail chars v (fun limit => by simp only [hsame]) fun op d hop => ?_
  have hd : d.limit = none := (limit_of_accept? hop).trans hlimit
  have hfirst : Nests part d (inside d) := hpart op d hop hd
  exact hfirst.operationThen (result c op) fun w s e hw _ =>
    hrest op d w e s hop hw ((hfirst.limit_of_value hw).trans hd)

/-- What closes a group opens no level. -/
theorem close (v : Decimal) (p : Problem) (c : Cursor) :
    Nests (fun c => c.either [closeParen] (.problem p c) fun _ d => .value v d) c
      fun _ _ => False :=
  (either (fun _ => rfl) (fun _ => leaf ⟨0, rfl⟩ fun _ => rfl)
    fun _ _ _ => leaf ⟨0, rfl⟩ fun _ => rfl).congr fun n p => by simp

end Nests

/-! ### The rules -/

namespace Calculator

variable {k : Calculator} {v w : Decimal} {c d : Cursor} {n p : ℕ}

/-- One level further inside, a rule opens its levels. -/
theorem nests_within {read : Cursor → Outcome} {opens : Cursor → ℕ → ℕ → Prop}
    (hlimit : c.limit = none)
    (h : ∀ d, c.enter? = .ok d → d.limit = none → Nests read d (opens d)) :
    Nests (fun c => c.within read) c (Deeper c opens) := by
  have hok : c.enter? = .ok c.enter := enter?_eq_ok_iff.mpr ⟨by simp [hlimit], rfl⟩
  exact (Nests.within hlimit (h c.enter hok hlimit)).congr fun n p => deeper_iff hok

theorem nests_groupOrNumber (hlimit : c.limit = none) (hexpression : ∀ x d e,
    c.accept? [openParen] = some (x, d) → d.enter? = .ok e → e.limit = none →
      Nests k.expression e (k.OpensAt .expression v e)) :
    Nests k.groupOrNumber c fun n p =>
      ∃ x d, c.accept? [openParen] = some (x, d) ∧ Deeper d (k.OpensAt .expression v) n p := by
  show Nests (fun c => c.either [openParen] c.number fun _ d =>
    (d.within k.expression).andThen fun v e =>
      e.either [closeParen] (.problem (.unclosedGroup c.position) e) fun _ f => .value v f) c _
  have hgroup : ∀ x d, c.accept? [openParen] = some (x, d) →
      Nests (fun d => (d.within k.expression).andThen fun v e =>
        e.either [closeParen] (.problem (.unclosedGroup c.position) e) fun _ f => .value v f) d
        (Deeper d (k.OpensAt .expression v)) := by
    intro x d hop
    have hinside := nests_within ((limit_of_accept? hop).trans hlimit) (hexpression x d · hop)
    exact (hinside.andThen fun w e _ => Nests.close w (.unclosedGroup c.position) e).congr
      fun n p => by simp
  exact (Nests.either (fun _ => rfl) (fun _ => Nests.number c) hgroup).congr fun n p => by simp

/-- **The levels of the rules**, from those of their parts. -/
theorem hereditary_nests (k : Calculator) : k.Hereditary fun r v c =>
    c.limit = none → Nests (k.read r v) c (k.OpensAt r v c) where
  expression v c hterm htail := by
    intro hlimit
    have hrule : k.expression = fun c => (k.term c).andThen k.sumTail := funext k.expression_eq
    show Nests k.expression c _
    rw [hrule]
    have hfirst : Nests k.term c (k.OpensAt .term v c) := hterm hlimit
    exact (hfirst.andThen fun w d hw => htail w d hw ((hfirst.limit_of_value hw).trans hlimit)).congr
      fun n p => opensAt_expression_iff
  sumTail v c hterm htail := by
    intro hlimit
    have hrule : k.sumTail v = fun c => c.either ['+', '-'] (.value v c) fun op d =>
        (k.term d).andThen fun w e => (Outcome.of (k.addOrSub op v w) e).andThen k.sumTail :=
      funext fun c => k.sumTail_eq v c
    show Nests (k.sumTail v) c _
    rw [hrule]
    exact (Nests.operators v hlimit (fun _ => rfl) hterm htail).congr fun n p => opensAt_sumTail_iff
  term v c hexponent htail := by
    intro hlimit
    have hrule : k.term = fun c => (k.exponent c).andThen k.productTail := funext k.term_eq
    show Nests k.term c _
    rw [hrule]
    have hfirst : Nests k.exponent c (k.OpensAt .exponent v c) := hexponent hlimit
    exact (hfirst.andThen fun w d hw => htail w d hw ((hfirst.limit_of_value hw).trans hlimit)).congr
      fun n p => opensAt_term_iff
  productTail v c hexponent htail := by
    intro hlimit
    have hrule : k.productTail v = fun c => c.either ['*', '/'] (.value v c) fun op d =>
        (k.exponent d).andThen fun w e =>
          (Outcome.of (k.mulOrDiv op c v w) e).andThen k.productTail :=
      funext fun c => k.productTail_eq v c
    show Nests (k.productTail v) c _
    rw [hrule]
    exact (Nests.operators v hlimit (fun _ => rfl) hexponent htail).congr fun n p =>
      opensAt_productTail_iff
  exponent v c hprimary hexponent := by
    intro hlimit
    have hrule : k.exponent = fun c => (k.primary c).andThen k.powerTail :=
      funext k.exponent_eq_powerTail
    show Nests k.exponent c _
    rw [hrule]
    have hfirst : Nests k.primary c (k.OpensAt .primary v c) := hprimary hlimit
    refine (hfirst.andThen fun w d hw => ?_).congr fun n p => opensAt_exponent_iff
    refine Nests.tail ['^'] w (fun _ => rfl) fun x e hop => ?_
    have he : e.limit = none :=
      (limit_of_accept? hop).trans ((hfirst.limit_of_value hw).trans hlimit)
    exact (nests_within he fun f hf => hexponent w d x e f hw hop hf).operation fun y =>
      powerResult (w.power k.functions y)
  primary v c hoperand hsigned := by
    intro hlimit
    have hrule : k.primary = fun c => c.either ['+', '-'] (k.operand c) fun s d =>
        (k.operand d).map (signed s) := funext k.primary_eq
    show Nests k.primary c _
    rw [hrule]
    refine (Nests.either (fun _ => rfl) (fun _ => hoperand hlimit) fun s d hop => ?_).congr fun n p =>
      opensAt_primary_iff
    have hinside : Nests k.operand d (k.OpensAt .operand v d) :=
      hsigned s d hop ((limit_of_accept? hop).trans hlimit)
    exact hinside.map (signed s)
  operand v c hroot hgroup := by
    intro hlimit
    have hrule : k.operand = fun c => c.either [rootSign] (k.groupOrNumber c) fun _ d =>
        (d.within k.primary).andThen fun v e => .of (powerResult (v.squareRoot k.functions)) e :=
      funext k.operand_eq_either
    show Nests k.operand c _
    rw [hrule]
    have hgroups := nests_groupOrNumber hlimit hgroup
    have hroots : ∀ x d, c.accept? [rootSign] = some (x, d) →
        Nests (fun d => (d.within k.primary).andThen fun v e =>
          .of (powerResult (v.squareRoot k.functions)) e) d (Deeper d (k.OpensAt .primary v)) :=
      fun x d hop => (nests_within ((limit_of_accept? hop).trans hlimit) (hroot x d · hop)).operation
        fun w => powerResult (w.squareRoot k.functions)
    exact (Nests.either (fun _ => rfl) (fun _ => hgroups) hroots).congr fun n p => by
      rw [opensAt_operand_iff, or_comm]

/-- **The levels of a reading** are those that it opens. -/
theorem nests_read (k : Calculator) (r : Rule) (v : Decimal) (hlimit : c.limit = none) :
    Nests (k.read r v) c (k.OpensAt r v c) :=
  (hereditary_nests k).read r v c hlimit

/-- What a limit does not cut is the same without it. -/
theorem read_of_under {r : Rule} {room : ℕ} (hlimit : c.limit = none)
    (h : k.read r v (c.under (some (c.depth + room : ℕ))) = .value w d) :
    k.read r v c = .value w (d.under none) := by
  have hnests := nests_read k r v hlimit
  cases hnests.limited (c.depth + room) room rfl with
  | cut hp hfirst ho =>
    rw [h] at ho
    cases ho
  | kept hall ho =>
    obtain ⟨n, hn⟩ := hnests.stop
    have hnone : (k.read r v c).stop.limit = none := by rw [hn, limit_advance, hlimit]
    calc k.read r v c = ((k.read r v c).under (some (c.depth + room : ℕ))).under none := by
          rw [under_under, under_of_limit_stop hnone]
      _ = .value w (d.under none) := by
          rw [← ho, h]
          rfl

/-! ### Expressions -/

/-- The expression, read without a limit, opens a level at the position `p` while it has `n` others
open. -/
def OpensLevel (k : Calculator) (text : List Char) (n p : ℕ) : Prop :=
  k.OpensAt .expression (.ofNat 0) (start text none) n p

theorem depth_stop_read (k : Calculator) (r : Rule) (v : Decimal) (c : Cursor) :
    (k.read r v c).stop.depth = c.depth := by
  obtain ⟨xs, h⟩ := k.online_read r v c
  rw [h.spans.stop, depth_advance]

/-- **A limit only cuts.** Where an expression opens no more levels inside each other than the limit
allows, it comes to the same as without one, be it a value or a fault; and elsewhere it ends behind
the first character that opens one level too many. So a higher limit changes nothing but what a lower
one has cut; and every level is closed again, whatever has been read inside it. -/
theorem limit_only_cuts (k : Calculator) (text : List Char) :
    (∀ m : ℕ, (∀ n p, k.OpensLevel text n p → n < m) →
      k.expression (start text (some m)) = (k.expression (start text none)).under (some m)) ∧
    (∀ m n p : ℕ, k.OpensLevel text n p → m ≤ n → ∃ q stop,
      k.expression (start text (some m)) = .problem (.nestingTooDeep q m) stop ∧
      k.OpensLevel text m q ∧ (∀ n' q', k.OpensLevel text n' q' → m ≤ n' → q ≤ q') ∧
      0 < q ∧ ∃ x ∈ openers, text[q - 1]? = some x) ∧
    (∀ (m : ℕ) (limit : Option ℕ), (∀ l, limit = some l → m ≤ l) →
      (∀ q stop, k.expression (start text (some m)) ≠ .problem (.nestingTooDeep q m) stop) →
      k.expression (start text (limit.map Nat.cast)) =
        (k.expression (start text (some m))).under (limit.map Nat.cast)) ∧
    ∀ r v c, (k.read r v c).stop.depth = c.depth := by
  have hnests : Nests k.expression (start text none) (k.OpensLevel text) :=
    nests_read k .expression (.ofNat 0) rfl
  have hlimited : ∀ m : ℕ, (k.expression (start text none)).Limited m m (k.OpensLevel text)
      (k.expression (start text (some m))) := fun m => hnests.limited m m (Nat.zero_add m)
  have hkept : ∀ m : ℕ, (∀ n p, k.OpensLevel text n p → n < m) →
      k.expression (start text (some m)) = (k.expression (start text none)).under (some m) := by
    intro m hm
    cases hlimited m with
    | kept _ ho => exact ho
    | cut hp => exact absurd (hm m _ hp) (Nat.lt_irrefl m)
  refine ⟨hkept, ?_, ?_, depth_stop_read k⟩
  · intro m n p hp hn
    cases hlimited m with
    | kept hall => exact absurd (hall n p hp) (Nat.not_lt.mpr hn)
    | cut hq hfirst ho => exact ⟨_, _, ho, hq, hfirst, OpensAt.opener hq⟩
  · intro m limit hlimit hdeep
    cases hlimited m with
    | cut hp hfirst ho => exact absurd ho (hdeep _ _)
    | kept hall ho =>
      rw [ho, under_under]
      cases limit with
      | some l => exact hkept l fun n p hp => (hall n p hp).trans_le (hlimit l rfl)
      | none =>
        obtain ⟨n, hn⟩ := hnests.stop
        have hnone : (k.expression (start text none)).stop.limit = none := by
          rw [hn, limit_advance]
          rfl
        exact (under_of_limit_stop hnone).symm

end Calculator

end InfixCalculator
