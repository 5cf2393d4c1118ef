import InfixCalculator.Proofs.Expression.Call

/-! # The discipline of cursors

A cursor can be used in any way, step by step or by whole readings, and goes on from wherever a
reading has failed.

* `Cursor.Action`, `Cursor.Usage`, `Cursor.Usage.step`: what can be done with a cursor, by a user who
  opens and closes blocks of nesting.
* `Cursor.Usage.Disciplined`: the cursor stands in its text, and counts the open blocks.
* `Cursor.Moves`: what an action may do, told without a cursor; `Cursor.Usage.Disciplined.moves`,
  `Cursor.Usage.Disciplined.step`: each action does this and keeps the discipline.
* `Calculator.Visits`: the readings inside a reading, with the levels that are open around them.
* `Cursor.stays_disciplined`: so it is after all actions, and inside all readings. -/

namespace InfixCalculator

namespace Cursor

/-! ### Actions -/

/-- What can be done with a cursor. -/
inductive Action where
  | peek
  | accept (chars : List Char)
  | advance (n : ℕ)
  /-- A block of nesting is opened. -/
  | enter
  /-- The innermost block of nesting is closed. -/
  | leave
  | number
  /-- A rule of the grammar is read, behind the value `v` if it is a repetition. -/
  | read (r : Rule) (v : Decimal)

/-- What is reported of an action. -/
inductive Report where
  | done
  | char (x : Option Char)
  | value (v : Decimal)
  | fault (f : Fault)

/-- A cursor in use. -/
structure Usage where
  cursor : Cursor
  /-- How many blocks of nesting its user has open. -/
  blocks : ℕ

/-- What is reported of a reading. -/
def Report.ofOutcome : Outcome → Report
  | .value v _ => value v
  | .fault f _ => fault f

namespace Usage

/-- A new cursor, of which nothing has been made yet. -/
def start (text : List Char) (limit : Option ℕ) : Usage := ⟨.start text (limit.map Nat.cast), 0⟩

/-- The user goes on where a reading has stopped, with a value or a fault. -/
def behind (u : Usage) (o : Outcome) : Report × Usage := (.ofOutcome o, { u with cursor := o.stop })

/-- What an action does. A block can be closed only if one is open. -/
def step (k : Calculator) (u : Usage) : Action → Report × Usage
  | .peek => (.char u.cursor.peek, u)
  | .accept chars =>
    match u.cursor.accept? chars with
    | some (x, d) => (.char (some x), { u with cursor := d })
    | none => (.char none, u)
  | .advance n => (.done, { u with cursor := u.cursor.advance n })
  | .enter =>
    match u.cursor.enter? with
    | .ok d => (.done, ⟨d, u.blocks + 1⟩)
    | .error p => (.fault (.problem p), u)
  | .leave => (.done, if u.blocks = 0 then u else ⟨u.cursor.leave, u.blocks - 1⟩)
  | .number => u.behind u.cursor.number
  | .read r v => u.behind (k.read r v u.cursor)

/-- What several actions do, one after another, whatever is reported of them. -/
def run (k : Calculator) (u : Usage) (actions : List Action) : Usage :=
  actions.foldl (fun u action => (u.step k action).2) u

/-- **The cursor is disciplined**: it stands in its text, counts the blocks that are open, and no more
of them are open than the limit allows. -/
structure Disciplined (text : List Char) (limit : Option ℕ) (u : Usage) : Prop where
  text_eq : u.cursor.text = text
  limit_eq : u.cursor.limit = limit.map Nat.cast
  rest_eq : u.cursor.rest = text.drop u.cursor.position
  position_le : u.cursor.position ≤ text.length
  depth_eq : u.cursor.depth = u.blocks
  blocks_le : ∀ m, limit = some m → u.blocks ≤ m

end Usage

/-- **What an action may do**, told by the position `p` in the text and the number `n` of open blocks
alone: what is reported, and the position and the number afterwards. Readings go forward and close all
the blocks that they open. -/
inductive Moves (text : List Char) (limit : Option ℕ) (p n : ℕ) : Action → Report → ℕ → ℕ → Prop
  | peek : Moves text limit p n .peek (.char text[p]?) p n
  | accepts {chars : List Char} {x : Char} (hx : text[p]? = some x) (hmem : x ∈ chars) :
    Moves text limit p n (.accept chars) (.char (some x)) (p + 1) n
  | refuses {chars : List Char} (h : ∀ x, text[p]? = some x → x ∉ chars) :
    Moves text limit p n (.accept chars) (.char none) p n
  | advances (m : ℕ) : Moves text limit p n (.advance m) .done (min (p + m) text.length) n
  | enters (h : ∀ m, limit = some m → n < m) : Moves text limit p n .enter .done p (n + 1)
  | tooDeep (h : limit = some n) :
    Moves text limit p n .enter (.fault (.problem (.nestingTooDeep p n))) p n
  | leaves {m : ℕ} (h : n = m + 1) : Moves text limit p n .leave .done p m
  | nothingToLeave (h : n = 0) : Moves text limit p n .leave .done p n
  | number {report : Report} {q : ℕ} (hp : p ≤ q) (hq : q ≤ text.length) :
    Moves text limit p n .number report q n
  | read {r : Rule} {v : Decimal} {report : Report} {q : ℕ} (hp : p ≤ q) (hq : q ≤ text.length) :
    Moves text limit p n (.read r v) report q n

variable {k : Calculator} {u : Usage} {c d : Cursor} {text : List Char} {limit : Option ℕ} {n : ℕ}

/-! ### Each action -/

theorem peek_eq_getElem? (c : Cursor) : c.peek = c.text[c.position]? := by
  rw [peek, rest_eq_drop, List.head?_drop]

theorem position_advance_eq_min (n : ℕ) (c : Cursor) :
    (c.advance n).position = min (c.position + n) c.text.length := by
  have hc := c.position_add_left
  have hd := (c.advance n).position_add_left
  rw [left_advance, text_advance] at hd
  omega

/-- A number literal is scanned forward. -/
theorem reaches_number (c : Cursor) : c.Reaches 0 c.number.stop := by
  obtain ⟨xs, h⟩ := online_number c
  rw [h.spans.stop]
  exact c.reaches_advance xs.length

namespace Usage

theorem disciplined_start (text : List Char) (limit : Option ℕ) :
    (start text limit).Disciplined text limit where
  text_eq := rfl
  limit_eq := rfl
  rest_eq := (Cursor.start text _).rest_eq_drop
  position_le := by
    rw [start, position_start]
    exact Nat.zero_le _
  depth_eq := rfl
  blocks_le _ _ := Nat.zero_le _

/-- **Moves forward keep the discipline**, if the blocks that they leave open are counted. -/
theorem Disciplined.reaches (h : u.Disciplined text limit) (hd : u.cursor.Reaches n d) :
    Disciplined text limit ⟨d, u.blocks + n⟩ where
  text_eq := hd.text.trans h.text_eq
  limit_eq := hd.limit.trans h.limit_eq
  rest_eq := by rw [← h.text_eq, ← hd.text]; exact d.rest_eq_drop
  position_le := by
    have hposition := d.position_add_left
    rw [hd.text, h.text_eq] at hposition
    dsimp only
    omega
  depth_eq := by rw [hd.depth, h.depth_eq]
  blocks_le m hm := by
    have hlimit : u.cursor.limit = some (m : ℤ) := by rw [h.limit_eq, hm, Option.map_some]
    have hwithin := hd.within m hlimit (by rw [h.depth_eq]; exact_mod_cast h.blocks_le m hm)
    rw [hd.depth, h.depth_eq] at hwithin
    exact_mod_cast hwithin

theorem Disciplined.leave (h : u.Disciplined text limit) :
    Disciplined text limit ⟨u.cursor.leave, u.blocks - 1⟩ where
  text_eq := h.text_eq
  limit_eq := h.limit_eq
  rest_eq := h.rest_eq
  position_le := h.position_le
  depth_eq := congrArg (· - 1) h.depth_eq
  blocks_le m hm := (Nat.sub_le _ _).trans (h.blocks_le m hm)

/-- **Each action keeps the discipline.** -/
theorem Disciplined.step (h : u.Disciplined text limit) (action : Action) :
    (u.step k action).2.Disciplined text limit := by
  cases action with
  | peek => exact h
  | accept chars =>
    rw [Usage.step]
    split
    · rename_i x d hx
      exact h.reaches (reaches_of_accept? hx)
    · exact h
  | advance n => exact h.reaches (u.cursor.reaches_advance n)
  | enter =>
    rw [Usage.step]
    split
    · rename_i d hd
      exact h.reaches (reaches_of_enter? hd)
    · exact h
  | leave =>
    rw [Usage.step]
    dsimp only
    split_ifs
    · exact h
    · exact h.leave
  | number => exact h.reaches u.cursor.reaches_number
  | read r v => exact h.reaches (k.reaches_stop r v u.cursor)

/-- **Each action does what it may do.** -/
theorem Disciplined.moves (h : u.Disciplined text limit) (action : Action) :
    Moves text limit u.cursor.position u.blocks action (u.step k action).1
      (u.step k action).2.cursor.position (u.step k action).2.blocks := by
  have hahead : u.cursor.rest.head? = text[u.cursor.position]? := by
    rw [← h.text_eq]
    exact u.cursor.peek_eq_getElem?
  have hstep := (h.step (k := k) action).position_le
  cases action with
  | peek =>
    show Moves text limit _ _ _ (.char u.cursor.rest.head?) _ _
    rw [hahead]
    exact .peek
  | accept chars =>
    rw [Usage.step]
    cases hop : u.cursor.accept? chars with
    | none => exact .refuses fun x hx => accept?_eq_none_iff.mp hop x (hahead.trans hx)
    | some accepted =>
      obtain ⟨x, d⟩ := accepted
      obtain ⟨hmem, hhead, -⟩ := accept?_eq_some_iff.mp hop
      have hposition : d.position = u.cursor.position + 1 := (spans_of_accept? hop).position
      dsimp only
      rw [hposition]
      exact .accepts (hahead.symm.trans hhead) hmem
  | advance n =>
    show Moves text limit _ _ _ .done (u.cursor.advance n).position _
    rw [position_advance_eq_min, h.text_eq]
    exact .advances n
  | enter =>
    rw [Usage.step]
    cases henter : u.cursor.enter? with
    | ok d =>
      obtain ⟨hroom, rfl⟩ := enter?_eq_ok_iff.mp henter
      refine .enters fun m hm => ?_
      have hless := hroom m (by rw [h.limit_eq, hm, Option.map_some])
      rw [h.depth_eq] at hless
      exact_mod_cast hless
    | error p =>
      obtain ⟨l, hl, hle, rfl⟩ := enter?_eq_error_iff.mp henter
      rw [h.limit_eq, Option.map_eq_some_iff] at hl
      obtain ⟨m, hm, rfl⟩ := hl
      have hfull : m = u.blocks := by
        have hblocks := h.blocks_le m hm
        rw [h.depth_eq] at hle
        omega
      subst hfull
      exact .tooDeep hm
  | leave =>
    rw [Usage.step]
    dsimp only
    split_ifs with hblocks
    · exact .nothingToLeave hblocks
    · exact .leaves (Nat.succ_pred_eq_of_ne_zero hblocks).symm
  | number => exact .number u.cursor.reaches_number.position hstep
  | read r v => exact .read (k.reaches_stop r v u.cursor).position hstep

theorem Disciplined.run (h : u.Disciplined text limit) (actions : List Action) :
    (u.run k actions).Disciplined text limit := by
  induction actions generalizing u with
  | nil => exact h
  | cons action actions ih => exact ih (h.step action)

/-- What is refused changes nothing. -/
theorem step_of_refused (k : Calculator) (u : Usage) :
    (∀ chars, (u.step k (.accept chars)).1 = .char none → (u.step k (.accept chars)).2 = u) ∧
      ∀ f, (u.step k .enter).1 = .fault f → (u.step k .enter).2 = u := by
  constructor
  · intro chars h
    rw [Usage.step] at h ⊢
    cases hop : u.cursor.accept? chars with
    | none => rfl
    | some accepted =>
      rw [hop] at h
      cases h
  · intro f h
    rw [Usage.step] at h ⊢
    cases henter : u.cursor.enter? with
    | error p => rfl
    | ok d =>
      rw [henter] at h
      cases h

end Usage

/-- Nothing goes back. -/
theorem Moves.position_le {p q m : ℕ} {action : Action} {report : Report}
    (h : Moves text limit p n action report q m) (hp : p ≤ text.length) : p ≤ q := by
  cases h with
  | advances m => omega
  | number hq _ | read hq _ => exact hq
  | accepts => exact Nat.le_succ p
  | _ => exact Nat.le_refl p

end Cursor

/-! ### Inside readings -/

namespace Calculator

/-- **The readings inside a reading**: those that it calls, those that these call, and so on, each with
the number of levels that the reading has open around it. -/
inductive Visits (k : Calculator) (x : Reading) : ℕ → Reading → Prop
  | here : Visits k x 0 x
  | call {m n : ℕ} {y z : Reading} (h : Visits k x m y) (hcall : k.Calls y n z) :
    Visits k x (m + n) z

theorem Visits.reaches {k : Calculator} {x y : Reading} {n : ℕ} (h : k.Visits x n y) :
    x.start.Reaches n y.start := by
  induction h with
  | here => exact x.start.reaches_self
  | call _ hcall ih => exact ih.trans hcall.reaches

end Calculator

namespace Cursor

/-- **A cursor stays disciplined** whatever is done with it, step by step and by readings, and whether
it succeeds or fails: it stands in its text, its depth is the number of the blocks that are open, and
these are never more than the limit allows. Each action does what it may do: it goes forward only, and
readings close all blocks that they open. What only looks or is refused changes nothing. Inside a
reading it is the same wherever a rule is read, with the levels that the reading has open there. -/
theorem stays_disciplined (k : Calculator) (text : List Char) (limit : Option ℕ)
    (actions : List Action) :
    let u := (Usage.start text limit).run k actions
    u.Disciplined text limit ∧
    (∀ action,
      Moves text limit u.cursor.position u.cursor.depth action (u.step k action).1
        (u.step k action).2.cursor.position (u.step k action).2.cursor.depth ∧
      u.cursor.position ≤ (u.step k action).2.cursor.position) ∧
    (u.step k .peek).2 = u ∧
    (∀ chars, (u.step k (.accept chars)).1 = .char none → (u.step k (.accept chars)).2 = u) ∧
    (∀ f, (u.step k .enter).1 = .fault f → (u.step k .enter).2 = u) ∧
    ∀ r v n y, k.Visits ⟨r, v, u.cursor⟩ n y →
      u.cursor.position ≤ y.start.position ∧
        Usage.Disciplined text limit ⟨y.start, u.blocks + n⟩ := by
  intro u
  have hu : u.Disciplined text limit := (Usage.disciplined_start text limit).run actions
  obtain ⟨haccept, henter⟩ := u.step_of_refused k
  refine ⟨hu, fun action => ?_, rfl, haccept, henter, fun r v n y hy => ?_⟩
  · have hmoves := hu.moves (k := k) action
    rw [hu.depth_eq, (hu.step action).depth_eq]
    exact ⟨hmoves, hmoves.position_le hu.position_le⟩
  · exact ⟨hy.reaches.position, hu.reaches hy.reaches⟩

end Cursor

end InfixCalculator
