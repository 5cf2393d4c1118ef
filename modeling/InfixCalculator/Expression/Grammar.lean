import InfixCalculator.Expression.Literal

/-! # The grammar

Expressions are evaluated while they are read, from left to right and without a syntax tree:

    expression = term { ("+" | "-") term }
    term       = exponent { ("*" | "/") exponent }
    exponent   = primary [ "^" exponent ]
    primary    = [ "+" | "-" ] operand
    operand    = "√" primary | "(" expression ")" | number

Sums and products group to the left, powers to the right, and a sign covers its whole operand. The
operand of a root, the inside of a group and the right side of a power are one level deeper.

* `Calculator.expression`, `Calculator.term`, `Calculator.exponent`, `Calculator.primary`: the rules
  as functions of a cursor; `Calculator.sumTail` and `Calculator.productTail` read the repetitions
  after a running value, and `Calculator.operand` what a sign may precede.
* `Calculator.expression_eq` and its like: one equation for each, in the form of its rule. -/

namespace InfixCalculator

/-- How a calculator computes. -/
structure Calculator where
  precision : Precision
  functions : Double.Functions

namespace Calculator

/-! ## Operations -/

/-- The result of an operation of the arithmetic. -/
def arithmeticResult (result : Except Signal Decimal) : Except Fault Decimal :=
  result.mapError .signal

/-- The result of a power or a root. -/
def powerResult (result : Except PowerError Decimal) : Except Fault Decimal :=
  result.mapError fun e => .problem (.power e)

/-- The value of `+` or `-` between two operands. -/
def addOrSub (k : Calculator) (op : Char) (a b : Decimal) : Except Fault Decimal :=
  arithmeticResult (if op = '+' then a.add k.precision b else a.sub k.precision b)

/-- The value of `*` or `/` between two operands, the operator standing at the cursor `place`. -/
def mulOrDiv (k : Calculator) (op : Char) (place : Cursor) (a b : Decimal) : Except Fault Decimal :=
  if op = '*' then arithmeticResult (a.mul k.precision b)
  else if b.isZero then .error (.problem (.divisionByZero place.position))
  else arithmeticResult (a.div k.precision b)

/-- The value behind a sign. -/
def signed (sign : Char) (v : Decimal) : Decimal := if sign = '-' then v.neg else v

/-! ## Recursive descent -/

namespace Descent

mutual

/-- Reads an expression. -/
def expression (k : Calculator) (c : Cursor) : Progress c.left :=
  (term k c).andThen fun v d h => (sumTail k v d).weaken h
termination_by (c.left, 4)

/-- Reads the further terms of a sum. -/
def sumTail (k : Calculator) (v : Decimal) (c : Cursor) : Progress (c.left + 1) :=
  match h : c.accept? ['+', '-'] with
  | none => .value v c (Nat.lt_succ_self _)
  | some (op, d) =>
    have hd : d.left < c.left := Cursor.left_of_accept? h
    (term k d).andThen fun w e he =>
      (Progress.of (n := d.left) (k.addOrSub op v w) e he).andThen fun s f hf =>
        (sumTail k s f).weaken (by omega)
termination_by (c.left, 0)

/-- Reads a term. -/
def term (k : Calculator) (c : Cursor) : Progress c.left :=
  (exponent k c).andThen fun v d h => (productTail k v d).weaken h
termination_by (c.left, 3)

/-- Reads the further factors of a product. -/
def productTail (k : Calculator) (v : Decimal) (c : Cursor) : Progress (c.left + 1) :=
  match h : c.accept? ['*', '/'] with
  | none => .value v c (Nat.lt_succ_self _)
  | some (op, d) =>
    have hd : d.left < c.left := Cursor.left_of_accept? h
    (exponent k d).andThen fun w e he =>
      (Progress.of (n := d.left) (k.mulOrDiv op c v w) e he).andThen fun s f hf =>
        (productTail k s f).weaken (by omega)
termination_by (c.left, 0)

/-- Reads a primary and the exponent it may have. -/
def exponent (k : Calculator) (c : Cursor) : Progress c.left :=
  (primary k c).andThen fun base d hd =>
    match h : d.accept? ['^'] with
    | none => .value base d hd
    | some (_, e) =>
      have he : e.left < d.left := Cursor.left_of_accept? h
      match h' : e.enter? with
      | .error p => .problem p e
      | .ok f =>
        have hf : f.left = e.left := Cursor.left_of_enter? h'
        (exponent k f).leave.andThen fun power g hg =>
          .of (powerResult (base.power k.functions power)) g (by omega)
termination_by (c.left, 2)

/-- Reads an operand and the sign it may have. -/
def primary (k : Calculator) (c : Cursor) : Progress c.left :=
  match h : c.accept? ['+', '-'] with
  | none => operand k c
  | some (sign, d) =>
    have hd : d.left < c.left := Cursor.left_of_accept? h
    ((operand k d).map (signed sign)).weaken (by omega)
termination_by (c.left, 1)

/-- Reads a root, a group or a number. -/
def operand (k : Calculator) (c : Cursor) : Progress c.left :=
  match h : c.accept? [rootSign] with
  | some (_, d) =>
    have hd : d.left < c.left := Cursor.left_of_accept? h
    match h' : d.enter? with
    | .error p => .problem p d
    | .ok e =>
      have he : e.left = d.left := Cursor.left_of_enter? h'
      (primary k e).leave.andThen fun v f hf =>
        .of (powerResult (v.squareRoot k.functions)) f (by omega)
  | none =>
    match h : c.accept? [openParen] with
    | some (_, d) =>
      have hd : d.left < c.left := Cursor.left_of_accept? h
      match h' : d.enter? with
      | .error p => .problem p d
      | .ok e =>
        have he : e.left = d.left := Cursor.left_of_enter? h'
        (expression k e).leave.andThen fun v f hf =>
          match h'' : f.accept? [closeParen] with
          | some (_, g) =>
            .value v g (by have hg : g.left < f.left := Cursor.left_of_accept? h''; omega)
          | none => .problem (.unclosedGroup c.position) f
    | none => ⟨c.number, c.leavesBelow_number⟩
termination_by (c.left, 0)

end

end Descent

/-! ## The rules -/

/-- The value of an expression. -/
def expression (k : Calculator) (c : Cursor) : Outcome := (Descent.expression k c).1

/-- The value of the sum that `v` begins. -/
def sumTail (k : Calculator) (v : Decimal) (c : Cursor) : Outcome := (Descent.sumTail k v c).1

/-- The value of a term. -/
def term (k : Calculator) (c : Cursor) : Outcome := (Descent.term k c).1

/-- The value of the product that `v` begins. -/
def productTail (k : Calculator) (v : Decimal) (c : Cursor) : Outcome :=
  (Descent.productTail k v c).1

/-- The value of a primary and the exponent it may have. -/
def exponent (k : Calculator) (c : Cursor) : Outcome := (Descent.exponent k c).1

/-- The value of an operand and the sign it may have. -/
def primary (k : Calculator) (c : Cursor) : Outcome := (Descent.primary k c).1

/-- The value of a root, a group or a number. -/
def operand (k : Calculator) (c : Cursor) : Outcome := (Descent.operand k c).1

variable (k : Calculator) (v : Decimal) (c : Cursor)

theorem expression_eq : k.expression c = (k.term c).andThen fun v d => k.sumTail v d := by
  rw [expression, Descent.expression]
  exact Progress.val_andThen _ _ _ fun _ _ _ => rfl

theorem sumTail_eq : k.sumTail v c =
    match c.accept? ['+', '-'] with
    | none => .value v c
    | some (op, d) => (k.term d).andThen fun w e =>
      (Outcome.of (k.addOrSub op v w) e).andThen fun s f => k.sumTail s f := by
  rw [sumTail, Descent.sumTail]
  split
  · rename_i h
    conv => rhs; rw [h]
    rfl
  · rename_i op d h
    conv => rhs; rw [h]
    refine Progress.val_andThen _ _ _ fun w e he => ?_
    rw [← Progress.val_of (n := d.left) _ e he]
    exact Progress.val_andThen _ _ _ fun _ _ _ => rfl

theorem term_eq : k.term c = (k.exponent c).andThen fun v d => k.productTail v d := by
  rw [term, Descent.term]
  exact Progress.val_andThen _ _ _ fun _ _ _ => rfl

theorem productTail_eq : k.productTail v c =
    match c.accept? ['*', '/'] with
    | none => .value v c
    | some (op, d) => (k.exponent d).andThen fun w e =>
      (Outcome.of (k.mulOrDiv op c v w) e).andThen fun s f => k.productTail s f := by
  rw [productTail, Descent.productTail]
  split
  · rename_i h
    conv => rhs; rw [h]
    rfl
  · rename_i op d h
    conv => rhs; rw [h]
    refine Progress.val_andThen _ _ _ fun w e he => ?_
    rw [← Progress.val_of (n := d.left) _ e he]
    exact Progress.val_andThen _ _ _ fun _ _ _ => rfl

theorem exponent_eq : k.exponent c =
    (k.primary c).andThen fun base d =>
      match d.accept? ['^'] with
      | none => .value base d
      | some (_, e) =>
        match e.enter? with
        | .error p => .problem p e
        | .ok f => (k.exponent f).leave.andThen fun power g =>
          .of (powerResult (base.power k.functions power)) g := by
  rw [exponent, Descent.exponent]
  refine Progress.val_andThen _ _ _ fun base d hd => ?_
  split
  · rename_i h
    conv => rhs; rw [h]
    rfl
  · rename_i h
    conv => rhs; rw [h]
    dsimp only
    split
    · rename_i h'
      conv => rhs; rw [h']
      rfl
    · rename_i h'
      conv => rhs; rw [h']
      exact Progress.val_andThen _ _ _ fun _ _ _ => Progress.val_of _ _ _

theorem primary_eq : k.primary c =
    match c.accept? ['+', '-'] with
    | none => k.operand c
    | some (sign, d) => (k.operand d).map (signed sign) := by
  rw [primary, Descent.primary]
  split
  · rename_i h
    conv => rhs; rw [h]
    rfl
  · rename_i h
    conv => rhs; rw [h]
    rfl

theorem operand_eq : k.operand c =
    match c.accept? [rootSign] with
    | some (_, d) =>
      match d.enter? with
      | .error p => .problem p d
      | .ok e =>
        (k.primary e).leave.andThen fun v f => .of (powerResult (v.squareRoot k.functions)) f
    | none =>
      match c.accept? [openParen] with
      | some (_, d) =>
        match d.enter? with
        | .error p => .problem p d
        | .ok e => (k.expression e).leave.andThen fun v f =>
          match f.accept? [closeParen] with
          | some (_, g) => .value v g
          | none => .problem (.unclosedGroup c.position) f
      | none => c.number := by
  rw [operand, Descent.operand]
  split
  · rename_i h
    conv => rhs; rw [h]
    dsimp only
    split
    · rename_i h'
      conv => rhs; rw [h']
      rfl
    · rename_i h'
      conv => rhs; rw [h']
      exact Progress.val_andThen _ _ _ fun _ _ _ => Progress.val_of _ _ _
  · rename_i h
    conv => rhs; rw [h]
    dsimp only
    split
    · rename_i h'
      conv => rhs; rw [h']
      dsimp only
      split
      · rename_i h''
        conv => rhs; rw [h'']
        rfl
      · rename_i h''
        conv => rhs; rw [h'']
        refine Progress.val_andThen _ _ _ fun v f _ => ?_
        split
        · rename_i h3
          conv => rhs; rw [h3]
          rfl
        · rename_i h3
          conv => rhs; rw [h3]
          rfl
    · rename_i h'
      conv => rhs; rw [h']

end Calculator

end InfixCalculator
