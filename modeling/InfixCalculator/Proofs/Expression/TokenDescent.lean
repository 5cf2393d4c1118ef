import InfixCalculator.Proofs.Expression.Lexemes
import InfixCalculator.Proofs.Expression.Meaning

/-! # Recursive descent over tokens

The grammar once more, with tokens in place of characters: nothing here sees the text.

* `acceptToken?`, `numberToken`: the token ahead as a single character, or as a number.
* `TokenDescent.read`: the rules as functions of the tokens ahead; `Calculator.readTokens` is what
  they read, and `readTokens_expression` and its like are one equation for each rule.
* `Tokens.evaluate`: the value of a sequence of tokens. -/

namespace InfixCalculator

/-! ### The token ahead -/

/-- The first token and those behind it, if it is one of the given characters. -/
def acceptToken? (chars : List Char) : List Token → Option (Char × List Token)
  | [] => none
  | token :: ts =>
    match token.text with
    | [x] => if x ∈ chars then some (x, ts) else none
    | _ => none

theorem length_lt_of_acceptToken? {chars : List Char} {ts us : List Token} {x : Char}
    (h : acceptToken? chars ts = some (x, us)) : us.length < ts.length := by
  cases ts with
  | nil => cases h
  | cons token ts =>
    rw [acceptToken?] at h
    split at h
    · split_ifs at h
      cases h
      exact Nat.lt_succ_self _
    · cases h

/-- The value of the text of a number token. -/
def numberText (text : List Char) : Except ErrorKind Decimal :=
  if 1 < text.count point then .error .multipleDecimalPoints
  else match Decimal.ofPlain? text with
    | some v => .ok v
    | none => .error .invalidNumber

/-- The value of the number token ahead and the tokens behind it. Without any token ahead, the error
is `missing`. -/
def numberToken (missing : ErrorKind) : (ts : List Token) →
    Except ErrorKind { p : Decimal × List Token // p.2.length < ts.length }
  | [] => .error missing
  | token :: ts =>
    if token.kind = .number then
      (numberText token.text).map fun v => ⟨(v, ts), Nat.lt_succ_self _⟩
    else .error .invalidNumber

/-- The sign that a character writes. -/
def Sign.ofChar (x : Char) : Sign := if x = '-' then minus else plus

/-- The operator that a character writes. -/
def Scale.ofChar (x : Char) : Scale := if x = '*' then times else divided

theorem Sign.ofChar_char (s : Sign) : ofChar s.char = s := by cases s <;> decide

theorem Scale.ofChar_char (s : Scale) : ofChar s.char = s := by cases s <;> decide

/-! ### The descent -/

/-- Only repetitions may read nothing. -/
def Rule.slack : Rule → ℕ
  | .sumTail | .productTail => 1
  | _ => 0

/-- How many rules are below the rule, before it reads a character. -/
def Rule.height : Rule → ℕ
  | .expression => 4
  | .term => 3
  | .exponent => 2
  | .primary => 1
  | .operand | .sumTail | .productTail => 0

namespace TokenDescent

/-- A value with the tokens behind it, of which there are fewer than `n`, or the kind of an error. -/
abbrev Parse (n : ℕ) : Type := Except ErrorKind { p : Decimal × List Token // p.2.length < n }

/-- What a rule reads from the tokens ahead, with so many levels left to be opened. -/
def read (k : Calculator) (missing : ErrorKind) (room : ℕ) (r : Rule) (v : Decimal)
    (ts : List Token) : Parse (ts.length + r.slack) :=
  match r with
  | .expression => do
    let ⟨(w, us), hu⟩ ← read k missing room .term v ts
    let ⟨p, hp⟩ ← read k missing room .sumTail w us
    return ⟨p, by simp only [Rule.slack] at hu hp ⊢; omega⟩
  | .sumTail =>
    match h : acceptToken? ['+', '-'] ts with
    | none => return ⟨(v, ts), Nat.lt_succ_self _⟩
    | some (op, us) => do
      have hu := length_lt_of_acceptToken? h
      let ⟨(w, vs), hv⟩ ← read k missing room .term v us
      let s ← (Sign.ofChar op).combine k v w
      let ⟨p, hp⟩ ← read k missing room .sumTail s vs
      return ⟨p, by simp only [Rule.slack] at hv hp ⊢; omega⟩
  | .term => do
    let ⟨(w, us), hu⟩ ← read k missing room .exponent v ts
    let ⟨p, hp⟩ ← read k missing room .productTail w us
    return ⟨p, by simp only [Rule.slack] at hu hp ⊢; omega⟩
  | .productTail =>
    match h : acceptToken? ['*', '/'] ts with
    | none => return ⟨(v, ts), Nat.lt_succ_self _⟩
    | some (op, us) => do
      have hu := length_lt_of_acceptToken? h
      let ⟨(w, vs), hv⟩ ← read k missing room .exponent v us
      let s ← (Scale.ofChar op).combine k v w
      let ⟨p, hp⟩ ← read k missing room .productTail s vs
      return ⟨p, by simp only [Rule.slack] at hv hp ⊢; omega⟩
  | .exponent => do
    let ⟨(b, us), hu⟩ ← read k missing room .primary v ts
    match h : acceptToken? ['^'] us with
    | none => return ⟨(b, us), hu⟩
    | some (_, vs) =>
      have hv := length_lt_of_acceptToken? h
      let ⟨(w, ws), hw⟩ ← Tree.deeper room fun room => read k missing room .exponent v vs
      let x ← (b.power k.functions w).mapError PowerError.kind
      return ⟨(x, ws), by simp only [Rule.slack] at hu hw ⊢; omega⟩
  | .primary =>
    match h : acceptToken? ['+', '-'] ts with
    | none => read k missing room .operand v ts
    | some (x, us) => do
      have hu := length_lt_of_acceptToken? h
      let ⟨(w, vs), hv⟩ ← read k missing room .operand v us
      return ⟨((Sign.ofChar x).apply w, vs), by simp only [Rule.slack] at hv ⊢; omega⟩
  | .operand =>
    match h : acceptToken? [rootSign] ts with
    | some (_, us) => do
      have hu := length_lt_of_acceptToken? h
      let ⟨(w, vs), hv⟩ ← Tree.deeper room fun room => read k missing room .primary v us
      let x ← (w.squareRoot k.functions).mapError PowerError.kind
      return ⟨(x, vs), by simp only [Rule.slack] at hv ⊢; omega⟩
    | none =>
      match h' : acceptToken? [openParen] ts with
      | some (_, us) => do
        have hu := length_lt_of_acceptToken? h'
        let ⟨(w, vs), hv⟩ ← Tree.deeper room fun room => read k missing room .expression v us
        match h'' : acceptToken? [closeParen] vs with
        | some (_, ws) =>
          have hw := length_lt_of_acceptToken? h''
          return ⟨(w, ws), by simp only [Rule.slack] at hv ⊢; omega⟩
        | none => .error .unmatchedParenthesis
      | none => numberToken missing ts
termination_by (ts.length, r.height)
decreasing_by all_goals simp only [Rule.slack, Rule.height] at *; omega

/-! ### The rules -/

variable {α β : Type} {P : α → Prop} {Q : β → Prop}

theorem map_val_bind {m : Except ErrorKind { x // P x }}
    {f : { x // P x } → Except ErrorKind { y // Q y }} {g : α → Except ErrorKind β}
    (h : ∀ x hx, (f ⟨x, hx⟩).map Subtype.val = g x) :
    (m >>= f).map Subtype.val = m.map Subtype.val >>= g := by
  cases m with
  | error e => rfl
  | ok x => exact h x.1 x.2

theorem map_val_bind_right {m : Except ErrorKind α} {f : α → Except ErrorKind { y // Q y }}
    {g : α → Except ErrorKind β} (h : ∀ x, (f x).map Subtype.val = g x) :
    (m >>= f).map Subtype.val = m >>= g := by
  cases m with
  | error e => rfl
  | ok x => exact h x

theorem map_val_deeper {room : ℕ} {inside : ℕ → Except ErrorKind { x // P x }} :
    (Tree.deeper room inside).map Subtype.val =
      Tree.deeper room fun n => (inside n).map Subtype.val := by
  cases room <;> rfl

end TokenDescent

namespace Calculator

open TokenDescent

/-- What a rule reads from the tokens ahead: a value with the tokens behind it, or the kind of an
error. -/
def readTokens (k : Calculator) (missing : ErrorKind) (room : ℕ) (r : Rule) (v : Decimal)
    (ts : List Token) : Except ErrorKind (Decimal × List Token) :=
  (TokenDescent.read k missing room r v ts).map Subtype.val

variable (k : Calculator) (missing : ErrorKind) (room : ℕ) (v : Decimal) (ts : List Token)

theorem readTokens_expression : k.readTokens missing room .expression v ts =
    k.readTokens missing room .term v ts >>= fun p =>
      k.readTokens missing room .sumTail p.1 p.2 := by
  rw [readTokens, TokenDescent.read]
  refine map_val_bind fun p hp => ?_
  exact (map_val_bind (g := pure) fun _ _ => rfl).trans (bind_pure _)

theorem readTokens_sumTail : k.readTokens missing room .sumTail v ts =
    match acceptToken? ['+', '-'] ts with
    | none => .ok (v, ts)
    | some (op, us) => k.readTokens missing room .term v us >>= fun p =>
      (Sign.ofChar op).combine k v p.1 >>= fun s => k.readTokens missing room .sumTail s p.2 := by
  rw [readTokens, TokenDescent.read]
  dsimp only
  split
  · rename_i h
    conv => rhs; rw [h]
    rfl
  · rename_i h
    conv => rhs; rw [h]
    refine map_val_bind fun p hp => map_val_bind_right fun s => ?_
    exact (map_val_bind (g := pure) fun _ _ => rfl).trans (bind_pure _)

theorem readTokens_term : k.readTokens missing room .term v ts =
    k.readTokens missing room .exponent v ts >>= fun p =>
      k.readTokens missing room .productTail p.1 p.2 := by
  rw [readTokens, TokenDescent.read]
  refine map_val_bind fun p hp => ?_
  exact (map_val_bind (g := pure) fun _ _ => rfl).trans (bind_pure _)

theorem readTokens_productTail : k.readTokens missing room .productTail v ts =
    match acceptToken? ['*', '/'] ts with
    | none => .ok (v, ts)
    | some (op, us) => k.readTokens missing room .exponent v us >>= fun p =>
      (Scale.ofChar op).combine k v p.1 >>= fun s =>
        k.readTokens missing room .productTail s p.2 := by
  rw [readTokens, TokenDescent.read]
  dsimp only
  split
  · rename_i h
    conv => rhs; rw [h]
    rfl
  · rename_i h
    conv => rhs; rw [h]
    refine map_val_bind fun p hp => map_val_bind_right fun s => ?_
    exact (map_val_bind (g := pure) fun _ _ => rfl).trans (bind_pure _)

theorem readTokens_exponent : k.readTokens missing room .exponent v ts =
    k.readTokens missing room .primary v ts >>= fun p =>
      match acceptToken? ['^'] p.2 with
      | none => .ok p
      | some (_, us) =>
        Tree.deeper room (fun room => k.readTokens missing room .exponent v us) >>= fun q =>
          (p.1.power k.functions q.1).mapError PowerError.kind >>= fun x => .ok (x, q.2) := by
  rw [readTokens, TokenDescent.read]
  refine map_val_bind fun p hp => ?_
  dsimp only
  split
  · rename_i h
    conv => rhs; rw [h]
    rfl
  · rename_i h
    conv => rhs; rw [h]
    dsimp only
    simp only [readTokens, ← map_val_deeper]
    exact map_val_bind fun q hq => map_val_bind_right fun x => rfl

theorem readTokens_primary : k.readTokens missing room .primary v ts =
    match acceptToken? ['+', '-'] ts with
    | none => k.readTokens missing room .operand v ts
    | some (x, us) => k.readTokens missing room .operand v us >>= fun p =>
      .ok ((Sign.ofChar x).apply p.1, p.2) := by
  rw [readTokens, TokenDescent.read]
  dsimp only
  split
  · rename_i h
    conv => rhs; rw [h]
    rfl
  · rename_i h
    conv => rhs; rw [h]
    exact map_val_bind fun p hp => rfl

theorem readTokens_operand : k.readTokens missing room .operand v ts =
    match acceptToken? [rootSign] ts with
    | some (_, us) =>
      Tree.deeper room (fun room => k.readTokens missing room .primary v us) >>= fun p =>
        (p.1.squareRoot k.functions).mapError PowerError.kind >>= fun x => .ok (x, p.2)
    | none =>
      match acceptToken? [openParen] ts with
      | some (_, us) =>
        Tree.deeper room (fun room => k.readTokens missing room .expression v us) >>= fun p =>
          match acceptToken? [closeParen] p.2 with
          | some (_, vs) => .ok (p.1, vs)
          | none => .error .unmatchedParenthesis
      | none => (numberToken missing ts).map Subtype.val := by
  rw [readTokens, TokenDescent.read]
  dsimp only
  split
  · rename_i h
    conv => rhs; rw [h]
    dsimp only
    simp only [readTokens, ← map_val_deeper]
    exact map_val_bind fun q hq => map_val_bind_right fun x => rfl
  · rename_i h
    conv => rhs; rw [h]
    dsimp only
    split
    · rename_i h'
      conv => rhs; rw [h']
      dsimp only
      simp only [readTokens, ← map_val_deeper]
      refine map_val_bind fun q hq => ?_
      dsimp only
      split
      · rename_i h''
        conv => rhs; rw [h'']
        rfl
      · rename_i h''
        conv => rhs; rw [h'']
        rfl
    · rename_i h'
      conv => rhs; rw [h']
      rfl

end Calculator

/-! ### The value -/

namespace Tokens

/-- The kind of error where a number is missing behind the last token. -/
def missing (t : Tokens) : ErrorKind :=
  if t.stop.isNone then .invalidNumber else .unexpectedCharacter

/-- **The value of a sequence of tokens**, or the kind of an error. -/
def evaluate (k : Calculator) (t : Tokens) : Except ErrorKind Decimal :=
  if t.tokens = [] ∧ t.stop = none then .ok (.ofNat 0)
  else do
    let (v, rest) ← k.readTokens t.missing 100 .expression (.ofNat 0) t.tokens
    if rest = [] ∧ t.stop = none then .ok (Calculator.unsignedZero v)
    else .error .unexpectedTrailingInput

end Tokens

end InfixCalculator
