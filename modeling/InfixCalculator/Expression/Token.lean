import InfixCalculator.Expression.Alphabet
import InfixCalculator.Expression.Problem

/-! # Tokens of an expression

An expression is cut from left to right. Each kind of token has a pattern of its own, and the longest
match of these at a position is the token there.

* `TokenKind.match?`: what the pattern of a kind matches at the start of a text; `lexeme?`: the longest
  of these matches, with its kind.
* `Token`: a lexeme of an expression in normal form, with its kind and the position where it starts;
  `Token.kinds`: the kinds that the match of a token has.
* `tokensFrom`, `tokenize`: the tokens from a position on, and of a text, and the character that
  stopped them, if any; `Tokens.error?` is the error that it makes. -/

namespace InfixCalculator

/-! ## Patterns -/

/-- What a token is. -/
inductive TokenKind where
  | number
  | operator
  | root
  | opening
  | closing
deriving DecidableEq

/-- One character, of those that satisfy `p`. -/
def matchOne? (p : Char → Bool) : List Char → Option (List Char)
  | c :: _ => if p c then some [c] else none
  | [] => none

/-- One character or more, as many as satisfy `p`. -/
def matchSome? (p : Char → Bool) (text : List Char) : Option (List Char) :=
  match text.takeWhile p with
  | [] => none
  | run => some run

namespace TokenKind

/-- The kinds in the order of their patterns. -/
def all : List TokenKind := [number, operator, root, opening, closing]

/-- The name of a kind. -/
def name : TokenKind → String
  | number => "number"
  | operator => "operator"
  | root => "sqrt"
  | opening => "open"
  | closing => "close"

/-- What the pattern of a kind matches at the start of a text. -/
def match? : TokenKind → List Char → Option (List Char)
  | number => matchSome? isNumberChar
  | operator => matchOne? operators.contains
  | root => matchOne? (· = rootSign)
  | opening => matchOne? (· = openParen)
  | closing => matchOne? (· = closeParen)

end TokenKind

/-- The longer of two matches, the first one if they are equally long. -/
def longer? : Option (TokenKind × List Char) → Option (TokenKind × List Char) →
    Option (TokenKind × List Char)
  | some m, some n => if m.2.length < n.2.length then some n else some m
  | some m, none => some m
  | none, n => n

/-- The lexeme at the start of a text: the longest match of a pattern, with the kind of the pattern. -/
def lexeme? (text : List Char) : Option (TokenKind × List Char) :=
  (TokenKind.all.map fun kind => (kind.match? text).map (kind, ·)).foldr longer? none

theorem matchOne?_eq_some_iff {p : Char → Bool} {text l : List Char} :
    matchOne? p text = some l ↔ ∃ c, text.head? = some c ∧ p c = true ∧ l = [c] := by
  cases text with
  | nil => simp [matchOne?]
  | cons c rest =>
    rw [matchOne?]
    split <;> rename_i hc <;> simp [hc, eq_comm (a := l)]

theorem matchSome?_eq_some_iff {p : Char → Bool} {text l : List Char} :
    matchSome? p text = some l ↔ text.takeWhile p = l ∧ l ≠ [] := by
  rw [matchSome?]
  cases text.takeWhile p with
  | nil => simp [eq_comm]
  | cons c run =>
    simp only [Option.some.injEq, iff_self_and]
    rintro rfl
    exact List.cons_ne_nil c run

theorem TokenKind.ne_nil_of_match? {kind : TokenKind} {text l : List Char}
    (h : kind.match? text = some l) : l ≠ [] := by
  cases kind with
  | number => exact (matchSome?_eq_some_iff.mp h).2
  | operator | root | opening | closing =>
    obtain ⟨c, -, -, rfl⟩ := matchOne?_eq_some_iff.mp h
    exact List.cons_ne_nil c []

/-- The longest match is one of the matches. -/
theorem mem_of_foldr_longer? {ms : List (Option (TokenKind × List Char))} {m : TokenKind × List Char}
    (h : ms.foldr longer? none = some m) : some m ∈ ms := by
  induction ms with
  | nil => cases h
  | cons first ms ih =>
    rw [List.foldr_cons] at h
    generalize ms.foldr longer? none = best at h ih
    rcases first with - | n
    · exact List.mem_cons_of_mem _ (ih h)
    rcases best with - | n'
    · exact List.mem_cons.mpr (.inl h.symm)
    rw [longer?] at h
    split at h
    · exact List.mem_cons_of_mem _ (ih h)
    · exact List.mem_cons.mpr (.inl h.symm)

/-- A lexeme is what the pattern of its kind matches. -/
theorem match?_of_lexeme? {kind : TokenKind} {text l : List Char}
    (h : lexeme? text = some (kind, l)) : kind.match? text = some l := by
  obtain ⟨kind', -, hmatch⟩ := List.mem_map.mp (mem_of_foldr_longer? h)
  obtain ⟨m, hm, heq⟩ := Option.map_eq_some_iff.mp hmatch
  cases heq
  exact hm

/-- Less of the text is left behind a lexeme. -/
theorem length_drop_lt_of_lexeme? {kind : TokenKind} {text l : List Char}
    (h : lexeme? text = some (kind, l)) : (text.drop l.length).length < text.length := by
  have hl := List.length_pos_iff.mpr (TokenKind.ne_nil_of_match? (match?_of_lexeme? h))
  cases text with
  | nil => cases h
  | cons c rest =>
    simp only [List.length_drop, List.length_cons]
    omega

/-! ## Tokens -/

/-- A lexeme at its place in the normal form of an expression. -/
structure Token where
  kind : TokenKind
  text : List Char
  start : Nat
deriving DecidableEq

namespace Token

/-- What the match of the token has for the pattern of a kind: the match is that of one pattern. -/
def group? (t : Token) (kind : TokenKind) : Option (List Char) :=
  if kind = t.kind then some t.text else none

/-- The kinds for whose patterns the match of the token has some text. -/
def kinds (t : Token) : List TokenKind :=
  TokenKind.all.filter fun kind => (t.group? kind).any (· ≠ [])

end Token

/-- What tokenizing a text gives. -/
structure Tokens where
  tokens : List Token
  /-- The first character at which no lexeme starts, with its position. -/
  stop : Option (Nat × Char)

/-- The tokens with one more in front of them. -/
def Tokens.cons (t : Token) (ts : Tokens) : Tokens := { ts with tokens := t :: ts.tokens }

/-- The tokens from a position on, where the text `rest` is ahead. -/
def tokensFrom (position : Nat) (rest : List Char) : Tokens :=
  match rest.head? with
  | none => ⟨[], none⟩
  | some c =>
    match h : lexeme? rest with
    | none => ⟨[], some (position, c)⟩
    | some (kind, text) =>
      have := length_drop_lt_of_lexeme? h
      (tokensFrom (position + text.length) (rest.drop text.length)).cons ⟨kind, text, position⟩
termination_by rest.length
decreasing_by assumption

/-- The tokens of a text in normal form. -/
def tokenize (text : List Char) : Tokens := tokensFrom 0 text

/-- The error of a text whose tokens these are, if they do not reach its end. -/
def Tokens.error? (t : Tokens) (text : List Char) : Option EvaluationError :=
  t.stop.map fun (position, c) => ⟨text, .unexpectedCharacter position c⟩

end InfixCalculator
