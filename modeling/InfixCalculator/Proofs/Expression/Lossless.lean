import InfixCalculator.Proofs.Expression.Lexemes
import Mathlib.Algebra.GroupWithZero.Nat

/-! # Tokens lose nothing

* `TokenKind.Covers`: what the tokens of a kind look like; `TokenKind.eq_of_covers`: no text has two
  kinds.
* `covers_of_mem_tokens`, `kinds_of_mem_tokens`: each token looks as its kind says, and has no other.
* `start_of_tokens`: each token starts behind those before it.
* `flatMap_tokens`, `tokens_of_alphabet`, `tokens_of_bad`: together they are the text, up to the first
  character outside the alphabet, which is what stops them.
* `isChain_tokens`: two numbers never follow each other. -/

namespace InfixCalculator

variable {text l : List Char} {x : Char}

/-! ### Kinds -/

namespace TokenKind

/-- **What the tokens of a kind look like**: a number consists of digits and points, and all others
are one character that belongs to the kind. -/
def Covers : TokenKind → List Char → Prop
  | number, text => text ≠ [] ∧ ∀ x ∈ text, isNumberChar x = true
  | operator, text => ∃ x ∈ operators, text = [x]
  | root, text => text = [rootSign]
  | opening, text => text = [openParen]
  | closing, text => text = [closeParen]

variable {kind kind' : TokenKind}

theorem Covers.ne_nil (h : kind.Covers text) : text ≠ [] := by
  cases kind with
  | number => exact h.1
  | operator =>
    obtain ⟨x, -, rfl⟩ := h
    exact List.cons_ne_nil x []
  | root | opening | closing => rw [h]; exact List.cons_ne_nil _ []

theorem ofChar_of_mem_operators (h : x ∈ operators) : ofChar x = .operator := by
  have hall : operators.all (ofChar · = .operator) = true := by decide
  simpa using List.all_eq_true.mp hall x h

/-- The kind is that of the first character. -/
theorem Covers.ofChar_head (h : kind.Covers text) : text.head?.elim .number ofChar = kind := by
  cases kind with
  | number =>
    obtain ⟨hne, hall⟩ := h
    obtain ⟨x, xs, rfl⟩ := List.exists_cons_of_ne_nil hne
    exact ofChar_of_isNumberChar (hall x List.mem_cons_self)
  | operator =>
    obtain ⟨x, hx, rfl⟩ := h
    exact ofChar_of_mem_operators hx
  | root | opening | closing => rw [h]; decide

/-- **No text has two kinds.** -/
theorem eq_of_covers (h : kind.Covers text) (h' : kind'.Covers text) : kind = kind' :=
  h.ofChar_head.symm.trans h'.ofChar_head

/-- What the pattern of a kind matches looks as the kind says. -/
theorem covers_of_match? (h : kind.match? text = some l) : kind.Covers l := by
  cases kind with
  | number =>
    obtain ⟨rfl, hne⟩ := matchSome?_eq_some_iff.mp h
    exact ⟨hne, fun x => List.mem_takeWhile_imp⟩
  | operator =>
    obtain ⟨x, -, hx, rfl⟩ := matchOne?_eq_some_iff.mp h
    exact ⟨x, List.contains_iff_mem.mp hx, rfl⟩
  | root | opening | closing =>
    obtain ⟨x, -, hx, rfl⟩ := matchOne?_eq_some_iff.mp h
    exact congrArg (List.cons · []) (of_decide_eq_true hx)

end TokenKind

/-! ### Tokens -/

theorem map_text_placed (start : ℕ) (ls : List (List Char)) :
    (placed start ls).map Token.text = ls := by
  induction ls generalizing start with
  | nil => rfl
  | cons l ls ih => rw [placed, List.map_cons, ih]

theorem start_of_placed {start : ℕ} {ls : List (List Char)} {before after : List Token}
    {token : Token} (h : placed start ls = before ++ token :: after) :
    token.start = start + (before.map (·.text.length)).sum := by
  induction ls generalizing start before with
  | nil => simp [placed] at h
  | cons l ls ih =>
    rw [placed] at h
    cases before with
    | nil =>
      obtain ⟨rfl, -⟩ := List.cons.inj h
      simp
    | cons first before =>
      obtain ⟨rfl, htail⟩ := List.cons.inj h
      rw [ih htail, List.map_cons, List.sum_cons, Nat.add_assoc]

theorem map_text_tokens (text : List Char) : (tokenize text).tokens.map Token.text = lexemes text := by
  rw [tokens_tokenize, map_text_placed]

/-- The loop takes what the patterns match. -/
theorem covers_of_mem_tokensFrom {position : ℕ} {token : Token}
    (h : token ∈ (tokensFrom position text).tokens) : token.kind.Covers token.text := by
  fun_induction tokensFrom position text with
  | case1 | case2 => cases h
  | case3 position text x hhead kind l hlexeme hless ih =>
    rcases List.mem_cons.mp h with rfl | h
    · exact TokenKind.covers_of_match? (match?_of_lexeme? hlexeme)
    · exact ih h

/-- **Each token looks as its kind says**, and as no other. -/
theorem covers_of_mem_tokens {token : Token} (h : token ∈ (tokenize text).tokens)
    (kind : TokenKind) : kind.Covers token.text ↔ kind = token.kind := by
  have hcovers := covers_of_mem_tokensFrom h
  constructor
  · intro hkind
    exact TokenKind.eq_of_covers hkind hcovers
  · rintro rfl
    exact hcovers

/-- The match of a token that is not empty has one kind. -/
theorem Token.kinds_eq {token : Token} (h : token.text ≠ []) : token.kinds = [token.kind] := by
  obtain ⟨kind, text, start⟩ := token
  have hgroup : ∀ kind', Option.any (fun l => decide (l ≠ []))
      (Token.group? ⟨kind, text, start⟩ kind') = decide (kind' = kind) := by
    intro kind'
    unfold Token.group?
    split_ifs with hkind
    · simpa [hkind] using h
    · simp [hkind]
  unfold Token.kinds
  simp only [hgroup]
  cases kind <;> decide

/-- **Tokens are not empty.** -/
theorem text_ne_nil_of_mem_tokens {token : Token} (h : token ∈ (tokenize text).tokens) :
    token.text ≠ [] :=
  (covers_of_mem_tokensFrom h).ne_nil

/-- **Each token has one kind.** -/
theorem kinds_of_mem_tokens {token : Token} (h : token ∈ (tokenize text).tokens) :
    token.kinds = [token.kind] :=
  Token.kinds_eq (text_ne_nil_of_mem_tokens h)

/-- **Each token starts behind those before it.** -/
theorem start_of_tokens {before after : List Token} {token : Token}
    (h : (tokenize text).tokens = before ++ token :: after) :
    token.start = (before.map (·.text.length)).sum := by
  rw [tokens_tokenize] at h
  rw [start_of_placed h, Nat.zero_add]

/-- **The tokens together** are the text up to the first character outside the alphabet. -/
theorem flatMap_tokens (text : List Char) :
    (tokenize text).tokens.flatMap Token.text = text.takeWhile isAlphabet := by
  rw [List.flatMap_def, map_text_tokens, lexemes, List.flatten_splitBy]

/-- **Two numbers never follow each other.** -/
theorem isChain_tokens (text : List Char) :
    (tokenize text).tokens.IsChain fun a b => a.kind ≠ .number ∨ b.kind ≠ .number := by
  have hlexemes : ((tokenize text).tokens.map Token.text).IsChain fun l m =>
      ∃ hl hm, (isNumberChar (l.getLast hl) && isNumberChar (m.head hm)) = false := by
    rw [map_text_tokens]
    exact List.isChain_getLast_head_splitBy (fun a b => isNumberChar a && isNumberChar b) _
  refine ((List.isChain_map _).mp hlexemes).imp_of_mem_imp fun a b ha hb hab => ?_
  obtain ⟨hne, hne', hnot⟩ := hab
  by_contra hboth
  simp only [not_or, not_not] at hboth
  obtain ⟨-, hnumber⟩ := (covers_of_mem_tokens ha .number).mpr hboth.1.symm
  obtain ⟨-, hnumber'⟩ := (covers_of_mem_tokens hb .number).mpr hboth.2.symm
  rw [hnumber _ (List.getLast_mem hne), hnumber' _ (List.head_mem hne')] at hnot
  cases hnot

theorem tokens_of_alphabet (h : ∀ x ∈ text, isAlphabet x = true) :
    (tokenize text).tokens.flatMap Token.text = text ∧ (tokenize text).error? text = none := by
  have htake : text.takeWhile isAlphabet = text := List.takeWhile_eq_self_iff.mpr h
  have hdrop : text.dropWhile isAlphabet = [] := List.dropWhile_eq_nil_iff.mpr h
  refine ⟨by rw [flatMap_tokens, htake], ?_⟩
  rw [Tokens.error?, stop_eq_none_iff.mpr hdrop]
  rfl

/-- **The first character outside the alphabet** stops the tokens before it and makes the error. -/
theorem tokens_of_bad {p : ℕ} (hp : text[p]? = some x) (hx : isAlphabet x = false)
    (hbefore : ∀ y ∈ text.take p, isAlphabet y = true) :
    (tokenize text).tokens.flatMap Token.text = text.take p ∧
      (tokenize text).error? text = some ⟨text, .unexpectedCharacter p x⟩ := by
  obtain ⟨hlt, hget⟩ := List.getElem?_eq_some_iff.mp hp
  have hsplit : text = text.take p ++ x :: text.drop (p + 1) := by
    rw [← hget, List.getElem_cons_drop hlt, List.take_append_drop]
  have htake : text.takeWhile isAlphabet = text.take p := by
    conv_lhs => rw [hsplit]
    rw [List.takeWhile_append_of_pos hbefore, List.takeWhile_cons_of_neg (by simp [hx]),
      List.append_nil]
  have hdrop : text.dropWhile isAlphabet = x :: text.drop (p + 1) := by
    conv_lhs => rw [hsplit]
    rw [List.dropWhile_append_of_pos hbefore, List.dropWhile_cons_of_neg (by simp [hx])]
  refine ⟨by rw [flatMap_tokens, htake], ?_⟩
  have hlen : (text.take p).length = p := by
    rw [List.length_take]
    omega
  rw [Tokens.error?, stop_tokenize, hdrop, htake, hlen]
  rfl

end InfixCalculator
