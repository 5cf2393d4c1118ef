import InfixCalculator.Proofs.Expression.Boundary
import InfixCalculator.Proofs.Expression.TokenDescent

/-! # Characters and tokens are read alike

* `Cursor.Faces`: tokens ahead of a cursor.
* `Outcome.ReadsAs`: what a reading of characters comes to, and what a reading of tokens does.
* `Calculator.read_tokens`: the rules read the characters as their like read the tokens.
* `Calculator.evaluate_tokens`: hence an expression has the value of its tokens.
* `Calculator.reads_lexed_tokens`: a reading never leaves the boundaries of the tokens. -/

namespace InfixCalculator

/-! ### Tokens ahead -/

/-- The tokens ahead of the cursor are `ts`; behind them, `beyond` is left. The cursor is inside `n`
levels and can open `room` more. -/
structure Cursor.Faces (beyond : List Char) (n room : ℕ) (c : Cursor) (ts : List Token) :
    Prop where
  tokens : ts = placed c.position (lexemes c.rest)
  beyond_eq : c.rest.dropWhile isAlphabet = beyond
  depth_eq : c.depth = n
  room_eq : c.Room room

namespace Cursor.Faces

variable {beyond : List Char} {n room : ℕ} {c d : Cursor} {ts us : List Token}

theorem enter (h : c.Faces beyond n (room + 1) ts) : c.enter.Faces beyond (n + 1) room ts :=
  ⟨h.tokens, h.beyond_eq, congrArg (· + 1) h.depth_eq, h.room_eq.enter.2⟩

theorem leave (h : c.Faces beyond (n + 1) room ts) : c.leave.Faces beyond n (room + 1) ts := by
  have hdepth : c.leave.depth = n := by
    show c.depth - 1 = n
    rw [h.depth_eq, Nat.add_sub_cancel]
  refine ⟨h.tokens, h.beyond_eq, hdepth, ?_⟩
  have hroom : c.limit = some ((c.depth + room : ℕ) : ℤ) := h.room_eq
  show c.limit = some ((c.leave.depth + (room + 1) : ℕ) : ℤ)
  rw [hroom, hdepth, h.depth_eq, Nat.add_right_comm, Nat.add_assoc]

/-- Behind the lexeme ahead, one token less is ahead. -/
theorem advance (h : c.Faces beyond n room ts) {l : List Char}
    (hl : lexemes c.rest = l :: lexemes (c.rest.drop l.length))
    (halphabet : ∀ x ∈ l, isAlphabet x = true) (hrest : c.rest = l ++ c.rest.drop l.length) :
    ∃ us, ts = ⟨l.head?.elim .number .ofChar, l, c.position⟩ :: us ∧
      (c.advance l.length).Faces beyond n room us := by
  have hle : l.length ≤ c.left := by
    rw [left, hrest, List.length_append]
    exact Nat.le_add_right _ _
  have htokens := h.tokens
  have hbeyond := h.beyond_eq
  rw [hl, placed, ← position_advance hle] at htokens
  rw [hrest, List.dropWhile_append_of_pos halphabet] at hbeyond
  exact ⟨_, htokens, rfl, hbeyond, h.depth_eq, h.room_eq⟩

/-- **What is ahead**: no token, a single character, or a literal. -/
theorem ahead (h : c.Faces beyond n room ts) :
    (ts = [] ∧ ∀ x, c.rest.head? = some x → isAlphabet x = false) ∨
    (∃ x xs us, c.rest = x :: xs ∧ x ∈ punctuation ∧ ts = ⟨.ofChar x, [x], c.position⟩ :: us ∧
      (c.advance 1).Faces beyond n room us) ∨
    ∃ us, c.literal ≠ [] ∧ ts = ⟨.number, c.literal, c.position⟩ :: us ∧
      (c.advance c.literal.length).Faces beyond n room us := by
  cases hrest : c.rest with
  | nil =>
    refine .inl ⟨?_, nofun⟩
    rw [h.tokens, hrest]
    rfl
  | cons x xs =>
    by_cases halphabet : isAlphabet x = true
    swap
    · have hnot : isAlphabet x = false := by simpa using halphabet
      refine .inl ⟨?_, fun y hy => ?_⟩
      · rw [h.tokens, hrest, lexemes_of_isAlphabet_eq_false hnot]
        rfl
      · rw [List.head?_cons, Option.some.injEq] at hy
        exact hy ▸ hnot
    · by_cases hnumber : isNumberChar x = true
      · have hliteral : c.literal = x :: xs.takeWhile isNumberChar := by
          rw [literal, hrest, List.takeWhile_cons_of_pos hnumber]
        have hne : c.literal ≠ [] := by
          rw [hliteral]
          exact List.cons_ne_nil _ _
        obtain ⟨us, hts, hfaces⟩ := h.advance (lexemes_literal hne)
          (fun y hy => isAlphabet_of_isNumberChar (isNumberChar_of_mem_literal hy))
          c.literal_append_rest.symm
        refine .inr (.inr ⟨us, hne, ?_, hfaces⟩)
        rw [hts, hliteral, List.head?_cons, Option.elim_some, ofChar_of_isNumberChar hnumber]
      · have hpunctuation : x ∈ punctuation :=
          mem_punctuation_of_isAlphabet halphabet (by simpa using hnumber)
        obtain ⟨us, hts, hfaces⟩ := h.advance (l := [x])
          (by rw [hrest]; exact lexemes_cons hpunctuation)
          (fun y hy => by rwa [List.mem_singleton.mp hy]) (by rw [hrest]; rfl)
        exact .inr (.inl ⟨x, xs, us, rfl, hpunctuation, hts, hfaces⟩)

/-- The same single character is ahead in the text and in the tokens, or none is. -/
theorem accept_cases (h : c.Faces beyond n room ts) (chars : List Char)
    (hchars : chars ⊆ punctuation) :
    (c.accept? chars = none ∧ acceptToken? chars ts = none) ∨
      ∃ x d us, c.accept? chars = some (x, d) ∧ acceptToken? chars ts = some (x, us) ∧
        d.Faces beyond n room us := by
  rcases h.ahead with ⟨rfl, hnot⟩ | ⟨x, xs, us, hrest, -, rfl, hfaces⟩ | ⟨us, hne, rfl, -⟩
  · refine .inl ⟨accept?_eq_none_iff.mpr fun x hx hmem => ?_, rfl⟩
    have halphabet := isAlphabet_of_mem_punctuation (hchars hmem)
    rw [hnot x hx] at halphabet
    cases halphabet
  · by_cases hx : x ∈ chars
    · exact .inr ⟨x, _, us, accept?_cons hrest hx, if_pos hx, hfaces⟩
    · exact .inl ⟨accept?_cons_none hrest hx, if_neg hx⟩
  · -- A digit or a point is none of the characters, in the text and in a token.
    have hnot : ∀ x, isNumberChar x = true → x ∉ chars := fun x hx hmem => by
      rw [isNumberChar_of_mem_punctuation (hchars hmem)] at hx
      cases hx
    refine .inl ⟨accept?_eq_none_iff.mpr fun x hx hmem => ?_, ?_⟩
    · refine hne (literal_eq_nil_iff.mpr fun y hy => ?_)
      rw [hx, Option.some.injEq] at hy
      exact hy ▸ isNumberChar_of_mem_punctuation (hchars hmem)
    · rw [acceptToken?]
      split
      · rename_i x hx
        have hmem : x ∈ c.literal := by
          rw [show c.literal = [x] from hx]
          exact List.mem_singleton_self x
        exact if_neg (hnot x (isNumberChar_of_mem_literal hmem))
      · rfl

end Cursor.Faces

/-! ### Outcomes -/

/-- The kind of error where a number is missing and nothing but `beyond` is left. -/
def missingKind (beyond : List Char) : ErrorKind :=
  if beyond = [] then .invalidNumber else .unexpectedCharacter

/-- **What a reading of characters comes to, and what a reading of tokens does**: the same value,
with the tokens ahead that are left, or errors of one kind. -/
inductive Outcome.ReadsAs (beyond : List Char) (n room : ℕ) :
    Outcome → Except ErrorKind (Decimal × List Token) → Prop
  | value {w : Decimal} {d : Cursor} {ts : List Token} (h : d.Faces beyond n room ts) :
    ReadsAs beyond n room (.value w d) (.ok (w, ts))
  | fault (f : Fault) (d : Cursor) : ReadsAs beyond n room (.fault f d) (.error f.kind)

namespace Outcome

variable {beyond : List Char} {n room : ℕ} {o : Outcome} {c : Cursor} {ts : List Token}
  {m : Except ErrorKind (Decimal × List Token)}

theorem ReadsAs.andThen (h : o.ReadsAs beyond n room m) {next : Decimal → Cursor → Outcome}
    {f : Decimal × List Token → Except ErrorKind (Decimal × List Token)}
    (hn : ∀ w d ts, o = .value w d → d.Faces beyond n room ts →
      (next w d).ReadsAs beyond n room (f (w, ts))) :
    (o.andThen next).ReadsAs beyond n room (m >>= f) := by
  cases h with
  | value h => exact hn _ _ _ rfl h
  | fault g d => exact .fault g d

theorem ReadsAs.map (h : o.ReadsAs beyond n room m) (f : Decimal → Decimal) :
    (o.map f).ReadsAs beyond n room (m >>= fun p => .ok (f p.1, p.2)) := by
  cases h with
  | value h => exact .value h
  | fault g d => exact .fault g d

theorem ReadsAs.leave (h : o.ReadsAs beyond (n + 1) room m) :
    o.leave.ReadsAs beyond n (room + 1) m := by
  cases h with
  | value h => exact .value h.leave
  | fault g d => exact .fault g _

theorem readsAs_of (result : Except Fault Decimal) (h : c.Faces beyond n room ts) :
    (of result c).ReadsAs beyond n room
      (result.mapError Fault.kind >>= fun x => .ok (x, ts)) := by
  cases result with
  | ok w => exact .value h
  | error g => exact .fault g c

theorem readsAs_of_andThen (result : Except Fault Decimal) {next : Decimal → Cursor → Outcome}
    {f : Decimal → Except ErrorKind (Decimal × List Token)}
    (hn : ∀ w, result = .ok w → (next w c).ReadsAs beyond n room (f w)) :
    ((of result c).andThen next).ReadsAs beyond n room (result.mapError Fault.kind >>= f) := by
  cases result with
  | ok w => exact hn w rfl
  | error g => exact .fault g c

theorem readsAs_within {inside : Cursor → Outcome}
    {f : ℕ → Except ErrorKind (Decimal × List Token)} (h : c.Faces beyond n room ts)
    (hinside : ∀ d room, c.enter? = .ok d → d.Faces beyond (n + 1) room ts →
      (inside d).ReadsAs beyond (n + 1) room (f room)) :
    (c.within inside).ReadsAs beyond n room (Tree.deeper room f) := by
  unfold Cursor.within
  cases room with
  | zero =>
    rw [h.room_eq.refuse]
    exact .fault _ c
  | succ room =>
    have henter := h.room_eq.enter.1
    rw [henter]
    exact (hinside _ room henter h.enter).leave

/-- A number token is read as a literal. -/
theorem readsAs_number (h : c.Faces beyond n room ts) :
    c.number.ReadsAs beyond n room ((numberToken (missingKind beyond) ts).map Subtype.val) := by
  rcases h.ahead with ⟨rfl, hnot⟩ | ⟨x, xs, us, hrest, hx, rfl, -⟩ | ⟨us, hne, rfl, hfaces⟩
  · -- Nothing is left, or a character outside the alphabet.
    have hbeyond := h.beyond_eq
    have hempty : c.literal = [] := Cursor.literal_eq_nil_iff.mpr fun x hx =>
      isNumberChar_eq_false_of_isAlphabet (hnot x hx)
    rw [Cursor.number_of_literal_eq_nil hempty]
    unfold Cursor.noLiteral Cursor.peek
    cases hrest : c.rest with
    | nil =>
      rw [hrest] at hbeyond
      subst hbeyond
      exact .fault (.problem (.missingNumber c.position)) c
    | cons x xs =>
      have hx : isAlphabet x = false := hnot x (by rw [hrest, List.head?_cons])
      rw [hrest, List.dropWhile_cons_of_neg (by simp [hx])] at hbeyond
      subst hbeyond
      dsimp only [List.head?_cons]
      rw [if_neg (by simp [hx])]
      exact .fault (.problem (.unexpectedCharacter c.position x)) c
  · -- The token is of another kind.
    have hkind : TokenKind.ofChar x ≠ .number := ofChar_ne_number hx
    have hempty : c.literal = [] := Cursor.literal_eq_nil_iff.mpr fun y hy => by
      rw [hrest, List.head?_cons, Option.some.injEq] at hy
      exact hy ▸ isNumberChar_of_mem_punctuation hx
    rw [numberToken, if_neg hkind, Cursor.number_of_literal_eq_nil hempty]
    unfold Cursor.noLiteral Cursor.peek
    rw [hrest, List.head?_cons]
    dsimp only
    rw [if_pos (isAlphabet_of_mem_punctuation hx)]
    exact .fault (.problem (.missingNumber c.position)) c
  · have hpoint : Decimal.ofPlain? [point] = none := by decide
    rw [numberToken, if_pos rfl, numberText]
    unfold Cursor.number
    dsimp only
    rw [if_neg hne]
    by_cases hpoints : 1 < c.literal.count point
    · rw [if_pos hpoints, if_pos hpoints]
      exact .fault (.problem (.multiplePoints c.position c.literal)) c
    · rw [if_neg hpoints, if_neg hpoints]
      by_cases hbare : c.literal = [point]
      · rw [if_pos hbare, hbare, hpoint]
        exact .fault (.problem (.noDigits c.position)) c
      · rw [if_neg hbare]
        cases Decimal.ofPlain? c.literal with
        | some w => exact .value hfaces
        | none => exact .fault (.problem (.unreadableLiteral c.literal)) _

end Outcome

/-! ### Readings -/

namespace Calculator

open Outcome

theorem hereditary_readsAs (k : Calculator) (beyond : List Char) :
    k.Hereditary fun r v c => ∀ n room ts, c.Faces beyond n room ts →
      (k.read r v c).ReadsAs beyond n room (k.readTokens (missingKind beyond) room r v ts) where
  expression v c hterm htail := by
    intro n room ts h
    rw [read, expression_eq, readTokens_expression]
    exact (hterm n room ts h).andThen fun w d us hd => htail w d hd n room us
  term v c hexponent htail := by
    intro n room ts h
    rw [read, term_eq, readTokens_term]
    exact (hexponent n room ts h).andThen fun w d us hd => htail w d hd n room us
  sumTail v c hterm htail := by
    intro n room ts h
    rw [read, sumTail_eq, readTokens_sumTail]
    rcases h.accept_cases ['+', '-'] (by decide) with
      ⟨hnone, hnone'⟩ | ⟨x, d, us, hop, hop', hd⟩
    · rw [hnone, hnone']
      exact .value h
    · rw [hop, hop']
      obtain ⟨s, rfl⟩ := Sign.exists_of_mem (Cursor.rest_of_accept? hop).2.2
      refine (hterm _ d hop n room us hd).andThen fun w e vs he hfaces => ?_
      rw [Sign.ofChar_char, ← Sign.combine_eq]
      exact readsAs_of_andThen _ fun y hy => htail _ d w e y hop he n room vs hfaces
  productTail v c hexponent htail := by
    intro n room ts h
    rw [read, productTail_eq, readTokens_productTail]
    rcases h.accept_cases ['*', '/'] (by decide) with
      ⟨hnone, hnone'⟩ | ⟨x, d, us, hop, hop', hd⟩
    · rw [hnone, hnone']
      exact .value h
    · rw [hop, hop']
      obtain ⟨s, rfl⟩ := Scale.exists_of_mem (Cursor.rest_of_accept? hop).2.2
      refine (hexponent _ d hop n room us hd).andThen fun w e vs he hfaces => ?_
      rw [Scale.ofChar_char, ← Scale.combine_eq k s c]
      exact readsAs_of_andThen _ fun y hy => htail _ d w e y hop he n room vs hfaces
  exponent v c hprimary hpower := by
    intro n room ts h
    rw [read, exponent_eq_within, readTokens_exponent]
    refine (hprimary n room ts h).andThen fun w d us hw hd => ?_
    dsimp only
    rcases hd.accept_cases ['^'] (by decide) with
      ⟨hnone, hnone'⟩ | ⟨x, e, vs, hop, hop', he⟩
    · rw [hnone, hnone']
      exact .value hd
    · rw [hop, hop']
      refine (readsAs_within he fun f room hf hfaces =>
        hpower w d x e f hw hop hf (n + 1) room vs hfaces).andThen fun y g ws _ hg => ?_
      dsimp only
      rw [← powerResult_kind]
      exact readsAs_of _ hg
  primary v c hoperand hsigned := by
    intro n room ts h
    rw [read, primary_eq, readTokens_primary]
    rcases h.accept_cases ['+', '-'] (by decide) with
      ⟨hnone, hnone'⟩ | ⟨x, d, us, hop, hop', hd⟩
    · rw [hnone, hnone']
      exact hoperand n room ts h
    · rw [hop, hop']
      obtain ⟨s, rfl⟩ := Sign.exists_of_mem (Cursor.rest_of_accept? hop).2.2
      dsimp only
      rw [Sign.ofChar_char, Sign.signed_char]
      exact (hsigned _ d hop n room us hd).map _
  operand v c hroot hgroup := by
    intro n room ts h
    rw [read, operand_eq_within, readTokens_operand]
    rcases h.accept_cases [rootSign] (by decide) with
      ⟨hnone, hnone'⟩ | ⟨x, d, us, hop, hop', hd⟩
    · rw [hnone, hnone']
      dsimp only
      rcases h.accept_cases [openParen] (by decide) with
        ⟨hnone, hnone'⟩ | ⟨x, d, us, hop, hop', hd⟩
      · rw [hnone, hnone']
        exact readsAs_number h
      · rw [hop, hop']
        refine (readsAs_within hd fun e room he hfaces =>
          hgroup x d e hop he (n + 1) room us hfaces).andThen fun y f vs _ hf => ?_
        dsimp only
        rcases hf.accept_cases [closeParen] (by decide) with
          ⟨hnone, hnone'⟩ | ⟨z, g, ws, hclose, hclose', hg⟩
        · rw [hnone, hnone']
          exact .fault _ _
        · rw [hclose, hclose']
          exact .value hg
    · rw [hop, hop']
      refine (readsAs_within hd fun e room he hfaces =>
        hroot x d e hop he (n + 1) room us hfaces).andThen fun y f vs _ hf => ?_
      dsimp only
      rw [← powerResult_kind]
      exact readsAs_of _ hf

/-- **The rules read the characters as their like read the tokens.** -/
theorem read_tokens (k : Calculator) {beyond : List Char} {n room : ℕ} {r : Rule} {v : Decimal}
    {c : Cursor} {ts : List Token} (h : c.Faces beyond n room ts) :
    (k.read r v c).ReadsAs beyond n room (k.readTokens (missingKind beyond) room r v ts) :=
  (hereditary_readsAs k beyond).read r v c n room ts h

/-! ### Evaluation -/

variable {k : Calculator} {s text xs : List Char} {v : Decimal}

/-- No token is ahead and nothing is behind them only at the end of the text. -/
theorem exhausted_iff {position : ℕ} :
    placed position (lexemes xs) = [] ∧ xs.dropWhile isAlphabet = [] ↔ xs = [] := by
  rw [placed_eq_nil_iff, lexemes_eq_nil_iff]
  constructor
  · rintro ⟨htake, hdrop⟩
    rw [← List.takeWhile_append_dropWhile (p := isAlphabet) (l := xs), htake, hdrop, List.append_nil]
  · rintro rfl
    exact ⟨rfl, rfl⟩

theorem missing_tokenize (text : List Char) :
    (tokenize text).missing = missingKind (text.dropWhile isAlphabet) := by
  unfold Tokens.missing missingKind
  rw [stop_tokenize]
  cases text.dropWhile isAlphabet <;> simp

theorem faces_start (text : List Char) :
    (Cursor.start text (some nestingLimit)).Faces (text.dropWhile isAlphabet) 0 100
      (tokenize text).tokens := by
  refine ⟨?_, rfl, rfl, rfl⟩
  rw [show (Cursor.start text (some nestingLimit)).position = 0 from Nat.sub_self _,
    tokens_tokenize]
  rfl

/-- **An expression has the value of its tokens**, or both end with errors of one kind. -/
theorem evaluate_tokens (k : Calculator) (s : List Char) :
    (∃ v, k.evaluate s = .ok v ∧ (tokenize (normalize s)).evaluate k = .ok v) ∨
      ∃ e, k.evaluate s = .error (.error e) ∧ (tokenize (normalize s)).evaluate k = .error e.kind := by
  have hnil : (tokenize (normalize s)).tokens = [] ∧ (tokenize (normalize s)).stop = none ↔
      normalize s = [] := by
    rw [stop_eq_none_iff, tokens_tokenize]
    exact exhausted_iff
  unfold Tokens.evaluate
  by_cases hblank : normalize s = []
  · rw [if_pos (hnil.mpr hblank)]
    exact .inl ⟨.ofNat 0, by rw [evaluate, if_pos hblank], rfl⟩
  rw [if_neg (hnil.not.mpr hblank), missing_tokenize, evaluate_of_ne_nil hblank]
  have hread := read_tokens k (r := .expression) (v := .ofNat 0) (faces_start (normalize s))
  cases ho : k.read .expression (.ofNat 0) (.start (normalize s) (some nestingLimit)) with
  | fault f d =>
    rw [ho] at hread
    obtain ⟨e, he, hkind⟩ := evaluateNormal_of_fault (k := k) (f := f) (d := d) ho
    refine .inr ⟨e, he, ?_⟩
    generalize k.readTokens _ _ _ _ _ = m at hread ⊢
    cases hread
    rw [hkind]
    rfl
  | value w d =>
    rw [ho] at hread
    generalize k.readTokens _ _ _ _ _ = m at hread ⊢
    cases hread with
    | @value _ _ ts hfaces =>
      have hend : d.atEnd = true ↔ ts = [] ∧ (tokenize (normalize s)).stop = none := by
        rw [Cursor.atEnd, List.isEmpty_iff, stop_eq_none_iff, hfaces.tokens, ← hfaces.beyond_eq]
        exact exhausted_iff.symm
      have hevaluate : k.evaluateNormal (normalize s) = if d.atEnd then .ok (unsignedZero w)
          else .error (.error ⟨normalize s, .trailingInput d.position⟩) := by
        rw [evaluateNormal, show k.expression _ = _ from ho]
      rw [hevaluate]
      by_cases hd : d.atEnd = true
      · exact .inl ⟨_, if_pos hd, if_pos (hend.mp hd)⟩
      · exact .inr ⟨_, if_neg hd, if_neg (hend.not.mp hd)⟩

/-- Tokens that do not reach the end of the text have no value. -/
theorem stop_of_evaluate {t : Tokens} (h : t.evaluate k = .ok v) : t.stop = none := by
  unfold Tokens.evaluate at h
  split_ifs at h with hnil
  · exact hnil.2
  · cases hread : k.readTokens t.missing 100 .expression (.ofNat 0) t.tokens with
    | error e => rw [hread] at h; cases h
    | ok p =>
      rw [hread] at h
      by_contra hstop
      have hnot : ¬ (p.2 = [] ∧ t.stop = none) := fun hand => hstop hand.2
      change (if p.2 = [] ∧ t.stop = none then _ else _) = _ at h
      rw [if_neg hnot] at h
      cases h

/-- A number that is read is one token. -/
theorem token_of_number {c d : Cursor} (hc : c.Between text) (h : c.number = .value v d) :
    ⟨.number, c.literal, c.position⟩ ∈ (tokenize text).tokens ∧
      d.position = c.position + c.literal.length := by
  obtain ⟨-, done, hlexemes, hposition⟩ := hc
  obtain ⟨hne, rfl⟩ := Cursor.of_number_eq_value h
  refine ⟨?_, Cursor.position_advance c.length_literal_le⟩
  rw [Cursor.lexemes_literal hne] at hlexemes
  have hmem := mem_tokens_of_lexemes hlexemes
  have hkind : c.literal.head?.elim .number TokenKind.ofChar = .number := by
    cases hliteral : c.literal with
    | nil => rfl
    | cons y ys =>
      refine ofChar_of_isNumberChar (c.isNumberChar_of_mem_literal ?_)
      rw [hliteral]
      exact List.mem_cons_self
  rwa [hkind, hposition] at hmem

/-- **A reading never leaves the boundaries of the tokens**, which a scan of its own has found. It
stands at boundaries only; each number that it reads is one token; if the tokens stop before the end
of the text, it does not go further, and ends with an error. It has a value only if the tokens reach
the end, and a descent over the tokens alone has the same value, or an error of the same kind. -/
theorem reads_lexed_tokens (k : Calculator) (s : List Char) :
    (∀ c, k.Stands (.start (normalize s) (some nestingLimit)) c →
      (tokenize (normalize s)).Boundary c.position) ∧
    (∀ v c w d, k.Entered (.start (normalize s) (some nestingLimit)) .operand v c →
      c.number = .value w d →
        ⟨.number, c.literal, c.position⟩ ∈ (tokenize (normalize s)).tokens ∧
          d.position = c.position + c.literal.length) ∧
    (∀ p x, (tokenize (normalize s)).stop = some (p, x) →
      (∀ c, k.Stands (.start (normalize s) (some nestingLimit)) c → c.position ≤ p) ∧
        ∃ e, k.evaluate s = .error (.error e)) ∧
    (∀ v, k.evaluate s = .ok v → (tokenize (normalize s)).stop = none ∧
      (tokenize (normalize s)).evaluate k = .ok v) ∧
    ∀ e, k.evaluate s = .error (.error e) →
      (tokenize (normalize s)).evaluate k = .error e.kind := by
  have hstart := Cursor.between_start (normalize s) (some nestingLimit)
  have hboundary : ∀ c, k.Stands (.start (normalize s) (some nestingLimit)) c →
      (tokenize (normalize s)).Boundary c.position := by
    intro c hc
    obtain ⟨-, done, hlexemes, hposition⟩ := hc.between hstart
    rw [← hposition]
    exact boundary_of_lexemes hlexemes
  have hvalue : ∀ v, k.evaluate s = .ok v → (tokenize (normalize s)).stop = none ∧
      (tokenize (normalize s)).evaluate k = .ok v := by
    intro v hv
    rcases k.evaluate_tokens s with ⟨w, hw, htokens⟩ | ⟨e, he, -⟩
    · rw [hv] at hw
      cases hw
      exact ⟨stop_of_evaluate htokens, htokens⟩
    · rw [hv] at he
      cases he
  refine ⟨hboundary, fun v c w d hc h => token_of_number (hc.between hstart) h,
    fun p x hstop => ⟨fun c hc => (hboundary c hc).le_stop hstop, ?_⟩, hvalue, fun e he => ?_⟩
  · rcases k.evaluate_tokens s with ⟨v, hv, -⟩ | ⟨e, he, -⟩
    · rw [(hvalue v hv).1] at hstop
      cases hstop
    · exact ⟨e, he⟩
  · rcases k.evaluate_tokens s with ⟨v, hv, -⟩ | ⟨e', he', htokens⟩
    · rw [he] at hv
      cases hv
    · rw [he] at he'
      cases he'
      exact htokens

end Calculator

end InfixCalculator
