import InfixCalculator.Expression.Token
import Mathlib.Data.List.SplitBy
import Mathlib.Data.List.TakeWhile

/-! # Lexemes one after the other

A loop takes lexeme after lexeme by its pattern. Here the lexemes are described all at once, and the
loop finds just these.

* `lexemes`: the text up to the first character outside the alphabet, cut everywhere but between two
  characters of a number literal; `lexemes_cons`, `lexemes_run`: the first of them is a single
  character, or the whole run of digits and points.
* `lexeme?_eq_some_iff`: of all patterns, only that of the kind matches; `lexemes_of_lexeme?`: what it
  matches is the first of the lexemes.
* `tokenize_eq`: the tokens are the lexemes, each at its place, and what stops them is the first
  character outside the alphabet.
* `Tokens.Boundary`: the positions between tokens; `boundary_of_lexemes`: those behind some of the
  lexemes; `Tokens.Boundary.le_stop`: none of them is behind the character that stops the tokens. -/

namespace InfixCalculator

/-- The kind of the token that starts with a character of the alphabet. -/
def TokenKind.ofChar (c : Char) : TokenKind :=
  if operators.contains c then operator
  else if c = rootSign then root
  else if c = openParen then opening
  else if c = closeParen then closing
  else number

/-- The lexemes up to the first character outside the alphabet: number literals as long as possible,
and single characters. -/
def lexemes (text : List Char) : List (List Char) :=
  (text.takeWhile isAlphabet).splitBy fun a b => isNumberChar a && isNumberChar b

/-- The tokens of lexemes that follow each other from position `start` on. -/
def placed (start : ℕ) : List (List Char) → List Token
  | [] => []
  | l :: rest => ⟨l.head?.elim .number .ofChar, l, start⟩ :: placed (start + l.length) rest

/-! ### Kinds of character -/

/-- The characters that are lexemes of their own. -/
def punctuation : List Char := operators ++ [rootSign, openParen, closeParen]

/-- The alphabet has the characters of numbers, and those that are lexemes of their own. -/
theorem isAlphabet_iff {x : Char} :
    isAlphabet x = true ↔ isNumberChar x = true ∨ x ∈ punctuation := by
  unfold isAlphabet isNumberChar punctuation
  simp only [Bool.or_eq_true, decide_eq_true_eq, List.contains_iff_mem, List.mem_append,
    List.mem_cons, List.not_mem_nil, or_false]
  tauto

theorem isAlphabet_of_mem_punctuation {x : Char} (h : x ∈ punctuation) : isAlphabet x = true :=
  isAlphabet_iff.mpr (.inr h)

theorem isNumberChar_of_mem_punctuation {x : Char} (h : x ∈ punctuation) :
    isNumberChar x = false := by
  have hall : punctuation.all (!isNumberChar ·) = true := by decide
  simpa using List.all_eq_true.mp hall x h

theorem isAlphabet_of_isNumberChar {x : Char} (h : isNumberChar x = true) : isAlphabet x = true :=
  isAlphabet_iff.mpr (.inl h)

theorem isNumberChar_eq_false_of_isAlphabet {x : Char} (h : isAlphabet x = false) :
    isNumberChar x = false :=
  Bool.eq_false_iff.mpr (mt isAlphabet_of_isNumberChar (Bool.eq_false_iff.mp h))

theorem mem_punctuation_of_isAlphabet {x : Char} (h : isAlphabet x = true)
    (hnumber : isNumberChar x = false) : x ∈ punctuation :=
  (isAlphabet_iff.mp h).resolve_left (by rw [hnumber]; exact Bool.false_ne_true)

theorem ofChar_of_isNumberChar {x : Char} (h : isNumberChar x = true) :
    TokenKind.ofChar x = .number := by
  have hnot : x ∉ punctuation := fun hmem => by
    rw [isNumberChar_of_mem_punctuation hmem] at h
    cases h
  simp only [punctuation, List.mem_append, List.mem_cons, List.not_mem_nil, or_false, not_or] at hnot
  obtain ⟨hoperator, hroot, hopen, hclose⟩ := hnot
  rw [TokenKind.ofChar, if_neg (by rwa [List.contains_iff_mem]), if_neg hroot, if_neg hopen,
    if_neg hclose]

theorem ofChar_ne_number {x : Char} (h : x ∈ punctuation) : TokenKind.ofChar x ≠ .number := by
  have hall : punctuation.all (TokenKind.ofChar · ≠ .number) = true := by decide
  simpa using List.all_eq_true.mp hall x h

/-! ### The first lexeme -/

variable {x : Char} {xs run text : List Char}

/-- Outside the alphabet there is no lexeme. -/
theorem lexemes_of_isAlphabet_eq_false (h : isAlphabet x = false) : lexemes (x :: xs) = [] := by
  rw [lexemes, List.takeWhile_cons_of_neg (by simp [h]), List.splitBy_nil]

/-- Digits and points that none follows are one lexeme. -/
theorem lexemes_run (hne : run ≠ []) (hrun : ∀ x ∈ run, isNumberChar x = true)
    (hend : ∀ x, xs.head? = some x → isNumberChar x = false) :
    lexemes (run ++ xs) = run :: lexemes xs := by
  have hchain : run.IsChain fun a b => isNumberChar a && isNumberChar b :=
    (List.pairwise_of_forall_mem_list fun a ha b hb => by simp [hrun a ha, hrun b hb]).isChain
  rw [lexemes, List.takeWhile_append_of_pos fun x hx => isAlphabet_of_isNumberChar (hrun x hx),
    List.splitBy_append, List.splitBy_of_isChain hne hchain]
  · rfl
  · intro a _ b hb
    cases xs with
    | nil => cases hb
    | cons y ys =>
      by_cases hy : isAlphabet y = true
      · rw [List.takeWhile_cons_of_pos hy, List.head?_cons, Option.mem_some] at hb
        rw [← hb, hend y rfl, Bool.and_false]
      · rw [List.takeWhile_cons_of_neg hy] at hb
        cases hb

theorem lexemes_cons (h : x ∈ punctuation) : lexemes (x :: xs) = [x] :: lexemes xs := by
  rw [lexemes, List.takeWhile_cons_of_pos (isAlphabet_of_mem_punctuation h),
    ← List.singleton_append, List.splitBy_append,
    List.splitBy_of_isChain (List.cons_ne_nil _ _) (List.isChain_singleton x)]
  · rfl
  · intro a ha b _
    obtain rfl : x = a := by simpa using ha
    rw [isNumberChar_of_mem_punctuation h, Bool.false_and]

/-! ### The lexeme ahead -/

variable {kind kind' : TokenKind} {l : List Char}

/-- A pattern of one character matches the punctuation of a kind if it takes nothing else, and the kind
is right for all the punctuation. -/
theorem matchOne?_eq_some_iff_ofChar {p : Char → Bool} (hmem : ∀ x, p x = true → x ∈ punctuation)
    (hall : punctuation.all (fun x => p x == decide (TokenKind.ofChar x = kind)) = true) :
    matchOne? p text = some l ↔
      ∃ x, text.head? = some x ∧ (x ∈ punctuation ∧ TokenKind.ofChar x = kind) ∧ l = [x] := by
  have hkind : ∀ x ∈ punctuation, (p x = true ↔ TokenKind.ofChar x = kind) := fun x hx => by
    rw [eq_of_beq (List.all_eq_true.mp hall x hx), decide_eq_true_iff]
  have hp : ∀ x, p x = true ↔ x ∈ punctuation ∧ TokenKind.ofChar x = kind := fun x =>
    ⟨fun h => ⟨hmem x h, (hkind x (hmem x h)).mp h⟩, fun ⟨hx, h⟩ => (hkind x hx).mpr h⟩
  rw [matchOne?_eq_some_iff]
  exact exists_congr fun x => and_congr_right fun _ => and_congr_left fun _ => hp x

/-- The patterns of one character match the punctuation of their kind. -/
theorem match?_eq_some_iff (hkind : kind ≠ .number) : kind.match? text = some l ↔
    ∃ x, text.head? = some x ∧ (x ∈ punctuation ∧ TokenKind.ofChar x = kind) ∧ l = [x] := by
  have hmem : ∀ {y : Char}, punctuation.contains y = true →
      ∀ x : Char, decide (x = y) = true → x ∈ punctuation := by
    intro y hy x hx
    rw [of_decide_eq_true hx]
    exact List.contains_iff_mem.mp hy
  cases kind with
  | number => exact absurd rfl hkind
  | operator =>
    refine matchOne?_eq_some_iff_ofChar (fun x hx => ?_) (by decide)
    exact List.mem_append_left _ (List.contains_iff_mem.mp hx)
  | root => exact matchOne?_eq_some_iff_ofChar (hmem (y := rootSign) (by decide)) (by decide)
  | opening => exact matchOne?_eq_some_iff_ofChar (hmem (y := openParen) (by decide)) (by decide)
  | closing => exact matchOne?_eq_some_iff_ofChar (hmem (y := closeParen) (by decide)) (by decide)

/-- **Only one pattern matches**, that of the kind of the first character. -/
theorem ofChar_of_match? (h : kind.match? text = some l) :
    ∃ x, text.head? = some x ∧ l.head? = some x ∧ isAlphabet x = true ∧
      TokenKind.ofChar x = kind := by
  by_cases hkind : kind = .number
  · subst hkind
    obtain ⟨rfl, hne⟩ := matchSome?_eq_some_iff.mp h
    obtain ⟨x, run, hrun⟩ := List.exists_cons_of_ne_nil hne
    have hx : isNumberChar x = true := List.mem_takeWhile_imp (hrun ▸ List.mem_cons_self)
    refine ⟨x, ?_, by rw [hrun, List.head?_cons], isAlphabet_of_isNumberChar hx,
      ofChar_of_isNumberChar hx⟩
    rw [← List.takeWhile_append_dropWhile (p := isNumberChar) (l := text), hrun, List.cons_append,
      List.head?_cons]
  · obtain ⟨x, hx, ⟨hmem, hofChar⟩, rfl⟩ := (match?_eq_some_iff hkind).mp h
    exact ⟨x, hx, rfl, isAlphabet_of_mem_punctuation hmem, hofChar⟩

/-- A character of the alphabet is matched by the pattern of its kind. -/
theorem exists_match?_of_isAlphabet (h : isAlphabet x = true) (xs : List Char) :
    ∃ l, (TokenKind.ofChar x).match? (x :: xs) = some l := by
  rcases isAlphabet_iff.mp h with hnumber | hmem
  · rw [ofChar_of_isNumberChar hnumber]
    refine ⟨_, matchSome?_eq_some_iff.mpr ⟨rfl, ?_⟩⟩
    rw [List.takeWhile_cons_of_pos hnumber]
    exact List.cons_ne_nil _ _
  · exact ⟨[x], (match?_eq_some_iff (ofChar_ne_number hmem)).mpr ⟨x, rfl, ⟨hmem, rfl⟩, rfl⟩⟩

theorem foldr_longer?_ne_none {ms : List (Option (TokenKind × List Char))}
    {m : TokenKind × List Char} (h : some m ∈ ms) : ms.foldr longer? none ≠ none := by
  induction ms with
  | nil => cases h
  | cons first ms ih =>
    rw [List.foldr_cons]
    generalize ms.foldr longer? none = best at ih
    rcases List.mem_cons.mp h with rfl | hrest
    · cases best with
      | none => exact Option.some_ne_none _
      | some n =>
        rw [longer?]
        split <;> exact Option.some_ne_none _
    · cases first with
      | none => exact ih hrest
      | some m =>
        cases best with
        | none => exact absurd rfl (ih hrest)
        | some n =>
          rw [longer?]
          split <;> exact Option.some_ne_none _

/-- **The lexeme ahead** is what the pattern of its kind matches. -/
theorem lexeme?_eq_some_iff : lexeme? text = some (kind, l) ↔ kind.match? text = some l := by
  refine ⟨match?_of_lexeme?, fun h => ?_⟩
  have hne : lexeme? text ≠ none := by
    refine foldr_longer?_ne_none (m := (kind, l)) (List.mem_map.mpr ⟨kind, ?_, by rw [h]; rfl⟩)
    cases kind <;> decide
  obtain ⟨⟨kind', l'⟩, hlexeme⟩ := Option.ne_none_iff_exists'.mp hne
  have h' := match?_of_lexeme? hlexeme
  obtain ⟨x, hx, -, -, rfl⟩ := ofChar_of_match? h
  obtain ⟨y, hy, -, -, rfl⟩ := ofChar_of_match? h'
  rw [hx] at hy
  cases hy
  rw [h] at h'
  cases h'
  exact hlexeme

/-- No lexeme starts outside the alphabet, and only there. -/
theorem lexeme?_eq_none_iff : lexeme? (x :: xs) = none ↔ isAlphabet x = false := by
  constructor
  · intro h
    by_contra hx
    obtain ⟨l, hl⟩ := exists_match?_of_isAlphabet (Bool.not_eq_false _ ▸ hx) xs
    rw [lexeme?_eq_some_iff.mpr hl] at h
    cases h
  · intro h
    by_contra hne
    obtain ⟨⟨kind, l⟩, hl⟩ := Option.ne_none_iff_exists'.mp hne
    obtain ⟨y, hy, -, halphabet, -⟩ := ofChar_of_match? (lexeme?_eq_some_iff.mp hl)
    cases hy
    rw [h] at halphabet
    cases halphabet

/-- **A match is the first of the lexemes.** -/
theorem lexemes_of_match? (h : kind.match? text = some l) :
    ∃ rest, text = l ++ rest ∧ (∀ x ∈ l, isAlphabet x = true) ∧ lexemes text = l :: lexemes rest := by
  by_cases hkind : kind = .number
  · subst hkind
    obtain ⟨rfl, hne⟩ := matchSome?_eq_some_iff.mp h
    have hrun : ∀ x ∈ text.takeWhile isNumberChar, isNumberChar x = true :=
      fun x => List.mem_takeWhile_imp
    refine ⟨text.dropWhile isNumberChar, List.takeWhile_append_dropWhile.symm,
      fun x hx => isAlphabet_of_isNumberChar (hrun x hx), ?_⟩
    conv => lhs; rw [← List.takeWhile_append_dropWhile (p := isNumberChar) (l := text)]
    refine lexemes_run hne hrun fun x hx => ?_
    have hhead := List.head?_dropWhile_not isNumberChar text
    rw [hx] at hhead
    exact hhead
  · obtain ⟨x, hx, ⟨hmem, -⟩, rfl⟩ := (match?_eq_some_iff hkind).mp h
    obtain ⟨xs, rfl⟩ := List.head?_eq_some_iff.mp hx
    exact ⟨xs, rfl, List.forall_mem_singleton.mpr (isAlphabet_of_mem_punctuation hmem),
      lexemes_cons hmem⟩

/-! ### The loop -/

/-- **The loop finds the lexemes**, each at its place, and what stops it is the first character outside
the alphabet. -/
theorem tokensFrom_eq (position : ℕ) (text : List Char) :
    tokensFrom position text = ⟨placed position (lexemes text),
      (text.dropWhile isAlphabet).head?.map (position + (text.takeWhile isAlphabet).length, ·)⟩ := by
  fun_induction tokensFrom position text with
  | case1 position text hhead =>
    rw [List.head?_eq_none_iff.mp hhead]
    rfl
  | case2 position text x hhead h =>
    obtain ⟨xs, rfl⟩ := List.head?_eq_some_iff.mp hhead
    have hx := lexeme?_eq_none_iff.mp h
    rw [lexemes_of_isAlphabet_eq_false hx, List.takeWhile_cons_of_neg (by simp [hx]),
      List.dropWhile_cons_of_neg (by simp [hx])]
    rfl
  | case3 position text x hhead kind l h hless ih =>
    have hmatch := lexeme?_eq_some_iff.mp h
    obtain ⟨rest, rfl, halphabet, hlexemes⟩ := lexemes_of_match? hmatch
    obtain ⟨y, -, hy, -, rfl⟩ := ofChar_of_match? hmatch
    rw [ih, List.drop_left, hlexemes, placed, hy, List.takeWhile_append_of_pos halphabet,
      List.dropWhile_append_of_pos halphabet, List.length_append, ← Nat.add_assoc]
    rfl

/-- **The tokens of a text** are its lexemes at their places. -/
theorem tokenize_eq (text : List Char) :
    tokenize text = ⟨placed 0 (lexemes text),
      (text.dropWhile isAlphabet).head?.map ((text.takeWhile isAlphabet).length, ·)⟩ := by
  rw [tokenize, tokensFrom_eq]
  simp only [Nat.zero_add]

theorem tokens_tokenize (text : List Char) : (tokenize text).tokens = placed 0 (lexemes text) := by
  rw [tokenize_eq]

theorem stop_tokenize (text : List Char) : (tokenize text).stop =
    (text.dropWhile isAlphabet).head?.map ((text.takeWhile isAlphabet).length, ·) := by
  rw [tokenize_eq]

/-! ### Tokens -/

theorem lexemes_eq_nil_iff : lexemes text = [] ↔ text.takeWhile isAlphabet = [] := List.splitBy_eq_nil

theorem placed_eq_nil_iff {start : ℕ} {ls : List (List Char)} :
    placed start ls = [] ↔ ls = [] := by
  cases ls <;> simp [placed]

theorem stop_eq_none_iff : (tokenize text).stop = none ↔ text.dropWhile isAlphabet = [] := by
  rw [stop_tokenize, Option.map_eq_none_iff, List.head?_eq_none_iff]

theorem placed_append (start : ℕ) (xs ys : List (List Char)) :
    placed start (xs ++ ys) =
      placed start xs ++ placed (start + xs.flatten.length) ys := by
  induction xs generalizing start with
  | nil => rfl
  | cons x xs ih =>
    rw [List.cons_append, placed, placed, ih, List.flatten_cons, List.length_append,
      Nat.add_assoc, List.cons_append]

/-- A lexeme is the text of a token that starts behind the lexemes before it. -/
theorem mem_tokens_of_lexemes {done ahead : List (List Char)} {l : List Char}
    (h : lexemes text = done ++ l :: ahead) :
    ⟨l.head?.elim .number .ofChar, l, done.flatten.length⟩ ∈ (tokenize text).tokens := by
  rw [tokens_tokenize, h, placed_append, Nat.zero_add]
  exact List.mem_append_right _ List.mem_cons_self

/-- The position is the first one, or the end of a token. -/
def Tokens.Boundary (t : Tokens) (q : ℕ) : Prop :=
  q = 0 ∨ ∃ token ∈ t.tokens, token.start + token.text.length = q

/-- **Behind some of the lexemes is a boundary.** -/
theorem boundary_of_lexemes {done ahead : List (List Char)} (h : lexemes text = done ++ ahead) :
    (tokenize text).Boundary done.flatten.length := by
  rcases List.eq_nil_or_concat' done with rfl | ⟨init, last, rfl⟩
  · exact .inl rfl
  · rw [List.append_assoc, List.singleton_append] at h
    refine .inr ⟨_, mem_tokens_of_lexemes h, ?_⟩
    rw [List.flatten_append, List.length_append, List.flatten_singleton]

theorem end_le_of_mem_placed {start : ℕ} {ls : List (List Char)} {token : Token}
    (h : token ∈ placed start ls) :
    token.start + token.text.length ≤ start + ls.flatten.length := by
  induction ls generalizing start with
  | nil => cases h
  | cons l ls ih =>
    rw [List.flatten_cons, List.length_append, ← Nat.add_assoc]
    rcases List.mem_cons.mp h with rfl | h
    · exact Nat.le_add_right _ _
    · exact ih h

/-- The tokens end where the first character outside the alphabet stands. -/
theorem Tokens.Boundary.le_stop {q p : ℕ} (h : (tokenize text).Boundary q)
    (hstop : (tokenize text).stop = some (p, x)) : q ≤ p := by
  rw [tokenize_eq] at h hstop
  have hp : (text.takeWhile isAlphabet).length = p := by
    obtain ⟨y, -, heq⟩ := Option.map_eq_some_iff.mp hstop
    exact (Prod.mk.inj heq).1
  rcases h with rfl | ⟨token, hmem, rfl⟩
  · exact Nat.zero_le _
  · have hle := end_le_of_mem_placed hmem
    rw [lexemes, List.flatten_splitBy, Nat.zero_add, hp] at hle
    exact hle

end InfixCalculator
