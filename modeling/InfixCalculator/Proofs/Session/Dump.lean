import InfixCalculator.Proofs.Expression.Lossless
import InfixCalculator.Proofs.Text.Unquoted
import InfixCalculator.Proofs.Text.Visible
import InfixCalculator.Session.Run

/-! # Dumps of tokens

* `Session.tokens_of_dump`: the texts of the tokens are known from their dump.
* `Session.answer_of_dump`: a run that dumps tokens keeps the last answer.
* `Session.tokens_lossless`: what tokens say of a line, and what their dump says of it. -/

namespace InfixCalculator

open Text

namespace Session

/-! ### Lines and fields -/

/-- A text is cut in one way before the first character of a kind. -/
theorem eq_of_append_cons {α : Type} {a : α} {xs ys xs' ys' : List α} (hxs : a ∉ xs) (hys : a ∉ ys)
    (h : xs ++ a :: xs' = ys ++ a :: ys') : xs = ys ∧ xs' = ys' := by
  induction xs generalizing ys with
  | nil =>
    cases ys with
    | nil => exact ⟨rfl, (List.cons.inj h).2⟩
    | cons y ys =>
      obtain ⟨rfl, -⟩ := List.cons.inj h
      exact absurd List.mem_cons_self hys
  | cons x xs ih =>
    cases ys with
    | nil =>
      obtain ⟨rfl, -⟩ := List.cons.inj h
      exact absurd List.mem_cons_self hxs
    | cons y ys =>
      obtain ⟨rfl, htail⟩ := List.cons.inj h
      obtain ⟨rfl, hrest⟩ := ih (fun hmem => hxs (List.mem_cons_of_mem x hmem))
        (fun hmem => hys (List.mem_cons_of_mem x hmem)) htail
      exact ⟨rfl, hrest⟩

theorem tab_notMem_name (kind : TokenKind) : '\t' ∉ kind.name.toList := by cases kind <;> decide

theorem tab_notMem_quoted (text : List Char) : '\t' ∉ quoted text := fun h => by
  have htab : isPrintable '\t' = false := by decide +kernel
  rw [visible_quoted text _ h] at htab
  cases htab

/-- A token that is not empty is shown with its one kind. -/
theorem tokenLine_eq {a : Token} (h : a.text ≠ []) : tokenLine a =
    a.kind.name.toList ++ '\t' :: (quoted a.text ++ '\t' :: (numeral a.start ++ ['\n'])) := by
  rw [tokenLine, Token.kinds_eq h, List.flatMap_singleton, List.append_assoc, List.singleton_append]

/-- The text of a token is known from the line on which it is shown. -/
theorem text_of_tokenLine {a b : Token} (ha : a.text ≠ []) (hb : b.text ≠ [])
    {after after' : List Char} (h : tokenLine a ++ after = tokenLine b ++ after') :
    a.text = b.text ∧ after = after' := by
  simp only [tokenLine_eq ha, tokenLine_eq hb, List.append_assoc, List.cons_append] at h
  obtain ⟨-, h⟩ := eq_of_append_cons (tab_notMem_name a.kind) (tab_notMem_name b.kind) h
  obtain ⟨htext, h⟩ := eq_of_append_cons (tab_notMem_quoted a.text) (tab_notMem_quoted b.text) h
  have hnumeral : ∀ n, '\n' ∉ numeral n := fun n hmem =>
    (visible_numeral n).notMem_lineBreaks _ hmem (by decide)
  obtain ⟨-, hafter⟩ := eq_of_append_cons (hnumeral a.start) (hnumeral b.start) h
  exact ⟨quoted_injective htext, hafter⟩

/-- **The texts of tokens are known from their dump.** -/
theorem texts_of_tokenLines {ts us : List Token} (hts : ∀ t ∈ ts, t.text ≠ [])
    (hus : ∀ u ∈ us, u.text ≠ []) (h : ts.flatMap tokenLine = us.flatMap tokenLine) :
    ts.map Token.text = us.map Token.text := by
  have hne : ∀ t : Token, tokenLine t ≠ [] := fun t => by simp [tokenLine]
  induction ts generalizing us with
  | nil =>
    cases us with
    | nil => rfl
    | cons u us => exact absurd (List.append_eq_nil_iff.mp h.symm).1 (hne u)
  | cons t ts ih =>
    cases us with
    | nil => exact absurd (List.append_eq_nil_iff.mp h).1 (hne t)
    | cons u us =>
      rw [List.forall_mem_cons] at hts hus
      obtain ⟨htext, hrest⟩ := text_of_tokenLine hts.1 hus.1 h
      rw [List.map_cons, List.map_cons, htext, ih hts.2 hus.2 hrest]

theorem out_dumpLine (trace : Traceback) (o : Options) (s : Session) (line : List Char) :
    (s.dumpLine trace o line).out = (tokenize (normalize line)).tokens.flatMap tokenLine := by
  rw [dumpLine]
  cases (tokenize (normalize line)).error? (normalize line) <;> rfl

/-- **A dump determines** the normal form of the line up to the first character outside the
alphabet. -/
theorem takeWhile_of_dumpLine {trace trace' : Traceback} {o o' : Options} {s s' : Session}
    {line line' : List Char}
    (h : (s.dumpLine trace o line).out = (s'.dumpLine trace' o' line').out) :
    (normalize line).takeWhile isAlphabet = (normalize line').takeWhile isAlphabet := by
  rw [out_dumpLine, out_dumpLine] at h
  rw [← flatMap_tokens, ← flatMap_tokens, List.flatMap_def, List.flatMap_def,
    texts_of_tokenLines (fun _ => text_ne_nil_of_mem_tokens) (fun _ => text_ne_nil_of_mem_tokens) h]

/-! ### The last answer -/

theorem answer_dumpLine (trace : Traceback) (o : Options) (s : Session) (line : List Char) :
    (s.dumpLine trace o line).session.answer = s.answer := by
  rw [dumpLine]
  cases (tokenize (normalize line)).error? (normalize line) <;> rfl

theorem answer_perform {k : Calculator} {trace : Traceback} {o : Options} (h : o.action = .dump)
    (s : Session) (lines : List (List Char)) :
    (perform k trace o s lines).session.answer = s.answer := by
  have hstep : ∀ (s : Session) (line : List Char),
      (s.step k trace o line).session.answer = s.answer := by
    intro s line
    rw [step, h]
    exact answer_dumpLine trace o s line
  induction lines generalizing s with
  | nil => rfl
  | cons line rest ih =>
    rw [perform]
    dsimp only
    cases (s.step k trace o line).fault with
    | some fault => exact hstep s line
    | none => exact (ih _).trans (hstep s line)

/-- **A run that dumps tokens keeps the last answer**, wherever its lines come from. -/
theorem answer_of_dump {k : Calculator} {o : Options} (h : o.action = .dump) (t : Surroundings)
    (s : Session) : (run k t o s).session.answer = s.answer := by
  rw [run, if_neg (by rw [h]; decide)]
  split
  · exact answer_perform h s _
  · rw [conclude, performTyped]
    dsimp only
    split
    · rfl
    · exact answer_perform h s _
  · exact answer_perform h s _

/-! ### Lines -/

/-- **Tokens lose nothing of a line.** They are not empty, each has one kind and starts behind those
before it, and together they are the normal form of the line; or, where a character is outside the
alphabet, what stands before the first one of these, which makes the error. A number consists of
digits and points and is not followed by another one, and all other tokens are one character. So a
dump determines the normal form up to the first bad character; and it keeps the last answer. -/
theorem tokens_lossless (line : List Char) :
    (∀ token ∈ (tokenize (normalize line)).tokens, token.text ≠ [] ∧
      token.kinds = [token.kind] ∧
      ∀ kind : TokenKind, kind.Covers token.text ↔ kind = token.kind) ∧
    (∀ before token after, (tokenize (normalize line)).tokens = before ++ token :: after →
      token.start = (before.map (·.text.length)).sum) ∧
    ((∀ x ∈ normalize line, isAlphabet x = true) →
      (tokenize (normalize line)).tokens.flatMap Token.text = normalize line ∧
      (tokenize (normalize line)).error? (normalize line) = none) ∧
    (∀ p x, (normalize line)[p]? = some x → isAlphabet x = false →
      (∀ y ∈ (normalize line).take p, isAlphabet y = true) →
      (tokenize (normalize line)).tokens.flatMap Token.text = (normalize line).take p ∧
      (tokenize (normalize line)).error? (normalize line) =
        some ⟨normalize line, .unexpectedCharacter p x⟩) ∧
    (tokenize (normalize line)).tokens.IsChain
      (fun token next => token.kind ≠ .number ∨ next.kind ≠ .number) ∧
    (∀ trace trace' o o' s s' line',
      (dumpLine trace o s line).out = (dumpLine trace' o' s' line').out →
      (normalize line).takeWhile isAlphabet = (normalize line').takeWhile isAlphabet) ∧
    ∀ (k : Calculator) (o : Options), o.action = .dump →
      ∀ surroundings s, (run k surroundings o s).session.answer = s.answer := by
  refine ⟨fun token h => ?_, fun before token after => start_of_tokens, tokens_of_alphabet,
    fun p x => tokens_of_bad, isChain_tokens _, fun _ _ _ _ _ _ _ => takeWhile_of_dumpLine,
    fun k o h t s => answer_of_dump h t s⟩
  exact ⟨text_ne_nil_of_mem_tokens h, kinds_of_mem_tokens h, covers_of_mem_tokens h⟩

end Session

end InfixCalculator
