import InfixCalculator.Proofs.Expression.Normal
import InfixCalculator.Proofs.Expression.Signals
import InfixCalculator.Session

/-! # Blanks and glyphs

An expression can be typed with other blanks and other glyphs, and nobody sees the difference.

* `unified`: what a character becomes; `normalize_eq_flatMap`: the replacements of the glyphs, one
  after the other, and the removal of the blanks come to this.
* `Retyped`: texts that differ by blanks and by glyphs of the same operator; `retyped_iff`: these are
  the texts with one normal form.
* `Calculator.retyped_unseen`: they have the same value or the same error, and the same tokens. -/

namespace InfixCalculator

open Text

variable {c x : Char} {xs ys text : List Char}

/-! ### One character -/

/-- The other glyphs of a multiplication. -/
def timesGlyphs : List Char := ['×', '⋅', '∗', 'x']

/-- The other glyphs of a division. -/
def divisionGlyphs : List Char := ['÷', '∕']

/-- What a character becomes: the glyphs of an operator are made one, and a blank vanishes. -/
def unified (c : Char) : List Char :=
  if c ∈ timesGlyphs then ['*'] else if c ∈ divisionGlyphs then ['/'] else if isBlank c then [] else [c]

/-- The glyphs that stand for a character: several for two of the operators. -/
def glyphsOf (x : Char) : List Char :=
  if x = '*' then '*' :: timesGlyphs else if x = '/' then '/' :: divisionGlyphs else [x]

/-- A character that is kept as it is: neither a blank nor another glyph of an operator. -/
def IsKept (c : Char) : Prop := isBlank c = false ∧ c ∉ timesGlyphs ∧ c ∉ divisionGlyphs

instance (c : Char) : Decidable (IsKept c) := inferInstanceAs (Decidable (_ ∧ _ ∧ _))

theorem unified_of_isKept (h : IsKept c) : unified c = [c] := by
  obtain ⟨hblank, htimes, hdivision⟩ := h
  rw [unified, if_neg htimes, if_neg hdivision, hblank, if_neg Bool.false_ne_true]

theorem unified_of_isBlank (h : isBlank c = true) : unified c = [] := by
  have htimes : ∀ c ∈ timesGlyphs, isBlank c = false :=
    List.forall_iff_forall_mem.mp (by decide)
  have hdivision : ∀ c ∈ divisionGlyphs, isBlank c = false :=
    List.forall_iff_forall_mem.mp (by decide)
  have hne : isBlank c ≠ false := by simp [h]
  rw [unified, if_neg fun hc => hne (htimes c hc), if_neg fun hc => hne (hdivision c hc), if_pos h]

theorem self_mem_glyphsOf (x : Char) : x ∈ glyphsOf x := by
  unfold glyphsOf
  split_ifs with htimes hdivision
  · exact List.mem_cons.mpr (.inl htimes)
  · exact List.mem_cons.mpr (.inl hdivision)
  · exact List.mem_singleton_self x

/-- The glyphs of a character become the same. -/
theorem unified_of_mem_glyphsOf (h : c ∈ glyphsOf x) : unified c = unified x := by
  have htimes : ∀ c ∈ glyphsOf '*', unified c = unified '*' :=
    List.forall_iff_forall_mem.mp (by decide)
  have hdivision : ∀ c ∈ glyphsOf '/', unified c = unified '/' :=
    List.forall_iff_forall_mem.mp (by decide)
  by_cases h1 : x = '*'
  · subst h1
    exact htimes c h
  by_cases h2 : x = '/'
  · subst h2
    exact hdivision c h
  rw [glyphsOf, if_neg h1, if_neg h2, List.mem_singleton] at h
  rw [h]

/-- A character is a blank, another glyph of one of the two operators, or kept. -/
theorem glyph_cases (c : Char) :
    isBlank c = true ∨ c ∈ timesGlyphs ∨ c ∈ divisionGlyphs ∨ IsKept c := by
  unfold IsKept
  cases isBlank c <;> tauto

/-- A character vanishes, being a blank, or is a glyph of what it becomes. -/
theorem unified_cases (c : Char) :
    isBlank c = true ∧ unified c = [] ∨ ∃ x, unified c = [x] ∧ c ∈ glyphsOf x := by
  rcases glyph_cases c with h | h | h | h
  · exact .inl ⟨h, unified_of_isBlank h⟩
  · have hall : ∀ c ∈ timesGlyphs, unified c = ['*'] ∧ c ∈ glyphsOf '*' :=
      List.forall_iff_forall_mem.mp (by decide)
    exact .inr ⟨'*', hall c h⟩
  · have hall : ∀ c ∈ divisionGlyphs, unified c = ['/'] ∧ c ∈ glyphsOf '/' :=
      List.forall_iff_forall_mem.mp (by decide)
    exact .inr ⟨'/', hall c h⟩
  · exact .inr ⟨c, unified_of_isKept h, self_mem_glyphsOf c⟩

/-- The characters that are kept are those of a normal form. -/
theorem isKept_iff_isNormal : IsKept c ↔ IsNormal c := by
  constructor
  · rintro ⟨hblank, htimes, hdivision⟩
    simp only [timesGlyphs, List.mem_cons, not_or] at htimes
    simp only [divisionGlyphs, List.mem_cons, not_or] at hdivision
    exact ⟨by simp [spelling, glyphs, htimes, hdivision], hblank⟩
  · rintro ⟨hspelling, hblank⟩
    have htimes : ∀ c ∈ timesGlyphs, spelling c ≠ c :=
      List.forall_iff_forall_mem.mp (by decide)
    have hdivision : ∀ c ∈ divisionGlyphs, spelling c ≠ c :=
      List.forall_iff_forall_mem.mp (by decide)
    exact ⟨hblank, fun h => htimes c h hspelling, fun h => hdivision c h hspelling⟩

/-- The replacements do not feed each other, and make no blanks. -/
theorem normalize_singleton (c : Char) : normalize [c] = unified c := by
  rcases glyph_cases c with h | h | h | h
  · have hblanks : ∀ n ∈ blanks, normalize [Char.ofNat n] = [] := by decide
    have hmem : c.toNat ∈ blanks := by simpa [isBlank] using h
    rw [unified_of_isBlank h, ← Char.ofNat_toNat c, hblanks _ hmem]
  · have hall : ∀ c ∈ timesGlyphs, normalize [c] = unified c :=
      List.forall_iff_forall_mem.mp (by decide)
    exact hall c h
  · have hall : ∀ c ∈ divisionGlyphs, normalize [c] = unified c :=
      List.forall_iff_forall_mem.mp (by decide)
    exact hall c h
  · rw [unified_of_isKept h]
    exact normalize_of_normal (List.forall_mem_singleton.mpr (isKept_iff_isNormal.mp h))

/-! ### Texts -/

theorem normalize_cons_unified (c : Char) (xs : List Char) :
    normalize (c :: xs) = unified c ++ normalize xs := by
  rw [normalize_cons, normalize_singleton]

/-- **The normal form** is made character by character. -/
theorem normalize_eq_flatMap (text : List Char) : normalize text = text.flatMap unified := by
  induction text with
  | nil => rfl
  | cons c xs ih => rw [normalize_cons_unified, ih, List.flatMap_cons]

example : normalize " 1 ×\t2x3 ÷ .\u00a05".toList = "1*2*3/.5".toList := by decide

/-- All characters that are kept are in the normal form, in their order. -/
theorem filter_sublist_normalize (text : List Char) :
    (text.filter (IsKept ·)).Sublist (normalize text) := by
  induction text with
  | nil => exact List.nil_sublist _
  | cons c xs ih =>
    rw [normalize_cons_unified]
    by_cases h : IsKept c
    · rw [List.filter_cons_of_pos (by simpa using h), unified_of_isKept h]
      exact ih.cons_cons c
    · rw [List.filter_cons_of_neg (by simpa using h)]
      exact ih.trans (List.sublist_append_right _ _)

/-- **The texts differ only by blanks and glyphs**: blanks may be anywhere in the one and in the
other, and each of them may have any glyph of an operator. -/
inductive Retyped : List Char → List Char → Prop
  | nil : Retyped [] []
  | glyph {c d x : Char} {xs ys : List Char} (hc : c ∈ glyphsOf x) (hd : d ∈ glyphsOf x)
    (h : Retyped xs ys) : Retyped (c :: xs) (d :: ys)
  | blankLeft {c : Char} {xs ys : List Char} (hc : isBlank c = true) (h : Retyped xs ys) :
    Retyped (c :: xs) ys
  | blankRight {c : Char} {xs ys : List Char} (hc : isBlank c = true) (h : Retyped xs ys) :
    Retyped xs (c :: ys)

theorem Retyped.normalize_eq (h : Retyped xs ys) : normalize xs = normalize ys := by
  induction h with
  | nil => rfl
  | glyph hc hd h ih =>
    rw [normalize_cons_unified, normalize_cons_unified, unified_of_mem_glyphsOf hc,
      unified_of_mem_glyphsOf hd, ih]
  | blankLeft hc h ih => rw [normalize_cons_unified, unified_of_isBlank hc, List.nil_append, ih]
  | blankRight hc h ih => rw [normalize_cons_unified, unified_of_isBlank hc, List.nil_append, ih]

theorem retyped_of_normalize_eq (h : normalize xs = normalize ys) : Retyped xs ys := by
  induction xs generalizing ys with
  | nil =>
    induction ys with
    | nil => exact .nil
    | cons d ys ih =>
      rw [normalize_cons_unified] at h
      obtain ⟨hd, hnil⟩ := List.append_eq_nil_iff.mp h.symm
      rcases unified_cases d with ⟨hblank, -⟩ | ⟨y, hy, -⟩
      · exact .blankRight hblank (ih hnil.symm)
      · rw [hy] at hd
        cases hd
  | cons c xs ih =>
    rcases unified_cases c with ⟨hblank, hc⟩ | ⟨x, hx, hmem⟩
    · rw [normalize_cons_unified, hc, List.nil_append] at h
      exact .blankLeft hblank (ih h)
    -- What the character becomes is behind the blanks that the other text starts with.
    induction ys with
    | nil =>
      rw [normalize_cons_unified, hx] at h
      cases h
    | cons d ys ih' =>
      rcases unified_cases d with ⟨hblank, hd⟩ | ⟨y, hy, hmem'⟩
      · rw [normalize_cons_unified d, hd, List.nil_append] at h
        exact .blankRight hblank (ih' h)
      · rw [normalize_cons_unified, normalize_cons_unified, hx, hy] at h
        obtain ⟨rfl, hrest⟩ := List.cons_eq_cons.mp h
        exact .glyph hmem hmem' (ih hrest)

/-- **Texts differ only by blanks and glyphs** if and only if they have one normal form. -/
theorem retyped_iff : Retyped xs ys ↔ normalize xs = normalize ys :=
  ⟨Retyped.normalize_eq, retyped_of_normalize_eq⟩

/-! ### Evaluations and tokens -/

namespace Calculator

variable {k : Calculator}

/-- An error is one in the normal form. -/
theorem expression_of_evaluate {e : EvaluationError} (h : k.evaluate text = .error (.error e)) :
    e.expression = normalize text := by
  unfold evaluate at h
  dsimp only at h
  split_ifs at h
  unfold evaluateNormal at h
  split at h
  · rename_i f d hread
    cases f with
    | problem p =>
      cases h
      rfl
    | signal s =>
      cases s <;> cases h
      rfl
  · split_ifs at h
    cases h
    rfl

/-- An evaluation looks at the normal form only. -/
theorem evaluate_congr (k : Calculator) (h : normalize xs = normalize ys) :
    k.evaluate xs = k.evaluate ys := by
  rw [evaluate, evaluate, h]

theorem evaluateAt_congr (functions : Double.Functions) (precision : Option ℤ)
    (h : normalize xs = normalize ys) :
    evaluateAt functions precision xs = evaluateAt functions precision ys := by
  simp only [evaluateAt, h, fun p => evaluate_congr ⟨p, functions⟩ h]

/-- Texts with one normal form have the same value or the same error. -/
theorem evaluate_retyped (k : Calculator) (h : normalize xs = normalize ys) :
    (∃ v, k.evaluate xs = .ok v ∧ k.evaluate ys = .ok v) ∨
      ∃ e, k.evaluate xs = .error (.error e) ∧ k.evaluate ys = .error (.error e) ∧
        e.expression = normalize xs := by
  rw [← evaluate_congr k h]
  cases heval : k.evaluate xs with
  | ok v => exact .inl ⟨v, rfl, rfl⟩
  | error failure =>
    cases failure with
    | error e => exact .inr ⟨e, rfl, rfl, expression_of_evaluate heval⟩
    | signal s => exact absurd heval (evaluate_ne_signal k xs s)

/-- **Blanks and glyphs are not seen.** The normal form is made character by character. So it goes
through texts piece by piece, is its own normal form, has neither blanks nor other glyphs, and keeps
all other characters in their order. Texts have one normal form if and only if they differ only by
blanks, which may be anywhere, and by the choice of glyphs. These have the same value or the same
error, with its kind, message, position and expression, whatever the precision, and the same
tokens. -/
theorem retyped_unseen :
    (∀ text, normalize text = text.flatMap unified) ∧
    (∀ xs ys, normalize (xs ++ ys) = normalize xs ++ normalize ys) ∧
    (∀ text, normalize (normalize text) = normalize text) ∧
    (∀ text, (∀ c ∈ normalize text, IsKept c) ∧
      (text.filter (IsKept ·)).Sublist (normalize text)) ∧
    (∀ xs ys, Retyped xs ys ↔ normalize xs = normalize ys) ∧
    ∀ xs ys, Retyped xs ys →
      (∀ k : Calculator, (∃ v, k.evaluate xs = .ok v ∧ k.evaluate ys = .ok v) ∨
        ∃ e, k.evaluate xs = .error (.error e) ∧ k.evaluate ys = .error (.error e) ∧
          e.expression = normalize xs) ∧
      (∀ functions precision,
        evaluateAt functions precision xs = evaluateAt functions precision ys) ∧
      tokenize (normalize xs) = tokenize (normalize ys) ∧
      ∀ trace o s, Session.dumpLine trace o s xs = Session.dumpLine trace o s ys := by
  refine ⟨normalize_eq_flatMap, normalize_append, fun text => ?_, fun text => ⟨fun c hc => ?_,
    filter_sublist_normalize text⟩, fun xs ys => retyped_iff, fun xs ys h => ?_⟩
  · exact normalize_of_normal fun c => isNormal_of_mem_normalize
  · exact isKept_iff_isNormal.mpr (isNormal_of_mem_normalize hc)
  · have hnormal := h.normalize_eq
    refine ⟨fun k => evaluate_retyped k hnormal, fun f p => evaluateAt_congr f p hnormal, ?_,
      fun trace o s => ?_⟩
    · rw [hnormal]
    · rw [Session.dumpLine, Session.dumpLine, hnormal]

end Calculator

end InfixCalculator
