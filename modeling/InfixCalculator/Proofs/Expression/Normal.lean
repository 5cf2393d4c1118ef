import InfixCalculator.Expression.Alphabet
import Mathlib.Data.List.Basic

/-! # The normal form, character by character

* `spelling`: the one spelling of a character.
* `normalize_eq`: the normal form is that of each character, without the blanks.
* `normalize_append`, `normalize_cons`: hence it goes through a text piece by piece.
* `normalize_of_normal`: a text in normal form is kept; `isNormal_of_mem_normalize`: the normal form
  is such a text; `isNormal_of_isNumberChar`: so is a number literal. -/

namespace InfixCalculator

open Text

/-- The one spelling of a character. -/
def spelling (c : Char) : Char := glyphs.foldl (fun c glyph => if c = glyph.1 then glyph.2 else c) c

theorem foldl_respell (gs : List (Char × Char)) (text : List Char) :
    gs.foldl respell text =
      text.map fun c => gs.foldl (fun c glyph => if c = glyph.1 then glyph.2 else c) c := by
  induction gs generalizing text with
  | nil => exact (List.map_id' text).symm
  | cons glyph gs ih =>
    rw [List.foldl_cons, ih, respell, List.map_map]
    rfl

/-- **The normal form** is that of each character, without the blanks. -/
theorem normalize_eq (text : List Char) :
    normalize text = (text.map spelling).filter fun c => !isBlank c := by
  rw [normalize, foldl_respell]
  rfl

theorem normalize_append (xs ys : List Char) :
    normalize (xs ++ ys) = normalize xs ++ normalize ys := by
  rw [normalize_eq, normalize_eq, normalize_eq, List.map_append, List.filter_append]

theorem normalize_cons (c : Char) (xs : List Char) :
    normalize (c :: xs) = normalize [c] ++ normalize xs :=
  normalize_append [c] xs

/-- The character is in normal form and no blank. -/
def IsNormal (c : Char) : Prop := spelling c = c ∧ isBlank c = false

instance (c : Char) : Decidable (IsNormal c) := inferInstanceAs (Decidable (_ ∧ _))

theorem normalize_of_normal {text : List Char} (h : ∀ c ∈ text, IsNormal c) :
    normalize text = text := by
  have hmap : text.map spelling = text := by
    conv_rhs => rw [← List.map_id text]
    exact List.map_congr_left fun c hc => (h c hc).1
  rw [normalize_eq, hmap]
  exact List.filter_eq_self.mpr fun c hc => by rw [(h c hc).2]; rfl

theorem spelling_spelling (c : Char) : spelling (spelling c) = spelling c := by
  have h : spelling c = c ∨ spelling c = '*' ∨ spelling c = '/' := by
    simp only [spelling, glyphs, List.foldl_cons, List.foldl_nil]
    split_ifs <;> simp_all
  rcases h with h | h | h
  · rw [h, h]
  · rw [h]; decide
  · rw [h]; decide

/-- Digits and points are in normal form. -/
theorem isNormal_of_isNumberChar {c : Char} (h : isNumberChar c = true) : IsNormal c := by
  constructor
  · have hglyphs : ∀ glyph ∈ glyphs, isNumberChar glyph.1 = false := by decide
    have hne : ∀ glyph ∈ glyphs, c ≠ glyph.1 := by
      rintro glyph hglyph rfl
      rw [hglyphs glyph hglyph] at h
      cases h
    simp only [glyphs, List.forall_mem_cons] at hne
    simp [spelling, glyphs, hne]
  · have hblanks : ∀ n ∈ blanks, isNumberChar (Char.ofNat n) = false := by decide
    by_contra hblank
    have hmem : c.toNat ∈ blanks := by simpa [isBlank] using hblank
    have hnot := hblanks _ hmem
    rw [Char.ofNat_toNat, h] at hnot
    cases hnot

theorem isNormal_of_mem_normalize {text : List Char} {c : Char} (h : c ∈ normalize text) :
    IsNormal c := by
  rw [normalize_eq, List.mem_filter, List.mem_map] at h
  obtain ⟨⟨x, -, rfl⟩, hblank⟩ := h
  exact ⟨spelling_spelling x, by simpa using hblank⟩

end InfixCalculator
