import InfixCalculator.Decimal.Layout
import InfixCalculator.Proofs.Decimal.Canonical
import InfixCalculator.Proofs.Decimal.Spelling
import InfixCalculator.Proofs.Expression.Limit
import InfixCalculator.Proofs.Expression.Meaning
import InfixCalculator.Proofs.Expression.Printed

/-! # Printing and reading

* `Literal.coefficient`, `Literal.canonical`: the number that the digits of a literal denote, and how it
  is written; `Literal.value_of_known`, `Literal.plain_of_known`: so it is read, and so it is printed.
* `Nest`: a literal inside signs and groups; `Nest.value_tree`: its value.
* `Calculator.primary_of_printed`: a printed number in parentheses is read back, wherever it stands.
* `Calculator.print_and_read`: printing and reading are inverse to each other. -/

namespace InfixCalculator

open Text

/-! ### Literals -/

theorem exists_digits_of_known {xs : List Char} (h : ∀ x ∈ xs, ∃ n, digitValue? x = some n) :
    ∃ ds : List ℕ, (∀ d ∈ ds, d < 10) ∧ xs.mapM digitValue? = some ds ∧
      xs.filterMap digitValue? = ds ∧ xs.map asciiDigit = ds.map digitChar := by
  induction xs with
  | nil => exact ⟨[], nofun, rfl, rfl, rfl⟩
  | cons x xs ih =>
    obtain ⟨n, hn⟩ := h x List.mem_cons_self
    obtain ⟨ds, hlt, hmap, hfilter, hascii⟩ := ih fun y hy => h y (List.mem_cons_of_mem x hy)
    refine ⟨n :: ds, ?_, ?_, ?_, ?_⟩
    · rintro d (_ | ⟨_, hd⟩)
      · exact digitValue?_lt hn
      · exact hlt d hd
    · rw [List.mapM_cons, hn, hmap]
      rfl
    · rw [List.filterMap_cons, hn, hfilter]
    · rw [List.map_cons, List.map_cons, hascii, asciiDigit, hn]
      rfl

theorem dropWhile_digitChar {ds : List ℕ} (h : ∀ d ∈ ds, d < 10) :
    (ds.map digitChar).dropWhile (· = '0') = (ds.dropWhile (· = 0)).map digitChar := by
  have hzero : ∀ d < 10, (digitChar d = '0' ↔ d = 0) := by decide
  induction ds with
  | nil => rfl
  | cons d ds ih =>
    have hd := hzero d (h d List.mem_cons_self)
    have hds := ih fun e he => h e (List.mem_cons_of_mem d he)
    rw [List.map_cons]
    by_cases h0 : d = 0
    · rw [List.dropWhile_cons_of_pos (by simpa using hd.mpr h0),
        List.dropWhile_cons_of_pos (by simpa using h0), hds]
    · rw [List.dropWhile_cons_of_neg (by simpa using hd.not.mpr h0),
        List.dropWhile_cons_of_neg (by simpa using h0), List.map_cons]

namespace Literal

/-- The digits before the point. -/
def whole (l : Literal) : List Char := l.text.takeWhile (· ≠ point)

/-- The digits behind the point. -/
def fraction (l : Literal) : List Char := (l.text.dropWhile (· ≠ point)).drop 1

/-- All digits have a value. -/
def Known (l : Literal) : Prop := ∀ x ∈ l.text, x ≠ point → ∃ n, digitValue? x = some n

/-- The number that the digits denote, as if there were no point. -/
def coefficient (l : Literal) : ℕ := Nat.ofDigits 10 (l.text.filterMap digitValue?).reverse

/-- The literal in ASCII digits, without zeros in front, except for one that stands alone before the
point, and without a point behind which there is nothing. -/
def canonical (l : Literal) : List Char :=
  let front := (l.whole.map asciiDigit).dropWhile (· = '0')
  (if front = [] then ['0'] else front) ++
    if l.fraction = [] then [] else point :: l.fraction.map asciiDigit

variable {l : Literal}

theorem text_cases (l : Literal) : (l.text = l.whole ∧ l.fraction = []) ∨
    l.text = l.whole ++ point :: l.fraction := by
  have hsplit := List.takeWhile_append_dropWhile (p := fun x : Char => decide (x ≠ point)) (l := l.text)
  have hhead := List.head?_dropWhile_not (fun x : Char => decide (x ≠ point)) l.text
  unfold whole fraction
  cases hrest : l.text.dropWhile (· ≠ point) with
  | nil =>
    rw [hrest, List.append_nil] at hsplit
    exact .inl ⟨hsplit.symm, rfl⟩
  | cons x rest =>
    rw [hrest] at hsplit hhead
    obtain rfl : x = point := by simpa using hhead
    exact .inr hsplit.symm

theorem point_notMem_whole (l : Literal) : point ∉ l.whole := fun h => by
  simpa using List.mem_takeWhile_imp h

theorem point_notMem_fraction (l : Literal) : point ∉ l.fraction := by
  rcases l.text_cases with ⟨-, hnil⟩ | htext
  · rw [hnil]
    exact List.not_mem_nil
  · have hpoints := l.points
    rw [htext, List.count_append, List.count_cons_self] at hpoints
    exact List.count_eq_zero.mp (by omega)

theorem ne_nil (l : Literal) : l.whole ++ l.fraction ≠ [] := by
  obtain ⟨x, hx, hpoint⟩ := l.digit
  refine List.ne_nil_of_mem (a := x) ?_
  rcases l.text_cases with ⟨htext, -⟩ | htext
  · exact List.mem_append_left _ (htext ▸ hx)
  · rw [htext, List.mem_append, List.mem_cons] at hx
    simpa [hpoint] using hx

/-- The digits of a literal, before and behind the point. -/
theorem Known.exists_digits (h : l.Known) : ∃ ws fs : List ℕ,
    (∀ d ∈ ws, d < 10) ∧ (∀ d ∈ fs, d < 10) ∧ l.whole.map asciiDigit = ws.map digitChar ∧
      l.fraction.map asciiDigit = fs.map digitChar ∧
      (l.whole ++ l.fraction).mapM digitValue? = some (ws ++ fs) ∧
      l.coefficient = horner (ws ++ fs) := by
  have hmem : ∀ x ∈ l.whole ++ l.fraction, ∃ n, digitValue? x = some n := by
    intro x hx
    have hpoint : x ≠ point := by
      rintro rfl
      rcases List.mem_append.mp hx with hx | hx
      · exact l.point_notMem_whole hx
      · exact l.point_notMem_fraction hx
    refine h x ?_ hpoint
    rcases l.text_cases with ⟨htext, hnil⟩ | htext
    · rwa [htext, ← List.append_nil l.whole, ← hnil]
    · rw [htext]
      simp only [List.mem_append, List.mem_cons] at hx ⊢
      tauto
  obtain ⟨ws, hws, hwmap, hwfilter, hwascii⟩ :=
    exists_digits_of_known fun x hx => hmem x (List.mem_append_left _ hx)
  obtain ⟨fs, hfs, hfmap, hffilter, hfascii⟩ :=
    exists_digits_of_known fun x hx => hmem x (List.mem_append_right _ hx)
  refine ⟨ws, fs, hws, hfs, hwascii, hfascii, ?_, ?_⟩
  · rw [List.mapM_append, hwmap, hfmap]
    rfl
  · have hdigits : l.text.filterMap digitValue? = ws ++ fs := by
      rcases l.text_cases with ⟨htext, hnil⟩ | htext
      · rw [hnil] at hffilter
        rw [htext, hwfilter, ← hffilter]
        exact (List.append_nil ws).symm
      · have hpoint : digitValue? point = none := by decide
        rw [htext, List.filterMap_append, List.filterMap_cons, hpoint, hwfilter, hffilter]
    rw [coefficient, hdigits, horner_eq_ofDigits]

/-- **A literal is read exactly.** -/
theorem value_of_known (h : l.Known) :
    l.value = .ok ⟨false, l.coefficient, -l.fraction.length⟩ := by
  obtain ⟨ws, fs, -, -, -, -, hmap, hcoefficient⟩ := h.exists_digits
  have hread : Decimal.ofPlain? l.text = some ⟨false, l.coefficient, -l.fraction.length⟩ :=
    Decimal.ofPlain?_eq_some_iff.mpr ⟨l.whole, l.fraction, ws ++ fs, l.point_notMem_whole, l.ne_nil,
      hmap, by rw [hcoefficient, valueOf_eq_horner], l.text_cases⟩
  rw [value, hread]

/-- **A literal is printed canonically.** -/
theorem plain_of_known (h : l.Known) (negative : Bool) :
    (⟨negative, l.coefficient, -l.fraction.length⟩ : Decimal).plain =
      (if negative then ['-'] else []) ++ l.canonical := by
  obtain ⟨ws, fs, hws, hfs, hwascii, hfascii, -, hcoefficient⟩ := h.exists_digits
  have hlen : l.fraction.length = fs.length := by simpa using congrArg List.length hfascii
  have hnil : l.fraction = [] ↔ fs = [] := by
    rw [← List.length_eq_zero_iff, hlen, List.length_eq_zero_iff]
  have hfront : (withoutZeros ws).map digitChar =
      if (l.whole.map asciiDigit).dropWhile (· = '0') = [] then ['0']
      else (l.whole.map asciiDigit).dropWhile (· = '0') := by
    rw [hwascii, dropWhile_digitChar hws, withoutZeros]
    simp only [List.map_eq_nil_iff]
    split_ifs <;> rfl
  rw [hcoefficient, hlen, Decimal.plain_of_digits negative hws hfs, hfront, List.append_assoc]
  simp only [canonical, hnil, hfascii]
  rfl

example : (Literal.mk "007.50".toList (List.all_eq_true.mp (by decide)) (by decide)
    ⟨'7', by decide⟩).canonical = "7.50".toList := by decide

end Literal

/-! ### Nests of signs and groups -/

/-- A literal inside groups, with a sign before it and before each group, or none. -/
inductive Nest where
  | literal (sign : Option Sign) (l : Literal)
  | group (sign : Option Sign) (inside : Nest)

namespace Nest

/-- How the nest is written. -/
def text : Nest → List Char
  | literal sign l => (sign.map Sign.char).toList ++ l.text
  | group sign inside => (sign.map Sign.char).toList ++ openParen :: (inside.text ++ [closeParen])

/-- How many groups there are. -/
def groups : Nest → ℕ
  | literal _ _ => 0
  | group _ inside => inside.groups + 1

/-- The literal inside. -/
def core : Nest → Literal
  | literal _ l => l
  | group _ inside => inside.core

/-- The product of the signs is a minus. -/
def negative : Nest → Bool
  | literal sign _ => sign = some .minus
  | group sign inside => (sign = some .minus) ^^ inside.negative

/-- A primary with the sign that it may have. -/
def signedTree (sign : Option Sign) (o : Tree .operand) : Tree .primary :=
  sign.elim (.unsigned o) fun s => .signed s o

/-- A primary as an expression. -/
def alone (p : Tree .primary) : Tree .expression := .expression (.term (.base p) .noFactor) .noSummand

/-- The derivation of a nest. -/
def tree : Nest → Tree .primary
  | literal sign l => signedTree sign (.number l)
  | group sign inside => signedTree sign (.group (alone inside.tree))

theorem text_signedTree (sign : Option Sign) (o : Tree .operand) :
    (signedTree sign o).text = (sign.map Sign.char).toList ++ o.text := by cases sign <;> rfl

theorem depth_signedTree (sign : Option Sign) (o : Tree .operand) :
    (signedTree sign o).depth = o.depth := by cases sign <;> rfl

theorem text_alone (p : Tree .primary) : (alone p).text = p.text := by
  simp only [alone, Tree.text, List.append_nil]

theorem depth_alone (p : Tree .primary) : (alone p).depth = p.depth := by
  simp only [alone, Tree.depth, Nat.max_zero]

theorem value_alone (k : Calculator) (v : Decimal) {p : Tree .primary} {w : Decimal}
    (h : p.value k v = .ok w) : (alone p).value k v = .ok w := by
  simp only [alone, Tree.value, h]
  rfl

theorem text_tree (n : Nest) : n.tree.text = n.text := by
  induction n with
  | literal sign l => exact text_signedTree sign (.number l)
  | group sign inside ih =>
    rw [tree, text_signedTree, Tree.text, text_alone, ih]
    rfl

theorem depth_tree (n : Nest) : n.tree.depth = n.groups := by
  induction n with
  | literal sign l => exact depth_signedTree sign (.number l)
  | group sign inside ih =>
    rw [tree, depth_signedTree, Tree.depth, depth_alone, ih]
    rfl

/-- A sign before a value turns its sign, or does not. -/
theorem value_signedTree (k : Calculator) (v : Decimal) (sign : Option Sign) {o : Tree .operand}
    {negative : Bool} {coefficient : ℕ} {exponent : ℤ}
    (h : o.value k v = .ok ⟨negative, coefficient, exponent⟩) : (signedTree sign o).value k v =
      .ok ⟨(sign = some .minus) ^^ negative, coefficient, exponent⟩ := by
  rcases sign with _ | _ | _
  · rw [signedTree, Option.elim_none, Tree.value, h]
    simp
  · rw [signedTree, Option.elim_some, Tree.value, h]
    simp [Except.map, Sign.apply]
  · rw [signedTree, Option.elim_some, Tree.value, h]
    simp [Except.map, Sign.apply, Decimal.neg]

/-- **The value of a nest** is that of its literal, with the product of the signs. -/
theorem value_tree (k : Calculator) (v : Decimal) (n : Nest) (h : n.core.Known) :
    n.tree.value k v = .ok ⟨n.negative, n.core.coefficient, -n.core.fraction.length⟩ := by
  induction n with
  | literal sign l =>
    have hvalue : (Tree.number l).value k v = .ok ⟨false, l.coefficient, -l.fraction.length⟩ :=
      Literal.value_of_known h
    rw [tree, value_signedTree k v sign hvalue, Bool.xor_false]
    rfl
  | group sign inside ih => exact value_signedTree k v sign (value_alone k v (ih h))

theorem isNormal_of_mem_text {n : Nest} {x : Char} (h : x ∈ n.text) : IsNormal x := by
  have hsign : ∀ sign : Option Sign, x ∈ (sign.map Sign.char).toList → IsNormal x := by
    rintro (_ | _ | _) hx
    · cases hx
    · rw [List.mem_singleton.mp hx]
      decide
    · rw [List.mem_singleton.mp hx]
      decide
  induction n with
  | literal sign l =>
    rcases List.mem_append.mp h with hx | hx
    · exact hsign sign hx
    · exact isNormal_of_isNumberChar (l.chars x hx)
  | group sign inside ih =>
    simp only [text, List.mem_append, List.mem_cons, List.not_mem_nil, or_false] at h
    rcases h with hx | rfl | hx | rfl
    · exact hsign sign hx
    · decide
    · exact ih hx
    · decide

end Nest

/-! ### Printed numbers -/

namespace Calculator

open Cursor

variable {k : Calculator} {c : Cursor}

/-- **A printed number in parentheses is read back**, wherever it stands, as long as there is room for
one more group. -/
theorem primary_of_printed (k : Calculator) (v : Decimal) {w : List Char}
    (hrest : c.rest = openParen :: (v.plain ++ closeParen :: w))
    (hroom : ∀ limit, c.limit = some limit → c.depth < limit) :
    ∃ r, k.primary c = .value r (c.advance (v.plain.length + 2)) ∧ r.toRat = v.toRat ∧
      (v.exponent ≤ 0 → r = v) := by
  obtain ⟨r, hr, hrat, hexact⟩ := Decimal.value_tree k (.ofNat 0) v
  have htext : (Tree.group v.tree).text = openParen :: (v.plain ++ [closeParen]) := by
    rw [Tree.text, Decimal.text_tree]
  have hlen : (Tree.group v.tree).text.length = v.plain.length + 2 := by
    rw [htext]
    simp
  -- The same for a limit that leaves some room.
  have hread : ∀ (c : Cursor) (room : ℕ), c.rest = openParen :: (v.plain ++ closeParen :: w) →
      c.Room (room + 1) → k.primary c = .value r (c.advance (v.plain.length + 2)) := by
    intro c room hrest hroom
    have hspan : c.Spans (Tree.group v.tree).text (c.advance (v.plain.length + 2)) := by
      rw [← hlen]
      exact spans_advance (show c.rest = (Tree.group v.tree).text ++ w by rw [hrest, htext]; simp)
    have hyields := group_yields (k := k) (v := .ofNat 0)
      (fun h1 h2 h3 => read_yields v.tree h1 h2 h3) hspan hroom
    have hdepth : (Tree.group v.tree).depth ≤ room + 1 := by
      rw [Tree.depth, Decimal.depth_tree]
      omega
    rw [Tree.valueWithin_of_depth_le _ _ hdepth] at hyields
    have hsign : c.accept? ['+', '-'] = none := accept?_cons_none hrest (by decide)
    rw [primary_eq, hsign]
    exact hyields.of_ok r hr
  refine ⟨r, ?_, hrat, hexact⟩
  cases hlimit : c.limit with
  | some limit =>
    have hlt := hroom limit hlimit
    refine hread c (limit - c.depth - 1).toNat hrest ?_
    rw [Room, hlimit, Option.some.injEq]
    omega
  | none =>
    have hunder : k.read .primary (.ofNat 0) (c.under (some (c.depth + 1 : ℕ))) = _ :=
      hread (c.under (some (c.depth + 1 : ℕ))) 0 hrest rfl
    have hvalue := read_of_under hlimit hunder
    have hstop : ((c.under (some (c.depth + 1 : ℕ))).advance (v.plain.length + 2)).under none =
        c.advance (v.plain.length + 2) := by
      rw [← hlimit]
      rfl
    rw [hstop] at hvalue
    exact hvalue

/-- **Printing and reading are inverse to each other.** A number that is printed in full is read back
from parentheses, wherever they stand and whatever the precision: as an equal number, and as the same
decimal unless zeros had to be written for a positive exponent. And the evaluation of a literal in
signs and groups gives its digits as they stand, whatever the precision, with the product of the
signs, and prints them in canonical form. -/
theorem print_and_read (k : Calculator) :
    (∀ (v : Decimal) (u w : List Char) (c : Cursor),
      c.text = u ++ openParen :: (v.laidOut ⟨none, none⟩ ++ closeParen :: w) →
      c.position = u.length → (∀ limit, c.limit = some limit → c.depth < limit) →
      ∃ r, k.primary c = .value r (c.advance ((v.laidOut ⟨none, none⟩).length + 2)) ∧
        (c.advance ((v.laidOut ⟨none, none⟩).length + 2)).rest = w ∧
        r.toRat = v.toRat ∧ (v.exponent ≤ 0 → r = v)) ∧
    ∀ n : Nest, n.core.Known → n.groups ≤ 100 →
      ∃ r : Decimal, k.evaluate n.text = .ok r ∧
        r = ⟨n.negative && n.core.coefficient ≠ 0, n.core.coefficient, -n.core.fraction.length⟩ ∧
        r.laidOut ⟨none, none⟩ = (if r.negative then ['-'] else []) ++ n.core.canonical := by
  refine ⟨fun v u w c htext hposition hroom => ?_, fun n hknown hgroups => ?_⟩
  · have hplain : v.laidOut ⟨none, none⟩ = v.plain := rfl
    rw [hplain] at htext ⊢
    have hrest : c.rest = openParen :: (v.plain ++ closeParen :: w) := by
      rw [rest_eq_drop, htext, hposition, List.drop_left]
    obtain ⟨r, hr, hrat, hexact⟩ := primary_of_printed k v hrest hroom
    refine ⟨r, hr, ?_, hrat, hexact⟩
    have hsplit : openParen :: (v.plain ++ closeParen :: w) =
        (openParen :: (v.plain ++ [closeParen])) ++ w := by simp
    rw [rest_advance, hrest, hsplit]
    exact List.drop_left' (by simp)
  · have htext : (Nest.alone n.tree).text = normalize n.text := by
      rw [Nest.text_alone, Nest.text_tree, normalize_of_normal fun x => Nest.isNormal_of_mem_text]
    have hdepth : (Nest.alone n.tree).depth ≤ 100 := by rwa [Nest.depth_alone, Nest.depth_tree]
    have hvalue := Nest.value_alone k (.ofNat 0) (n.value_tree k (.ofNat 0) hknown)
    have heval := evaluate_of_tree (Nest.alone n.tree) htext hdepth hvalue
    have hzero : unsignedZero ⟨n.negative, n.core.coefficient, -n.core.fraction.length⟩ =
        ⟨n.negative && n.core.coefficient ≠ 0, n.core.coefficient, -n.core.fraction.length⟩ := by
      by_cases h : n.core.coefficient = 0 <;> simp [unsignedZero, Decimal.isZero, Decimal.abs, h]
    rw [hzero] at heval
    exact ⟨_, heval, rfl, n.core.plain_of_known hknown _⟩

end Calculator

end InfixCalculator
