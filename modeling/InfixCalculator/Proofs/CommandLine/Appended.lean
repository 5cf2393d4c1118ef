import InfixCalculator.CommandLine.Options
import Mathlib.Data.List.TakeWhile

/-! # Expressions behind the other arguments

Arguments that are complete in themselves can be followed by `-e` and any lines: the switches before
it do not reach for them, and `-e` takes them as they are, whatever they look like.

* `TakenGroup.of_append`: a switch takes nothing from `-e` on.
* `Draft.takeAll_append`: so the arguments before it come to the same.
* `Options.ofArguments_append`: the lines are the expressions. -/

namespace InfixCalculator

/-- The argument `-e`, sorted. -/
def expressionArgument : List Char × Argument := (['-', 'e'], .switch .expression true none)

/-! ### Sorting -/

namespace Argument

variable {a b : List (List Char)} {xs ys : List (List Char × Argument)}

theorem sortAll_append (ha : sortAll a = .ok xs) (hb : sortAll b = .ok ys)
    (hdivider : ∀ x ∈ xs, x.2.isDivider = false) : sortAll (a ++ b) = .ok (xs ++ ys) := by
  induction a generalizing xs with
  | nil => cases ha; exact hb
  | cons text rest ih =>
    rw [sortAll] at ha
    rw [List.cons_append, sortAll]
    split_ifs at ha ⊢ with htext
    · cases ha
      exact absurd (hdivider _ List.mem_cons_self) (by simp [isDivider])
    · cases hsort : of text with
      | error e => rw [hsort] at ha; cases ha
      | ok sort =>
        rw [hsort] at ha
        cases hrest : sortAll rest with
        | error e => rw [hrest] at ha; cases ha
        | ok sorts =>
          rw [hrest] at ha
          cases ha
          have hih := ih hrest fun x hx => hdivider x (List.mem_cons_of_mem _ hx)
          show (sortAll (rest ++ b) >>= fun sorts => .ok ((text, sort) :: sorts)) = _
          rw [hih]
          rfl

theorem isDivider_unnamed (text : List Char) : (unnamed text).isDivider = false := by
  unfold unnamed
  split_ifs <;> rfl

/-- What does not begin like the long form of a switch can be sorted. -/
theorem exists_of_eq_ok {text : List Char} (h : ¬ dividerText <+: text) :
    ∃ sort, of text = .ok sort ∧ sort.isDivider = false := by
  unfold of
  split
  · rename_i second more
    have hsecond : second ≠ '-' := by
      rintro rfl
      exact h ⟨more, rfl⟩
    dsimp only
    split
    · exact ⟨_, rfl, rfl⟩
    · exact ⟨_, rfl, rfl⟩
    · rw [if_neg hsecond]
      split
      · exact ⟨_, rfl, rfl⟩
      · exact ⟨_, rfl, isDivider_unnamed _⟩
  · exact ⟨_, rfl, rfl⟩

theorem exists_sortAll_eq_ok {lines : List (List Char)}
    (h : ∀ line ∈ lines, ¬ dividerText <+: line) :
    ∃ ys, sortAll lines = .ok ys ∧ ys.map Prod.fst = lines ∧ ∀ y ∈ ys, y.2.isDivider = false := by
  induction lines with
  | nil => exact ⟨[], rfl, rfl, nofun⟩
  | cons line rest ih =>
    obtain ⟨ys, hys, hfst, hdivider⟩ := ih fun l hl => h l (List.mem_cons_of_mem _ hl)
    have hline := h line List.mem_cons_self
    obtain ⟨sort, hsort, hnot⟩ := exists_of_eq_ok hline
    refine ⟨(line, sort) :: ys, ?_, by rw [List.map_cons, hfst], ?_⟩
    · have hne : line ≠ dividerText := by
        rintro rfl
        exact hline List.prefix_rfl
      rw [sortAll, if_neg hne, hsort, hys]
      rfl
    · rintro y hy
      rcases List.mem_cons.mp hy with rfl | hy
      · exact hnot
      · exact hdivider y hy

end Argument

/-! ### Switches and their values -/

namespace TakenGroup

variable {s : Switch} {ahead : List (List Char × Argument)} {group : TakenGroup}

/-- What is taken of the arguments ahead are words, and it is the same if `-e` and more follow. -/
structure Settled (group : TakenGroup) (ahead : List (List Char × Argument))
    (of : List (List Char × Argument) → Except UsageError TakenGroup) : Prop where
  used_le : group.used ≤ ahead.length
  isDivider : ∀ x ∈ ahead.take group.used, x.2.isDivider = false
  append : ∀ ys, of (ahead ++ expressionArgument :: ys) = .ok group

theorem settled_nothing {taken : List Taken}
    {of : List (List Char × Argument) → Except UsageError TakenGroup}
    (h : ∀ ys, of (ahead ++ expressionArgument :: ys) = .ok ⟨taken, 0⟩) :
    Settled ⟨taken, 0⟩ ahead of :=
  ⟨Nat.zero_le _, nofun, h⟩

theorem settled_word {taken : List Taken} {text : List Char} {rest : List (List Char × Argument)}
    {of : List (List Char × Argument) → Except UsageError TakenGroup}
    (h : ∀ ys, of ((text, .word) :: ys) = .ok ⟨taken, 1⟩) :
    Settled ⟨taken, 1⟩ ((text, .word) :: rest) of := by
  refine ⟨by simp, fun x hx => ?_, fun ys => h _⟩
  obtain rfl : x = (text, .word) := by simpa using hx
  rfl

theorem settled_ofAhead (h : ofAhead s ahead = .ok group)
    (hexpression : ∀ t ∈ group.taken, t.switch ≠ .expression) :
    group.Settled ahead (ofAhead s) := by
  unfold ofAhead at h
  cases hs : s.intake with
  | nothing =>
    rw [hs] at h
    cases h
    exact settled_nothing fun ys => by unfold ofAhead; rw [hs]
  | one =>
    rw [hs] at h
    cases ahead with
    | nil => cases h
    | cons x rest =>
      obtain ⟨text, sort⟩ := x
      cases sort with
      | word => cases h; exact settled_word fun ys => by unfold ofAhead; rw [hs]
      | _ => cases h
  | atMostOne =>
    rw [hs] at h
    cases ahead with
    | nil => cases h; exact settled_nothing fun ys => by unfold ofAhead; rw [hs]; rfl
    | cons x rest =>
      obtain ⟨text, sort⟩ := x
      cases sort with
      | word => cases h; exact settled_word fun ys => by unfold ofAhead; rw [hs]
      | _ => cases h; exact settled_nothing fun ys => by unfold ofAhead; rw [hs]; rfl
  | everything =>
    have hswitch : s = .expression := by cases s <;> first | rfl | cases hs
    rw [hs] at h
    cases h
    exact absurd hswitch (hexpression _ List.mem_cons_self)

/-- The group with a switch that takes nothing before the others. -/
def after (s : Switch) (group : TakenGroup) : TakenGroup :=
  { group with taken := ⟨s, []⟩ :: group.taken }

theorem ofAttached_cons (byLetter : Bool) (ahead : List (List Char × Argument)) (s : Switch)
    (c : Char) (more : List Char) : ofAttached byLetter ahead s (c :: more) =
      if s.intake ≠ .nothing then .ok ⟨[⟨s, attachedValues s (c :: more)⟩], 0⟩
      else match byLetter, Switch.ofLetter? c with
        | true, some next =>
          (if more = [] then ofAhead next ahead else ofAttached true ahead next more).map (after s)
        | _, _ => .error (.needlessValue s (c :: more)) := by
  conv => lhs; unfold ofAttached
  by_cases hs : s.intake ≠ .nothing
  · rw [if_pos hs, if_pos hs]
  · rw [if_neg hs, if_neg hs]
    cases byLetter with
    | false => rfl
    | true =>
      cases Switch.ofLetter? c with
      | none => rfl
      | some next =>
        dsimp only
        split_ifs with hmore
        · cases ofAhead next ahead <;> rfl
        · cases ofAttached true ahead next more <;> rfl

/-- Letters of switches in one argument: the last one takes what is ahead. -/
theorem settled_ofAttached {byLetter : Bool} {text : List Char}
    (h : ofAttached byLetter ahead s text = .ok group)
    (hexpression : ∀ t ∈ group.taken, t.switch ≠ .expression) :
    group.Settled ahead fun ahead => ofAttached byLetter ahead s text := by
  induction text generalizing s group with
  | nil =>
    unfold ofAttached at h ⊢
    split_ifs at h ⊢ with hs
    cases h
    exact settled_nothing fun _ => rfl
  | cons c more ih =>
    rw [ofAttached_cons] at h
    by_cases hs : s.intake ≠ .nothing
    · rw [if_pos hs] at h
      cases h
      exact settled_nothing fun ys => by rw [ofAttached_cons, if_pos hs]
    rw [if_neg hs] at h
    cases byLetter with
    | false => cases h
    | true =>
      cases hletter : Switch.ofLetter? c with
      | none => rw [hletter] at h; cases h
      | some next =>
        rw [hletter] at h
        dsimp only at h
        cases hinner : (if more = [] then ofAhead next ahead
            else ofAttached true ahead next more) with
        | error e => rw [hinner] at h; cases h
        | ok inner =>
          rw [hinner] at h
          cases h
          have hnot : ∀ t ∈ inner.taken, t.switch ≠ .expression := fun t ht =>
            hexpression t (List.mem_cons_of_mem _ ht)
          have hsettled : inner.Settled ahead fun ahead =>
              if more = [] then ofAhead next ahead else ofAttached true ahead next more := by
            split_ifs at hinner ⊢ with hmore
            · exact settled_ofAhead hinner hnot
            · exact ih hinner hnot
          refine ⟨hsettled.used_le, hsettled.isDivider, fun ys => ?_⟩
          rw [ofAttached_cons, if_neg hs, hletter]
          dsimp only
          rw [hsettled.append ys]
          rfl

/-- **A switch takes nothing from `-e` on.** -/
theorem of_append {byLetter : Bool} {attached : Option (List Char)}
    (h : of s byLetter attached ahead = .ok group)
    (hexpression : ∀ t ∈ group.taken, t.switch ≠ .expression) :
    group.Settled ahead (of s byLetter attached) := by
  cases attached with
  | none => exact settled_ofAhead h hexpression
  | some text => exact settled_ofAttached h hexpression

end TakenGroup

/-! ### Options in the making -/

namespace Draft

variable {d d' : Draft} {t : Taken} {xs : List (List Char × Argument)}

theorem of_set {o : Options} (h : d.set t = .ok o) :
    (t.switch ≠ .expression → o.expressions = d.options.expressions) ∧
      (t.switch = .expression → o.expressions = some t.values) ∧
      (t.switch ≠ .prompt → o.prompt = d.options.prompt) ∧
      (t.switch = .prompt → o.prompt ≠ none) := by
  unfold set at h
  cases hs : t.switch with
  | help => rw [hs] at h; cases h
  | verbose | grammar | dump =>
    rw [hs] at h
    cases h
    exact ⟨fun _ => rfl, nofun, fun _ => rfl, nofun⟩
  | precision | width =>
    rw [hs] at h
    cases hsetting : t.setting with
    | error e => rw [hsetting] at h; cases h
    | ok n =>
      rw [hsetting] at h
      cases h
      exact ⟨fun _ => rfl, nofun, fun _ => rfl, nofun⟩
  | expression =>
    rw [hs] at h
    cases h
    exact ⟨fun hne => absurd rfl hne, fun _ => rfl, fun _ => rfl, nofun⟩
  | prompt =>
    rw [hs] at h
    cases h
    exact ⟨fun _ => rfl, nofun, fun hne => absurd rfl hne, fun _ => nofun⟩

theorem exists_of_take (h : d.take t = .ok d') :
    ∃ o, d.set t = .ok o ∧ d' = { d with options := o, seen := t.switch :: d.seen } := by
  have hmap : (d.set t).map (fun o => { d with options := o, seen := t.switch :: d.seen }) =
      .ok d' := by
    unfold take at h
    split at h
    · split_ifs at h
      exact h
    · exact h
  cases hset : d.set t with
  | error e => rw [hset] at hmap; cases hmap
  | ok o => rw [hset] at hmap; cases hmap; exact ⟨o, rfl, rfl⟩

/-- What is kept while switches are taken: expressions and words that belong to no switch stay, and
so does the prompt. -/
structure Grows (d d' : Draft) : Prop where
  expressions : d'.options.expressions = none → d.options.expressions = none
  extras : d'.extras = [] → d.extras = []
  prompt : (.prompt ∈ d.seen → d.options.prompt ≠ none) → .prompt ∈ d'.seen →
    d'.options.prompt ≠ none

theorem Grows.refl (d : Draft) : d.Grows d := ⟨id, id, id⟩

theorem Grows.trans {d'' : Draft} (h : d.Grows d') (h' : d'.Grows d'') : d.Grows d'' :=
  ⟨fun he => h.expressions (h'.expressions he), fun he => h.extras (h'.extras he),
    fun hp => h'.prompt (h.prompt hp)⟩

theorem grows_take (h : d.take t = .ok d') : d.Grows d' ∧
    (d'.options.expressions = none → t.switch ≠ .expression) := by
  obtain ⟨o, hset, rfl⟩ := exists_of_take h
  obtain ⟨hother, hexpression, hkept, hprompt⟩ := of_set hset
  have hnot : o.expressions = none → t.switch ≠ .expression := by
    intro hnone hs
    rw [hexpression hs] at hnone
    cases hnone
  refine ⟨⟨fun hnone => ?_, id, fun hseen hmem => ?_⟩, hnot⟩
  · rw [← hother (hnot hnone)]
    exact hnone
  · by_cases hs : t.switch = .prompt
    · exact hprompt hs
    · show o.prompt ≠ none
      rw [hkept hs]
      rcases List.mem_cons.mp hmem with heq | hmem
      · exact absurd heq.symm hs
      · exact hseen hmem

theorem grows_foldlM {taken : List Taken} (h : taken.foldlM take d = .ok d') : d.Grows d' ∧
    (d'.options.expressions = none → ∀ t ∈ taken, t.switch ≠ .expression) := by
  induction taken generalizing d with
  | nil => cases h; exact ⟨.refl _, nofun⟩
  | cons t rest ih =>
    rw [List.foldlM_cons] at h
    cases htake : d.take t with
    | error e => rw [htake] at h; cases h
    | ok d1 =>
      rw [htake] at h
      obtain ⟨hgrows, hrest⟩ := ih h
      obtain ⟨hgrows1, ht⟩ := grows_take htake
      refine ⟨hgrows1.trans hgrows, fun hnone u hu => ?_⟩
      rcases List.mem_cons.mp hu with rfl | hu
      · exact ht (hgrows.expressions hnone)
      · exact hrest hnone u hu

theorem takeAll_switch (d : Draft) (text : List Char) (s : Switch) (byLetter : Bool)
    (attached : Option (List Char)) (ahead : List (List Char × Argument)) :
    takeAll d ((text, .switch s byLetter attached) :: ahead) =
      match TakenGroup.of s byLetter attached ahead with
      | .error e => .error (.wrong e)
      | .ok group => group.taken.foldlM take d >>= fun d => takeAll d (ahead.drop group.used) := by
  exact takeAll.eq_def d _

/-- **Arguments before `-e`** come to the same as without it, if they are complete in themselves. -/
theorem takeAll_append (h : takeAll d xs = .ok d') (hexpressions : d'.options.expressions = none)
    (hextras : d'.extras = []) : d.Grows d' ∧ (∀ x ∈ xs, x.2.isDivider = false) ∧
      ∀ ys, takeAll d (xs ++ expressionArgument :: ys) = takeAll d' (expressionArgument :: ys) := by
  induction d, xs using takeAll.induct with
  | case1 d =>
    rw [takeAll] at h
    cases h
    exact ⟨.refl _, nofun, fun _ => rfl⟩
  | case2 d text s byLetter attached ahead e he =>
    rw [takeAll_switch, he] at h
    cases h
  | case3 d text s byLetter attached ahead group hgroup ih =>
    rw [takeAll_switch, hgroup] at h
    dsimp only at h
    cases hfold : group.taken.foldlM take d with
    | error e => rw [hfold] at h; cases h
    | ok d1 =>
      rw [hfold] at h
      obtain ⟨hgrows, hdivider, happend⟩ := ih d1 h
      obtain ⟨hgrows1, htaken⟩ := grows_foldlM hfold
      have hsettled := TakenGroup.of_append hgroup (htaken (hgrows.expressions hexpressions))
      refine ⟨hgrows1.trans hgrows, fun x hx => ?_, fun ys => ?_⟩
      · rcases List.mem_cons.mp hx with rfl | hx
        · rfl
        · rw [← List.take_append_drop group.used ahead, List.mem_append] at hx
          exact hx.elim (hsettled.isDivider x) (hdivider x)
      · rw [List.cons_append, takeAll_switch, hsettled.append ys]
        dsimp only
        rw [hfold, List.drop_append_of_le_length hsettled.used_le]
        exact happend ys
  | case4 d text sort ahead hsort ih =>
    -- A word of its own would be left over.
    rw [takeAll] at h
    · obtain ⟨hgrows, -, -⟩ := ih h
      exact absurd (hgrows.extras hextras)
        (List.append_ne_nil_of_right_ne_nil _ (List.cons_ne_nil _ _))
    · exact hsort

/-- The switch `-e` takes all the arguments behind it. -/
theorem takeAll_expression {ys : List (List Char × Argument)}
    (hys : ∀ y ∈ ys, y.2.isDivider = false) (hseen : .prompt ∉ d.seen) :
    takeAll d (expressionArgument :: ys) =
      .ok ⟨{ d.options with expressions := some (ys.map Prod.fst) }, .expression :: d.seen,
        d.extras⟩ := by
  have hall : (ys.takeWhile fun a => !a.2.isDivider) = ys :=
    List.takeWhile_eq_self_iff.mpr fun y hy => by rw [hys y hy]; rfl
  have hgroup : TakenGroup.of .expression true none ys =
      .ok ⟨[⟨.expression, ys.map Prod.fst⟩], ys.length⟩ := by
    show Except.ok _ = _
    rw [hall]
  have htake : d.take ⟨.expression, ys.map Prod.fst⟩ =
      .ok ⟨{ d.options with expressions := some (ys.map Prod.fst) }, .expression :: d.seen,
        d.extras⟩ := by
    have hcontains : d.seen.contains .prompt = false := by simpa using hseen
    show (if d.seen.contains .prompt then _ else _) = _
    rw [hcontains]
    rfl
  rw [expressionArgument, takeAll_switch, hgroup]
  dsimp only
  rw [List.foldlM_cons, htake]
  show takeAll _ (ys.drop ys.length) = _
  rw [List.drop_length, takeAll]

end Draft

/-! ### The options -/

/-- **Lines behind `-e` are the expressions**, whatever they look like, as long as none begins like
the long form of a switch. -/
theorem Options.ofArguments_append {a lines : List (List Char)} {o : Options}
    (h : ofArguments a = .ok o) (hexpressions : o.expressions = none) (hprompt : o.prompt = none)
    (hlines : ∀ line ∈ lines, ¬ dividerText <+: line) :
    ofArguments (a ++ ['-', 'e'] :: lines) = .ok { o with expressions := some lines } := by
  unfold ofArguments at h
  cases hxs : Argument.sortAll a with
  | error e => rw [hxs] at h; cases h
  | ok xs =>
    rw [hxs] at h
    dsimp only at h
    cases hd : Draft.takeAll ⟨.initial, [], []⟩ xs with
    | error e => rw [hd] at h; cases h
    | ok d =>
      rw [hd] at h
      change (if d.extras = [] then _ else _) = _ at h
      split_ifs at h with hextras
      cases h
      obtain ⟨hgrows, hdivider, happend⟩ := Draft.takeAll_append hd hexpressions hextras
      obtain ⟨ys, hys, hfst, hnot⟩ := Argument.exists_sortAll_eq_ok hlines
      have hseen : .prompt ∉ d.seen := fun hmem => hgrows.prompt nofun hmem hprompt
      have hsort : Argument.sortAll (a ++ ['-', 'e'] :: lines) =
          .ok (xs ++ expressionArgument :: ys) := by
        refine Argument.sortAll_append hxs ?_ hdivider
        show (Argument.sortAll lines >>= fun sorts => .ok (expressionArgument :: sorts)) = _
        rw [hys]
        rfl
      rw [ofArguments, hsort]
      dsimp only
      rw [happend ys, Draft.takeAll_expression hnot hseen, hfst]
      show (if d.extras = [] then _ else _) = _
      rw [if_pos hextras]

end InfixCalculator
