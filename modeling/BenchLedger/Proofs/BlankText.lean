import BenchLedger.Text.Blank
import Mathlib.Data.List.DropRight

/-!
Pieces, trimming and words of a text. Main statements: `Text.trim_eq_self`: a text is trimmed just
if neither of its ends is blank, and `Text.words_eq_pair`: a trimmed text has two words just if it
is the two with blanks in between.
-/

namespace BenchLedger.Text

variable {cs : List Char}

/-! ### Pieces -/

theorem pieces_eq_splitOnP (sep : Char → Bool) (cs : List Char) :
    pieces sep cs = cs.splitOnP sep := by
  induction cs with
  | nil => rfl
  | cons c cs ih =>
    rw [List.splitOnP_cons_eq_if_modifyHead, pieces, ih]
    split
    · rfl
    · cases found : cs.splitOnP sep with
      | nil => exact absurd (ih.trans found) (pieces_ne_nil _ cs)
      | cons p ps => rfl

theorem pieces_eq_splitOn (sep : Char) (cs : List Char) :
    pieces (· == sep) cs = cs.splitOn sep := by
  rw [pieces_eq_splitOnP, List.splitOn_eq_splitOnP]

/-- No piece goes over a separator. -/
theorem pieces_append_cons {sep : Char → Bool} {c : Char} (separates : sep c = true)
    (xs ys : List Char) : pieces sep (xs ++ c :: ys) = pieces sep xs ++ pieces sep ys := by
  simp only [pieces_eq_splitOnP, List.splitOnP_append_cons xs ys separates]

/-- No piece has a separator in it. -/
theorem not_sep_of_mem_pieces {sep : Char → Bool} {p : List Char} (piece : p ∈ pieces sep cs)
    {c : Char} (member : c ∈ p) : sep c = false := by
  induction cs generalizing p with
  | nil =>
    simp only [pieces, List.mem_singleton] at piece
    subst piece
    cases member
  | cons d ds ih =>
    simp only [pieces] at piece
    split at piece
    next separator =>
      rcases List.mem_cons.1 piece with rfl | later
      · cases member
      · exact ih later member
    next other =>
      split at piece
      next none => exact absurd none (pieces_ne_nil sep ds)
      next first rest found =>
        rcases List.mem_cons.1 piece with rfl | later
        · rcases List.mem_cons.1 member with rfl | inside
          · simpa using other
          · exact ih (by simp [found]) inside
        · exact ih (by simp [found, later]) member

/-- The first piece goes up to the first separator. -/
theorem head?_pieces (sep : Char → Bool) (cs : List Char) :
    (pieces sep cs).head? = some (cs.takeWhile (!sep ·)) := by
  induction cs with
  | nil => rfl
  | cons c cs ih =>
    cases separator : sep c with
    | true => simp [pieces, separator]
    | false =>
      cases found : pieces sep cs with
      | nil => exact absurd found (pieces_ne_nil sep cs)
      | cons first rest =>
        rw [found] at ih
        simpa [pieces, separator, found] using ih

/-! ### Trimming -/

theorem mem_of_mem_trim {c : Char} (member : c ∈ trim cs) : c ∈ cs := by
  have start : c ∈ trimStart cs := by
    simpa using List.dropWhile_subset _ (List.mem_reverse.1 member)
  exact List.dropWhile_subset _ start

theorem trim_eq_nil : trim cs = [] ↔ allBlank cs = true := by
  change (cs.dropWhile isBlank).rdropWhile isBlank = [] ↔ _
  rw [List.rdropWhile_eq_nil_iff, allBlank, List.all_eq_true]
  constructor
  · intro rest c member
    rw [← List.takeWhile_append_dropWhile (p := isBlank) (l := cs), List.mem_append] at member
    exact member.elim (List.mem_takeWhile_imp ·) (rest c)
  · exact fun all c member => all c (List.dropWhile_subset _ member)

/-- A trimmed text has no blanks at its ends. -/
theorem trim_trim (cs : List Char) : trim (trim cs) = trim cs := by
  have start : trimStart (trim cs) = trim cs := by
    refine List.dropWhile_eq_self_iff.2 fun some => ?_
    -- The first character is the one that was left when the blanks in front were dropped.
    have leads : trim cs <+: cs.dropWhile isBlank := List.rdropWhile_prefix isBlank _
    rw [leads.getElem some]
    exact List.dropWhile_get_zero_not isBlank cs _
  rw [trim, start]
  exact List.rdropWhile_idempotent isBlank _

/-- Neither the first nor the last character is a blank. -/
def EndsVisible (cs : List Char) : Prop :=
  (∀ c ∈ cs.head?, isBlank c = false) ∧ ∀ c ∈ cs.getLast?, isBlank c = false

theorem trimStart_eq_self : trimStart cs = cs ↔ ∀ c ∈ cs.head?, isBlank c = false := by
  cases cs with
  | nil => simp [trimStart]
  | cons c cs => simp [trimStart, List.dropWhile_eq_self_iff]

theorem trimStart_cons {c : Char} (visible : isBlank c = false) (cs : List Char) :
    trimStart (c :: cs) = c :: cs :=
  trimStart_eq_self.2 (by simpa using visible)

theorem trimEnd_eq_self : trimEnd cs = cs ↔ ∀ c ∈ cs.getLast?, isBlank c = false := by
  change cs.rdropWhile isBlank = cs ↔ _
  rw [List.rdropWhile_eq_self_iff]
  cases cs with
  | nil => simp
  | cons c cs => simp [List.getLast?_eq_getLast_of_ne_nil]

theorem trim_eq_self : trim cs = cs ↔ EndsVisible cs := by
  rw [EndsVisible, ← trimStart_eq_self, ← trimEnd_eq_self]
  constructor
  · intro trimmed
    -- Both steps only shorten a text, so neither did anything.
    have start : trimStart cs = cs := by
      refine (List.dropWhile_suffix isBlank).eq_of_length_le ?_
      have shorter := (List.rdropWhile_prefix isBlank (trimStart cs)).length_le
      change (trim cs).length ≤ _ at shorter
      rwa [trimmed] at shorter
    rw [trim, start] at trimmed
    exact ⟨start, trimmed⟩
  · rintro ⟨start, finish⟩
    rw [trim, start, finish]

theorem trimStart_append {before : List Char} (blank : allBlank before = true) (cs : List Char) :
    trimStart (before ++ cs) = trimStart cs :=
  List.dropWhile_append_of_pos (List.all_eq_true.1 blank)

theorem trimEnd_append {after : List Char} (blank : allBlank after = true) (cs : List Char) :
    trimEnd (cs ++ after) = trimEnd cs := by
  have reversed : ∀ c ∈ after.reverse, isBlank c = true := by
    simpa [allBlank] using blank
  rw [trimEnd, List.reverse_append, List.dropWhile_append_of_pos reversed, trimEnd]

/-- More blanks around a text do not count. -/
theorem trim_padded {before after : List Char} (blankBefore : allBlank before = true)
    (blankAfter : allBlank after = true) (cs : List Char) :
    trim (before ++ cs ++ after) = trim cs := by
  rw [List.append_assoc, trim, trimStart_append blankBefore, trim, trimStart, trimStart,
    List.dropWhile_append]
  split
  next blank =>
    have nothing : after.dropWhile isBlank = [] := by
      simpa [allBlank, List.dropWhile_eq_nil_iff] using blankAfter
    rw [List.isEmpty_iff.1 blank, nothing]
  next => rw [trimEnd_append blankAfter]

theorem trim_append {after : List Char} (blank : allBlank after = true) (cs : List Char) :
    trim (cs ++ after) = trim cs :=
  @trim_padded [] after rfl blank cs

/-- Nothing is trimmed from in front of a visible character. -/
theorem trimEnd_append_of_visible (visible : ∀ c ∈ cs.getLast?, isBlank c = false)
    (ds : List Char) : trimEnd (cs ++ ds) = cs ++ trimEnd ds := by
  rw [trimEnd, List.reverse_append, List.dropWhile_append]
  split
  next blank =>
    have whole := trimEnd_eq_self.2 visible
    rw [trimEnd] at whole
    rw [whole, trimEnd, List.isEmpty_iff.1 blank, List.reverse_nil, List.append_nil]
  next => rw [List.reverse_append, List.reverse_reverse, trimEnd]

theorem trim_trimEnd (cs : List Char) : trim (trimEnd cs) = trim cs := by
  have whole : trimEnd cs ++ cs.rtakeWhile isBlank = cs := List.rdropWhile_append_rtakeWhile
  have blank : allBlank (cs.rtakeWhile isBlank) = true :=
    List.all_eq_true.2 fun _ => List.mem_rtakeWhile_imp
  rw [← trim_append blank, whole]

/-! ### Words -/

/-- No character is a blank. -/
def Visible (cs : List Char) : Prop :=
  ∀ c ∈ cs, isBlank c = false

instance : Decidable (Visible cs) :=
  List.decidableBAll (isBlank · = false) cs

theorem visible_nil : Visible [] :=
  nofun

theorem Visible.cons {c : Char} (visible : Visible cs) (first : isBlank c = false) :
    Visible (c :: cs) :=
  List.forall_mem_cons.2 ⟨first, visible⟩

theorem Visible.append {ds : List Char} (visible : Visible cs) (more : Visible ds) :
    Visible (cs ++ ds) :=
  List.forall_mem_append.2 ⟨visible, more⟩

/-- A text that is one word. -/
def Unbroken (cs : List Char) : Prop :=
  cs ≠ [] ∧ Visible cs

instance : Decidable (Unbroken cs) :=
  inferInstanceAs (Decidable (cs ≠ [] ∧ Visible cs))

/-- A word has no blanks in it. -/
theorem not_isBlank_of_mem_words {word : List Char} (found : word ∈ words cs) {c : Char}
    (member : c ∈ word) : isBlank c = false :=
  not_sep_of_mem_pieces (List.mem_filter.1 found).1 member

theorem unbroken_of_mem_words {word : List Char} (found : word ∈ words cs) : Unbroken word :=
  ⟨by simpa using (List.mem_filter.1 found).2, fun _ => not_isBlank_of_mem_words found⟩

theorem Unbroken.endsVisible (unbroken : Unbroken cs) : EndsVisible cs :=
  ⟨fun c first => unbroken.2 c (List.mem_of_mem_head? first),
    fun c last => unbroken.2 c (List.mem_of_mem_getLast? last)⟩

/-- A text between two words ends in visible characters. -/
theorem Unbroken.endsVisible_append {first last : List Char} (left : Unbroken first)
    (right : Unbroken last) (mid : List Char) : EndsVisible (first ++ mid ++ last) := by
  constructor
  · rw [List.append_assoc, List.head?_append_of_ne_nil _ left.1]
    exact left.endsVisible.1
  · rw [List.getLast?_append_of_ne_nil _ right.1]
    exact right.endsVisible.2

/-- No word goes over a blank. -/
theorem words_append_cons {c : Char} (blank : isBlank c = true) (xs ys : List Char) :
    words (xs ++ c :: ys) = words xs ++ words ys := by
  rw [words, pieces_append_cons blank, List.filter_append, words, words]

@[simp] theorem words_nil : words [] = [] :=
  rfl

theorem words_cons {c : Char} (blank : isBlank c = true) (cs : List Char) :
    words (c :: cs) = words cs :=
  words_append_cons blank [] cs

theorem words_append {before : List Char} (blank : allBlank before = true) (cs : List Char) :
    words (before ++ cs) = words cs := by
  induction before with
  | nil => rfl
  | cons c before ih =>
    simp only [allBlank, List.all_cons, Bool.and_eq_true] at blank
    rw [List.cons_append, words_cons blank.1]
    exact ih blank.2

theorem Unbroken.words_eq (unbroken : Unbroken cs) : words cs = [cs] := by
  rw [words, pieces_eq_splitOnP, List.splitOnP_eq_singleton unbroken.2]
  simp [unbroken.1]

/-- In front of the first word there are only blanks, and a blank or nothing follows it. -/
theorem words_eq_cons {word : List Char} {rest : List (List Char)} (h : words cs = word :: rest) :
    ∃ before after, cs = before ++ word ++ after ∧ allBlank before = true ∧
      (∀ c ∈ after.head?, isBlank c = true) ∧ words after = rest := by
  induction cs with
  | nil => cases h
  | cons c cs ih =>
    cases blank : isBlank c with
    | true =>
      rw [words_cons blank] at h
      obtain ⟨before, after, rfl, blanks, ends, others⟩ := ih h
      refine ⟨c :: before, after, by simp, ?_, ends, others⟩
      simp only [allBlank, List.all_cons, blank, Bool.true_and]
      exact blanks
    | false =>
      -- The word goes up to the next blank.
      have parts := List.takeWhile_append_dropWhile (p := (!isBlank ·)) (l := c :: cs)
      have first : Unbroken ((c :: cs).takeWhile (!isBlank ·)) := by
        refine ⟨by simp [blank], fun d member => ?_⟩
        simpa using List.mem_takeWhile_imp member
      generalize (c :: cs).takeWhile (!isBlank ·) = w at parts first
      have ends : ∀ d ∈ ((c :: cs).dropWhile (!isBlank ·)).head?, isBlank d = true := by
        intro d member
        have stopped := List.head?_dropWhile_not (!isBlank ·) (c :: cs)
        rw [Option.mem_def.1 member] at stopped
        simpa using stopped
      generalize (c :: cs).dropWhile (!isBlank ·) = after at parts ends
      refine ⟨[], after, ?_⟩
      rw [← parts] at h ⊢
      cases after with
      | nil =>
        rw [List.append_nil, first.words_eq] at h
        cases h
        exact ⟨rfl, rfl, ends, rfl⟩
      | cons d after =>
        have separator := ends d rfl
        rw [words_append_cons separator, first.words_eq] at h
        cases h
        exact ⟨rfl, rfl, ends, words_cons separator after⟩

theorem words_eq_nil : words cs = [] ↔ allBlank cs = true := by
  constructor
  · intro none
    induction cs with
    | nil => rfl
    | cons c cs ih =>
      cases blank : isBlank c with
      | true =>
        rw [words_cons blank] at none
        simpa [allBlank, blank] using ih none
      | false =>
        -- The first piece has a character in it, so it is a word.
        cases found : pieces isBlank cs <;> simp [words, pieces, blank, found] at none
  · intro blank
    rw [← List.append_nil cs, words_append blank, words_nil]

/-- A text without blanks at its ends has two words just if it is the two with blanks between
them. -/
theorem words_eq_pair {a b : List Char} (visible : EndsVisible cs) :
    words cs = [a, b] ↔
      Unbroken a ∧ Unbroken b ∧ ∃ gap, gap ≠ [] ∧ allBlank gap = true ∧ cs = a ++ gap ++ b := by
  constructor
  · intro h
    have unbroken (w : List Char) (member : w ∈ [a, b]) : Unbroken w :=
      unbroken_of_mem_words (h ▸ member)
    obtain ⟨before, rest, rfl, blankBefore, separated, h⟩ := words_eq_cons h
    obtain ⟨gap, after, rfl, blankGap, _, h⟩ := words_eq_cons h
    have blankAfter := words_eq_nil.1 h
    have first : before = [] := by
      cases before with
      | nil => rfl
      | cons c before =>
        have seen := visible.1 c rfl
        simp [allBlank, seen] at blankBefore
    have last : after = [] := by
      rcases List.eq_nil_or_concat after with rfl | ⟨after, c, rfl⟩
      · rfl
      · have seen := visible.2 c (by simp)
        simp [allBlank, seen] at blankAfter
    subst first last
    refine ⟨unbroken a (by simp), unbroken b (by simp), gap, ?_, blankGap, by simp⟩
    -- Without a gap the second word would begin with the blank that ends the first.
    rintro rfl
    obtain ⟨some, solid⟩ := unbroken b (by simp)
    obtain ⟨c, b, rfl⟩ := List.exists_cons_of_ne_nil some
    have blank := separated c rfl
    rw [solid c (by simp)] at blank
    cases blank
  · rintro ⟨left, right, gap, some, blank, rfl⟩
    obtain ⟨c, gap, rfl⟩ := List.exists_cons_of_ne_nil some
    simp only [allBlank, List.all_cons, Bool.and_eq_true] at blank
    rw [List.append_assoc, List.cons_append, words_append_cons blank.1, words_append blank.2,
      left.words_eq, right.words_eq]
    rfl

end BenchLedger.Text
