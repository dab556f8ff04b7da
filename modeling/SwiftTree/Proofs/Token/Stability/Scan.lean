import SwiftTree.Proofs.Token.Tiling

/-!
# Scanning up to a cut

To find where a lexeme ends, the lexer looks at what comes after it. Trivia is a barrier for this,
and so is the end of the text: no number, word or operator goes on in it. Another barrier is a
character that no lexeme goes on with after the character in front of it. So if a token lies in a
first part of a text, it is still read when the rest of the text is exchanged for anything that
begins with trivia or with such a character.

This module shows it for numbers, words and operators. An operator ends where a comment opens, so
the cut must not be in the middle of what opens a comment, neither before nor after the exchange.
-/

namespace SwiftTree

def Text.Breaks (cs : List Char) : Prop :=
  ∃ c rest, cs = c :: rest ∧ isLineBreak c

/-- The text is empty or begins with a line break. -/
def Text.Halts (cs : List Char) : Prop :=
  ∀ c ∈ cs.head?, isLineBreak c

theorem Text.Breaks.halts {cs : List Char} (h : Breaks cs) : Halts cs := by
  obtain ⟨b, after, rfl, breaks⟩ := h
  simpa [Halts] using breaks

theorem Text.Halts.breaks {cs : List Char} (h : Halts cs) (filled : cs ≠ []) : Breaks cs := by
  obtain ⟨c, rest, rfl⟩ := List.exists_cons_of_ne_nil filled
  exact ⟨c, rest, rfl, h c rfl⟩

theorem Text.halts_nil : Halts [] :=
  nofun

theorem Text.halts_newline (cs : List Char) : Halts ('\n' :: cs) := by
  simp [Halts, isLineBreak]

theorem Text.isLineBreak_iff {c : Char} : isLineBreak c = true ↔ c = '\n' ∨ c = '\r' := by
  simp [isLineBreak]

namespace Lexer

/-- The text is empty or begins with trivia. -/
def Separates (cs : List Char) : Prop :=
  ∀ c ∈ cs.head?, isSpace c ∨ Text.isLineBreak c ∨ opensComment cs

/-- The characters that trivia begins with. -/
def separators : List Char :=
  [' ', '\t', '\x0b', '\x0c', '\n', '\r', '/']

theorem opensComment_cons_cons (c d : Char) (cs : List Char) :
    opensComment (c :: d :: cs) = (c == '/' && (d == '/' || d == '*')) := by
  unfold opensComment
  split
  · rename_i equation
    cases equation
    rfl
  · rename_i equation
    cases equation
    rfl
  · rename_i line block
    cases slash : c == '/' && (d == '/' || d == '*') with
    | false => rfl
    | true =>
      simp only [Bool.and_eq_true, Bool.or_eq_true, beq_iff_eq] at slash
      obtain ⟨rfl, rfl | rfl⟩ := slash
      · exact absurd rfl (line cs)
      · exact absurd rfl (block cs)

/-- Only a slash opens a comment. -/
theorem opensComment_of_ne {c : Char} (h : c ≠ '/') (cs : List Char) :
    opensComment (c :: cs) = false := by
  cases cs with
  | nil => simp [opensComment]
  | cons d cs => simp [opensComment_cons_cons, h]

theorem Separates.mem_separators {cs : List Char} (h : Separates cs) :
    ∀ c ∈ cs.head?, c ∈ separators := by
  intro c first
  obtain space | line | comment := h c first
  · simp only [isSpace, Bool.or_eq_true, beq_iff_eq] at space
    obtain ((rfl | rfl) | rfl) | rfl := space <;> simp [separators]
  · obtain rfl | rfl := Text.isLineBreak_iff.mp line <;> simp [separators]
  · obtain ⟨rest, rfl⟩ := List.head?_eq_some_iff.mp first
    by_cases slash : c = '/'
    · simp [slash, separators]
    · rw [opensComment_of_ne slash] at comment
      cases comment

theorem separates_of_halts {cs : List Char} (h : Text.Halts cs) : Separates cs :=
  fun c first => .inr (.inl (h c first))

theorem separates_nil : Separates [] :=
  nofun

def isSign (c : Char) : Bool :=
  c == '+' || c == '-'

/-- Whether a lexeme may go on from one character to the next: a word or a number, also with its
fraction or its exponent; an operator; what opens a literal or stands in one. -/
def joins (last next : Char) : Bool :=
  isIdentifierPart next && (isIdentifierPart last || last == '$') ||
    next == '.' && isDigitPart last ||
    isSign next && (last == 'e' || last == 'E') ||
    next.isDigit && (last == '.' || isSign last) ||
    (isOperatorChar next || next == '.') && (isOperatorChar last || last == '.') ||
    ['#', '"', '!'].contains next && ['#', '"', '\\'].contains last

theorem not_opensComment_of_joins {c : Char} (h : joins '/' c = false) (cs : List Char) :
    opensComment ('/' :: c :: cs) = false := by
  rw [opensComment_cons_cons]
  cases opens : c == '/' || c == '*' with
  | false => rfl
  | true =>
    simp only [Bool.or_eq_true, beq_iff_eq] at opens
    obtain rfl | rfl := opens <;> simp [joins, isOperatorChar] at h

/-- No lexeme goes on from one text to the next: that begins with trivia, or the two characters at
the cut do not join. -/
def Cut (part new : List Char) : Prop :=
  Separates new ∨ ∃ last ∈ part.getLast?, ∃ next ∈ new.head?, joins last next = false

namespace Cut

variable {part new : List Char}

/-- What trivia does not begin with, and what the last character joins, does not follow. -/
theorem stops (cut : Cut part new) {p : Char → Bool} (plain : ∀ c ∈ separators, p c = false)
    (joined : ∀ last ∈ part.getLast?, ∀ next, p next → joins last next) :
    ∀ c ∈ new.head?, p c = false := by
  intro c first
  obtain separates | ⟨last, final, next, head, apart⟩ := cut
  · exact plain c (separates.mem_separators c first)
  · obtain rfl : next = c := Option.some.inj (head.symm.trans first)
    cases goes : p next with
    | false => rfl
    | true => exact absurd (joined last final next goes) (Bool.eq_false_iff.mp apart)

theorem append (cut : Cut part new) (front : List Char) : Cut (front ++ part) new := by
  refine cut.imp id fun ⟨last, final, next, first, apart⟩ => ⟨last, ?_, next, first, apart⟩
  rw [List.getLast?_append, Option.mem_def.mp final]
  rfl

theorem of_append {front : List Char} (cut : Cut (front ++ part) new) (filled : part ≠ []) :
    Cut part new := by
  obtain ⟨others, last, rfl⟩ := (List.eq_nil_or_concat part).resolve_left filled
  rw [List.concat_eq_append] at cut ⊢
  rwa [Cut, ← List.append_assoc, List.getLast?_concat, ← List.getLast?_concat (l := others)] at cut

theorem tail {c : Char} (cut : Cut (c :: part) new) (filled : part ≠ []) : Cut part new :=
  @of_append part new [c] cut filled

theorem drop (cut : Cut part new) {count : Nat} (filled : part.drop count ≠ []) :
    Cut (part.drop count) new := by
  rw [← List.take_append_drop count part] at cut
  exact cut.of_append filled

end Cut

/-- What is read at the start of a text is settled as soon as it ends: if it lies in a first part of
the text, the rest may be exchanged. -/
def Settles {α : Type} (size : α → Nat) (f : List Char → α) : Prop :=
  ∀ ⦃part rest new : List Char⦄, Cut part new →
    size (f (part ++ rest)) ≤ part.length → f (part ++ new) = f (part ++ rest)

theorem runLength_cons (p : Char → Bool) (c : Char) (cs : List Char) :
    runLength p (c :: cs) = if p c then runLength p cs + 1 else 0 := by
  unfold runLength
  rw [List.takeWhile_cons]
  split <;> rfl

theorem runLength_eq_zero {p : Char → Bool} {cs : List Char} (h : ∀ c ∈ cs.head?, p c = false) :
    runLength p cs = 0 := by
  cases cs with
  | nil => rfl
  | cons c cs => rw [runLength_cons, h c rfl, if_neg Bool.false_ne_true]

/-- A run of characters is settled if it ends inside of the first part, or cannot go on. -/
theorem runLength_settled {p : Char → Bool} {part rest new : List Char}
    (fits : runLength p (part ++ rest) ≤ part.length)
    (stops : runLength p (part ++ rest) = part.length → ∀ c ∈ new.head?, p c = false) :
    runLength p (part ++ new) = runLength p (part ++ rest) := by
  induction part with
  | nil =>
    have none : runLength p rest = 0 := Nat.le_zero.mp fits
    rw [List.nil_append, List.nil_append, none, runLength_eq_zero (stops none)]
  | cons c part ih =>
    simp only [List.cons_append, runLength_cons, List.length_cons] at fits stops ih ⊢
    split
    · rename_i here
      rw [if_pos here, Nat.add_le_add_iff_right] at fits
      rw [if_pos here, Nat.add_right_cancel_iff] at stops
      rw [ih fits stops]
    · rfl

theorem forall_of_runLength {p : Char → Bool} {part rest : List Char}
    (all : part.length ≤ runLength p (part ++ rest)) : ∀ c ∈ part, p c := by
  induction part with
  | nil => exact List.forall_mem_nil _
  | cons c part ih =>
    rw [List.cons_append, runLength_cons, List.length_cons] at all
    split at all
    · rename_i here
      exact List.forall_mem_cons.mpr ⟨here, ih (Nat.le_of_succ_le_succ all)⟩
    · exact absurd all (Nat.not_succ_le_zero _)

/-- A run of characters that trivia does not begin with and that join, behind others that they may
follow. -/
theorem runLength_cut {p : Char → Bool} (plain : ∀ c ∈ separators, p c = false)
    (joined : ∀ last next, p last → p next → joins last next) {front part rest new : List Char}
    (cut : Cut (front ++ part) new) (before : ∀ last ∈ front, ∀ next, p next → joins last next)
    (fits : runLength p (part ++ rest) ≤ part.length) :
    runLength p (part ++ new) = runLength p (part ++ rest) := by
  refine runLength_settled fits fun all => cut.stops plain fun last final next goes => ?_
  obtain outside | inside := List.mem_append.mp (List.mem_of_getLast? final)
  · exact before last outside next goes
  · exact joined last next (forall_of_runLength (Nat.le_of_eq all.symm) last inside) goes

theorem settles_runLength {p : Char → Bool} (plain : ∀ c ∈ separators, p c = false)
    (joined : ∀ last next, p last → p next → joins last next) : Settles id (runLength p) :=
  fun part _ _ cut fits =>
    @runLength_cut p plain joined [] part _ _ cut (List.forall_mem_nil _) fits

theorem isIdentifierPart_of_isAlphanum {c : Char} (h : c.isAlphanum) : isIdentifierPart c := by
  have ascii : c.val < 128 := by
    obtain alpha | digit := Bool.or_eq_true_iff.mp h
    · obtain upper | lower := Bool.or_eq_true_iff.mp alpha
      · have high : c.val ≤ 'Z'.val := (of_decide_eq_true upper).2
        exact UInt32.lt_of_le_of_lt high (by decide)
      · have high : c.val ≤ 'z'.val := of_decide_eq_true (Bool.and_eq_true_iff.mp lower).2
        exact UInt32.lt_of_le_of_lt high (by decide)
    · have high : c.val ≤ '9'.val := of_decide_eq_true (Bool.and_eq_true_iff.mp digit).2
      exact UInt32.lt_of_le_of_lt high (by decide)
  have alphabetic : Text.isAlphabetic c = c.isAlpha := if_pos ascii
  have numeric : Text.isNumeric c = c.isDigit := if_pos ascii
  refine Bool.or_eq_true_iff.mpr (.inr ?_)
  rw [Text.isAlphanumeric, alphabetic, numeric]
  exact h

theorem isIdentifierPart_of_isHexDigitPart {c : Char} (h : isHexDigitPart c) :
    isIdentifierPart c := by
  simp only [isHexDigitPart, isDigitPart, Bool.or_eq_true, Bool.and_eq_true, beq_iff_eq,
    decide_eq_true_eq] at h
  obtain ((rfl | digit) | ⟨low, high⟩) | ⟨low, high⟩ := h
  · rfl
  · exact isIdentifierPart_of_isAlphanum (Bool.or_eq_true_iff.mpr (.inr digit))
  · have letter : c.isLower := Bool.and_eq_true_iff.mpr
      ⟨decide_eq_true low, decide_eq_true (UInt32.le_trans high (by decide))⟩
    exact isIdentifierPart_of_isAlphanum
      (Bool.or_eq_true_iff.mpr (.inl (Bool.or_eq_true_iff.mpr (.inr letter))))
  · have letter : c.isUpper := decide_eq_true ⟨low, UInt32.le_trans high (by decide)⟩
    exact isIdentifierPart_of_isAlphanum
      (Bool.or_eq_true_iff.mpr (.inl (Bool.or_eq_true_iff.mpr (.inl letter))))

theorem isIdentifierPart_of_isDigitPart {c : Char} (h : isDigitPart c) : isIdentifierPart c :=
  isIdentifierPart_of_isHexDigitPart (by simp [isHexDigitPart, h])

theorem joins_of_isIdentifierPart {last next : Char} (first : isIdentifierPart last)
    (second : isIdentifierPart next) : joins last next := by
  simp [joins, first, second]

theorem joins_digit {last next : Char} (before : last == '.' || isSign last)
    (digit : next.isDigit) : joins last next := by
  simp [joins, digit, ← Bool.or_eq_true, ← beq_iff_eq, before]

theorem settles_digits : Settles id (runLength isDigitPart) :=
  settles_runLength (by simp [separators, isDigitPart, Char.isDigit]) fun _ _ first second =>
    joins_of_isIdentifierPart (isIdentifierPart_of_isDigitPart first)
      (isIdentifierPart_of_isDigitPart second)

/-- The length of digits together with a mark of some length in front of them. Without digits there
is no mark. -/
def markedDigits (mark : Nat) : List Char → Nat
  | [] => 0
  | d :: cs => if d.isDigit then runLength isDigitPart (d :: cs) + mark else 0

theorem markedDigits_eq_zero (mark : Nat) {cs : List Char} (h : ∀ c ∈ cs.head?, c.isDigit = false) :
    markedDigits mark cs = 0 := by
  cases cs with
  | nil => rfl
  | cons d cs => rw [markedDigits, h d rfl, if_neg Bool.false_ne_true]

/-- There is at least one digit. -/
theorem markedDigits_eq_zero_or (mark : Nat) (cs : List Char) :
    markedDigits mark cs = 0 ∨ mark < markedDigits mark cs := by
  cases cs with
  | nil => exact .inl rfl
  | cons d cs =>
    rw [markedDigits]
    split
    · rename_i digit
      have long : 0 < runLength isDigitPart (d :: cs) :=
        runLength_pos cs (by simp [isDigitPart, digit])
      exact .inr (by omega)
    · exact .inl rfl

/-- Digits behind a character that they may follow. -/
theorem markedDigits_settled {mark : Nat} {before : Char} {part rest new : List Char}
    (cut : Cut (before :: part) new) (joined : ∀ next : Char, next.isDigit → joins before next)
    (fits : markedDigits mark (part ++ rest) ≤ part.length + mark) :
    markedDigits mark (part ++ new) = markedDigits mark (part ++ rest) := by
  cases part with
  | nil =>
    have stops : ∀ c ∈ new.head?, c.isDigit = false :=
      cut.stops (by simp [separators]) (by rintro _ ⟨⟩; exact joined)
    obtain none | long := markedDigits_eq_zero_or mark rest
    · rw [List.nil_append, List.nil_append, none, markedDigits_eq_zero mark stops]
    · rw [List.nil_append, List.length_nil] at fits
      omega
  | cons d part =>
    simp only [List.cons_append, markedDigits] at fits ⊢
    split
    · rename_i digit
      rw [if_pos digit, Nat.add_le_add_iff_right] at fits
      exact congrArg (· + mark)
        (@settles_digits (d :: part) rest new (cut.tail (List.cons_ne_nil _ _)) fits)
    · rfl

theorem fractionLength_of_ne {cs : List Char} (h : cs.head? ≠ some '.') :
    fractionLength cs = 0 := by
  unfold fractionLength
  split
  · exact absurd rfl h
  · rfl

theorem fractionLength_point (cs : List Char) : fractionLength ('.' :: cs) = markedDigits 1 cs := by
  cases cs <;> rfl

theorem fractionLength_settled {part rest new : List Char} (cut : part ≠ [] → Cut part new)
    (start : part = [] → new.head? ≠ some '.')
    (fits : fractionLength (part ++ rest) ≤ part.length) :
    fractionLength (part ++ new) = fractionLength (part ++ rest) := by
  cases part with
  | nil =>
    have none : fractionLength rest = 0 := Nat.le_zero.mp fits
    rw [List.nil_append, List.nil_append, none, fractionLength_of_ne (start rfl)]
  | cons c part =>
    by_cases point : c = '.'
    · subst point
      simp only [List.cons_append, fractionLength_point] at fits ⊢
      exact markedDigits_settled (cut (List.cons_ne_nil _ _)) (fun _ => joins_digit rfl) fits
    · have plain (more : List Char) : fractionLength (c :: (part ++ more)) = 0 :=
        fractionLength_of_ne (by simpa using point)
      rw [List.cons_append, List.cons_append, plain, plain]

/-- A fraction ends with a digit. -/
theorem isDigitPart_of_fractionLength {part rest : List Char}
    (all : fractionLength (part ++ rest) = part.length) : ∀ last ∈ part.getLast?, isDigitPart last := by
  cases part with
  | nil => simp
  | cons c part =>
    by_cases point : c = '.'
    case neg =>
      rw [List.cons_append, fractionLength_of_ne (by simpa using point)] at all
      cases all
    subst point
    rw [List.cons_append, fractionLength_point, List.length_cons] at all
    cases part with
    | nil =>
      have := markedDigits_eq_zero_or 1 rest
      simp only [List.nil_append, List.length_nil] at all
      omega
    | cons d part =>
      rw [List.cons_append, markedDigits] at all
      split at all
      · intro last final
        rw [List.getLast?_cons_cons] at final
        have digits := @forall_of_runLength isDigitPart (d :: part) rest (by simp at all ⊢; omega)
        exact digits last (List.mem_of_getLast? final)
      · cases all

theorem exponentLength_of_ne {cs : List Char}
    (h : ∀ c ∈ cs.head?, (c == 'e' || c == 'E') = false) : exponentLength cs = 0 := by
  unfold exponentLength
  split
  · rw [h _ rfl, if_neg Bool.false_ne_true]
  · rw [h _ rfl, Bool.false_and, if_neg Bool.false_ne_true]
  · rfl

theorem exponentLength_sign {e s : Char} (mark : e == 'e' || e == 'E') (sign : isSign s)
    (cs : List Char) : exponentLength (e :: s :: cs) = markedDigits 2 cs := by
  have unsigned : s.isDigit = false := by
    simp only [isSign, Bool.or_eq_true, beq_iff_eq] at sign
    obtain rfl | rfl := sign <;> rfl
  cases cs with
  | nil => rw [exponentLength, unsigned, Bool.and_false, if_neg Bool.false_ne_true, markedDigits]
  | cons d cs =>
    unfold isSign at sign
    simp only [exponentLength, mark, sign, unsigned, Bool.true_and, if_true, Bool.false_eq_true,
      if_false, markedDigits]

theorem exponentLength_digits {e : Char} (mark : e == 'e' || e == 'E') {cs : List Char}
    (plain : ∀ c ∈ cs.head?, isSign c = false) : exponentLength (e :: cs) = markedDigits 1 cs := by
  match cs with
  | [] => rfl
  | [d] =>
    rw [exponentLength, mark, Bool.true_and, markedDigits]
    split
    · rename_i digit
      rw [runLength_cons, if_pos (by simp [isDigitPart, digit])]
      rfl
    · rfl
  | s :: d :: cs =>
    have unsigned : (s == '+' || s == '-') = false := plain s rfl
    simp only [exponentLength, mark, unsigned, Bool.false_and, if_true, Bool.false_eq_true,
      if_false, markedDigits]

theorem isIdentifierPart_of_exponent {c : Char} (h : c == 'e' || c == 'E') :
    isIdentifierPart c := by
  simp only [Bool.or_eq_true, beq_iff_eq] at h
  obtain rfl | rfl := h <;> exact isIdentifierPart_of_isAlphanum rfl

theorem exponentLength_settled {part rest new : List Char} (cut : part ≠ [] → Cut part new)
    (start : part = [] → ∀ c ∈ new.head?, (c == 'e' || c == 'E') = false)
    (fits : exponentLength (part ++ rest) ≤ part.length) :
    exponentLength (part ++ new) = exponentLength (part ++ rest) := by
  cases part with
  | nil =>
    have none : exponentLength rest = 0 := Nat.le_zero.mp fits
    rw [List.nil_append, List.nil_append, none, exponentLength_of_ne (start rfl)]
  | cons e part =>
    have cut := cut (List.cons_ne_nil _ _)
    by_cases mark : e == 'e' || e == 'E'
    case neg =>
      have none (more : List Char) : exponentLength (e :: (part ++ more)) = 0 :=
        exponentLength_of_ne (by simpa using mark)
      rw [List.cons_append, List.cons_append, none, none]
    have letter := isIdentifierPart_of_exponent mark
    have joined (next : Char) (digit : next.isDigit) : joins e next :=
      joins_of_isIdentifierPart letter (isIdentifierPart_of_isDigitPart (by simp [isDigitPart, digit]))
    cases part with
    | cons s part =>
      simp only [List.cons_append, List.length_cons] at fits ⊢
      by_cases sign : isSign s
      · rw [exponentLength_sign mark sign] at fits ⊢
        rw [exponentLength_sign mark sign]
        exact markedDigits_settled (cut.tail (List.cons_ne_nil _ _))
          (fun _ => joins_digit (by rw [sign, Bool.or_true])) fits
      · have digits (more : List Char) :
            exponentLength (e :: s :: (part ++ more)) = markedDigits 1 (s :: (part ++ more)) :=
          exponentLength_digits mark (by simpa using sign)
        rw [digits] at fits ⊢
        rw [digits]
        exact @markedDigits_settled 1 e (s :: part) rest new cut joined fits
    | nil =>
      -- the exponent would take at least two characters, and only the mark is there
      have short : exponentLength (e :: rest) ≤ 1 := fits
      have none : exponentLength (e :: rest) = 0 := by
        by_cases sign : ∃ s tail, rest = s :: tail ∧ isSign s
        · obtain ⟨s, tail, rfl, sign⟩ := sign
          rw [exponentLength_sign mark sign] at short ⊢
          have := markedDigits_eq_zero_or 2 tail
          omega
        · rw [exponentLength_digits mark] at short ⊢
          · have := markedDigits_eq_zero_or 1 rest
            omega
          all_goals
            intro s first
            obtain ⟨tail, rfl⟩ := List.head?_eq_some_iff.mp first
            simpa using fun here => sign ⟨s, tail, rfl, here⟩
      have unsigned : ∀ c ∈ new.head?, isSign c = false := by
        refine cut.stops (by simp [separators, isSign]) ?_
        rintro _ ⟨⟩ next sign
        simp [joins, sign, mark]
      have plain : ∀ c ∈ new.head?, c.isDigit = false := by
        refine cut.stops (by simp [separators]) ?_
        rintro _ ⟨⟩
        exact joined
      rw [List.singleton_append, List.singleton_append, none, exponentLength_digits mark unsigned,
        markedDigits_eq_zero 1 plain]

def isBase (c : Char) : Bool :=
  c == 'x' || c == 'X' || c == 'b' || c == 'o'

theorem hasBase_cons_cons (c d : Char) (cs : List Char) :
    hasBase (c :: d :: cs) = (c == '0' && isBase d) := by
  unfold hasBase
  split
  · rename_i equation
    cases equation
    rfl
  · rename_i other
    have : c ≠ '0' := by
      rintro rfl
      exact other d cs rfl
    simp [this]

theorem isIdentifierPart_of_isBase {c : Char} (h : isBase c) : isIdentifierPart c := by
  simp only [isBase, Bool.or_eq_true, beq_iff_eq] at h
  obtain ((rfl | rfl) | rfl) | rfl := h <;> exact isIdentifierPart_of_isAlphanum rfl

theorem not_hasBase_append {part rest new : List Char} (cut : Cut part new)
    (plain : ¬hasBase (part ++ rest)) : ¬hasBase (part ++ new) := by
  obtain _ | ⟨c, _ | ⟨d, part⟩⟩ := part
  · obtain _ | ⟨b, _ | ⟨d, after⟩⟩ := new
    · simp [hasBase]
    · simp [hasBase]
    · have zero : (b == '0') = false :=
        @Cut.stops _ _ cut (· == '0') (by simp [separators]) (by simp) b rfl
      rw [List.nil_append, hasBase_cons_cons, zero]
      simp
  · obtain _ | ⟨b, after⟩ := new
    · simp [hasBase]
    rw [List.singleton_append, hasBase_cons_cons]
    rintro base
    obtain ⟨zero, base⟩ := Bool.and_eq_true_iff.mp base
    obtain rfl := beq_iff_eq.mp zero
    have apart : isBase b = false := by
      refine cut.stops (by simp [separators, isBase]) ?_ b rfl
      rintro _ ⟨⟩ next base
      exact joins_of_isIdentifierPart (isIdentifierPart_of_isAlphanum rfl)
        (isIdentifierPart_of_isBase base)
    rw [apart] at base
    cases base
  · simp only [List.cons_append, hasBase_cons_cons] at plain ⊢
    exact plain

theorem numberExtent_settled_of_hasBase {part rest new : List Char} (cut : Cut part new)
    (base : hasBase (part ++ rest)) (fits : (numberExtent (part ++ rest)).2 ≤ part.length) :
    numberExtent (part ++ new) = numberExtent (part ++ rest) := by
  have size : runLength isHexDigitPart ((part ++ rest).drop 2) + 2 ≤ part.length := by
    rwa [numberExtent, if_pos base] at fits
  obtain ⟨c, d, part, rfl⟩ : ∃ c d tail, part = c :: d :: tail := by
    match part, size with
    | c :: d :: tail, _ => exact ⟨c, d, tail, rfl⟩
  have mark (more : List Char) : hasBase (c :: d :: (part ++ more)) := by
    rw [hasBase_cons_cons, ← hasBase_cons_cons c d (part ++ rest)]
    exact base
  have words : ∀ last ∈ [c, d], isIdentifierPart last := by
    rw [List.cons_append, List.cons_append, hasBase_cons_cons] at base
    obtain ⟨zero, base⟩ := Bool.and_eq_true_iff.mp base
    obtain rfl := beq_iff_eq.mp zero
    simp [isIdentifierPart_of_isBase base, isIdentifierPart_of_isAlphanum]
  have same : runLength isHexDigitPart (part ++ new) = runLength isHexDigitPart (part ++ rest) :=
    @runLength_cut isHexDigitPart
      (by simp [separators, isHexDigitPart, isDigitPart, Char.le_def])
      (fun _ _ first second => joins_of_isIdentifierPart (isIdentifierPart_of_isHexDigitPart first)
        (isIdentifierPart_of_isHexDigitPart second)) [c, d] part rest new cut
      (fun last member _ goes => joins_of_isIdentifierPart (words last member)
        (isIdentifierPart_of_isHexDigitPart goes)) (Nat.add_le_add_iff_right.mp size)
  simp only [List.cons_append, numberExtent, mark, if_true, List.drop_succ_cons, List.drop_zero, same]

/-- The whole part and the fraction of a number end with a digit. -/
theorem isDigitPart_of_length_eq {part rest : List Char}
    (all : runLength isDigitPart (part ++ rest) +
      fractionLength ((part ++ rest).drop (runLength isDigitPart (part ++ rest))) = part.length) :
    ∀ last ∈ part.getLast?, isDigitPart last := by
  intro last final
  by_cases whole : part.length ≤ runLength isDigitPart (part ++ rest)
  · exact forall_of_runLength whole last (List.mem_of_getLast? final)
  · generalize runLength isDigitPart (part ++ rest) = count at all whole
    have fraction : fractionLength (part.drop count ++ rest) = (part.drop count).length := by
      rw [← List.drop_append_of_le_length (by omega), List.length_drop]
      omega
    apply isDigitPart_of_fractionLength fraction
    rwa [List.getLast?_drop, if_neg whole]

/-- The whole part, the fraction and the exponent are settled one after the other. -/
theorem settles_numberExtent : Settles Prod.snd numberExtent := by
  intro part rest new cut fits
  by_cases base : hasBase (part ++ rest)
  · exact numberExtent_settled_of_hasBase cut base fits
  simp only [numberExtent, if_neg base, if_neg (not_hasBase_append cut base)] at fits ⊢
  have digit := @isDigitPart_of_length_eq part rest
  have whole : runLength isDigitPart (part ++ new) = runLength isDigitPart (part ++ rest) :=
    settles_digits cut (by rw [id_eq]; omega)
  rw [whole]
  generalize runLength isDigitPart (part ++ rest) = count at fits digit ⊢
  have behind (n : Nat) (h : n ≤ part.length) (more : List Char) :
      (part ++ more).drop n = part.drop n ++ more := List.drop_append_of_le_length h
  have fraction : fractionLength ((part ++ new).drop count) =
      fractionLength ((part ++ rest).drop count) := by
    rw [behind count (by omega) rest] at fits digit ⊢
    rw [behind count (by omega) new]
    refine fractionLength_settled cut.drop (fun none point => ?_) (by rw [List.length_drop]; omega)
    have digit := digit (by have := List.drop_eq_nil_iff.mp none; omega)
    have apart : ('.' == '.') = false := by
      refine @Cut.stops _ _ cut (· == '.') (by simp [separators]) ?_ '.' point
      intro last final next dot
      simp [joins, beq_iff_eq.mp dot, digit last final]
    cases apart
  rw [fraction]
  generalize fractionLength ((part ++ rest).drop count) = decimals at fits digit ⊢
  have exponent : exponentLength ((part ++ new).drop (count + decimals)) =
      exponentLength ((part ++ rest).drop (count + decimals)) := by
    rw [behind (count + decimals) (by omega)] at fits
    rw [behind (count + decimals) (by omega), behind (count + decimals) (by omega)]
    refine exponentLength_settled cut.drop (fun none => ?_) (by rw [List.length_drop]; omega)
    have digit := digit (by have := List.drop_eq_nil_iff.mp none; omega)
    refine cut.stops (by simp [separators]) fun last final next mark => ?_
    exact joins_of_isIdentifierPart (isIdentifierPart_of_isDigitPart (digit last final))
      (isIdentifierPart_of_exponent mark)
  rw [exponent]

theorem isIdentifierPart_of_mem_separators : ∀ c ∈ separators, isIdentifierPart c = false := by
  intro c h
  simp only [separators, List.mem_cons, List.not_mem_nil, or_false] at h
  obtain rfl | rfl | rfl | rfl | rfl | rfl | rfl := h <;> decide +kernel

theorem settles_identifierParts : Settles id (runLength isIdentifierPart) :=
  settles_runLength isIdentifierPart_of_mem_separators fun _ _ => joins_of_isIdentifierPart

theorem settles_wordExtent : Settles Prod.snd wordExtent := by
  intro part rest new cut fits
  have same :
      runLength isIdentifierPart (part ++ new) = runLength isIdentifierPart (part ++ rest) :=
    settles_identifierParts cut fits
  have inside : runLength isIdentifierPart (part ++ rest) ≤ part.length := fits
  rw [wordExtent, wordExtent, same, List.take_append_of_le_length inside,
    List.take_append_of_le_length inside]

theorem operatorTail_of_not_isOperatorChar {cs : List Char}
    (h : ∀ c ∈ cs.head?, isOperatorChar c = false) : operatorTail cs = 0 := by
  cases cs with
  | nil => rfl
  | cons c cs => rw [operatorTail, h c rfl, Bool.not_false, Bool.or_true, if_pos rfl]

theorem operatorTail_eq_zero {last : Char} (sign : isOperatorChar last) {cs : List Char}
    (cut : Cut [last] cs) : operatorTail cs = 0 := by
  obtain separates | ⟨_, ⟨⟩, next, first, apart⟩ := cut
  · cases cs with
    | nil => rfl
    | cons c cs =>
      have stops : (opensComment (c :: cs) || !isOperatorChar c) = true := by
        obtain space | line | comment := separates c rfl
        · simp only [isSpace, Bool.or_eq_true, beq_iff_eq] at space
          obtain ((rfl | rfl) | rfl) | rfl := space <;> exact Bool.or_true _
        · obtain rfl | rfl := Text.isLineBreak_iff.mp line <;> exact Bool.or_true _
        · rw [comment, Bool.true_or]
      rw [operatorTail, if_pos stops]
  · apply operatorTail_of_not_isOperatorChar
    intro c head
    obtain rfl : next = c := Option.some.inj (first.symm.trans head)
    cases goes : isOperatorChar next with
    | false => rfl
    | true => simp [joins, goes, sign] at apart

/-- An operator is settled behind its first character, unless the cut is in the middle of what opens
a comment. -/
theorem operatorTail_settled {last : Char} (sign : isOperatorChar last) {part rest new : List Char}
    (cut : Cut (last :: part) new)
    (slash : part.getLast? = some '/' → opensComment ('/' :: new) = false)
    (fits : operatorTail (part ++ rest) ≤ part.length)
    (whole : part.drop (operatorTail (part ++ rest)) = ['/'] → opensComment ('/' :: rest) = false) :
    operatorTail (part ++ new) = operatorTail (part ++ rest) := by
  induction part generalizing last with
  | nil =>
    have none : operatorTail rest = 0 := Nat.le_zero.mp fits
    rw [List.nil_append, List.nil_append, none, operatorTail_eq_zero sign cut]
  | cons c part ih =>
    have same : opensComment (c :: (part ++ new)) = opensComment (c :: (part ++ rest)) := by
      cases part with
      | cons d part => simp only [List.cons_append, opensComment_cons_cons]
      | nil =>
        rw [List.nil_append, List.nil_append]
        by_cases other : c = '/'
        case neg => rw [opensComment_of_ne other, opensComment_of_ne other]
        subst other
        rw [slash rfl]
        -- if the rest opened a comment, the operator would end in front of it
        cases opens : opensComment ('/' :: rest) with
        | false => rfl
        | true => simp [operatorTail, opens] at whole
    have behind : part.getLast? = some '/' → opensComment ('/' :: new) = false := fun last =>
      slash (by simp [List.getLast?_cons, last])
    simp only [List.cons_append, operatorTail, same] at fits whole ih ⊢
    split
    · rfl
    · rename_i goes
      rw [if_neg goes] at fits whole
      have here : isOperatorChar c := by
        cases operator : isOperatorChar c with
        | false => simp [operator] at goes
        | true => rfl
      exact congrArg (· + 1) (ih here (cut.tail (List.cons_ne_nil _ _)) behind
        (Nat.le_of_succ_le_succ fits) whole)

end Lexer

end SwiftTree
