import SwiftTree.Proofs.Token.Stability.Lexeme

/-!
# Runs of lexemes up to a cut

A text is read lexeme by lexeme. If a first part of the text consists of whole lexemes, these are
still read when the rest of the text is exchanged for anything that they do not go on with, as far
as that settles the last of them. A line break or the end of the text settles all of them but a line
break.
-/

namespace SwiftTree.Lexer

theorem lexemes_eq_drop (taken : Nat) (cs : List Char) :
    lexemes false taken cs = lexemes false 0 (cs.drop taken) := by
  induction cs generalizing taken with
  | nil => cases taken <;> rfl
  | cons c cs ih =>
    cases taken with
    | zero => rfl
    | succ taken => rw [lexemes, ih, List.drop_succ_cons]

theorem lexemes_cons (atStart : Bool) (c : Char) (cs : List Char) :
    lexemes atStart 0 (c :: cs) = (lexeme atStart (c :: cs)).1 ::
      lexemes false 0 ((c :: cs).drop (lexeme atStart (c :: cs)).2) := by
  obtain ⟨length, equation⟩ : ∃ length, (lexeme atStart (c :: cs)).2 = length + 1 :=
    ⟨_, (Nat.succ_pred_eq_of_pos (lexeme_cons atStart c cs).2.1).symm⟩
  have later : lexemes false ((lexeme atStart (c :: cs)).2 - 1) cs =
      lexemes false 0 ((c :: cs).drop (lexeme atStart (c :: cs)).2) := by
    rw [lexemes_eq_drop, equation, Nat.add_sub_cancel, List.drop_succ_cons]
  rw [← later]
  rfl

theorem eq_nil_of_textAll_eq_empty {atStart : Bool} {cs : List Char} {read later : List Lexeme}
    (found : lexemes atStart 0 cs = read ++ later) (h : Lexeme.textAll read = "") : read = [] := by
  cases read with
  | nil => rfl
  | cons first read =>
    have member : first ∈ lexemes atStart 0 cs := by simp [found]
    rw [Lexeme.textAll, String.append_eq_empty_iff] at h
    exact absurd h.1 (text_ne_empty_of_mem_lexemes member)

/-- Lexemes that lie in a first part of a text: the first of them, and where the others lie. -/
theorem exists_of_lexemes_eq_cons {atStart : Bool} {part rest : List Char} {first : Lexeme}
    {read later : List Lexeme}
    (found : lexemes atStart 0 (part ++ rest) = first :: read ++ later)
    (covers : Lexeme.textAll (first :: read) = String.ofList part) :
    ∃ c tail, part = c :: tail ∧ (lexeme atStart (c :: (tail ++ rest))).1 = first ∧
      (lexeme atStart (c :: (tail ++ rest))).2 ≤ tail.length + 1 ∧
      lexemes false 0 (part.drop (lexeme atStart (c :: (tail ++ rest))).2 ++ rest) = read ++ later ∧
      Lexeme.textAll read =
        String.ofList (part.drop (lexeme atStart (c :: (tail ++ rest))).2) := by
  cases part with
  | nil =>
    have empty := eq_nil_of_textAll_eq_empty found (by simpa using covers)
    cases empty
  | cons c tail =>
    rw [List.cons_append, lexemes_cons] at found
    obtain ⟨rfl, others⟩ := List.cons.inj found
    obtain ⟨text, -, -⟩ := lexeme_cons atStart c (tail ++ rest)
    have chars : (c :: (tail ++ rest)).take (lexeme atStart (c :: (tail ++ rest))).2 ++
        (Lexeme.textAll read).toList = c :: tail := by
      have both := congrArg String.toList covers
      rwa [Lexeme.textAll, text, String.toList_append, String.toList_ofList,
        String.toList_ofList] at both
    have fits : (lexeme atStart (c :: (tail ++ rest))).2 ≤ tail.length + 1 := by
      have size := congrArg List.length chars
      have short := length_lexeme_le atStart (c :: (tail ++ rest))
      simp only [List.length_append, List.length_take, List.length_cons] at size short
      omega
    refine ⟨c, tail, rfl, rfl, fits, ?_, ?_⟩
    · rw [← List.drop_append_of_le_length fits]
      exact others
    · have within : (c :: (tail ++ rest)).take (lexeme atStart (c :: (tail ++ rest))).2 =
          (c :: tail).take (lexeme atStart (c :: (tail ++ rest))).2 :=
        @List.take_append_of_le_length _ (c :: tail) rest _ fits
      rw [within] at chars
      have left := List.append_cancel_left (chars.trans (List.take_append_drop _ _).symm)
      rw [← left, String.ofList_toList]

/-- Where a lexeme of one slash was read, no comment opens. -/
theorem not_opensComment_of_lexemes {rest : List Char} {read later : List Lexeme}
    (found : lexemes false 0 (['/'] ++ rest) = read ++ later)
    (covers : Lexeme.textAll read = String.ofList ['/']) : opensComment ('/' :: rest) = false := by
  cases read with
  | nil => cases congrArg String.toList covers
  | cons first read =>
    obtain ⟨c, tail, slash, -, fits, -, -⟩ := exists_of_lexemes_eq_cons found covers
    cases slash
    cases rest with
    | nil => simp [opensComment]
    | cons d rest =>
      cases opens : opensComment ('/' :: d :: rest) with
      | false => rfl
      | true =>
        have long : 2 ≤ (lexeme false ('/' :: d :: rest)).2 := by
          simp only [opensComment_cons_cons, Bool.and_eq_true, Bool.or_eq_true,
            beq_iff_eq] at opens
          obtain ⟨-, rfl | rfl⟩ := opens
          · have slashes : ['/', '/'] <+: '/' :: '/' :: rest := List.prefix_append ['/', '/'] rest
            simp only [lexeme, triviaExtent?_of_slashes false slashes]
            exact two_le_runLength slashes rfl rfl
          · have star : ['/', '*'] <+: '/' :: '*' :: rest := List.prefix_append ['/', '*'] rest
            simp only [lexeme, triviaExtent?_of_slash_star false star]
            exact two_le_length_comment star
        exact absurd (Nat.le_trans long fits) (by decide)

/-- All lexemes that the first part of a text consists of are still read when the rest is exchanged.
The induction is on these lexemes. -/
theorem lexemes_settled {rest new : List Char} {read later : List Lexeme} {atStart : Bool}
    {part : List Char} (cut : part ≠ [] → Cut part new)
    (found : lexemes atStart 0 (part ++ rest) = read ++ later)
    (covers : Lexeme.textAll read = String.ofList part)
    (slash : part.getLast? = some '/' → opensComment ('/' :: new) = false)
    (quotes : Text.Halts new ∨ ∀ lexeme ∈ read, lexeme.isBackquote = false)
    (ends : ∀ last ∈ read.getLast?,
      last.isShut ∨ last.isNewline = false ∧ rest ≠ [] ∧ Text.Halts new) :
    lexemes atStart 0 (part ++ new) = read ++ lexemes (atStart && read.isEmpty) 0 new := by
  induction read generalizing atStart part with
  | nil =>
    obtain rfl : part = [] := String.ofList_eq_empty_iff.mp covers.symm
    simp
  | cons first read ih =>
    obtain ⟨c, tail, rfl, rfl, fits, others, left⟩ := exists_of_lexemes_eq_cons found covers
    have positive := (lexeme_cons atStart c (tail ++ rest)).2.1
    have same : lexeme atStart (c :: (tail ++ new)) = lexeme atStart (c :: (tail ++ rest)) := by
      refine lexeme_settled atStart c (cut (List.cons_ne_nil _ _)) slash fits ?_
        (quotes.imp id fun none => none _ List.mem_cons_self) fun all => ?_
      · intro single
        have single' : (c :: tail).drop (lexeme atStart (c :: (tail ++ rest))).2 = ['/'] := by
          rw [← Nat.succ_pred_eq_of_pos positive, List.drop_succ_cons]
          exact single
        rw [single'] at others left
        exact not_opensComment_of_lexemes others left
      · have last : read = [] := by
          apply eq_nil_of_textAll_eq_empty others
          simp [left, all]
        exact ends _ (by simp [last])
    have next := ih (cut (List.cons_ne_nil _ _)).drop others left
      (fun last => slash (by
        have parts := List.take_append_drop (lexeme atStart (c :: (tail ++ rest))).2 (c :: tail)
        rw [← parts, List.getLast?_append, last, Option.some_or]))
      (quotes.imp id fun none lexeme member => none lexeme (List.mem_cons_of_mem _ member))
      fun last member => ends last (by
        cases read with
        | nil => cases member
        | cons second read => simpa using member)
    have dropped : (c :: (tail ++ new)).drop (lexeme atStart (c :: (tail ++ rest))).2 =
        (c :: tail).drop (lexeme atStart (c :: (tail ++ rest))).2 ++ new :=
      @List.drop_append_of_le_length _ (c :: tail) new _ fits
    rw [List.cons_append, lexemes_cons, same, dropped, next]
    simp

/-- No comment opens where a line ends. -/
theorem not_opensComment_of_halts {cs : List Char} (h : Text.Halts cs) :
    opensComment ('/' :: cs) = false := by
  cases cs with
  | nil => simp [opensComment]
  | cons b after =>
    have breaks : Text.isLineBreak b := h b rfl
    rw [opensComment_cons_cons]
    obtain rfl | rfl := Text.isLineBreak_iff.mp breaks <;> rfl

/-- A line break or the end of the text settles all lexemes, if only something follows them. -/
theorem lexemes_halted {rest new : List Char} (filled : rest ≠ []) (halts : Text.Halts new)
    {read later : List Lexeme} {atStart : Bool} {part : List Char}
    (found : lexemes atStart 0 (part ++ rest) = read ++ later)
    (covers : Lexeme.textAll read = String.ofList part)
    (ends : ∀ last ∈ read.getLast?, last.isNewline = false) :
    lexemes atStart 0 (part ++ new) = read ++ lexemes (atStart && read.isEmpty) 0 new :=
  lexemes_settled (fun _ => .inl (separates_of_halts halts)) found covers
    (fun _ => not_opensComment_of_halts halts) (.inl halts)
    fun last member => .inr ⟨ends last member, filled, halts⟩

end SwiftTree.Lexer
