import SwiftTree.Proofs.Text.Escape

/-!
# Quoted text can be read back

Text that is quoted inside a message stands on one line, and the quotes and backslashes in it belong
to escape sequences. A reader that goes through the quotation from left to right always knows
whether it is inside such a sequence, and a sequence says where it ends. So the text can be
recovered from its quotation, and different texts are never quoted in the same way.
-/

namespace SwiftTree.Text

/-- Quotes and backslashes, which a quotation cannot hold as they are. -/
def isMark (c : Char) : Bool :=
  c == '\\' || c == '\'' || c == '"'

/-- The escape sequences, with the characters that they stand for. -/
inductive EscapeSequence : List Char → Char → Prop
  | newline : EscapeSequence ['\\', 'n'] '\n'
  | tab : EscapeSequence ['\\', 't'] '\t'
  | carriageReturn : EscapeSequence ['\\', 'r'] '\r'
  | mark {c : Char} : isMark c → EscapeSequence ['\\', c] c
  | codePoint {c : Char} : isControl c →
    EscapeSequence (['\\', 'u', '\x7b'] ++ hex c.toNat ++ ['\x7d']) c

/-- A character is either quoted as it is, and then it is no mark and can be seen, or by an escape
sequence. -/
theorem escapeQuoted_cases (c : Char) :
    escapeQuoted c = [c] ∧ isMark c = false ∧ isControl c = false ∨
      EscapeSequence (escapeQuoted c) c := by
  unfold escapeQuoted escapeControl
  split
  · rename_i quote
    exact .inr (.mark (by simpa [isMark, or_assoc] using quote))
  rename_i plain
  have unmarked : isMark c = false := by simpa [isMark, and_assoc] using plain
  split
  · rename_i line
    exact .inr (line ▸ .newline)
  split
  · rename_i tab
    exact .inr (tab ▸ .tab)
  split
  · rename_i line
    exact .inr (line ▸ .carriageReturn)
  split
  · rename_i control
    exact .inr (.codePoint control)
  · rename_i visible
    exact .inl ⟨rfl, unmarked, by simpa using visible⟩

/-- Each character of a quotation belongs to what is written for one character of the text. -/
theorem exists_of_flatMap_escapeQuoted {cs before after : List Char} {d : Char}
    (h : cs.flatMap escapeQuoted = before ++ d :: after) :
    ∃ front c back opening rest, cs = front ++ c :: back ∧
      escapeQuoted c = opening ++ d :: rest ∧ before = front.flatMap escapeQuoted ++ opening ∧
      after = rest ++ back.flatMap escapeQuoted := by
  induction cs generalizing before with
  | nil => simp at h
  | cons c cs ih =>
    have later {passed : List Char} (start : before = escapeQuoted c ++ passed)
        (behind : cs.flatMap escapeQuoted = passed ++ d :: after) :
        ∃ front e back opening rest, c :: cs = front ++ e :: back ∧
          escapeQuoted e = opening ++ d :: rest ∧
          before = front.flatMap escapeQuoted ++ opening ∧
          after = rest ++ back.flatMap escapeQuoted := by
      obtain ⟨front, e, back, opening, rest, rfl, own, rfl, rfl⟩ := ih behind
      exact ⟨c :: front, e, back, opening, rest, rfl, own, by simp [start], rfl⟩
    rw [List.flatMap_cons] at h
    obtain ⟨passed, start, behind⟩ | ⟨own, start, behind⟩ := List.append_eq_append_iff.mp h
    · exact later start behind
    · cases own with
      | nil =>
        rw [List.append_nil] at start
        exact @later [] (by rw [List.append_nil, start]) behind.symm
      | cons first rest =>
        obtain ⟨rfl, rfl⟩ := List.cons.inj behind
        exact ⟨[], c, cs, before, rest, rfl, start, rfl, rfl⟩

/-- What comes next in a quotation. -/
inductive Expecting
  /-- A character or the start of an escape sequence. -/
  | character
  /-- What follows the backslash of an escape sequence. -/
  | name
  /-- The brace in front of a code point. -/
  | brace
  /-- The digits of a code point. Those that have been read have this value. -/
  | digits (value : Nat)
  deriving DecidableEq, Repr

def hexDigit? (c : Char) : Option Nat :=
  if '0' ≤ c && c ≤ '9' then some (c.toNat - '0'.toNat)
  else if 'a' ≤ c && c ≤ 'f' then some (c.toNat - 'a'.toNat + 10)
  else none

/-- The character that a letter or a mark behind a backslash stands for. -/
def named? (c : Char) : Option Char :=
  if c == 'n' then some '\n'
  else if c == 't' then some '\t'
  else if c == 'r' then some '\r'
  else if isMark c then some c
  else none

/-- Reads a quotation. There is no text for it if a mark or a control character stands outside of
escape sequences, or if what a backslash begins is none of these. -/
def unescapeFrom : Expecting → List Char → Option (List Char)
  | .character, [] => some []
  | _, [] => none
  | .character, c :: cs =>
    if c == '\\' then unescapeFrom .name cs
    else if isMark c || isControl c then none
    else (unescapeFrom .character cs).map (c :: ·)
  | .name, c :: cs =>
    if c == 'u' then unescapeFrom .brace cs
    else (named? c).bind fun d => (unescapeFrom .character cs).map (d :: ·)
  | .brace, c :: cs => if c == '\x7b' then unescapeFrom (.digits 0) cs else none
  | .digits value, c :: cs =>
    if c == '\x7d' then
      if value.isValidChar then (unescapeFrom .character cs).map (Char.ofNat value :: ·) else none
    else (hexDigit? c).bind fun digit => unescapeFrom (.digits (16 * value + digit)) cs

/-- The text that is quoted. -/
def unescape? (quotation : String) : Option String :=
  (unescapeFrom .character quotation.toList).map String.ofList

theorem hexDigit?_digitChar {digit : Nat} (h : digit < 16) :
    hexDigit? digit.digitChar = some digit ∧ digit.digitChar ≠ '\x7d' := by
  have all : ∀ digit < 16, hexDigit? (Nat.digitChar digit) = some digit ∧
      Nat.digitChar digit ≠ '\x7d' := by decide
  exact all digit h

theorem unescapeFrom_digit (value : Nat) {digit : Nat} (h : digit < 16) (cs : List Char) :
    unescapeFrom (.digits value) (digit.digitChar :: cs) =
      unescapeFrom (.digits (16 * value + digit)) cs := by
  obtain ⟨known, other⟩ := hexDigit?_digitChar h
  rw [unescapeFrom, if_neg (mt beq_iff_eq.mp other), known, Option.bind_some]

/-- The digits of a number are read as that number. The induction goes from its last digit to the
first. -/
theorem unescapeFrom_hex (n : Nat) (cs : List Char) :
    unescapeFrom (.digits 0) (hex n ++ cs) = unescapeFrom (.digits n) cs := by
  induction n using Nat.strongRecOn generalizing cs with
  | ind n ih =>
    unfold hex
    by_cases single : n < 16
    · rw [Nat.toDigits_of_lt_base single, List.singleton_append, unescapeFrom_digit 0 single,
        Nat.mul_zero, Nat.zero_add]
    · have smaller : n / 16 < n := Nat.div_lt_self (by omega) (by decide)
      have rest := ih (n / 16) smaller ((n % 16).digitChar :: cs)
      unfold hex at rest
      rw [Nat.toDigits_of_base_le (by decide) (Nat.le_of_not_lt single), List.append_assoc,
        List.singleton_append, rest, unescapeFrom_digit _ (Nat.mod_lt n (by decide)),
        Nat.div_add_mod]

theorem unescapeFrom_sequence {sequence : List Char} {c : Char} (h : EscapeSequence sequence c)
    (cs : List Char) :
    unescapeFrom .character (sequence ++ cs) = (unescapeFrom .character cs).map (c :: ·) := by
  cases h with
  | newline => rfl
  | tab => rfl
  | carriageReturn => rfl
  | mark h =>
    simp only [isMark, Bool.or_eq_true, beq_iff_eq] at h
    obtain (rfl | rfl) | rfl := h <;> rfl
  | codePoint =>
    have opening : unescapeFrom .character (['\\', 'u', '\x7b'] ++ hex c.toNat ++ ['\x7d'] ++ cs) =
        unescapeFrom (.digits 0) (hex c.toNat ++ ('\x7d' :: cs)) := by
      simp [unescapeFrom]
    have valid : c.toNat.isValidChar := c.valid
    rw [opening, unescapeFrom_hex, unescapeFrom, if_pos (beq_self_eq_true _), if_pos valid,
      Char.ofNat_toNat]

/-- What is written for a character is read as that character, and the rest is read on its own. -/
theorem unescapeFrom_escapeQuoted (c : Char) (cs : List Char) :
    unescapeFrom .character (escapeQuoted c ++ cs) =
      (unescapeFrom .character cs).map (c :: ·) := by
  obtain ⟨same, unmarked, visible⟩ | sequence := escapeQuoted_cases c
  · have other : ¬(c == '\\') := by
      intro backslash
      simp [isMark, beq_iff_eq.mp backslash] at unmarked
    rw [same, List.singleton_append, unescapeFrom, if_neg other, unmarked, visible]
    rfl
  · exact unescapeFrom_sequence sequence cs

theorem unescape?_escapeForDisplay (s : String) : unescape? (escapeForDisplay s) = some s := by
  have all (cs : List Char) : unescapeFrom .character (cs.flatMap escapeQuoted) = some cs := by
    induction cs with
    | nil => rfl
    | cons c cs ih => rw [List.flatMap_cons, unescapeFrom_escapeQuoted, ih, Option.map_some]
  rw [unescape?, escapeForDisplay, String.toList_ofList, all, Option.map_some, String.ofList_toList]

/-- A quoted text has no control characters, each quote or backslash in it belongs to the escape
sequence for a character of the text, and the text can be read back, so that no other text is quoted
in the same way. -/
theorem escapeForDisplay_faithful (s : String) :
    Plain (escapeForDisplay s) ∧
      (∀ before mark after, (escapeForDisplay s).toList = before ++ mark :: after → isMark mark →
        ∃ front c back opening rest, s = front ++ c.toString ++ back ∧
          EscapeSequence (opening ++ mark :: rest) c ∧
          before = (escapeForDisplay front).toList ++ opening ∧
          after = rest ++ (escapeForDisplay back).toList) ∧
      unescape? (escapeForDisplay s) = some s ∧
      ∀ other, escapeForDisplay other = escapeForDisplay s → other = s := by
  refine ⟨plain_escapeForDisplay s, ?_, unescape?_escapeForDisplay s, ?_⟩
  · intro before mark after split marks
    rw [escapeForDisplay, String.toList_ofList] at split
    obtain ⟨front, c, back, opening, rest, text, own, rfl, rfl⟩ :=
      exists_of_flatMap_escapeQuoted split
    refine ⟨String.ofList front, c, String.ofList back, opening, rest, ?_, ?_, ?_, ?_⟩
    · rw [← String.toList_inj, text]
      simp
    · obtain ⟨same, unmarked, -⟩ | sequence := escapeQuoted_cases c
      · obtain rfl : mark = c := by
          have member : mark ∈ escapeQuoted c := by simp [own]
          rwa [same, List.mem_singleton] at member
        rw [marks] at unmarked
        cases unmarked
      · rwa [own] at sequence
    · simp [escapeForDisplay]
    · simp [escapeForDisplay]
  · intro other same
    have read := unescape?_escapeForDisplay other
    rw [same, unescape?_escapeForDisplay] at read
    exact (Option.some.inj read).symm

end SwiftTree.Text
