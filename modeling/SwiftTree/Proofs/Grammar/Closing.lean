import SwiftTree.Proofs.Grammar.Recovery
import SwiftTree.Proofs.Grammar.Silence
import SwiftTree.Proofs.Token.Attachment

/-!
# Brackets that are not closed

A bracket is opened by a token that is taken, and whether it is closed turns out only after
everything between the brackets has been parsed. The offset of the token is kept until then, so a
report that the closing bracket is missing points back at it. What is reported in between is about
brackets that were opened later, so no two reports point at the same token.

Nothing else is reported in these words, as can be read off the complaints of the Swift grammar.
-/

namespace SwiftTree

/-- The diagnostic says that something is missing at the end of a construct. What is missing is
quoted, and no quote is part of it. -/
def Diagnostic.Misses (diagnostic : Diagnostic) (closing : String) : Prop :=
  '\'' ∉ closing.toList ∧
    ∃ label, diagnostic.message = "expected '" ++ closing ++ "' to end " ++ label

/-- What a message says is missing at the end of a construct: the text behind its opening words, up
to the next quote. -/
def missingCloser? (message : String) : Option String :=
  let chars := message.toList
  let rest := chars.drop "expected '".length
  if "expected '".toList.isPrefixOf chars &&
      "' to end ".toList.isPrefixOf (rest.dropWhile (· != '\'')) then
    some (String.ofList (rest.takeWhile (· != '\'')))
  else none

theorem missingCloser?_append {closing : String} (plain : '\'' ∉ closing.toList) (label : String) :
    missingCloser? ("expected '" ++ closing ++ "' to end " ++ label) = some closing := by
  have quote : "' to end ".toList = '\'' :: " to end ".toList := by decide +kernel
  have chars : ("expected '" ++ closing ++ "' to end " ++ label).toList =
      "expected '".toList ++ (closing.toList ++ ("' to end ".toList ++ label.toList)) := by
    simp only [String.toList_append, List.append_assoc]
  have unquoted : ∀ c ∈ closing.toList, (c != '\'') = true := by
    intro c member
    rw [bne_iff_ne]
    rintro rfl
    exact plain member
  unfold missingCloser?
  dsimp only
  rw [chars, ← String.length_toList, List.drop_left, List.takeWhile_append_of_pos unquoted,
    List.dropWhile_append_of_pos unquoted, quote, List.cons_append,
    List.takeWhile_cons_of_neg (by simp), List.dropWhile_cons_of_neg (by simp)]
  simp

/-- The first letter tells messages of other kinds apart. -/
theorem missingCloser?_eq_none {message : String} {c : Char}
    (head : message.toList.head? = some c) (other : c ≠ 'e') : missingCloser? message = none := by
  have first : "expected '".toList.head? = some 'e' := by decide +kernel
  have differs : "expected '".toList.isPrefixOf message.toList = false := by
    rw [Bool.eq_false_iff, ne_eq, List.isPrefixOf_iff_prefix]
    rintro ⟨more, same⟩
    rw [← same, List.head?_append, first] at head
    exact other (Option.some.inj head).symm
  unfold missingCloser?
  dsimp only
  rw [differs, Bool.false_and, if_neg Bool.false_ne_true]

theorem Diagnostic.Misses.missingCloser? {diagnostic : Diagnostic} {closing : String}
    (h : diagnostic.Misses closing) : missingCloser? diagnostic.message = some closing := by
  obtain ⟨plain, label, message⟩ := h
  rw [message, missingCloser?_append plain]

theorem Token.widthAll_append (as bs : List Token) :
    widthAll (as ++ bs) = widthAll as + widthAll bs := by
  induction as with
  | nil => exact (Nat.zero_add _).symm
  | cons token as ih => rw [List.cons_append, widthAll, widthAll, ih, Nat.add_assoc]

namespace Grammar

/-- A token at an offset opens a bracket. The tokens follow each other from the start of a text. -/
def Opens (tokens : List Token) (bracket : Bracket) (offset : Nat) : Prop :=
  ∃ before token after, tokens = before ++ token :: after ∧ token.kind = bracket.openingKind ∧
    offset = Token.widthAll before + token.leading.width

namespace Report

/-- The report has nothing to do with brackets that are not closed. -/
structure Unrelated (report : Report) : Prop where
  message : missingCloser? report.diagnostic.message = none
  notes : report.diagnostic.notes = []

/-- The report says that a bracket is not closed, and points back at the token that opened it. -/
structure Blames (report : Report) (tokens : List Token) (bracket : Bracket) (opened : Nat) :
    Prop where
  message : missingCloser? report.diagnostic.message = some bracket.closing
  notes : report.diagnostic.notes =
    [⟨"to match this opening '" ++ bracket.opening ++ "'", some opened, none⟩]
  opens : Opens tokens bracket opened
  behind : ∃ offset, report.diagnostic.offset = some offset ∧ opened < offset

/-- The report is about no bracket, or about one that was opened in a range of offsets. -/
def Explained (report : Report) (tokens : List Token) (start stop : Nat) : Prop :=
  report.Unrelated ∨ ∃ bracket opened, report.Blames tokens bracket opened ∧
    start ≤ opened ∧ opened < stop

/-- The reports do not point at the same place. -/
def Apart (first second : Report) : Prop :=
  ∀ note ∈ first.diagnostic.notes, ∀ other ∈ second.diagnostic.notes, note.offset ≠ other.offset

variable {report other : Report} {tokens : List Token}

theorem Explained.widen {start stop first last : Nat} (h : report.Explained tokens start stop)
    (before : first ≤ start) (after : stop ≤ last) : report.Explained tokens first last := by
  obtain unrelated | ⟨bracket, opened, blames, low, high⟩ := h
  · exact .inl unrelated
  · exact .inr ⟨bracket, opened, blames, Nat.le_trans before low, Nat.lt_of_lt_of_le high after⟩

/-- Where brackets are opened in different ranges, the reports point at different places. -/
theorem Explained.apart {a b c d : Nat} (first : report.Explained tokens a b)
    (second : other.Explained tokens c d) (ranges : b ≤ c ∨ d ≤ a) : report.Apart other := by
  intro note member mark another
  obtain unrelated | ⟨bracket, opened, blames, low, high⟩ := first
  · rw [unrelated.notes] at member
    cases member
  obtain unrelated | ⟨bracket', opened', blames', low', high'⟩ := second
  · rw [unrelated.notes] at another
    cases another
  rw [blames.notes, List.mem_singleton] at member
  rw [blames'.notes, List.mem_singleton] at another
  rw [member, another, ne_eq, Option.some.injEq]
  omega

end Report

/-- The tokens that are left are the last of some tokens, and start where the others end. -/
structure State.Within (s : State) (tokens : List Token) : Prop where
  rest : ∃ past, tokens = past ++ s.rest ∧ s.offset = Token.widthAll past
  contentEnd : s.contentEnd ≤ s.offset

namespace State

/-- All that taking an opening bracket does to the position. -/
theorem shift_of_opening {s : State} {bracket : Bracket}
    (opening : currentKind s.rest = bracket.openingKind) :
    ∃ token rest, s.rest = token :: rest ∧ token.kind = bracket.openingKind ∧ ¬token.isEnd ∧
      s.contentStart = s.offset + token.leading.width ∧
      s.shift.offset = s.offset + token.width ∧
      s.shift.contentEnd = s.contentStart + token.text.utf8ByteSize := by
  obtain ⟨⟨token, t⟩, taken⟩ := Option.ne_none_iff_exists'.mp
    (mt take?_eq_none_iff.mp (not_atEnd_of_opening opening))
  obtain ⟨rest, solid, same⟩ := take?_eq_some taken
  have start : s.contentStart = s.offset + token.leading.width := by
    rw [contentStart, rest]
    rfl
  refine ⟨token, t.rest, rest, ?_, solid, start, ?_, ?_⟩
  · rw [← opening, rest]
    rfl
  · rw [shift, taken, same]
    rfl
  · rw [start, shift, taken, same, Nat.add_assoc]
    rfl

end State

/-- A stretch of parsing moves on in the tokens, and explains its reports by brackets that it
opened, each by another one. -/
structure Accounted (tokens : List Token) (s t : State) : Prop where
  within : t.Within tokens
  offset : s.offset ≤ t.offset
  contentEnd : s.contentEnd ≤ t.contentEnd
  reports : ∃ new, t.reports.toList = s.reports.toList ++ new ∧
    (∀ report ∈ new, report.Explained tokens s.offset t.offset) ∧ new.Pairwise Report.Apart

/-- After a second stretch, something is reported about a bracket of the first, in which nothing was
reported. -/
theorem Accounted.say_behind {tokens : List Token} {s t u : State} {report : Report}
    (first : Accounted tokens s t)
    (quiet : t.reports = s.reports) (second : Accounted tokens t u)
    (explained : report.Explained tokens s.offset t.offset) :
    Accounted tokens s (u.say report) := by
  obtain ⟨after, forth, grows, new, reported, others, apart⟩ := second
  refine ⟨⟨after.rest, after.contentEnd⟩, Nat.le_trans first.offset forth,
    Nat.le_trans first.contentEnd grows, new ++ [report], ?_, ?_, ?_⟩
  · rw [State.say, Array.toList_push, reported, quiet, List.append_assoc]
  · rw [List.forall_mem_append, List.forall_mem_singleton]
    exact ⟨fun other member => (others other member).widen first.offset (Nat.le_refl _),
      explained.widen (Nat.le_refl _) forth⟩
  · rw [List.pairwise_append]
    refine ⟨apart, List.pairwise_singleton _ _, fun other member => ?_⟩
    rw [List.forall_mem_singleton]
    exact (others other member).apart explained (.inr (Nat.le_refl _))

/-- A stretch of parsing that accounts for its reports, wherever in the tokens it begins. -/
def Accounts (tokens : List Token) (s t : State) : Prop :=
  s.Within tokens → Accounted tokens s t

namespace Accounts

variable {tokens : List Token} {s t u : State}

/-- Nothing is reported, and the position is the same. -/
theorem of_same (rest : t.rest = s.rest) (offset : t.offset = s.offset)
    (contentEnd : t.contentEnd = s.contentEnd) (reports : t.reports = s.reports) :
    Accounts tokens s t := by
  intro within
  refine ⟨⟨?_, ?_⟩, Nat.le_of_eq offset.symm, Nat.le_of_eq contentEnd.symm, [], ?_⟩
  · rw [rest, offset]
    exact within.rest
  · rw [offset, contentEnd]
    exact within.contentEnd
  · rw [reports, List.append_nil]
    exact ⟨rfl, List.forall_mem_nil _, .nil⟩

theorem refl (s : State) : Accounts tokens s s :=
  of_same rfl rfl rfl rfl

/-- Brackets that are opened in the second stretch are opened behind those of the first. -/
theorem trans (first : Accounts tokens s t) (second : Accounts tokens t u) :
    Accounts tokens s u := by
  intro within
  obtain ⟨middle, forth, grows, early, reported, explained, apart⟩ := first within
  obtain ⟨after, further, grows', late, reported', explained', apart'⟩ := second middle
  refine ⟨after, Nat.le_trans forth further, Nat.le_trans grows grows', early ++ late, ?_, ?_, ?_⟩
  · rw [reported', reported, List.append_assoc]
  · rw [List.forall_mem_append]
    exact ⟨fun report member => (explained report member).widen (Nat.le_refl _) further,
      fun report member => (explained' report member).widen forth (Nat.le_refl _)⟩
  · rw [List.pairwise_append]
    exact ⟨apart, apart', fun report member other another =>
      (explained report member).apart (explained' other another) (.inl (Nat.le_refl _))⟩

/-- Something is reported that is not about brackets. -/
theorem say {report : Report} (unrelated : report.Unrelated) (s : State) :
    Accounts tokens s (s.say report) := by
  intro within
  refine ⟨⟨within.rest, within.contentEnd⟩, Nat.le_refl _, Nat.le_refl _, [report], ?_⟩
  rw [State.say, Array.toList_push, List.forall_mem_singleton]
  exact ⟨rfl, .inl unrelated, List.pairwise_singleton _ _⟩

/-- A token is taken, whatever becomes of the children. -/
theorem of_take? {token : Token} (taken : s.take? = some (token, t)) (children : Array Node) :
    Accounts tokens s { t with children } := by
  obtain ⟨rest, -, same⟩ := State.take?_eq_some taken
  intro within
  obtain ⟨past, whole, width⟩ := within.rest
  have ends := within.contentEnd
  refine ⟨⟨⟨past ++ [token], ?_, ?_⟩, ?_⟩, ?_, ?_, [], ?_⟩
  · rw [whole, rest, List.append_assoc, List.singleton_append]
  · rw [same, Token.widthAll_append, ← width]
    rfl
  · rw [same]
    dsimp only
    unfold Token.width
    omega
  · rw [same]
    exact Nat.le_add_right _ _
  · rw [same]
    dsimp only
    omega
  · rw [same, List.append_nil]
    exact ⟨rfl, List.forall_mem_nil _, .nil⟩

theorem shift (s : State) : Accounts tokens s s.shift := by
  unfold State.shift
  split
  · rename_i token t taken
    exact of_take? taken _
  · exact refl s

theorem shiftMany (count : Nat) (s : State) : Accounts tokens s (State.shiftMany count s) := by
  induction count generalizing s with
  | zero => exact refl s
  | succ count ih => exact (shift s).trans (ih s.shift)

theorem attach (s : State) : Accounts tokens s s.attach := by
  unfold State.attach
  split
  · exact refl s
  · rename_i token t taken
    split
    · exact of_take? taken _
    · exact of_take? taken _

/-- What is done inside of a node. -/
theorem leave {kind : NodeKind} (inside : Accounts tokens (s.enter kind) t) :
    Accounts tokens s (s.leave t) := by
  have entered : Accounts tokens s (s.enter kind) := of_same rfl rfl rfl rfl
  have left : Accounts tokens t (s.leave t) := of_same rfl rfl rfl rfl
  exact entered.trans (inside.trans left)

theorem recover (s : State) (recovery : Recovery) : Accounts tokens s (s.recover recovery) := by
  unfold State.recover
  split
  · exact refl s
  · refine (leave (shiftMany _ (s.enter .unexpectedNodes))).trans (say ⟨?_, rfl⟩ _)
    exact missingCloser?_eq_none (c := 'u') (by simp) (by decide)

theorem complain {complaint : Complaint} (other : missingCloser? complaint.message = none)
    (s : State) : Accounts tokens s (s.complain complaint) :=
  say ⟨other, rfl⟩ s

/-- What is between brackets is parsed after the opening bracket has been taken, so all brackets
that are opened there stand behind it. -/
theorem delimited (filled : ∀ token ∈ tokens, ¬token.isEnd → token.text ≠ "") {inner : State}
    {bracket : Bracket} (label : String) (opening : currentKind s.rest = bracket.openingKind)
    (inside : Accounts tokens s.shift inner) :
    Accounts tokens s (inner.close bracket label s.contentStart) := by
  unfold State.close
  split
  · exact (shift s).trans (inside.trans (shift inner))
  intro within
  have shifted := shift s within
  have between := inside shifted.within
  obtain ⟨token, rest, left, kind, solid, start, passed, ends⟩ := State.shift_of_opening opening
  obtain ⟨past, whole, width⟩ := within.rest
  rw [left] at whole
  have size : 0 < token.text.utf8ByteSize := by
    rw [Nat.pos_iff_ne_zero, ne_eq, String.utf8ByteSize_eq_zero_iff]
    exact filled token (by simp [whole]) solid
  have grows := between.contentEnd
  refine shifted.say_behind (State.reports_shift s) between
    (.inr ⟨bracket, s.contentStart, ⟨?_, rfl, ?_, inner.contentEnd, rfl, ?_⟩, ?_, ?_⟩)
  · exact missingCloser?_append (by cases bracket <;> simp [Bracket.closing]) label
  · exact ⟨past, token, rest, whole, kind, by rw [start, width]⟩
  · omega
  · omega
  · rw [start, passed, Token.width]
    omega

/-- Every stretch of parsing accounts for its reports, as long as complaints do not say that
something is missing at the end of a construct. -/
theorem restrictedLaw (filled : ∀ token ∈ tokens, ¬token.isEnd → token.text ≠ "") :
    RestrictedLaw (fun complaint => missingCloser? complaint.message = none) (fun _ => True)
      (Accounts tokens) where
  refl := refl
  trans := trans
  shift := shift
  attach := attach
  recover s recovery _ := recover s recovery
  complain s _ other := complain other s
  delimited label opening inside := delimited filled label opening inside
  become _ _ := of_same rfl rfl rfl rfl
  ask _ _ := of_same rfl rfl rfl rfl
  node := leave

end Accounts

/-- No complaint of the Swift grammar says that something is missing at the end of a construct. -/
theorem missingCloser?_swift (goal : Goal) :
    ∀ complaint ∈ (swift goal).complaints, missingCloser? complaint.message = none := by
  have all : ∀ complaint ∈ swiftComplaints, missingCloser? complaint.message = none := by
    decide +kernel
  exact fun complaint member => all complaint (complaints_swift goal member)

/-- The reports on the items of a list point at brackets among the tokens, each at another one. -/
theorem accounted_parseItems {tokens : List Token}
    (filled : ∀ token ∈ tokens, ¬token.isEnd → token.text ≠ "") (context : ItemContext)
    (owner : NodeKind) :
    (∀ report ∈ (parseItems context owner tokens).reports.toList, report.Unrelated ∨
      ∃ bracket opened, report.Blames tokens bracket opened) ∧
      (parseItems context owner tokens).reports.toList.Pairwise Report.Apart := by
  have start : (State.start .sourceFile tokens).Within tokens := ⟨⟨[], rfl, rfl⟩, Nat.le_refl 0⟩
  obtain ⟨-, -, -, new, reported, explained, apart⟩ := (Accounts.restrictedLaw filled).pursue
    missingCloser?_swift (fun _ _ _ => trivial) (tokens.length + 1) (.items context owner) _ start
  have all : (parseItems context owner tokens).reports.toList = new := reported
  rw [all]
  refine ⟨fun report member => (explained report member).imp id ?_, apart⟩
  rintro ⟨bracket, opened, blames, -⟩
  exact ⟨bracket, opened, blames⟩

end Grammar

end SwiftTree
