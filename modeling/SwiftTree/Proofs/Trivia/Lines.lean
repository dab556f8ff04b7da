import SwiftTree.Proofs.Trivia.Documentation

/-!
# Documentation line by line

Leading trivia is lines that end in front of a token and the line that the token stands on. Taking
documentation away works on each of them by itself, so what is left of trivia whose first part ends
with a line is what is left of both parts. The lines that are left hold no documentation and are
fixed points, while documentation that is put on lines of its own leaves nothing. From this follows
what setting documentation does: it leaves the documentation asked for and all other comments, and
it makes no difference which documentation was set before.
-/

namespace SwiftTree

namespace Piece

def isPlainComment (piece : Piece) : Bool :=
  piece.kind.isComment && !piece.isDocumentation

theorem isPlainComment_of_isNewline {piece : Piece} (h : piece.isNewline) :
    piece.isPlainComment = false := by
  have kind : piece.kind = .newline := by simpa [isNewline] using h
  rw [isPlainComment, kind]
  rfl

theorem isPlainComment_of_isWhitespace {piece : Piece} (h : piece.isWhitespace) :
    piece.isPlainComment = false := by
  have kind : piece.kind = .whitespace := by simpa [isWhitespace] using h
  rw [isPlainComment, kind]
  rfl

theorem isPlainComment_of_isDocumentation {piece : Piece} (h : piece.isDocumentation) :
    piece.isPlainComment = false := by
  simp [isPlainComment, h]

end Piece

namespace Trivia

/-- The trivia ends where a line ends, or there is none. -/
def EndsLine (trivia : Trivia) : Prop :=
  ∀ last ∈ trivia.getLast?, last.isNewline

/-- The trivia stays on one line. -/
def Unbroken (trivia : Trivia) : Prop :=
  ∀ piece ∈ trivia, piece.isNewline = false

def Undocumented (trivia : Trivia) : Prop :=
  ∀ piece ∈ trivia, piece.isDocumentation = false

theorem endsLine_nil : EndsLine [] := nofun

theorem endsLine_concat {piece : Piece} (trivia : Trivia) (h : piece.isNewline) :
    EndsLine (trivia ++ [piece]) := by
  intro last ends
  rw [List.getLast?_concat] at ends
  exact Option.some.inj ends ▸ h

theorem endsLine_newline (text : String) : EndsLine [.newline text] :=
  endsLine_concat [] rfl

theorem EndsLine.append {as bs : Trivia} (first : EndsLine as) (second : EndsLine bs) :
    EndsLine (as ++ bs) := by
  intro last ends
  rw [List.getLast?_append] at ends
  cases found : bs.getLast? with
  | none =>
    rw [found] at ends
    exact first last ends
  | some piece =>
    rw [found] at ends
    exact second last (found.trans ends)

theorem EndsLine.of_append {as bs : Trivia} (h : EndsLine (as ++ bs)) : EndsLine bs := by
  intro last ends
  refine h last ?_
  rw [List.getLast?_append, Option.mem_def.mp ends]
  rfl

theorem EndsLine.flatMap {α : Type} {xs : List α} {f : α → Trivia} (h : ∀ x ∈ xs, EndsLine (f x)) :
    EndsLine (xs.flatMap f) := by
  induction xs with
  | nil => exact endsLine_nil
  | cons x xs ih =>
    obtain ⟨first, later⟩ := List.forall_mem_cons.mp h
    exact first.append (ih later)

/-- The lines of trivia, one after the other, are the trivia. -/
theorem flatten_splitLines (trivia : Trivia) :
    trivia.splitLines.1.flatten ++ trivia.splitLines.2 = trivia := by
  induction trivia with
  | nil => rfl
  | cons piece rest ih =>
    cases newline : piece.isNewline with
    | true => rw [splitLines_newline newline, List.flatten_cons, List.append_assoc, ih]; rfl
    | false =>
      cases found : (splitLines rest).1 with
      | nil => simpa [splitLines_cons_of_nil newline found, found] using ih
      | cons line later => simpa [splitLines_cons_of_cons newline found, found] using ih

theorem splitLines_of_unbroken {trivia : Trivia} (h : Unbroken trivia) :
    trivia.splitLines = ([], trivia) := by
  induction trivia with
  | nil => rfl
  | cons piece rest ih =>
    obtain ⟨inner, others⟩ := List.forall_mem_cons.mp h
    rw [splitLines_cons_of_nil inner (by rw [ih others]), ih others]

theorem splitLines_line {body : Trivia} {feed : Piece} (inner : Unbroken body)
    (breaks : feed.isNewline) : splitLines (body ++ [feed]) = ([body ++ [feed]], []) := by
  induction body with
  | nil => exact splitLines_newline breaks []
  | cons piece body ih =>
    obtain ⟨first, others⟩ := List.forall_mem_cons.mp inner
    have later := ih others
    rw [List.cons_append, splitLines_cons_of_cons first (congrArg Prod.fst later), later]

/-- Trivia whose first part ends with a line is split where the parts meet. -/
theorem splitLines_append {as : Trivia} (ends : EndsLine as) (bs : Trivia) :
    splitLines (as ++ bs) = ((splitLines as).1 ++ (splitLines bs).1, (splitLines bs).2) := by
  induction as generalizing bs with
  | nil => rfl
  | cons piece as ih =>
    have later : EndsLine as := @EndsLine.of_append [piece] as ends
    cases newline : piece.isNewline with
    | true =>
      rw [List.cons_append, splitLines_newline newline, splitLines_newline newline, ih later]
      rfl
    | false =>
      -- a line break follows in the first part, so this piece belongs to a line of that part
      have some : (splitLines as).1 ≠ [] := by
        intro none
        have whole := flatten_splitLines as
        have own := congrArg Prod.snd (ih later [])
        rw [List.append_nil] at own
        rw [none, own] at whole
        obtain rfl : as = [] := whole.symm
        exact absurd (ends piece rfl) (by simp [newline])
      obtain ⟨line, others, found⟩ := List.exists_cons_of_ne_nil some
      have joined : (splitLines (as ++ bs)).1 = line :: (others ++ (splitLines bs).1) := by
        rw [ih later, found, List.cons_append]
      rw [List.cons_append, splitLines_cons_of_cons newline found,
        splitLines_cons_of_cons newline joined, ih later]
      rfl

/-- Each line but the last one ends with its only line break. -/
theorem exists_of_mem_splitLines {trivia line : Trivia} (h : line ∈ trivia.splitLines.1) :
    ∃ body feed, line = body ++ [feed] ∧ Unbroken body ∧ feed.isNewline := by
  induction trivia generalizing line with
  | nil => cases h
  | cons piece rest ih =>
    cases newline : piece.isNewline with
    | true =>
      rw [splitLines_newline newline] at h
      obtain rfl | later := List.mem_cons.mp h
      · exact ⟨[], piece, rfl, nofun, newline⟩
      · exact ih later
    | false =>
      cases found : (splitLines rest).1 with
      | nil =>
        rw [splitLines_cons_of_nil newline found] at h
        cases h
      | cons first others =>
        rw [splitLines_cons_of_cons newline found] at h
        rw [found] at ih
        obtain rfl | later := List.mem_cons.mp h
        · obtain ⟨body, feed, rfl, inner, breaks⟩ := ih List.mem_cons_self
          exact ⟨piece :: body, feed, rfl, List.forall_mem_cons.mpr ⟨newline, inner⟩, breaks⟩
        · exact ih (List.mem_cons_of_mem _ later)

theorem unbroken_splitLines (trivia : Trivia) : Unbroken trivia.splitLines.2 := by
  induction trivia with
  | nil => exact nofun
  | cons piece rest ih =>
    cases newline : piece.isNewline with
    | true =>
      rw [splitLines_newline newline]
      exact ih
    | false =>
      cases found : (splitLines rest).1 with
      | nil =>
        rw [splitLines_cons_of_nil newline found]
        exact List.forall_mem_cons.mpr ⟨newline, ih⟩
      | cons first others =>
        rw [splitLines_cons_of_cons newline found]
        exact ih

theorem undocumented_dropDocumentation (after : Bool) (trivia : Trivia) :
    Undocumented (trivia.dropDocumentation after) := by
  fun_induction dropDocumentation after trivia with
  | case1 => exact nofun
  | case2 after piece rest documented ih => exact ih
  | case3 after piece rest plain blank ih => exact ih
  | case4 after piece rest plain kept ih =>
    exact List.forall_mem_cons.mpr ⟨by simpa using plain, ih⟩

theorem sublist_dropDocumentation (after : Bool) (trivia : Trivia) :
    (trivia.dropDocumentation after).Sublist trivia := by
  fun_induction dropDocumentation after trivia with
  | case1 => exact .slnil
  | case2 after piece rest documented ih => exact ih.cons piece
  | case3 after piece rest plain blank ih => exact ih.cons piece
  | case4 after piece rest plain kept ih => exact ih.cons_cons piece

theorem dropDocumentation_of_undocumented {trivia : Trivia} (h : Undocumented trivia) :
    trivia.dropDocumentation false = trivia := by
  induction trivia with
  | nil => rfl
  | cons piece rest ih =>
    obtain ⟨plain, others⟩ := List.forall_mem_cons.mp h
    rw [dropDocumentation, plain, ih others]
    rfl

theorem dropDocumentation_concat (after : Bool) (body : Trivia) {feed : Piece}
    (h : feed.isNewline) :
    dropDocumentation after (body ++ [feed]) = dropDocumentation after body ++ [feed] := by
  fun_induction dropDocumentation after body with
  | case1 after => exact dropDocumentation_newline h after []
  | case2 after piece rest documented ih =>
    rw [List.cons_append, dropDocumentation, if_pos documented, ih]
  | case3 after piece rest plain blank ih =>
    rw [List.cons_append, dropDocumentation, if_neg plain, if_pos blank, ih]
  | case4 after piece rest plain kept ih =>
    rw [List.cons_append, dropDocumentation, if_neg plain, if_neg kept, ih]
    rfl

/-- Only documentation and blanks are taken away. -/
theorem filter_dropDocumentation (after : Bool) (trivia : Trivia) :
    (trivia.dropDocumentation after).filter Piece.isPlainComment =
      trivia.filter Piece.isPlainComment := by
  fun_induction dropDocumentation after trivia with
  | case1 => rfl
  | case2 after piece rest documented ih =>
    rw [ih, List.filter_cons_of_neg (by simp [Piece.isPlainComment_of_isDocumentation documented])]
  | case3 after piece rest plain blank ih =>
    have space : piece.isWhitespace := (Bool.and_eq_true_iff.mp blank).2
    rw [ih, List.filter_cons_of_neg (by simp [Piece.isPlainComment_of_isWhitespace space])]
  | case4 after piece rest plain kept ih => rw [List.filter_cons, List.filter_cons, ih]

theorem filter_of_isDocumentationLine {line : Trivia} {feed : Piece} (breaks : feed.isNewline)
    (h : (line ++ [feed]).isDocumentationLine) :
    (line ++ [feed]).filter Piece.isPlainComment = [] := by
  rw [isDocumentationLine, List.dropLast_concat, Bool.and_eq_true_iff, List.all_eq_true] at h
  rw [List.filter_eq_nil_iff, List.forall_mem_append, List.forall_mem_singleton,
    Piece.isPlainComment_of_isNewline breaks]
  refine ⟨fun piece member => ?_, Bool.false_ne_true⟩
  obtain blank | documented := Bool.or_eq_true_iff.mp (h.2 piece member)
  · simp [Piece.isPlainComment_of_isWhitespace blank]
  · simp [Piece.isPlainComment_of_isDocumentation documented]

theorem isDocumentationLine_of_undocumented {line : Trivia} (h : Undocumented line) :
    line.isDocumentationLine = false := by
  have none : line.dropLast.any Piece.isDocumentation = false :=
    List.any_eq_false.mpr fun piece member => by
      simp [h piece ((List.dropLast_sublist line).mem member)]
  simp [isDocumentationLine, none]

theorem mem_of_mem_keptLines {trivia : Trivia} {piece : Piece} (h : piece ∈ trivia.keptLines) :
    piece ∈ trivia := by
  obtain ⟨line, kept, inside⟩ := List.mem_flatMap.mp h
  rw [← flatten_splitLines trivia]
  refine List.mem_append_left _ (List.mem_flatten_of_mem (List.mem_of_mem_filter kept) ?_)
  exact (sublist_dropDocumentation false line).mem inside

theorem mem_of_mem_keptOwn {trivia : Trivia} {piece : Piece} (h : piece ∈ trivia.keptOwn) :
    piece ∈ trivia := by
  rw [← flatten_splitLines trivia]
  exact List.mem_append_right _ ((sublist_dropDocumentation false _).mem h)

theorem undocumented_keptLines (trivia : Trivia) : Undocumented trivia.keptLines := by
  intro piece member
  obtain ⟨line, -, inside⟩ := List.mem_flatMap.mp member
  exact undocumented_dropDocumentation false line piece inside

theorem undocumented_keptOwn (trivia : Trivia) : Undocumented trivia.keptOwn :=
  undocumented_dropDocumentation false _

theorem unbroken_keptOwn (trivia : Trivia) : Unbroken trivia.keptOwn := by
  intro piece member
  exact unbroken_splitLines trivia piece ((sublist_dropDocumentation false _).mem member)

theorem endsLine_keptLines (trivia : Trivia) : EndsLine trivia.keptLines := by
  refine EndsLine.flatMap fun line member => ?_
  obtain ⟨body, feed, rfl, -, breaks⟩ := exists_of_mem_splitLines (List.mem_of_mem_filter member)
  rw [dropDocumentation_concat false body breaks]
  exact endsLine_concat _ breaks

theorem keptLines_append {as : Trivia} (ends : EndsLine as) (bs : Trivia) :
    keptLines (as ++ bs) = keptLines as ++ keptLines bs := by
  rw [keptLines, splitLines_append ends, List.filter_append, List.flatMap_append]
  rfl

theorem keptOwn_append {as : Trivia} (ends : EndsLine as) (bs : Trivia) :
    keptOwn (as ++ bs) = keptOwn bs := by
  rw [keptOwn, splitLines_append ends]
  rfl

theorem keptLines_of_unbroken {trivia : Trivia} (h : Unbroken trivia) : trivia.keptLines = [] := by
  rw [keptLines, splitLines_of_unbroken h]
  rfl

theorem keptOwn_of_unbroken {trivia : Trivia} (inner : Unbroken trivia)
    (plain : Undocumented trivia) : trivia.keptOwn = trivia := by
  rw [keptOwn, splitLines_of_unbroken inner]
  exact dropDocumentation_of_undocumented plain

/-- Of a single line nothing is kept if it holds only documentation. -/
theorem keptLines_line {body : Trivia} {feed : Piece} (inner : Unbroken body)
    (breaks : feed.isNewline) :
    keptLines (body ++ [feed]) =
      if isDocumentationLine (body ++ [feed]) then []
      else body.dropDocumentation false ++ [feed] := by
  rw [keptLines, splitLines_line inner breaks]
  split
  · rename_i documented
    rw [List.filter_cons_of_neg (by simp [documented])]
    rfl
  · rename_i mixed
    rw [List.filter_cons_of_pos (by simpa using mixed), List.filter_nil, List.flatMap_singleton,
      dropDocumentation_concat false body breaks]

/-- Lines without documentation are kept as they are. -/
theorem keptLines_of_undocumented {trivia : Trivia} (ends : EndsLine trivia)
    (plain : Undocumented trivia) : trivia.keptLines = trivia := by
  have whole := flatten_splitLines trivia
  have own : trivia.splitLines.2 = [] := by
    have parts := congrArg Prod.snd (splitLines_append ends [])
    rwa [List.append_nil] at parts
  rw [own, List.append_nil] at whole
  have undocumented (line : Trivia) (member : line ∈ trivia.splitLines.1) : Undocumented line := by
    intro piece inside
    refine plain piece ?_
    rw [← whole]
    exact List.mem_flatten_of_mem member inside
  have all : (trivia.splitLines.1.filter fun line => !line.isDocumentationLine) =
      trivia.splitLines.1 :=
    List.filter_eq_self.mpr fun line member => by
      simp [isDocumentationLine_of_undocumented (undocumented line member)]
  have same : trivia.splitLines.1.flatMap (dropDocumentation false) =
      trivia.splitLines.1.flatMap id :=
    List.flatMap_congr fun line member =>
      dropDocumentation_of_undocumented (undocumented line member)
  rw [keptLines, all, same, List.flatMap_id, whole]

/-- All comments but documentation are left. -/
theorem filter_keptLines {lines : List Trivia}
    (ends : ∀ line ∈ lines, ∃ body feed, line = body ++ [feed] ∧ feed.isNewline) :
    ((lines.filter fun line => !line.isDocumentationLine).flatMap (dropDocumentation false)).filter
      Piece.isPlainComment = lines.flatten.filter Piece.isPlainComment := by
  induction lines with
  | nil => rfl
  | cons line lines ih =>
    obtain ⟨⟨body, feed, rfl, breaks⟩, others⟩ := List.forall_mem_cons.mp ends
    rw [List.flatten_cons, List.filter_append, ← ih others]
    cases documented : isDocumentationLine (body ++ [feed]) with
    | true =>
      rw [List.filter_cons_of_neg (by simp [documented]),
        filter_of_isDocumentationLine breaks documented, List.nil_append]
    | false =>
      rw [List.filter_cons_of_pos (by simp [documented]), List.flatMap_cons, List.filter_append,
        filter_dropDocumentation]

/-- What is left of trivia when its documentation is taken away. -/
def cleared (trivia : Trivia) : Trivia :=
  trivia.keptLines ++ trivia.keptOwn

theorem filter_cleared (trivia : Trivia) :
    trivia.cleared.filter Piece.isPlainComment =
      trivia.filter Piece.isPlainComment := by
  have ends : ∀ line ∈ trivia.splitLines.1,
      ∃ body feed, line = body ++ [feed] ∧ feed.isNewline := by
    intro line member
    obtain ⟨body, feed, parts, -, breaks⟩ := exists_of_mem_splitLines member
    exact ⟨body, feed, parts, breaks⟩
  rw [cleared, List.filter_append, keptLines, filter_keptLines ends, keptOwn,
    filter_dropDocumentation, ← List.filter_append, flatten_splitLines]

end Trivia

namespace Documentation

/-- Only comments for documentation are written. -/
theorem isDocumentation_of_mem_pieces {text : String} {piece : Piece} (h : piece ∈ pieces text) :
    piece.isDocumentation := by
  have lines {text : String} (member : piece ∈ lineComments text) : piece.isDocumentation := by
    obtain ⟨line, -, rfl⟩ := List.mem_map.mp member
    rfl
  simp only [pieces] at h
  split at h
  · cases h
  split at h
  · split at h
    · obtain rfl := List.mem_singleton.mp h
      rfl
    · obtain rfl := List.mem_singleton.mp h
      rfl
    · exact lines h
  · exact lines h

theorem block_append (as bs : Trivia) (indentation newline : String) :
    block indentation newline (as ++ bs) =
      block indentation newline as ++ block indentation newline bs :=
  List.flatMap_append

theorem block_cons (comment : Piece) (rest : Trivia) (indentation newline : String) :
    block indentation newline (comment :: rest) =
      block indentation newline [comment] ++ block indentation newline rest :=
  block_append [comment] rest indentation newline

/-- The line that one comment makes, without the line break. -/
def body (indentation : String) (comment : Piece) : Trivia :=
  (if indentation.isEmpty then [] else [Piece.whitespace indentation]) ++ [comment]

theorem block_singleton (comment : Piece) (indentation newline : String) :
    block indentation newline [comment] = body indentation comment ++ [.newline newline] := by
  rw [block, body, List.flatMap_singleton, List.append_assoc]
  rfl

theorem mem_body {indentation : String} {comment piece : Piece}
    (h : piece ∈ body indentation comment) : piece = .whitespace indentation ∨ piece = comment := by
  obtain blank | own := List.mem_append.mp h
  · split at blank
    · cases blank
    · exact .inl (List.mem_singleton.mp blank)
  · exact .inr (List.mem_singleton.mp own)

theorem unbroken_body {comment : Piece} (h : comment.kind.isComment) (indentation : String) :
    (body indentation comment).Unbroken := by
  intro piece member
  obtain rfl | rfl := mem_body member
  · rfl
  · cases kind : piece.kind <;> simp_all [Piece.isNewline, TriviaKind.isComment]

theorem endsLine_block (indentation newline : String) (comments : Trivia) :
    (block indentation newline comments).EndsLine := by
  induction comments with
  | nil => exact Trivia.endsLine_nil
  | cons comment rest ih =>
    rw [block_cons, block_singleton]
    exact (Trivia.endsLine_concat _ rfl).append ih

/-- A line with one comment is taken away exactly if the comment is documentation. -/
theorem keptLines_block_singleton {comment : Piece} (h : comment.kind.isComment)
    (indentation newline : String) :
    (block indentation newline [comment]).keptLines =
      if comment.isDocumentation then [] else block indentation newline [comment] := by
  rw [block_singleton, Trivia.keptLines_line (unbroken_body h indentation) rfl]
  cases documented : comment.isDocumentation with
  | true =>
    have line : Trivia.isDocumentationLine
        (body indentation comment ++ [.newline newline]) := by
      rw [Trivia.isDocumentationLine, List.dropLast_concat, Bool.and_eq_true_iff, List.any_eq_true,
        List.all_eq_true]
      refine ⟨⟨comment, by simp [body], documented⟩, fun piece member => ?_⟩
      obtain rfl | rfl := mem_body member
      · rfl
      · rw [documented, Bool.or_true]
    rw [if_pos line, if_pos rfl]
  | false =>
    have plain : Trivia.Undocumented (body indentation comment ++ [.newline newline]) := by
      intro piece member
      obtain inside | last := List.mem_append.mp member
      · obtain rfl | rfl := mem_body inside
        · rfl
        · exact documented
      · obtain rfl := List.mem_singleton.mp last
        rfl
    have kept : (body indentation comment).dropDocumentation false = body indentation comment :=
      Trivia.dropDocumentation_of_undocumented fun piece member =>
        plain piece (List.mem_append_left _ member)
    rw [Trivia.isDocumentationLine_of_undocumented plain, kept, if_neg Bool.false_ne_true]

/-- Of comments on lines of their own those are left that are no documentation. -/
theorem keptLines_block {comments : Trivia} (h : ∀ comment ∈ comments, comment.kind.isComment)
    (indentation newline : String) :
    (block indentation newline comments).keptLines =
      block indentation newline (comments.filter fun comment => !comment.isDocumentation) := by
  induction comments with
  | nil => rfl
  | cons comment rest ih =>
    obtain ⟨first, others⟩ := List.forall_mem_cons.mp h
    rw [block_cons, Trivia.keptLines_append (endsLine_block _ _ _), ih others,
      keptLines_block_singleton first]
    split
    · rename_i documented
      rw [List.filter_cons_of_neg (by simp [documented]), List.nil_append]
    · rename_i plain
      rw [List.filter_cons_of_pos (by simpa using plain), ← block_cons]

/-- The comments for an optional text. -/
def comments (text : Option String) : Trivia :=
  (text.map pieces).getD []

@[simp] theorem comments_none : comments none = [] := rfl

@[simp] theorem comments_some (text : String) : comments (some text) = pieces text := by
  rw [comments, Option.map_some, Option.getD_some]

theorem isDocumentation_of_mem_comments {text : Option String} {piece : Piece}
    (h : piece ∈ comments text) : piece.isDocumentation := by
  cases text with
  | none => cases h
  | some text =>
    rw [comments_some] at h
    exact isDocumentation_of_mem_pieces h

theorem isComment_of_mem_comments {text : Option String} {piece : Piece}
    (h : piece ∈ comments text) : piece.kind.isComment := by
  have documented := isDocumentation_of_mem_comments h
  cases kind : piece.kind <;>
    simp_all [Piece.isDocumentation, TriviaKind.isDocumentation, TriviaKind.isComment]

/-- What is put between the lines that are kept and the line of the token. -/
def inserted (text : Option String) (newline : String) (startsLine : Bool) (own : Trivia) :
    Trivia :=
  if (comments text).isEmpty then []
  else (if startsLine then [] else [.newline newline]) ++
    block own.indentation newline (comments text)

variable {leading : Trivia} {text : Option String} {newline : String} {startsLine : Bool}

theorem setDocumentation_eq :
    setDocumentation leading text newline startsLine =
      leading.keptLines ++ (inserted text newline startsLine leading.keptOwn ++
        leading.keptOwn) := by
  unfold inserted comments
  simp only [setDocumentation]
  split
  · rfl
  · simp only [List.append_assoc]
    rfl

theorem setDocumentation_none :
    setDocumentation leading none newline startsLine = leading.cleared :=
  setDocumentation_eq

theorem endsLine_inserted (own : Trivia) : (inserted text newline startsLine own).EndsLine := by
  unfold inserted
  split
  · exact Trivia.endsLine_nil
  split
  · exact endsLine_block _ _ _
  · exact (Trivia.endsLine_newline newline).append (endsLine_block _ _ _)

/-- Of what is put in, only a line break that begins a line is left. -/
theorem keptLines_inserted (own : Trivia) :
    (inserted text newline startsLine own).keptLines =
      if (comments text).isEmpty ∨ startsLine then [] else [.newline newline] := by
  have none : (block own.indentation newline (comments text)).keptLines = [] := by
    have all : (comments text).filter (fun comment => !comment.isDocumentation) = [] :=
      List.filter_eq_nil_iff.mpr fun comment member => by
        simp [isDocumentation_of_mem_comments member]
    rw [keptLines_block fun comment => isComment_of_mem_comments, all]
    rfl
  have first : Trivia.keptLines [.newline newline] = [.newline newline] :=
    Trivia.keptLines_of_undocumented (Trivia.endsLine_newline newline)
      (List.forall_mem_singleton.mpr rfl)
  unfold inserted
  split
  · rename_i empty
    rw [if_pos (.inl empty)]
    rfl
  · rename_i some
    split
    · rename_i starts
      rw [if_pos (.inr starts)]
      exact none
    · rename_i inside
      rw [if_neg (not_or.mpr ⟨some, inside⟩),
        Trivia.keptLines_append (Trivia.endsLine_newline newline), first, none, List.append_nil]

/-- What is left of trivia after documentation is set is what was left of it before. -/
theorem keptLines_setDocumentation :
    (setDocumentation leading text newline startsLine).keptLines =
      leading.keptLines ++
        if (comments text).isEmpty ∨ startsLine then [] else [.newline newline] := by
  rw [setDocumentation_eq, Trivia.keptLines_append leading.endsLine_keptLines,
    Trivia.keptLines_append (endsLine_inserted _), keptLines_inserted,
    Trivia.keptLines_of_unbroken leading.unbroken_keptOwn, List.append_nil,
    Trivia.keptLines_of_undocumented leading.endsLine_keptLines leading.undocumented_keptLines]

theorem keptOwn_setDocumentation :
    (setDocumentation leading text newline startsLine).keptOwn = leading.keptOwn := by
  rw [setDocumentation_eq, Trivia.keptOwn_append leading.endsLine_keptLines,
    Trivia.keptOwn_append (endsLine_inserted _),
    Trivia.keptOwn_of_unbroken leading.unbroken_keptOwn leading.undocumented_keptOwn]

/-- Documentation that is set first makes no difference. -/
theorem setDocumentation_setDocumentation {first second : Option String}
    (some : comments first ≠ []) (filled : comments second ≠ []) :
    setDocumentation (setDocumentation leading first newline startsLine) second newline true =
      setDocumentation leading second newline startsLine := by
  rw [setDocumentation_eq, keptLines_setDocumentation, keptOwn_setDocumentation,
    setDocumentation_eq]
  cases startsLine <;> simp [inserted, some, filled]

/-- Nothing is left to be taken away a second time. -/
theorem setDocumentation_of_comments_eq_nil {first second : Option String}
    {newline' : String} {startsLine' : Bool} (none : comments second = [])
    (starts : comments first = [] ∨ startsLine) :
    setDocumentation (setDocumentation leading first newline startsLine) second newline'
        startsLine' =
      setDocumentation leading second newline startsLine := by
  have kept : (comments first).isEmpty ∨ startsLine := by simpa using starts
  rw [setDocumentation_eq, keptLines_setDocumentation, keptOwn_setDocumentation,
    setDocumentation_eq, if_pos kept]
  simp [inserted, none]

section

variable {p : Piece → Bool} (blank : ∀ text, p (.whitespace text) = false)
  (line : ∀ text, p (.newline text) = false)

include blank line

theorem filter_block (comments : Trivia) (indentation : String) :
    (block indentation newline comments).filter p = comments.filter p := by
  induction comments with
  | nil => rfl
  | cons comment rest ih =>
    have own : (body indentation comment).filter p = [comment].filter p := by
      unfold body
      split
      · rfl
      · exact List.filter_cons_of_neg (by simp [blank])
    have feed : [Piece.newline newline].filter p = [] := List.filter_cons_of_neg (by simp [line])
    rw [block_cons, block_singleton, List.filter_append, List.filter_append, ih, own, feed,
      List.append_nil, ← List.filter_append, List.singleton_append]

/-- Among the comments are those that were kept, and between them those for the text. -/
theorem filter_setDocumentation :
    (setDocumentation leading text newline startsLine).filter p =
      leading.keptLines.filter p ++ ((comments text).filter p ++ leading.keptOwn.filter p) := by
  have between : (inserted text newline startsLine leading.keptOwn).filter p =
      (comments text).filter p := by
    unfold inserted
    split
    · rename_i empty
      rw [List.isEmpty_iff.mp empty]
    · split
      · exact filter_block blank line _ _
      · rw [List.filter_append, filter_block blank line,
          List.filter_cons_of_neg (by simp [line])]
        rfl
  rw [setDocumentation_eq, List.filter_append, List.filter_append, between]

end

/-- The documentation that is there afterwards is the one asked for. -/
theorem filter_isDocumentation_setDocumentation :
    (setDocumentation leading text newline startsLine).filter Piece.isDocumentation =
      comments text := by
  have none {trivia : Trivia} (h : trivia.Undocumented) :
      trivia.filter Piece.isDocumentation = [] :=
    List.filter_eq_nil_iff.mpr fun piece member => by simp [h piece member]
  rw [filter_setDocumentation (fun _ => rfl) (fun _ => rfl), none leading.undocumented_keptLines,
    none leading.undocumented_keptOwn, List.nil_append, List.append_nil]
  exact List.filter_eq_self.mpr fun piece => isDocumentation_of_mem_comments

/-- All other comments are there as before. -/
theorem filter_isPlainComment_setDocumentation :
    (setDocumentation leading text newline startsLine).filter Piece.isPlainComment =
      leading.filter Piece.isPlainComment := by
  have none : (comments text).filter Piece.isPlainComment = [] :=
    List.filter_eq_nil_iff.mpr fun piece member => by
      simp [Piece.isPlainComment_of_isDocumentation (isDocumentation_of_mem_comments member)]
  rw [filter_setDocumentation (fun _ => rfl) (fun _ => rfl), none, List.nil_append,
    ← List.filter_append]
  exact leading.filter_cleared

end Documentation

end SwiftTree
