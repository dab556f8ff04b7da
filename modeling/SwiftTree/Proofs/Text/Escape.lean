import SwiftTree.Text.Escape

/-!
# Escaped text has no control characters

Whatever is escaped for a message or for a quotation inside of one stands on one line: each control
character is named by characters that can be seen. A text without control characters stays as it is
when it is escaped as a message, so escaping a message twice is escaping it once.
-/

namespace SwiftTree.Text

/-- No character of a text is a control character. -/
def Plain (s : String) : Prop :=
  ∀ c ∈ s.toList, isControl c = false

instance (s : String) : Decidable (Plain s) :=
  decidable_of_iff ((s.toList.all fun c => !isControl c) = true) (by simp [Plain])

theorem Plain.append {s t : String} (first : Plain s) (second : Plain t) : Plain (s ++ t) := by
  intro c member
  rw [String.toList_append] at member
  obtain left | right := List.mem_append.mp member
  · exact first c left
  · exact second c right

/-- Texts that are joined by a separator. -/
theorem Plain.intercalate {separator : String} {texts : List String} (between : Plain separator)
    (h : ∀ s ∈ texts, Plain s) : Plain (separator.intercalate texts) := by
  induction texts with
  | nil =>
    intro c member
    simp at member
  | cons first rest ih =>
    obtain ⟨here, later⟩ := List.forall_mem_cons.mp h
    cases rest with
    | nil => simpa using here
    | cons second rest =>
      rw [String.intercalate_cons_cons]
      exact (here.append between).append (ih later)

/-- The digits in the name of a control character. -/
theorem not_isControl_of_mem_hex {c : Char} (control : isControl c = true) :
    ∀ d ∈ hex c.toNat, isControl d = false := by
  have small : c.toNat < 160 := by
    simp only [isControl, Bool.or_eq_true, decide_eq_true_eq, Bool.and_eq_true] at control
    omega
  have digits : ∀ n < 160, ((hex n).all fun d => !isControl d) = true := by decide +kernel
  simpa using digits c.toNat small

theorem not_isControl_of_mem_escapeControl (c : Char) :
    ∀ d ∈ escapeControl c, isControl d = false := by
  unfold escapeControl
  split
  · simp [isControl]
  split
  · simp [isControl]
  split
  · simp [isControl]
  split
  · rename_i control
    simp only [codePointEscape, List.forall_mem_append]
    refine ⟨⟨?_, not_isControl_of_mem_hex control⟩, ?_⟩
    · simp [isControl]
    · simp [isControl]
  · rename_i visible
    simpa using visible

theorem not_isControl_of_mem_escapeQuoted (c : Char) :
    ∀ d ∈ escapeQuoted c, isControl d = false := by
  unfold escapeQuoted
  split
  · rename_i quote
    rcases quote with rfl | rfl | rfl <;> simp [isControl]
  · exact not_isControl_of_mem_escapeControl c

theorem plain_escapeMessage (s : String) : Plain (escapeMessage s) := by
  intro d member
  rw [escapeMessage, String.toList_ofList] at member
  obtain ⟨c, -, escaped⟩ := List.mem_flatMap.mp member
  exact not_isControl_of_mem_escapeControl c d escaped

theorem plain_escapeForDisplay (s : String) : Plain (escapeForDisplay s) := by
  intro d member
  rw [escapeForDisplay, String.toList_ofList] at member
  obtain ⟨c, -, escaped⟩ := List.mem_flatMap.mp member
  exact not_isControl_of_mem_escapeQuoted c d escaped

theorem escapeControl_of_not_isControl {c : Char} (h : isControl c = false) :
    escapeControl c = [c] := by
  have other (named : Char) (control : isControl named = true) : c ≠ named := by
    rintro rfl
    rw [h] at control
    cases control
  simp [escapeControl, h, other '\n' rfl, other '\t' rfl, other '\r' rfl]

/-- There is nothing to escape in a text without control characters. -/
theorem Plain.escapeMessage_eq_self {s : String} (h : Plain s) : escapeMessage s = s := by
  have all (cs : List Char) (plain : ∀ c ∈ cs, isControl c = false) :
      cs.flatMap escapeControl = cs := by
    induction cs with
    | nil => rfl
    | cons c cs ih =>
      obtain ⟨here, later⟩ := List.forall_mem_cons.mp plain
      rw [List.flatMap_cons, escapeControl_of_not_isControl here, ih later, List.singleton_append]
  rw [escapeMessage, all s.toList h, String.ofList_toList]

end SwiftTree.Text
