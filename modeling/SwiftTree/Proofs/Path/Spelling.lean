import SwiftTree.Path

/-!
# The spelling of paths

A path is spelled as runs of digits with single dots between them. A run may begin with any number
of zeros, as long as the number it denotes is one that a path can hold. Reading accepts these texts
and no others. A number is written without leading zeros, so the written form of a path is the one
spelling of it in which no run begins with a zero.
-/

namespace SwiftTree

namespace Text

/-- A digit is how the number that it denotes is written. -/
theorem digitChar_of_isDigit {c : Char} (h : c.isDigit) :
    c.toNat - '0'.toNat < 10 ∧ (c.toNat - '0'.toNat).digitChar = c := by
  have range : 48 ≤ c.toNat ∧ c.toNat ≤ 57 := by
    simpa [Char.isDigit, UInt32.le_iff_toNat_le] using h
  have small : c.toNat - '0'.toNat < 10 := by
    change c.toNat - 48 < 10
    omega
  refine ⟨small, Char.toNat_inj.mp ?_⟩
  rw [Nat.toNat_digitChar_of_lt_ten small]
  change 48 + (c.toNat - 48) = c.toNat
  omega

/-- Digits behind a number other than zero are the last digits of the number they make with it. -/
theorem toDigits_ofDigitChars {cs : List Char} (digits : ∀ c ∈ cs, c.isDigit) {before : Nat}
    (positive : 0 < before) :
    Nat.toDigits 10 (Nat.ofDigitChars 10 cs before) = Nat.toDigits 10 before ++ cs := by
  induction cs generalizing before with
  | nil => rw [Nat.ofDigitChars_nil, List.append_nil]
  | cons c cs ih =>
    obtain ⟨digit, later⟩ := List.forall_mem_cons.mp digits
    obtain ⟨small, written⟩ := digitChar_of_isDigit digit
    have joined := Nat.toDigits_append_toDigits (by decide) positive small
    rw [Nat.toDigits_of_lt_base small, written] at joined
    rw [Nat.ofDigitChars_cons, ih later (by omega), ← joined, List.append_assoc]
    rfl

theorem decimal?_eq_some_iff {cs : List Char} {number : Nat} :
    decimal? cs = some number ↔
      cs ≠ [] ∧ (∀ c ∈ cs, c.isDigit) ∧ Nat.ofDigitChars 10 cs 0 = number := by
  rw [decimal?]
  by_cases all : cs ≠ [] ∧ ∀ c ∈ cs, c.isDigit
  · have passes : (!cs.isEmpty && cs.all Char.isDigit) = true := by simpa using all
    rw [if_pos passes, Option.some.injEq]
    exact ⟨fun same => ⟨all.1, all.2, same⟩, fun h => h.2.2⟩
  · have fails : (!cs.isEmpty && cs.all Char.isDigit) = false := by simpa using all
    simp only [fails, Bool.false_eq_true, if_false, reduceCtorEq, false_iff]
    rintro ⟨filled, digits, -⟩
    exact all ⟨filled, digits⟩

end Text

namespace Path

/-- The number that a run of digits denotes. -/
def value (run : List Char) : Nat :=
  Nat.ofDigitChars 10 run 0

/-- A run of digits without the zeros in front of its first other digit. -/
def withoutZeros (run : List Char) : List Char :=
  run.dropWhile (· == '0')

/-- The run spells a number of a path. -/
structure IsSegment (run : List Char) : Prop where
  filled : run ≠ []
  digits : ∀ c ∈ run, c.isDigit
  positive : 1 ≤ value run
  bounded : value run ≤ UInt64.size - 1

theorem segment?_eq_some_iff {run : List Char} {number : Nat} :
    segment? run = some number ↔ IsSegment run ∧ value run = number := by
  have limits : limit = UInt64.size := rfl
  simp only [segment?, Option.filter_eq_some_iff, Text.decimal?_eq_some_iff, limits,
    Bool.and_eq_true, decide_eq_true_eq]
  constructor
  · rintro ⟨⟨filled, digits, rfl⟩, positive, bounded⟩
    exact ⟨⟨filled, digits, positive, Nat.le_sub_one_of_lt bounded⟩, rfl⟩
  · rintro ⟨⟨filled, digits, positive, bounded⟩, rfl⟩
    exact ⟨⟨filled, digits, rfl⟩, positive, Nat.lt_of_le_sub_one (by decide) bounded⟩

/-- Leading zeros do not matter. -/
theorem value_withoutZeros (run : List Char) : value (withoutZeros run) = value run := by
  induction run with
  | nil => rfl
  | cons c run ih =>
    by_cases zero : c = '0'
    · subst zero
      have skipped : value ('0' :: run) = value run := Nat.ofDigitChars_cons
      rw [skipped, ← ih]
      rfl
    · rw [withoutZeros, List.dropWhile_cons_of_neg (by simpa using zero)]

/-- A number is written as any run that spells it, without the leading zeros. -/
theorem IsSegment.toDigits_value {run : List Char} (h : IsSegment run) :
    Nat.toDigits 10 (value run) = withoutZeros run := by
  have positive : 0 < value (withoutZeros run) := value_withoutZeros run ▸ h.positive
  have digits : ∀ c ∈ withoutZeros run, c.isDigit :=
    fun c member => h.digits c ((List.dropWhile_sublist _).mem member)
  have first (filled : withoutZeros run ≠ []) : (withoutZeros run).head filled ≠ '0' := by
    have stops : ((withoutZeros run).head filled == '0') = false :=
      List.head_dropWhile_not (· == '0') filled
    simpa using stops
  rw [← value_withoutZeros]
  generalize withoutZeros run = rest at positive digits first ⊢
  cases rest with
  | nil => cases positive
  | cons c rest =>
    obtain ⟨digit, later⟩ := List.forall_mem_cons.mp digits
    obtain ⟨small, written⟩ := Text.digitChar_of_isDigit digit
    have nonzero : 0 < c.toNat - '0'.toNat := by
      refine Nat.pos_of_ne_zero fun zero => first (List.cons_ne_nil _ _) ?_
      rw [zero] at written
      exact written.symm
    have leads : value (c :: rest) = Nat.ofDigitChars 10 rest (c.toNat - '0'.toNat) := by
      rw [value, Nat.ofDigitChars_cons, Nat.mul_zero, Nat.zero_add]
    rw [leads, Text.toDigits_ofDigitChars later nonzero, Nat.toDigits_of_lt_base small, written]
    rfl

/-- Every number of a path is spelled by the way it is written. -/
theorem isSegment_toDigits {number : Nat} (positive : 1 ≤ number)
    (bounded : number ≤ UInt64.size - 1) : IsSegment (Nat.toDigits 10 number) := by
  have denotes : value (Nat.toDigits 10 number) = number := Nat.ofDigitChars_ten_toDigits
  refine ⟨Nat.toDigits_ne_nil, fun c => ?_, by rwa [denotes], by rwa [denotes]⟩
  exact Nat.isDigit_of_mem_toDigits (by decide) (by decide)

/-- The text is made of runs that spell numbers, with single dots between them. -/
structure Spells (runs : List (List Char)) (text : String) : Prop where
  filled : runs ≠ []
  joined : text.toList = ['.'].intercalate runs
  segments : ∀ run ∈ runs, IsSegment run

/-- No other runs make the same text. -/
theorem Spells.splitOn {runs : List (List Char)} {text : String} (h : Spells runs text) :
    text.toList.splitOn '.' = runs := by
  rw [h.joined]
  refine List.splitOn_intercalate '.' (fun run member dot => ?_) h.filled
  exact absurd ((h.segments run member).digits '.' dot) (by decide)

theorem mapM_segment?_eq_some_iff {runs : List (List Char)} {numbers : List Nat} :
    runs.mapM segment? = some numbers ↔
      (∀ run ∈ runs, IsSegment run) ∧ runs.map value = numbers := by
  induction runs generalizing numbers with
  | nil => simp
  | cons run runs ih =>
    simp only [List.mapM_cons, Option.bind_eq_bind, Option.bind_eq_some_iff, Option.pure_def,
      Option.some.injEq, segment?_eq_some_iff, ih, List.forall_mem_cons, List.map_cons]
    constructor
    · rintro ⟨_, ⟨first, rfl⟩, _, ⟨later, rfl⟩, rfl⟩
      exact ⟨⟨first, later⟩, rfl⟩
    · rintro ⟨⟨first, later⟩, rfl⟩
      exact ⟨_, ⟨first, rfl⟩, _, ⟨later, rfl⟩, rfl⟩

/-- A text is read as a path exactly if it is spelled with the numbers of the path. -/
theorem ofString?_eq_some_iff {text : String} {path : Path} :
    ofString? text = some path ↔ ∃ runs, Spells runs text ∧ path.segments = runs.map value := by
  simp only [ofString?, Option.bind_eq_some_iff, ofList?_eq_some_iff, mapM_segment?_eq_some_iff]
  constructor
  · rintro ⟨_, ⟨segments, rfl⟩, numbers⟩
    exact ⟨_, ⟨List.splitOn_ne_nil _ _, (List.intercalate_splitOn '.').symm, segments⟩,
      numbers.symm⟩
  · rintro ⟨runs, spells, numbers⟩
    refine ⟨_, ⟨?_, rfl⟩, ?_⟩
    · rw [spells.splitOn]
      exact spells.segments
    · rw [spells.splitOn, numbers]

/-- A path is written as its numbers are, with dots between them. -/
theorem toList_text (path : Path) :
    path.text.toList = ['.'].intercalate (path.segments.map (Nat.toDigits 10)) := by
  rw [text, String.toList_intercalate, List.map_map]
  congr 2
  funext number
  simp

/-- The written form of a path whose numbers are not too great is a spelling of it. -/
theorem spells_text {path : Path} (bounded : ∀ number ∈ path.segments, number ≤ UInt64.size - 1) :
    Spells (path.segments.map (Nat.toDigits 10)) path.text where
  filled := by simpa using path.nonempty
  joined := toList_text path
  segments := by
    simp only [List.forall_mem_map]
    intro number member
    have positive : number ≠ 0 := fun zero => path.positive (zero ▸ member)
    exact isSegment_toDigits (Nat.one_le_iff_ne_zero.mpr positive) (bounded number member)

end Path

/-- A text is read as a path exactly if it is made of runs of digits with single dots between them,
each of which denotes a number from 1 up to the greatest of 64 bits. The numbers of the path are the
ones that the runs denote, and the path is written as the text without the leading zeros of its
runs. The written form of a path is read as that path again, as long as its numbers have 64 bits. -/
theorem path_spelling :
    (∀ text, (∃ path, Path.ofString? text = some path) ↔ ∃ runs, Path.Spells runs text) ∧
      (∀ text path runs, Path.ofString? text = some path → Path.Spells runs text →
        path.segments = runs.map Path.value ∧
          path.text.toList = ['.'].intercalate (runs.map Path.withoutZeros)) ∧
      ∀ path : Path, Path.ofString? path.text = some path ↔
        ∀ number ∈ path.segments, number ≤ UInt64.size - 1 := by
  refine ⟨fun text => ⟨?_, ?_⟩, ?_, fun path => ⟨?_, ?_⟩⟩
  · rintro ⟨path, read⟩
    obtain ⟨runs, spells, -⟩ := Path.ofString?_eq_some_iff.mp read
    exact ⟨runs, spells⟩
  · rintro ⟨runs, spells⟩
    have positive : 0 ∉ runs.map Path.value := by
      intro zero
      obtain ⟨run, member, zero⟩ := List.mem_map.mp zero
      have := (spells.segments run member).positive
      omega
    let path : Path := ⟨runs.map Path.value, by simpa using spells.filled, positive⟩
    exact ⟨path, Path.ofString?_eq_some_iff.mpr ⟨runs, spells, rfl⟩⟩
  · intro text path runs read spells
    obtain ⟨others, same, numbers⟩ := Path.ofString?_eq_some_iff.mp read
    obtain rfl : runs = others := spells.splitOn.symm.trans same.splitOn
    refine ⟨numbers, ?_⟩
    rw [Path.toList_text, numbers, List.map_map]
    congr 1
    exact List.map_congr_left fun run member => (spells.segments run member).toDigits_value
  · intro read number member
    obtain ⟨runs, spells, numbers⟩ := Path.ofString?_eq_some_iff.mp read
    rw [numbers] at member
    obtain ⟨run, run_mem, rfl⟩ := List.mem_map.mp member
    exact (spells.segments run run_mem).bounded
  · intro bounded
    refine Path.ofString?_eq_some_iff.mpr ⟨_, Path.spells_text bounded, ?_⟩
    have same : Path.value ∘ Nat.toDigits 10 = id :=
      funext fun number => Nat.ofDigitChars_ten_toDigits
    rw [List.map_map, same, List.map_id]

/-- Leading zeros are read and not written, also in front of the greatest number. -/
theorem path_spelling_padded :
    ∃ path runs, Path.Spells runs "007.0018446744073709551615" ∧
      Path.ofString? "007.0018446744073709551615" = some path ∧
      path.segments = runs.map Path.value ∧ path.text = "7.18446744073709551615" ∧
      Path.ofString? path.text = some path := by
  let runs := ["007".toList, "0018446744073709551615".toList]
  have spells : Path.Spells runs "007.0018446744073709551615" := by
    refine ⟨List.cons_ne_nil _ _, by decide, ?_⟩
    simp only [runs, List.forall_mem_cons, List.not_mem_nil, false_implies, implies_true, and_true]
    exact ⟨⟨by decide, List.all_eq_true.mp rfl, by decide, by decide⟩,
      ⟨by decide, List.all_eq_true.mp rfl, by decide, by decide⟩⟩
  obtain ⟨path, read⟩ := (path_spelling.1 _).mpr ⟨runs, spells⟩
  obtain ⟨numbers, written⟩ := path_spelling.2.1 _ path runs read spells
  have bounded : ∀ number ∈ path.segments, number ≤ UInt64.size - 1 := by
    rw [numbers]
    decide
  refine ⟨path, runs, spells, read, numbers, ?_, (path_spelling.2.2 path).mpr bounded⟩
  rw [← String.toList_inj, written]
  decide

end SwiftTree
