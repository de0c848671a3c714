import Mathlib.Data.List.Sort
import Readings.Token

/-! Words as they are compared. A word without a capital letter is left as it is, and that is its lowercase
form unless it has a letter in title case: no capital, but with a small letter of its own. That there is no
third kind of letter with a small one is read off the tables, code point by code point. -/

namespace Readings

namespace Text

/-- The digraphs with one capital and the capitals with an iota beside them. -/
def titlecaseRuns : List Run :=
  [⟨0x1C5, 0x1C5, 1⟩, ⟨0x1C8, 0x1C8, 1⟩, ⟨0x1CB, 0x1CB, 1⟩, ⟨0x1F2, 0x1F2, 1⟩, ⟨0x1F88, 0x1F8F, 1⟩,
   ⟨0x1F98, 0x1F9F, 1⟩, ⟨0x1FA8, 0x1FAF, 1⟩, ⟨0x1FBC, 0x1FBC, 1⟩, ⟨0x1FCC, 0x1FCC, 1⟩,
   ⟨0x1FFC, 0x1FFC, 1⟩]

def isTitlecase (c : Char) : Bool := inRuns titlecaseRuns c.toNat

variable {runs : List Run} {code : Nat} {c : Char}

/-! ### Runs -/

theorem Run.first_le {run : Run} (covers : run.covers code = true) : run.first ≤ code := by
  simp only [Run.covers, Bool.and_eq_true, decide_eq_true_eq] at covers
  exact covers.1.1

def Run.codes (run : Run) : List Nat :=
  List.range' run.first ((run.last - run.first) / run.step + 1) run.step

theorem Run.mem_codes {run : Run} (covers : run.covers code = true) : code ∈ run.codes := by
  simp only [Run.covers, Bool.and_eq_true, decide_eq_true_eq, beq_iff_eq] at covers
  obtain ⟨⟨first, last⟩, steps⟩ := covers
  refine List.mem_range'.mpr ⟨(code - run.first) / run.step, ?_, ?_⟩
  · exact Nat.lt_succ_of_le (Nat.div_le_div_right (Nat.sub_le_sub_right last _))
  · rw [Nat.mul_div_cancel' (Nat.dvd_of_mod_eq_zero steps), Nat.add_sub_cancel' first]

theorem inRuns_iff (ascending : runs.Pairwise fun run next => run.first ≤ next.first) :
    inRuns runs code = true ↔ ∃ run ∈ runs, run.covers code = true := by
  induction runs with
  | nil => simp [inRuns]
  | cons run runs ih =>
    obtain ⟨least, rest⟩ := List.pairwise_cons.mp ascending
    simp only [inRuns, Bool.and_eq_true, Bool.or_eq_true, decide_eq_true_eq, ih rest,
      List.exists_mem_cons_iff, and_iff_right_iff_imp]
    rintro (covers | ⟨next, member, covers⟩)
    · exact Run.first_le covers
    · exact Nat.le_trans (least next member) (Run.first_le covers)

def allCovered : List Nat → List Run → Bool
  | [], _ => true
  | code :: codes, runs =>
    match runs.dropWhile (·.last < code) with
    | [] => false
    | run :: rest => run.covers code && allCovered codes (run :: rest)

theorem exists_covers {codes : List Nat} (all : allCovered codes runs = true) (member : code ∈ codes) :
    ∃ run ∈ runs, run.covers code = true := by
  induction codes generalizing runs with
  | nil => cases member
  | cons first codes ih =>
    rw [allCovered] at all
    split at all
    next => cases all
    next run rest near =>
      have inside : ∀ other ∈ run :: rest, other ∈ runs := fun other member =>
        (List.dropWhile_sublist _).subset (near ▸ member)
      simp only [Bool.and_eq_true] at all
      rcases List.mem_cons.mp member with rfl | member
      · exact ⟨run, inside run List.mem_cons_self, all.1⟩
      · obtain ⟨other, listed, covers⟩ := ih all.2 member
        exact ⟨other, inside other listed, covers⟩

/-! ### Letters -/

theorem isUpper_iff : isUpper c = true ↔ ∃ run ∈ upperRuns, run.covers c.toNat = true :=
  inRuns_iff (List.isChain_iff_pairwise.mp (by decide +kernel))

theorem isTitlecase_iff : isTitlecase c = true ↔ ∃ run ∈ titlecaseRuns, run.covers c.toNat = true :=
  inRuns_iff (List.isChain_iff_pairwise.mp (by decide +kernel))

theorem lowerShift_eq_zero {shifts : List (Run × Int)}
    (outside : ∀ entry ∈ shifts, entry.1.covers code = false) : lowerShift shifts code = 0 := by
  induction shifts with
  | nil => rfl
  | cons entry shifts ih =>
    obtain ⟨first, others⟩ := List.forall_mem_cons.mp outside
    simp only [lowerShift, first, Bool.false_eq_true, if_false, ih others, ite_self]

/-- A letter with a small letter of its own is a capital or in title case. -/
theorem lowerSimple_of_other (noCapital : isUpper c = false) (noTitle : isTitlecase c = false) :
    lowerSimple c = c := by
  have tabulated : allCovered (lowerShifts.flatMap (·.1.codes))
      ((titlecaseRuns ++ upperRuns).insertionSort fun run next => run.first ≤ next.first) = true := by
    decide +kernel
  have none : lowerShift lowerShifts c.toNat = 0 := by
    apply lowerShift_eq_zero
    intro entry member
    by_contra covers
    have listed : c.toNat ∈ lowerShifts.flatMap (·.1.codes) :=
      List.mem_flatMap.mpr ⟨entry, member, Run.mem_codes (by simpa using covers)⟩
    obtain ⟨run, either, covers⟩ := exists_covers tabulated listed
    rcases List.mem_append.mp ((List.perm_insertionSort _ _).mem_iff.mp either) with title | capital
    · exact absurd (isTitlecase_iff.mpr ⟨run, title, covers⟩) (by simp [noTitle])
    · exact absurd (isUpper_iff.mpr ⟨run, capital, covers⟩) (by simp [noCapital])
  simp [lowerSimple, none]

theorem lowerSimple_ne_of_titlecase (title : isTitlecase c = true) : lowerSimple c ≠ c := by
  have each : ∀ code ∈ titlecaseRuns.flatMap Run.codes, lowerSimple (.ofNat code) ≠ .ofNat code := by
    decide +kernel
  obtain ⟨run, member, covers⟩ := isTitlecase_iff.mp title
  have changed := each c.toNat (List.mem_flatMap.mpr ⟨run, member, Run.mem_codes covers⟩)
  rwa [Char.ofNat_toNat] at changed

/-- Only capitals are lowercased in view of what stands around them, or as two characters. -/
theorem lowerFrom_of_noCapital {text : List Char} (noCapital : ∀ c ∈ text, isUpper c = false)
    (before : List Char) : lowerFrom before text = text.map lowerSimple := by
  induction text generalizing before with
  | nil => rfl
  | cons c text ih =>
    obtain ⟨first, others⟩ := List.forall_mem_cons.mp noCapital
    have noSigma : c ≠ capitalSigma := by
      rintro rfl
      exact absurd first (by decide +kernel)
    have noDotted : c ≠ dottedCapitalI := by
      rintro rfl
      exact absurd first (by decide +kernel)
    simp [lowerFrom, noSigma, noDotted, ih others]

theorem lower_eq_self_iff {text : List Char} (noCapital : ∀ c ∈ text, isUpper c = false) :
    lower text = text ↔ ∀ c ∈ text, isTitlecase c = false := by
  have unchanged : ∀ c ∈ text, lowerSimple c = c ↔ isTitlecase c = false := by
    intro c member
    refine ⟨fun same => ?_, lowerSimple_of_other (noCapital c member)⟩
    by_contra title
    exact lowerSimple_ne_of_titlecase (by simpa using title) same
  have each : text.map lowerSimple = text.map id ↔ ∀ c ∈ text, lowerSimple c = id c :=
    List.map_inj_left
  rw [List.map_id] at each
  rw [lower, lowerFrom_of_noCapital noCapital, each]
  exact forall₂_congr unchanged

end Text

/-- A word is lowercased as a whole if it has a capital, and otherwise left as it is. That is its lowercase
form as well, unless it has no capital but a letter in title case. -/
theorem normalize_exact (text : String) :
    (normalize text = String.ofList (Text.lower (Text.trimChars text.toList)) ↔
      (∃ c ∈ Text.trimChars text.toList, Text.isUpper c = true) ∨
        ∀ c ∈ Text.trimChars text.toList, Text.isTitlecase c = false) ∧
      ((∀ c ∈ Text.trimChars text.toList, Text.isUpper c = false) →
        normalize text = String.ofList (Text.trimChars text.toList)) := by
  by_cases capital : ∃ c ∈ Text.trimChars text.toList, Text.isUpper c = true
  · have lowered : normalize text = String.ofList (Text.lower (Text.trimChars text.toList)) :=
      congrArg String.ofList (if_pos (List.any_eq_true.mpr capital))
    refine ⟨iff_of_true lowered (.inl capital), fun none => ?_⟩
    obtain ⟨c, member, upper⟩ := capital
    exact absurd (none c member) (by simp [upper])
  · have none : ∀ c ∈ Text.trimChars text.toList, Text.isUpper c = false := by simpa using capital
    have kept : normalize text = String.ofList (Text.trimChars text.toList) :=
      congrArg String.ofList (if_neg (fun any => capital (List.any_eq_true.mp any)))
    refine ⟨?_, fun _ => kept⟩
    rw [kept, String.ofList_inj, eq_comm, Text.lower_eq_self_iff none]
    exact (or_iff_right capital).symm

/-- A digraph in title case has a small letter and is left as it is. -/
theorem titlecaseDigraph_kept :
    normalize "ǅ" = "ǅ" ∧ String.ofList (Text.lower (Text.trimChars "ǅ".toList)) = "ǆ" ∧
      normalize "ǅ" ≠ String.ofList (Text.lower (Text.trimChars "ǅ".toList)) := by
  decide +kernel

end Readings
