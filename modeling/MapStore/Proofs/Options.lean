/-
MapStore.Proofs.Options — a set-up is told by the last option of each key.

Options are read from left to right into one set-up. Whether an option can be
read at all depends on it alone (`Unreadable`), and so does what is said of it
(`Complaint`). So the options fail just if one of them cannot be read, and the
first of those is complained of, although a later option of the same key may be
right and would have replaced it.

If all can be read, each setting has the value of the last option with its key,
and the options for the maps are the last ones of all other keys (`Describes`).
The options of one key therefore count in their order, and how options of
different keys are mixed does not matter.
-/
import Mathlib.Data.List.Induction
import MapStore.Config
import MapStore.Proofs.Listing

namespace MapStore.Config

open Text.Numeral (Denotes parseNat parseNat_eq_ok maxU32 maxU64)

/-! ## Single values -/

/-- The text is a number from 0 to the limit, between blanks. -/
def IsNumber (limit : Nat) (value : String) (n : Nat) : Prop :=
  Denotes (Text.trim value).toList n ∧ n ≤ limit

/-- The text is the name of the policy, in letters of any case. -/
def IsPolicy (value : String) : RecoveryPolicy → Prop
  | .abort => Text.asciiLower value = "abort"
  | .skip => Text.asciiLower value = "skip"

/-- The keys of numbers, each with the largest number that it takes. -/
def numberLimits : List (String × Nat) :=
  [("backgroundInterval", maxU64), ("adaptiveThreshold", maxU32), ("mergeWorkers", maxU64)]

/-- The option has a value that its key does not take. -/
inductive Unreadable : String × String → Prop
  | number {key value : String} {limit : Nat} (numeric : (key, limit) ∈ numberLimits)
    (none : ∀ n, ¬ IsNumber limit value n) : Unreadable (key, value)
  | policy {value : String} (none : ∀ policy, ¬ IsPolicy value policy) :
    Unreadable ("recoveryPolicy", value)

/-- What is said of such an option. -/
inductive Complaint : String × String → StoreError → Prop
  | number {key value : String} {limit : Nat} {cause : Text.Numeral.Error}
    (numeric : (key, limit) ∈ numberLimits)
    (refused : parseNat limit (Text.trim value) = .error cause) :
    Complaint (key, value)
      (.config ("option " ++ key ++ "=" ++ Text.quote value ++ ": " ++ cause.message))
  | policy {value : String} (none : ∀ policy, ¬ IsPolicy value policy) :
    Complaint ("recoveryPolicy", value)
      (.config ("unknown recovery policy " ++ Text.quote (Text.asciiLower value) ++
        " (expected abort or skip)"))

variable {pairs pairs' before after : List (String × String)} {pair : String × String}
  {key value : String} {limit n : Nat} {policy : RecoveryPolicy} {c c' : Config}
  {fault : StoreError}

/-- The reader of numbers takes just the numbers in its range. -/
theorem readNumber_eq_ok : readNumber limit key value = .ok n ↔ IsNumber limit value n := by
  rw [IsNumber, ← parseNat_eq_ok, readNumber]
  cases parseNat limit (Text.trim value) <;> simp [Except.mapError]

theorem readNumber_refused {cause : Text.Numeral.Error}
    (refused : parseNat limit (Text.trim value) = .error cause) :
    readNumber limit key value =
      .error (.config ("option " ++ key ++ "=" ++ Text.quote value ++ ": " ++ cause.message)) := by
  rw [readNumber, refused]
  rfl

/-- The reader of policies takes just their names. -/
theorem readPolicy_of_isPolicy (is : IsPolicy value policy) : readPolicy value = .ok policy := by
  cases policy with
  | abort =>
    have lower : Text.asciiLower value = "abort" := is
    simp [readPolicy, lower]
  | skip =>
    have lower : Text.asciiLower value = "skip" := is
    simp [readPolicy, lower]

theorem readPolicy_refused (none : ∀ policy, ¬ IsPolicy value policy) :
    readPolicy value =
      .error (.config ("unknown recovery policy " ++ Text.quote (Text.asciiLower value) ++
        " (expected abort or skip)")) := by
  unfold readPolicy
  split
  · rename_i abort
    exact absurd abort (none .abort)
  · rename_i skip
    exact absurd skip (none .skip)
  · rfl

/-- What cannot be read is complained of. -/
theorem Unreadable.complaint (h : Unreadable pair) : ∃ fault, Complaint pair fault := by
  cases h with
  | @number key value limit numeric none =>
    cases read : parseNat limit (Text.trim value) with
    | ok n => exact absurd (parseNat_eq_ok.1 read) (none n)
    | error cause => exact ⟨_, .number numeric read⟩
  | policy none => exact ⟨_, .policy none⟩

/-- A number that can be read. -/
theorem number_of_readable (readable : ¬ Unreadable (key, value))
    (numeric : (key, limit) ∈ numberLimits) :
    ∃ n, readNumber limit key value = .ok n ∧ IsNumber limit value n := by
  by_contra none
  refine readable (.number numeric ?_)
  intro n is
  exact none ⟨n, readNumber_eq_ok.2 is, is⟩

/-- A policy that can be read. -/
theorem policy_of_readable (readable : ¬ Unreadable ("recoveryPolicy", value)) :
    ∃ policy, readPolicy value = .ok policy ∧ IsPolicy value policy := by
  by_contra none
  refine readable (.policy ?_)
  intro policy is
  exact none ⟨policy, readPolicy_of_isPolicy is, is⟩

/-! ## Set-ups -/

/-- The value of the last option with the key. -/
def last? (pairs : List (String × String)) (key : String) : Option String :=
  SortedTable.last? compare pairs key

/-- The setting is what the last option with the key says, or the default if there
is no such option. -/
def Tells {α : Type} (pairs : List (String × String)) (key : String) (means : String → α → Prop)
    (standard setting : α) : Prop :=
  match last? pairs key with
  | some value => means value setting
  | none => setting = standard

/-- The keys of the settings. Options with other keys are for the maps. -/
def settingKeys : List String :=
  ["inMemory", "storageName", "recoveryPolicy", "backgroundInterval", "adaptiveThreshold",
    "mergeWorkers"]

/-- The set-up is what the last options say. -/
structure Describes (pairs : List (String × String)) (c : Config) : Prop where
  inMemory : c.inMemory = true ↔ "inMemory" ∈ pairs.map (·.1)
  storageName : c.storageName = last? pairs "storageName"
  recoveryPolicy : Tells pairs "recoveryPolicy" IsPolicy .abort c.recoveryPolicy
  backgroundInterval : Tells pairs "backgroundInterval" (IsNumber maxU64) 1000 c.backgroundInterval
  adaptiveThreshold : Tells pairs "adaptiveThreshold" (IsNumber maxU32) 50 c.adaptiveThreshold
  mergeWorkers : Tells pairs "mergeWorkers" (IsNumber maxU64) 0 c.mergeWorkers
  ordered : c.options.order = compare
  options : ∀ key, c.options.get? key = if key ∈ settingKeys then none else last? pairs key

@[simp] theorem last?_concat (pairs : List (String × String)) (other value key : String) :
    last? (pairs ++ [(other, value)]) key =
      if other = key then some value else last? pairs key := by
  rw [last?, SortedTable.last?_append, SortedTable.last?_singleton]
  simp only [Std.LawfulEqCmp.compare_eq_iff_eq]
  split <;> rfl

@[simp] theorem tells_concat {α : Type} {means : String → α → Prop} {standard setting : α}
    (pairs : List (String × String)) (other value key : String) :
    Tells (pairs ++ [(other, value)]) key means standard setting ↔
      if other = key then means value setting else Tells pairs key means standard setting := by
  rw [Tells, last?_concat]
  by_cases own : other = key
  · simp [own]
  · simp [own, Tells]

theorem describes_default : Describes [] default where
  inMemory := by simp [default]
  storageName := rfl
  recoveryPolicy := rfl
  backgroundInterval := rfl
  adaptiveThreshold := rfl
  mergeWorkers := rfl
  ordered := rfl
  options key := by
    have none : last? [] key = none := rfl
    simp [default, none]

/-- A setting's option is not one for the maps. -/
theorem passed_concat {other : String} (own : other ∈ settingKeys) (value key : String) :
    (if key ∈ settingKeys then none else last? (pairs ++ [(other, value)]) key) =
      if key ∈ settingKeys then none else last? pairs key := by
  split
  · rfl
  · rename_i foreign
    have ne : other ≠ key := by
      rintro rfl
      exact foreign own
    rw [last?_concat, if_neg ne]

/-- One more option that can be read. -/
theorem Describes.concat (h : Describes pairs c) (readable : ¬ Unreadable pair) :
    ∃ c', c.withPair pair = .ok c' ∧ Describes (pairs ++ [pair]) c' := by
  have lawful : Std.TransCmp c.options.order := h.ordered ▸ inferInstance
  obtain ⟨inMemory, storageName, policy, interval, threshold, workers, ordered, options⟩ := h
  have passed : ∀ other ∈ settingKeys, ∀ value key, c.options.get? key =
      if key ∈ settingKeys then none else last? (pairs ++ [(other, value)]) key :=
    fun other own value key => (options key).trans (passed_concat own value key).symm
  unfold withPair
  split
  case h_7 other value notMemory notStorage notInterval notThreshold notWorkers notPolicy =>
    -- an option for the maps
    simp only [imp_false] at notMemory notStorage notInterval notThreshold notWorkers notPolicy
    have foreign : other ∉ settingKeys := by simp [settingKeys, *]
    have notMemory' : "inMemory" ≠ other := Ne.symm notMemory
    refine ⟨_, rfl, ?_, ?_, ?_, ?_, ?_, ?_, ordered, ?_⟩
    case refine_7 =>
      intro key
      rw [withOption, SortedTable.get?_insert, ordered, options, last?_concat]
      by_cases same : other = key
      · subst same
        simp [foreign]
      · simp [same]
    all_goals simp [withOption, *]
  -- the value of a setting is read first
  case' h_3 value =>
    have numeric : ("backgroundInterval", maxU64) ∈ numberLimits := by simp [numberLimits]
    obtain ⟨n, read, is⟩ := number_of_readable readable numeric
    rw [read]
  case' h_4 value =>
    have numeric : ("adaptiveThreshold", maxU32) ∈ numberLimits := by simp [numberLimits]
    obtain ⟨n, read, is⟩ := number_of_readable readable numeric
    rw [read]
  case' h_5 value =>
    have numeric : ("mergeWorkers", maxU64) ∈ numberLimits := by simp [numberLimits]
    obtain ⟨n, read, is⟩ := number_of_readable readable numeric
    rw [read]
  case' h_6 value =>
    obtain ⟨policy, read, is⟩ := policy_of_readable readable
    rw [read]
  all_goals
    refine ⟨_, rfl, ?_, ?_, ?_, ?_, ?_, ?_, ordered, passed _ (by simp [settingKeys]) _⟩ <;>
      simp [*]

/-! ## All options -/

theorem ofOptions_concat (pairs : List (String × String)) (pair : String × String) :
    ofOptions (pairs ++ [pair]) = (ofOptions pairs).bind (·.withPair pair) := by
  rw [ofOptions, List.foldlM_append]
  show (ofOptions pairs).bind (fun c => List.foldlM withPair c [pair]) = _
  simp

/-- Options that can be read are told by the last ones. -/
theorem describes_of_readable (readable : ∀ pair ∈ pairs, ¬ Unreadable pair) :
    ∃ c, ofOptions pairs = .ok c ∧ Describes pairs c := by
  induction pairs using List.reverseRecOn with
  | nil => exact ⟨default, rfl, describes_default⟩
  | append_singleton pairs pair ih =>
    obtain ⟨c, taken, describes⟩ := ih fun p mem => readable p (by simp [mem])
    obtain ⟨c', step, describes'⟩ := describes.concat (readable pair (by simp))
    refine ⟨c', ?_, describes'⟩
    rw [ofOptions_concat, taken]
    exact step

/-- What is said of an option does not depend on the set-up that it meets. -/
theorem withPair_refused (complaint : Complaint pair fault) (c : Config) :
    c.withPair pair = .error fault := by
  cases complaint with
  | @number key value limit cause numeric refused =>
    have read : readNumber limit key value = .error _ := readNumber_refused refused
    simp only [numberLimits, List.mem_cons, Prod.mk.injEq, List.not_mem_nil, or_false] at numeric
    rcases numeric with ⟨rfl, rfl⟩ | ⟨rfl, rfl⟩ | ⟨rfl, rfl⟩
    · rw [withPair, read]
      rfl
    · rw [withPair, read]
      rfl
    · rw [withPair, read]
      rfl
  | policy none =>
    rw [withPair, readPolicy_refused none]
    rfl

/-- The first option that cannot be read is complained of, whatever comes after. -/
theorem refused_at_first (readable : ∀ p ∈ before, ¬ Unreadable p)
    (complaint : Complaint pair fault) : ofOptions (before ++ pair :: after) = .error fault := by
  obtain ⟨c, taken, -⟩ := describes_of_readable readable
  rw [ofOptions] at taken
  rw [ofOptions, List.foldlM_append, taken]
  show (c.withPair pair).bind (fun c => after.foldlM withPair c) = _
  rw [withPair_refused complaint]
  rfl

/-- If some option cannot be read, one of them is the first. -/
theorem exists_first (some : ∃ pair ∈ pairs, Unreadable pair) :
    ∃ before pair after, pairs = before ++ pair :: after ∧ (∀ p ∈ before, ¬ Unreadable p) ∧
      Unreadable pair := by
  induction pairs with
  | nil => simp at some
  | cons first rest ih =>
    by_cases now : Unreadable first
    · exact ⟨[], first, rest, rfl, by simp, now⟩
    · have later : ∃ pair ∈ rest, Unreadable pair := by simpa [now] using some
      obtain ⟨before, pair, after, rfl, readable, unreadable⟩ := ih later
      exact ⟨first :: before, pair, after, rfl, by simpa [now] using readable, unreadable⟩

/-- Options fail just if one of them cannot be read. -/
theorem ofOptions_fails_iff :
    (∃ fault, ofOptions pairs = .error fault) ↔ ∃ pair ∈ pairs, Unreadable pair := by
  constructor
  · rintro ⟨fault, failed⟩
    by_contra none
    have readable : ∀ pair ∈ pairs, ¬ Unreadable pair := by simpa using none
    obtain ⟨c, taken, -⟩ := describes_of_readable readable
    rw [taken] at failed
    cases failed
  · intro some
    obtain ⟨before, pair, after, rfl, readable, unreadable⟩ := exists_first some
    obtain ⟨fault, complaint⟩ := unreadable.complaint
    exact ⟨fault, refused_at_first readable complaint⟩

theorem describes_of_ofOptions (taken : ofOptions pairs = .ok c) : Describes pairs c := by
  have readable : ∀ pair ∈ pairs, ¬ Unreadable pair := by
    intro pair mem unreadable
    obtain ⟨fault, failed⟩ := ofOptions_fails_iff.2 ⟨pair, mem, unreadable⟩
    rw [taken] at failed
    cases failed
  obtain ⟨c', taken', describes⟩ := describes_of_readable readable
  rw [taken] at taken'
  cases taken'
  exact describes

/-! ## Orders of options -/

/-- The options of each key are the same in both lists, in the same order; those of
different keys may be mixed otherwise. -/
def Reordered (pairs pairs' : List (String × String)) : Prop :=
  ∀ key, pairs'.filter (·.1 = key) = pairs.filter (·.1 = key)

theorem Reordered.mem (h : Reordered pairs pairs') : pair ∈ pairs' ↔ pair ∈ pairs := by
  have own := congrArg (pair ∈ ·) (h pair.1)
  simpa using own

theorem last?_eq (pairs : List (String × String)) (key : String) :
    last? pairs key = ((pairs.filter (·.1 = key)).getLast?).map (·.2) := by
  have own : ∀ pair : String × String, (compare pair.1 key == .eq) = decide (pair.1 = key) := by
    intro pair
    rw [Bool.eq_iff_iff, beq_iff_eq, decide_eq_true_iff, Std.LawfulEqCmp.compare_eq_iff_eq]
  simp only [last?, SortedTable.last?, own]
  rw [← List.head?_filter, List.filter_reverse, List.head?_reverse]

theorem Tells.congr {α : Type} {means : String → α → Prop} {standard setting : α}
    (same : last? pairs' key = last? pairs key) (h : Tells pairs key means standard setting) :
    Tells pairs' key means standard setting := by
  rw [Tells, same]
  exact h

/-- What options say is not changed by a reordering that keeps those of each key in
their order. -/
theorem Reordered.describes (h : Reordered pairs pairs') (describes : Describes pairs c) :
    Describes pairs' c := by
  have same : ∀ key, last? pairs' key = last? pairs key := by
    intro key
    rw [last?_eq, last?_eq, h key]
  exact
    { inMemory := by rw [describes.inMemory]; simp only [List.mem_map, h.mem]
      storageName := describes.storageName.trans (same _).symm
      recoveryPolicy := describes.recoveryPolicy.congr (same _)
      backgroundInterval := describes.backgroundInterval.congr (same _)
      adaptiveThreshold := describes.adaptiveThreshold.congr (same _)
      mergeWorkers := describes.mergeWorkers.congr (same _)
      ordered := describes.ordered
      options := by
        intro key
        rw [same]
        exact describes.options key }

theorem Tells.unique {α : Type} {means : String → α → Prop} {standard x y : α}
    (single : ∀ value x y, means value x → means value y → x = y)
    (h : Tells pairs key means standard x) (h' : Tells pairs key means standard y) : x = y := by
  rw [Tells] at h h'
  cases last : last? pairs key with
  | none =>
    rw [last] at h h'
    exact h.trans h'.symm
  | some value =>
    rw [last] at h h'
    exact single value x y h h'

/-- Options describe one set-up. -/
theorem Describes.unique (h : Describes pairs c) (h' : Describes pairs c') :
    c' = { c with options := c'.options } ∧ c.options.Same c'.options := by
  have number : ∀ limit value n n', IsNumber limit value n → IsNumber limit value n' → n = n' := by
    intro limit value n n' is is'
    have read : readNumber limit "" value = .ok n := readNumber_eq_ok.2 is
    rw [readNumber_eq_ok.2 is'] at read
    exact (Except.ok.inj read).symm
  have policy : ∀ value p p', IsPolicy value p → IsPolicy value p' → p = p' := by
    intro value p p' is is'
    have read := readPolicy_of_isPolicy is
    rw [readPolicy_of_isPolicy is'] at read
    exact (Except.ok.inj read).symm
  constructor
  · have memory : c'.inMemory = c.inMemory := by
      rw [Bool.eq_iff_iff, h'.inMemory, h.inMemory]
    have storage : c'.storageName = c.storageName := h'.storageName.trans h.storageName.symm
    have recovery := Tells.unique policy h'.recoveryPolicy h.recoveryPolicy
    have interval := Tells.unique (number _) h'.backgroundInterval h.backgroundInterval
    have threshold := Tells.unique (number _) h'.adaptiveThreshold h.adaptiveThreshold
    have workers := Tells.unique (number _) h'.mergeWorkers h.mergeWorkers
    cases c
    cases c'
    simp_all
  · have lawful : Std.TransCmp c.options.order := h.ordered ▸ inferInstance
    have lawful' : Std.LawfulEqCmp c.options.order := h.ordered ▸ inferInstance
    refine SortedTable.same_of_get? (h.ordered.trans h'.ordered.symm) ?_
    intro key
    rw [h.options, h'.options]

/-! ## Last options count -/

/-- **The last option of each key counts.** Options fail just if some number, between
blanks, is not written in digits, with or without a plus sign, or is out of its
range, or some recovery policy is neither of the two; and then the error is what
is said of the first such option. Otherwise every setting is what the last option
with its key says, or the default if there is none, the engine is kept in memory
just if the key for this occurs, and each other key has its last value among the
options for the maps.

So two orders in which the options of each key stand alike either both fail or give
the same set-up. -/
theorem last_option_counts (pairs : List (String × String)) :
    ((∃ fault, ofOptions pairs = .error fault) ↔ ∃ pair ∈ pairs, Unreadable pair) ∧
    (∀ before pair after, pairs = before ++ pair :: after → (∀ p ∈ before, ¬ Unreadable p) →
      Unreadable pair → ∃ fault, Complaint pair fault ∧ ofOptions pairs = .error fault) ∧
    (∀ c, ofOptions pairs = .ok c → Describes pairs c) ∧
    (∀ pairs', Reordered pairs pairs' →
      (∃ fault fault', ofOptions pairs = .error fault ∧ ofOptions pairs' = .error fault') ∨
      ∃ c c', ofOptions pairs = .ok c ∧ ofOptions pairs' = .ok c' ∧
        c' = { c with options := c'.options } ∧ c.options.Same c'.options) := by
  refine ⟨ofOptions_fails_iff, ?_, fun _ => describes_of_ofOptions, ?_⟩
  · rintro before pair after rfl readable unreadable
    obtain ⟨fault, complaint⟩ := unreadable.complaint
    exact ⟨fault, complaint, refused_at_first readable complaint⟩
  · intro pairs' reordered
    by_cases some : ∃ pair ∈ pairs, Unreadable pair
    · have some' : ∃ pair ∈ pairs', Unreadable pair := by simpa only [reordered.mem] using some
      obtain ⟨fault, failed⟩ := ofOptions_fails_iff.2 some
      obtain ⟨fault', failed'⟩ := ofOptions_fails_iff.2 some'
      exact .inl ⟨fault, fault', failed, failed'⟩
    · have readable : ∀ pair ∈ pairs, ¬ Unreadable pair := by simpa using some
      have readable' : ∀ pair ∈ pairs', ¬ Unreadable pair := by
        simpa only [reordered.mem] using readable
      obtain ⟨c, taken, describes⟩ := describes_of_readable readable
      obtain ⟨c', taken', describes'⟩ := describes_of_readable readable'
      exact .inr ⟨c, c', taken, taken', (reordered.describes describes).unique describes'⟩

/-- A number is out of its range, though a later one with its key is not, and a
policy after it is none. -/
def spoilt : List (String × String) :=
  [("x", "1"), ("adaptiveThreshold", "4294967296"), ("recoveryPolicy", "none"),
    ("adaptiveThreshold", "5")]

/-- Keys that occur twice, blanks, a plus sign and capitals. -/
def mixed : List (String × String) :=
  [("mergeWorkers", "\t+3 "), ("x", "1"), ("recoveryPolicy", "SKIP"), ("x", "2"),
    ("inMemory", "no"), ("mergeWorkers", "4")]

/-- The same in another order. -/
def remixed : List (String × String) :=
  [("inMemory", "no"), ("x", "1"), ("mergeWorkers", "\t+3 "), ("mergeWorkers", "4"), ("x", "2"),
    ("recoveryPolicy", "SKIP")]

/-- The number that is out of range is complained of; where all can be read, the
last ones count in either order. -/
theorem spoilt_fails_mixed_counts :
    ((∀ p ∈ [("x", "1")], ¬ Unreadable p) ∧ Unreadable ("adaptiveThreshold", "4294967296") ∧
      ∃ fault, Complaint ("adaptiveThreshold", "4294967296") fault ∧
        ofOptions spoilt = .error fault) ∧
    (Reordered mixed remixed ∧ ∃ c c', ofOptions mixed = .ok c ∧ ofOptions remixed = .ok c' ∧
      c' = { c with options := c'.options } ∧ c.options.Same c'.options ∧
      Describes mixed c ∧ c.mergeWorkers = 4) := by
  have refused : parseNat maxU32 (Text.trim "4294967296") = .error .tooLarge := rfl
  have unreadable : Unreadable ("adaptiveThreshold", "4294967296") := by
    have numeric : ("adaptiveThreshold", maxU32) ∈ numberLimits := by simp [numberLimits]
    refine .number numeric ?_
    intro n is
    rw [IsNumber, ← parseNat_eq_ok, refused] at is
    cases is
  have readable : ∀ p ∈ [("x", "1")], ¬ Unreadable p := by
    intro p mem bad
    obtain ⟨fault, failed⟩ := (last_option_counts [("x", "1")]).1.2 ⟨p, mem, bad⟩
    cases failed
  have reordered : Reordered mixed remixed := by
    intro key
    by_cases workers : "mergeWorkers" = key
    · subst workers
      rfl
    by_cases own : "x" = key
    · subst own
      rfl
    by_cases policy : "recoveryPolicy" = key
    · subst policy
      rfl
    simp [mixed, remixed, workers, own, policy, List.filter_cons]
  obtain ⟨-, first, -, -⟩ := last_option_counts spoilt
  obtain ⟨-, -, describes, orders⟩ := last_option_counts mixed
  have taken : (ofOptions mixed).isOk = true := by decide +kernel
  refine ⟨⟨readable, unreadable, first _ _ _ rfl readable unreadable⟩, reordered, ?_⟩
  obtain ⟨fault, -, failed, -⟩ | ⟨c, c', taken, taken', same, options⟩ := orders remixed reordered
  · rw [failed] at taken
    cases taken
  · have workers : IsNumber maxU64 "4" c.mergeWorkers := (describes c taken).mergeWorkers
    rw [IsNumber, ← parseNat_eq_ok] at workers
    have read : parseNat maxU64 (Text.trim "4") = .ok 4 := rfl
    rw [read] at workers
    have four : c.mergeWorkers = 4 := (Except.ok.inj workers).symm
    exact ⟨c, c', taken, taken', same, options, describes c taken, four⟩

end MapStore.Config
