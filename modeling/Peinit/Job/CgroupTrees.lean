import Peinit.Lib.Path
import Peinit.Service.Table
import Peinit.Service.Validate

/-!
# Which cgroup trees overlap

The trees of services and of submitted jobs share one directory. The alphabet of names keeps the suffix
of a generation apart from every name; it does not keep out `.`, `..` and the name of the submitted
jobs' directory.
-/

namespace Peinit

open String Char

variable {c : Char} {service : String} {gen : ℕ}

/-! ## A valid name is its own id -/

def isNameChar (c : Char) : Bool := c.isAlphanum || c ∈ ['.', '_', '-']

theorem nameChar_lt (valid : isNameChar c = true) : c.toNat < 128 := by
  unfold isNameChar isAlphanum isAlpha isUpper isLower isDigit at valid
  simp only [Bool.or_eq_true, Bool.and_eq_true, decide_eq_true_eq, List.mem_cons, List.not_mem_nil, or_false,
    UInt32.le_iff_toNat_le] at valid
  have value : c.toNat = c.val.toNat := rfl
  rcases valid with ((⟨-, high⟩ | ⟨-, high⟩) | ⟨-, high⟩) | rfl | rfl | rfl
  · have : 'Z'.val.toNat = 90 := rfl
    omega
  · have : 'z'.val.toNat = 122 := rfl
    omega
  · have : '9'.val.toNat = 57 := rfl
    omega
  all_goals decide

theorem encodeChar_eq (valid : isNameChar c = true) :
    (utf8EncodeChar c).flatMap (fun byte => if isCgroupSafe byte then [ofNat byte.toNat]
      else ['%', hexDigit (byte >>> 4), hexDigit (byte &&& 15)]) = [c] := by
  have ascii : ∀ n : Fin 128, isNameChar (ofNat n) = true →
      (utf8EncodeChar (ofNat n)).flatMap (fun byte =>
        if isCgroupSafe byte then [ofNat byte.toNat]
        else ['%', hexDigit (byte >>> 4), hexDigit (byte &&& 15)]) = [ofNat n] := by
    decide +kernel
  have same : ofNat c.toNat = c := ofNat_toNat c
  have here := ascii ⟨c.toNat, nameChar_lt valid⟩
  rw [same] at here
  exact here valid

theorem nameChars (valid : isValidServiceName service = true) :
    service.toList ≠ [] ∧ ∀ c ∈ service.toList, isNameChar c = true := by
  unfold isValidServiceName at valid
  simp only [Bool.and_eq_true, List.all_eq_true] at valid
  obtain ⟨⟨some_, -⟩, chars⟩ := valid
  refine ⟨fun none => ?_, chars⟩
  rw [toList_eq_nil_iff] at none
  rw [none] at some_
  cases some_

theorem encodeServiceCgroupId_eq (valid : isValidServiceName service = true) :
    encodeServiceCgroupId service = service := by
  have bytes : service.toUTF8.data.toList = service.toList.flatMap utf8EncodeChar := by
    rw [toUTF8_eq_toByteArray, ← utf8Encode_toList]
    unfold List.utf8Encode
    simp
  have each : ∀ c ∈ service.toList, (utf8EncodeChar c).flatMap (fun byte =>
      if isCgroupSafe byte then [ofNat byte.toNat]
      else ['%', hexDigit (byte >>> 4), hexDigit (byte &&& 15)]) = [c] :=
    fun c mem => encodeChar_eq ((nameChars valid).2 c mem)
  unfold encodeServiceCgroupId
  rw [bytes, List.flatMap_assoc, List.flatMap_congr each]
  simp

/-! ## Roots -/

/-- The last component of a service's root, as it is written. -/
def rootName (service : String) (generation : ℕ) : String :=
  if generation = 0 then service else service ++ "%gen" ++ toString generation

def peinitComponents : List (List Char) := ["sys", "fs", "cgroup", "peinit"].map String.toList

theorem serviceCgroupRootPath_eq (valid : isValidServiceName service = true) (gen : ℕ) :
    serviceCgroupRootPath service gen = "/sys/fs/cgroup/peinit" ++ "/" ++ rootName service gen := by
  unfold serviceCgroupRootPath rootName
  rw [encodeServiceCgroupId_eq valid]
  have root : "/sys/fs/cgroup/peinit/" = "/sys/fs/cgroup/peinit" ++ "/" := rfl
  split_ifs
  · rw [root]
  · rw [root, append_assoc, append_assoc, append_assoc, append_assoc, append_assoc]

theorem digit_of_mem (mem : c ∈ (toString gen).toList) : c.isDigit = true := by
  rw [Nat.toString_eq_repr, Nat.toList_repr] at mem
  exact Nat.isDigit_of_mem_toDigits (by decide) (by decide) mem

theorem not_mem_name (valid : isValidServiceName service = true)
    (foreign : isNameChar c = false) : c ∉ service.toList := by
  intro mem
  rw [(nameChars valid).2 c mem] at foreign
  cases foreign

theorem slash_not_mem_rootName (valid : isValidServiceName service = true)
    (gen : ℕ) : '/' ∉ (rootName service gen).toList := by
  have name := not_mem_name valid (c := '/') (by decide)
  unfold rootName
  split_ifs
  · exact name
  · intro mem
    simp only [toList_append, List.mem_append] at mem
    rcases mem with (inName | inSuffix) | digit
    · exact name inName
    · exact absurd inSuffix (by decide)
    · exact absurd (digit_of_mem digit) (by decide)

theorem pathComponents_root (valid : isValidServiceName service = true) (gen : ℕ) :
    pathComponents (serviceCgroupRootPath service gen) =
      resolveName peinitComponents (rootName service gen).toList := by
  rw [serviceCgroupRootPath_eq valid, pathComponents_append _ _ (slash_not_mem_rootName valid _)]
  have above : pathComponents "/sys/fs/cgroup/peinit" = peinitComponents := by decide +kernel
  rw [above]

/-- The roots that are not what they look like, and the one the submitted jobs are in. -/
def Misnamed (service : String) (generation : ℕ) : Prop :=
  generation = 0 ∧ (service = "." ∨ service = ".." ∨ service = "jobs")

instance (service : String) (generation : ℕ) : Decidable (Misnamed service generation) := by
  unfold Misnamed
  infer_instance

theorem percent_mem_rootName (svc : String) (later : gen ≠ 0) : '%' ∈ (rootName svc gen).toList := by
  rw [rootName, if_neg later]
  simp

theorem properName_rootName (valid : isValidServiceName service = true) (clear : ¬ Misnamed service gen) :
    ProperName (rootName service gen).toList := by
  by_cases first : gen = 0
  · have others : ¬ (service = "." ∨ service = ".." ∨ service = "jobs") := fun is => clear ⟨first, is⟩
    push Not at others
    rw [rootName, if_pos first]
    refine ⟨(nameChars valid).1, fun is => others.1 ?_, fun is => others.2.1 ?_⟩
    · exact toList_injective is
    · exact toList_injective is
  · have percent := percent_mem_rootName service first
    refine ⟨List.ne_nil_of_mem percent, fun is => ?_, fun is => ?_⟩
    · rw [is] at percent
      exact absurd percent (by decide)
    · rw [is] at percent
      exact absurd percent (by decide)

theorem rootName_injective {s s' : String} {g g' : ℕ} (valid : isValidServiceName s = true)
    (valid' : isValidServiceName s' = true) (same : (rootName s g).toList = (rootName s' g').toList) :
    s = s' ∧ g = g' := by
  have percent := not_mem_name valid (c := '%') (by decide)
  have percent' := not_mem_name valid' (c := '%') (by decide)
  by_cases first : g = 0
  · by_cases first' : g' = 0
    · rw [rootName, if_pos first, rootName, if_pos first'] at same
      exact ⟨toList_injective same, first.trans first'.symm⟩
    · have suffix := percent_mem_rootName s' first'
      rw [← same, rootName, if_pos first] at suffix
      exact absurd suffix percent
  · by_cases first' : g' = 0
    · have suffix := percent_mem_rootName s first
      rw [same, rootName, if_pos first'] at suffix
      exact absurd suffix percent'
    · -- the names end where the first percent sign is
      have split : ∀ {name : String} {n : ℕ}, n ≠ 0 → (rootName name n).toList =
          name.toList ++ '%' :: ("gen".toList ++ (toString n).toList) := by
        intro name n later
        rw [rootName, if_neg later]
        simp
      have before : ∀ {name rest : List Char}, '%' ∉ name →
          (name ++ '%' :: rest).takeWhile (· ≠ '%') = name := by
        intro name rest absent
        have each : ∀ c ∈ name, decide (c ≠ '%') = true := by
          intro c mem
          exact decide_eq_true fun is => absent (is ▸ mem)
        rw [List.takeWhile_append_of_pos each]
        simp
      rw [split first, split first'] at same
      have names := congrArg (List.takeWhile (· ≠ '%')) same
      rw [before percent, before percent'] at names
      rw [names, List.append_cancel_left_eq, List.cons.injEq, List.append_cancel_left_eq] at same
      have digits : toString g = toString g' := toList_injective same.2
      exact ⟨toList_injective names, Nat.repr_inj.mp digits⟩

/-! ## Submitted jobs -/

theorem lowerHexDigit_mem (n : ℕ) : lowerHexDigit n ∈ "0123456789abcdef".toList := by
  unfold lowerHexDigit
  by_cases small : n < "0123456789abcdef".toList.length
  · rw [List.getD_eq_getElem _ _ small]
    exact List.getElem_mem small
  · rw [List.getD_eq_default _ _ (not_lt.mp small)]
    decide

theorem canonicalChars (id : JobId) : ∀ c ∈ id.toCanonicalString.toList,
    c ∈ '-' :: "0123456789abcdef".toList := by
  intro c mem
  unfold JobId.toCanonicalString UuidV7.toCanonicalString at mem
  rw [toList_ofList, List.mem_flatMap] at mem
  obtain ⟨i, -, mem⟩ := mem
  rcases List.mem_append.mp mem with hyphen | digit
  · split_ifs at hyphen
    · rw [List.mem_singleton.mp hyphen]
      exact List.mem_cons_self
    · cases hyphen
  · simp only [List.mem_cons, List.not_mem_nil, or_false] at digit
    rcases digit with rfl | rfl
    · exact List.mem_cons_of_mem _ (lowerHexDigit_mem _)
    · exact List.mem_cons_of_mem _ (lowerHexDigit_mem _)

theorem properName_canonical (id : JobId) : ProperName id.toCanonicalString.toList := by
  have dot : '.' ∉ id.toCanonicalString.toList := fun mem =>
    absurd (canonicalChars id '.' mem) (by decide)
  refine ⟨fun none => ?_, fun is => dot (is ▸ by decide), fun is => dot (is ▸ by decide)⟩
  unfold JobId.toCanonicalString UuidV7.toCanonicalString at none
  rw [toList_ofList] at none
  have first := List.flatMap_eq_nil_iff.mp none 0 (by decide)
  simp at first

theorem pathComponents_submittedJob (id : JobId) :
    pathComponents (submittedJobCgroupPath id) =
      peinitComponents ++ ["jobs".toList] ++ [id.toCanonicalString.toList] := by
  have path : submittedJobCgroupPath id =
      "/sys/fs/cgroup/peinit/jobs" ++ "/" ++ id.toCanonicalString := rfl
  have above : pathComponents "/sys/fs/cgroup/peinit/jobs" = peinitComponents ++ ["jobs".toList] := by
    decide +kernel
  rw [path, pathComponents_append _ _ fun mem => absurd (canonicalChars id '/' mem) (by decide),
    resolveName_proper (properName_canonical id), above]

/-! ## Trees that do not overlap -/

/-- The root of a service is a directory of its own directly under that of peinit. -/
def DirectChild (path : String) : Prop := ∃ name, pathComponents path = peinitComponents ++ [name]

theorem pathComponents_clear
    (valid : isValidServiceName service = true) (clear : ¬ Misnamed service gen) :
    pathComponents (serviceCgroupRootPath service gen) =
      peinitComponents ++ [(rootName service gen).toList] := by
  rw [pathComponents_root valid, resolveName_proper (properName_rootName valid clear)]

theorem misnamed_overlaps (misnamed : Misnamed service gen) (id : JobId) :
    DirectChild (serviceCgroupRootPath service gen) →
      PathsOverlap (serviceCgroupRootPath service gen) (submittedJobCgroupPath id) := by
  obtain ⟨rfl, rfl | rfl | rfl⟩ := misnamed
  · rintro ⟨name, components⟩
    rw [pathComponents_root (by decide)] at components
    exact absurd (congrArg List.length components) (by simp [rootName, resolveName])
  · rintro ⟨name, components⟩
    rw [pathComponents_root (by decide)] at components
    exact absurd (congrArg List.length components) (by simp [rootName, resolveName])
  · rintro -
    right
    unfold PathWithin
    rw [pathComponents_submittedJob]
    exact ⟨[id.toCanonicalString.toList], rfl⟩

/-- The trees of two services and of a submitted job are what they should be, and apart from each other,
if and only if neither root is misnamed. -/
theorem cgroup_trees_apart_iff {s s' : String} {g g' : ℕ} (valid : isValidServiceName s = true)
    (valid' : isValidServiceName s' = true) (id : JobId) :
    (DirectChild (serviceCgroupRootPath s g) ∧ DirectChild (serviceCgroupRootPath s' g') ∧
      ((s, g) ≠ (s', g') → ¬ PathsOverlap (serviceCgroupRootPath s g) (serviceCgroupRootPath s' g')) ∧
      ¬ PathsOverlap (serviceCgroupRootPath s g) (submittedJobCgroupPath id) ∧
      ¬ PathsOverlap (serviceCgroupRootPath s' g') (submittedJobCgroupPath id)) ↔
    ¬ Misnamed s g ∧ ¬ Misnamed s' g' := by
  constructor
  · rintro ⟨child, child', -, apart, apart'⟩
    exact ⟨fun misnamed => apart (misnamed_overlaps misnamed id child),
      fun misnamed => apart' (misnamed_overlaps misnamed id child')⟩
  · rintro ⟨clear, clear'⟩
    have root := pathComponents_clear valid clear
    have root' := pathComponents_clear valid' clear'
    -- only the name `jobs` itself leads to where the submitted jobs are
    have apart : ∀ {name : String} {n : ℕ}, isValidServiceName name = true → ¬ Misnamed name n →
        ¬ PathsOverlap (serviceCgroupRootPath name n) (submittedJobCgroupPath id) := by
      intro name n named clear overlap
      have jobs : (rootName name n).toList = (rootName "jobs" 0).toList :=
        (pathsOverlap_nephew (pathComponents_clear named clear) (pathComponents_submittedJob id)).mp
          overlap
      obtain ⟨rfl, rfl⟩ := rootName_injective named (by decide) jobs
      exact clear ⟨rfl, .inr (.inr rfl)⟩
    refine ⟨⟨_, root⟩, ⟨_, root'⟩, fun distinct overlap => distinct ?_, apart valid clear,
      apart valid' clear'⟩
    rw [pathsOverlap_siblings root root'] at overlap
    obtain ⟨rfl, rfl⟩ := rootName_injective valid valid' overlap
    rfl

theorem cgroup_trees_apart_app : DirectChild (serviceCgroupRootPath "app" 1) ∧
    ¬ PathsOverlap (serviceCgroupRootPath "app" 1) (serviceCgroupRootPath "app.gen1" 0) := by
  have apart := (@cgroup_trees_apart_iff "app" "app.gen1" 1 0 (by decide) (by decide) ⟨0⟩).mpr
    ⟨by decide, by decide⟩
  exact ⟨apart.1, apart.2.2.1 (by decide)⟩

/-- Three valid names: the root of `.` is that of peinit itself, that of `..` is above it, and that of
`jobs` contains every submitted job. -/
theorem cgroup_trees_overlap :
    isValidServiceName "." = true ∧ isValidServiceName ".." = true ∧ isValidServiceName "jobs" = true ∧
    ¬ DirectChild (serviceCgroupRootPath "." 0) ∧ ¬ DirectChild (serviceCgroupRootPath ".." 0) ∧
    PathWithin (serviceCgroupRootPath "app" 0) (serviceCgroupRootPath "." 0) ∧
    PathWithin (serviceCgroupRootPath "app" 0) (serviceCgroupRootPath ".." 0) ∧
    PathWithin (submittedJobCgroupPath ⟨0⟩) (serviceCgroupRootPath "jobs" 0) := by
  have above : ∀ service, (pathComponents (serviceCgroupRootPath service 0)).length ≤ 4 →
      ¬ DirectChild (serviceCgroupRootPath service 0) := by
    rintro service short ⟨name, components⟩
    rw [components] at short
    simp [peinitComponents] at short
  refine ⟨by decide, by decide, by decide, above "." ?_, above ".." ?_, ?_, ?_, ?_⟩
  · decide +kernel
  · decide +kernel
  · unfold PathWithin
    decide +kernel
  · unfold PathWithin
    decide +kernel
  · unfold PathWithin
    decide +kernel

end Peinit
