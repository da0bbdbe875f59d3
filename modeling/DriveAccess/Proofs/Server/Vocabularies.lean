import DriveAccess.Sql.Record
import Mathlib.Algebra.Group.Nat.Defs
/-!
Words and numbers as they are stored. Every value has its own word, and no other word is read; of a
number, 31 bits come back.
-/
namespace DriveAccess

variable {κ : Type}

/-- How the values of a vocabulary are written. No other words are read. -/
structure Spelling (parse : String → Except ValidationError κ) (tag : κ → String)
    (words : List String) : Prop where
  parse_eq_ok : ∀ w k, parse w = .ok k ↔ w = tag k
  mem_words : ∀ w, w ∈ words ↔ ∃ k, w = tag k

/-- A vocabulary whose words are all read back, and from which nothing else is read. -/
theorem Spelling.ofAll {parse : String → Except ValidationError κ} {tag : κ → String}
    {words : List String} (all : List κ) (hall : ∀ k, k ∈ all) (hwords : words = all.map tag)
    (htag : ∀ k, parse (tag k) = .ok k) (hparse : ∀ w k, parse w = .ok k → w = tag k) :
    Spelling parse tag words where
  parse_eq_ok w k := by
    constructor
    · exact hparse w k
    · rintro rfl
      exact htag k
  mem_words w := by
    rw [hwords, List.mem_map]
    constructor
    · rintro ⟨k, _, rfl⟩
      exact ⟨k, rfl⟩
    · rintro ⟨k, rfl⟩
      exact ⟨k, hall k, rfl⟩

namespace Spelling

variable {parse : String → Except ValidationError κ} {tag : κ → String} {words : List String}
  {w : String} {k l : κ}

theorem checkWord_eq_ok (h : Spelling parse tag words) :
    checkWord (parse w) = .ok k ↔ w = tag k := by
  rw [← h.parse_eq_ok, checkWord]
  cases parse w with
  | ok l =>
    exact ⟨fun heq => congrArg _ (Except.ok.inj heq), fun heq => congrArg _ (Except.ok.inj heq)⟩
  | error e => exact iff_of_false nofun nofun

theorem isOk_checkWord (h : Spelling parse tag words) :
    (checkWord (parse w)).isOk = words.contains w := by
  rw [Bool.eq_iff_iff, List.contains_iff_mem, h.mem_words]
  cases hw : checkWord (parse w) with
  | ok k => exact iff_of_true rfl ⟨k, h.checkWord_eq_ok.mp hw⟩
  | error e =>
    refine iff_of_false (by simp [Except.isOk, Except.toBool]) ?_
    rintro ⟨k, hk⟩
    rw [h.checkWord_eq_ok.mpr hk] at hw
    cases hw

theorem tag_inj (h : Spelling parse tag words) : tag k = tag l ↔ k = l := by
  constructor
  · intro heq
    have hk := (h.parse_eq_ok (tag k) k).mpr rfl
    have hl := (h.parse_eq_ok (tag k) l).mpr heq
    exact Except.ok.inj (hk.symm.trans hl)
  · rintro rfl
    rfl

end Spelling

theorem SubjectKind.spelling : Spelling parse tag ["user", "group", "file", "folder"] := by
  refine .ofAll [user, group, file, folder] (fun k => ?_) rfl (fun k => ?_) fun w k h => ?_
  · cases k <;> decide
  · cases k <;> rfl
  · unfold parse at h
    split at h <;> cases h <;> rfl

theorem ObjectKind.spelling : Spelling parse tag ["file", "folder", "group"] := by
  refine .ofAll [file, folder, group] (fun k => ?_) rfl (fun k => ?_) fun w k h => ?_
  · cases k <;> decide
  · cases k <;> rfl
  · unfold parse at h
    split at h <;> cases h <;> rfl

theorem Relation.spelling : Spelling parse tag ["owner", "member", "parent"] := by
  refine .ofAll [owner, member, parent] (fun k => ?_) rfl (fun k => ?_) fun w k h => ?_
  · cases k <;> decide
  · cases k <;> rfl
  · unfold parse at h
    split at h <;> cases h <;> rfl

theorem ResourceKind.spelling : Spelling parse tag ["file", "folder"] := by
  refine .ofAll [file, folder] (fun k => ?_) rfl (fun k => ?_) fun w k h => ?_
  · cases k <;> decide
  · cases k <;> rfl
  · unfold parse at h
    split at h <;> cases h <;> rfl

theorem GranteeKind.spelling : Spelling parse tag ["user", "group"] := by
  refine .ofAll [user, group] (fun k => ?_) rfl (fun k => ?_) fun w k h => ?_
  · cases k <;> decide
  · cases k <;> rfl
  · unfold parse at h
    split at h <;> cases h <;> rfl

theorem Role.spelling :
    Spelling parse tag ["viewer", "contributor", "content_manager", "owner"] := by
  refine .ofAll all (fun r => ?_) rfl (fun r => ?_) fun w r h => ?_
  · cases r <;> decide
  · cases r <;> rfl
  · unfold parse at h
    split at h <;> cases h <;> rfl

theorem MembershipRole.spelling : Spelling parse tag ["admin", "member"] := by
  refine .ofAll [admin, member] (fun r => ?_) rfl (fun r => ?_) fun w r h => ?_
  · cases r <;> decide
  · cases r <;> rfl
  · unfold parse at h
    split at h <;> cases h <;> rfl

theorem ofInt4_eq_ok {n : Int32} {d : Nat} : ofInt4 n = .ok d ↔ n = toInt4 d ∧ d < 2 ^ 31 := by
  have hneg : n < 0 ↔ n.toInt < 0 := Int32.lt_iff_toInt_lt
  have hmax := n.toInt_lt
  by_cases h : n < 0
  · rw [ofInt4, if_pos h]
    refine iff_of_false nofun ?_
    rintro ⟨rfl, hd⟩
    rw [hneg, toInt4, Int32.toInt_ofNat_of_lt hd] at h
    omega
  · have hnat : 0 ≤ n.toInt := Int.not_lt.mp (mt hneg.mpr h)
    rw [ofInt4, if_neg h, toInt4]
    constructor
    · intro heq
      cases heq
      refine ⟨?_, by omega⟩
      rw [← Int32.ofInt_eq_ofNat, Int.toNat_of_nonneg hnat, Int32.ofInt_toInt]
    · rintro ⟨rfl, hd⟩
      rw [Int32.toInt_ofNat_of_lt hd]
      rfl

theorem isOk_ofInt4 (n : Int32) : (ofInt4 n).isOk = decide (0 ≤ n) := by
  rw [ofInt4]
  split
  · rename_i h
    simp [Except.isOk, Except.toBool, h]
  · rename_i h
    simp [Except.isOk, Except.toBool, Int32.not_lt.mp h]

/-- Of 32 bits, the topmost is read as a sign. -/
theorem toInt4_neg {d : Nat} (h : 2 ^ 31 ≤ d) (hbits : d < 2 ^ 32) : toInt4 d < 0 := by
  rw [toInt4, Int32.lt_iff_toInt_lt, Int32.toInt_ofNat', Int32.toInt_zero, Int.bmod_def]
  simp only [Int32.size]
  omega

end DriveAccess
