import DriveAccess.Proofs.Access.Reads
import DriveAccess.Proofs.Resolution.Answers
/-!
Checks of authority: what they come to on coherent tables, and what they make of a program that has
them.
-/
namespace DriveAccess

open Dialogue

/-- Turned away for want of authority. -/
def Denied {α : Type} (outcome : Except AccessError α) : Prop :=
  ∃ d, outcome = .error (.forbidden d)

namespace Program

variable {α β : Type} {stamp : Stamp} {s u : Session} {c : Context} {p : Program α}
  {f : α → Program β} {found authority more : Prop} {user : Uuid} {r : Resource}

/-- A program that raises no denial of its own. -/
abbrev Lenient (p : Program α) : Prop := Raises (·.kind ≠ .forbidden) p

theorem lenient_fail {e : AccessError} (h : e.kind ≠ .forbidden) :
    Lenient (.fail e : Program α) := h

theorem lenient_request (r : Request) : Lenient (request r) := raises_query _

theorem lenient_record (e : AuditEvent) : Lenient (record e) := raises_query _

theorem lenient_resolve (d : Resolution α) : Lenient (resolve d) :=
  raises_rephrase (fun _ => by simp [AccessError.kind]) d

theorem lenient_ofHierarchy (x : Except HierarchyError α) : Lenient (ofHierarchy x) := by
  cases x with
  | ok a => exact raises_pure a
  | error e => exact lenient_fail (by cases e <;> simp [AccessError.ofHierarchy, AccessError.kind])

theorem lenient_requireFolder (id : Uuid) : Lenient (requireFolder id) := by
  apply (lenient_request _).bind
  intro found
  cases found with
  | none => exact lenient_fail (by simp [AccessError.kind])
  | some f => exact raises_pure f

theorem Lenient.not_denied (h : Lenient p) : ¬ Denied (s.run stamp p).1 := by
  intro hdenied
  obtain ⟨d, hd⟩ := hdenied
  rcases hrun : s.run stamp p with ⟨outcome, u⟩
  rw [hrun] at hd
  obtain rfl : outcome = .error (.forbidden d) := hd
  refine h.run (E := (·.kind ≠ .forbidden)) ?_ hrun rfl
  -- storage errors are never denials
  intro q v e v' hq
  cases q with
  | store r =>
    rcases hr : v.perform stamp r with ⟨e' | a, w⟩ <;> simp only [Session.answer, hr] at hq
    · cases hq
      cases e' <;> simp [AccessError.ofStorage, AccessError.kind]
    · cases hq
  | look l =>
    rcases hl : v.perform stamp l.request with ⟨e' | a, w⟩ <;> simp only [Session.answer, hl] at hq
    · cases hq
      simp [AccessError.kind]
    · cases hq
  | record e => cases hq

/-- A program whose outcome tells about authority: it succeeds only where there is some and, where
all is found that it needs to know, is denied only where there is none. -/
structure Judged (stamp : Stamp) (p : Program α) (s : Session) (found authority : Prop) :
    Prop where
  denied : found → (Denied (s.run stamp p).1 ↔ ¬ authority)
  passed : (s.run stamp p).1.isOk → authority

theorem Lenient.judged (h : Lenient p) : Judged stamp p s found True where
  denied _ := iff_of_false h.not_denied (not_not_intro trivial)
  passed _ := trivial

/-- What only reads may come first, where it finds what is there. -/
theorem Judged.read (hp : Reads p) (hfound : found → ∃ a, s.run stamp p = (.ok a, s))
    (hf : ∀ a, s.run stamp p = (.ok a, s) → Judged stamp (f a) s found authority) :
    Judged stamp (p >>= f) s found authority where
  denied h := by
    obtain ⟨a, ha⟩ := hfound h
    have hrest : s.run stamp (p >>= f) = s.run stamp (f a) := run_bind_ok ha
    rw [hrest]
    exact (hf a ha).denied h
  passed h := by
    rcases hrun : s.run stamp (p >>= f) with ⟨e | b, u⟩ <;> rw [hrun] at h
    · cases h
    · obtain ⟨a, ha, hrest⟩ := hp.run_bind hrun
      refine (hf a ha).passed ?_
      rw [hrest]
      rfl

/-- What is judged first and asks for no more is judged by what comes first. -/
theorem Judged.lenient (h : Judged stamp p s found authority) (hf : ∀ a, Lenient (f a)) :
    Judged stamp (p >>= f) s found authority where
  denied hfound := by
    rw [← h.denied hfound, Session.run, run_bind, ← Session.run]
    rcases hrun : s.run stamp p with ⟨e | a, u⟩
    · simp only [Denied, Except.error.injEq]
    · refine iff_of_false (hf a).not_denied ?_
      intro hdenied
      obtain ⟨d, hd⟩ := hdenied
      cases hd
  passed hok := by
    rcases hrun : s.run stamp (p >>= f) with ⟨e | b, u⟩ <;> rw [hrun] at hok
    · cases hok
    · obtain ⟨a, v, ha, _⟩ := run_bind_eq_ok hrun
      refine h.passed ?_
      rw [Session.run, ha]
      rfl

/-- A check passes with authority, and turns away without. Either way the session stays as it is. -/
def Guards (stamp : Stamp) (p : Program Unit) (s : Session) (authority : Prop) : Prop :=
  (authority ∧ s.run stamp p = (.ok (), s)) ∨
    ¬ authority ∧ ∃ d, s.run stamp p = (.error (.forbidden d), s)

theorem Guards.judged {p : Program Unit} (h : Guards stamp p s authority) :
    Judged stamp p s found authority where
  denied _ := by
    obtain ⟨hauthority, hrun⟩ | ⟨hnone, d, hrun⟩ := h
    · simp [hrun, hauthority, Denied]
    · simp [hrun, hnone, Denied]
  passed hok := by
    obtain ⟨hauthority, _⟩ | ⟨_, d, hrun⟩ := h
    · exact hauthority
    · rw [hrun] at hok
      cases hok

theorem Guards.passes {p : Program Unit} (h : Guards stamp p s authority)
    (hauthority : authority) : s.run stamp p = (.ok (), s) := by
  obtain ⟨_, hrun⟩ | ⟨hnone, _⟩ := h
  · exact hrun
  · exact absurd hauthority hnone

theorem Guards.yields {p : Program Unit} {t : Tables} (h : Guards stamp p (.fresh t) authority)
    (hauthority : authority) : Yields stamp p t () t :=
  yields_of_fresh (h.passes hauthority)

theorem Guards.and {p : Program Unit} {f : Unit → Program Unit} (h : Guards stamp p s authority)
    (hf : Guards stamp (f ()) s more) : Guards stamp (p >>= f) s (authority ∧ more) := by
  obtain ⟨hauthority, hrun⟩ | ⟨hnone, d, hrun⟩ := h
  · have hrest : s.run stamp (p >>= f) = s.run stamp (f ()) := run_bind_ok hrun
    rw [Guards, hrest]
    simpa [hauthority, Guards] using hf
  · refine .inr ⟨fun hboth => hnone hboth.1, d, ?_⟩
    rw [Session.run, run_bind, ← Session.run, hrun]

/-- How a check goes on once the resolver has answered. -/
def orDeny (c : Context) (denial : Denial) (passes : Bool) : Program Unit :=
  if passes then pure () else deny c denial

theorem guards_resolve {d : Resolution Bool} {denial : Denial} [Decidable authority]
    (hd : d.told s.tables.reply = .ok (decide authority)) :
    Guards stamp (resolve d >>= orDeny c denial) s authority := by
  have hrun : s.run stamp (resolve d) = (.ok (decide authority), s) := by
    rw [run_resolve, hd]
    rfl
  have hrest : s.run stamp (resolve d >>= orDeny c denial) = _ := run_bind_ok hrun
  rw [Guards, hrest]
  by_cases hauthority : authority
  · simp only [hauthority, decide_true]
    exact .inl ⟨trivial, rfl⟩
  · simp only [hauthority, decide_false]
    exact .inr ⟨not_false, denial, rfl⟩

theorem guards_requireOwner (deed : Deed) :
    Guards stamp (requireOwner c user r deed) s (s.tables.Owns user r) :=
  guards_resolve Tables.isOwner_told

variable (h : s.tables.Coherent) (hdepth : maxFolderDepth + 1 ≤ c.maxDepth)

include h hdepth

theorem guards_requirePermission (permission : Permission) :
    Guards stamp (requirePermission c user r permission) s
      (permission.least.level ≤ Role.height (s.tables.effectiveRole user r)) :=
  guards_resolve (h.hasPermission_told hdepth)

theorem guards_requireGranter {role : Role} (hrole : role ≠ .owner) (deed : Deed) :
    Guards stamp (requireGranter c user r role deed) s
      (role.level < Role.height (s.tables.effectiveRole user r)) := by
  apply guards_resolve
  rw [h.canGrantRole_told hdepth]
  simp [hrole]

end Program

end DriveAccess
