import DriveAccess.Proofs.Dialogues
/-!
The course of a run: the questions in the order in which they are put, each with the state of the
surroundings that it meets.
-/
namespace DriveAccess.Dialogue

variable {Q : Type} {A : Q → Type} {ε α β σ : Type} {answer : Answerer Q A ε σ}
  {d : Dialogue Q A ε α} {f : α → Dialogue Q A ε β} {s : σ}

/-- A refused question is the last of the course. -/
def course (answer : Answerer Q A ε σ) : Dialogue Q A ε α → σ → List (Q × σ)
  | done _, _ => []
  | fail _, _ => []
  | ask q next, s =>
    (q, s) :: match answer q s with
      | (.ok a, s) => (next a).course answer s
      | (.error _, _) => []

theorem course_questions : (d.course answer s).map (·.1) = d.asked answer s := by
  induction d generalizing s with
  | done a => rfl
  | fail e => rfl
  | ask q next ih =>
    rw [course, asked]
    rcases answer q s with ⟨e | a, u⟩
    · rfl
    · exact congrArg (q :: ·) (ih a)

theorem Asks.course {P : Q → Prop} (h : d.Asks P) : ∀ x ∈ d.course answer s, P x.1 := by
  induction d generalizing s with
  | done a => simp [Dialogue.course]
  | fail e => simp [Dialogue.course]
  | ask q next ih =>
    rw [Dialogue.course]
    rcases answer q s with ⟨e | a, u⟩
    · simpa using h.1
    · simpa using ⟨h.1, fun x u hx => ih a (h.2 a) (x, u) hx⟩

/-- What every answer keeps holds whenever a question is put, and when all is over. -/
theorem course_keeps {I : σ → Prop} (hanswer : ∀ q s, I s → I (answer q s).2) (h : I s) :
    (∀ x ∈ d.course answer s, I x.2) ∧ I (d.run answer s).2 := by
  induction d generalizing s with
  | done a => exact ⟨by simp [course], h⟩
  | fail e => exact ⟨by simp [course], h⟩
  | ask q next ih =>
    have hq := hanswer q s h
    rw [course, run]
    rcases hs : answer q s with ⟨e | a, u⟩ <;> rw [hs] at hq
    · exact ⟨by simpa using h, hq⟩
    · obtain ⟨hcourse, hend⟩ := ih a hq
      exact ⟨by simpa using ⟨h, fun y v hv => hcourse (y, v) hv⟩, hend⟩

/-- A refusal ends the run and is its outcome. -/
theorem course_stops {front back : List (Q × σ)} {q : Q} {u v : σ} {e : ε}
    (h : d.course answer s = front ++ (q, u) :: back) (hq : answer q u = (.error e, v)) :
    back = [] ∧ d.run answer s = (.error e, v) := by
  induction d generalizing s front with
  | done a => simp [course] at h
  | fail e => simp [course] at h
  | ask q' next ih =>
    rw [course] at h
    rw [run]
    cases front with
    | nil =>
      obtain ⟨hhead, hrest⟩ := List.cons.inj h
      cases hhead
      rw [hq] at hrest ⊢
      exact ⟨hrest.symm, rfl⟩
    | cons x front =>
      obtain ⟨_, hrest⟩ := List.cons.inj h
      rcases hs : answer q' s with ⟨e' | a, s'⟩ <;> rw [hs] at hrest
      · simp at hrest
      · exact ih a hrest

/-- A log to which each answer adds an entry holds the entries of the course in the end. -/
theorem course_log {τ : Type} (log : σ → List τ) (entry : Q × σ → List τ)
    (hanswer : ∀ q s, log (answer q s).2 = log s ++ entry (q, s)) :
    log (d.run answer s).2 = log s ++ (d.course answer s).flatMap entry := by
  induction d generalizing s with
  | done a => simp [course, run]
  | fail e => simp [course, run]
  | ask q next ih =>
    have hq := hanswer q s
    rw [course, run]
    rcases hs : answer q s with ⟨e | a, u⟩ <;> rw [hs] at hq
    · simpa using hq
    · have hnext := ih a (s := u)
      rw [hq] at hnext
      simpa using hnext

end DriveAccess.Dialogue
