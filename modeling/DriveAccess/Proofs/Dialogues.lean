import DriveAccess.Dialogue
/-!
How programs run: one after another, in surroundings that correspond, by questions of one kind
only, and with one question refused.
-/
namespace DriveAccess.Dialogue

variable {Q : Type} {A : Q → Type} {ε α β σ τ : Type} {answer : Answerer Q A ε σ}
  {d : Dialogue Q A ε α} {f : α → Dialogue Q A ε β} {s : σ} {t : τ}

instance : LawfulMonad (Dialogue Q A ε) := .mk' _ bind_done (fun _ _ => rfl) bind_assoc

theorem run_query (q : Q) : (query q).run answer s = answer q s := by
  rw [query, run]
  rcases answer q s with ⟨e | a, u⟩ <;> rfl

theorem run_bind : (d >>= f).run answer s =
    match d.run answer s with
    | (.ok a, s) => (f a).run answer s
    | (.error e, s) => (.error e, s) := by
  change (d.bind f).run answer s = _
  induction d generalizing s with
  | done a => rfl
  | fail e => rfl
  | ask q next ih =>
    rw [bind, run, run]
    cases answer q s with
    | mk reply s =>
      cases reply with
      | ok a => exact ih a
      | error e => rfl

theorem run_bind_ok {a : α} {s' : σ} (h : d.run answer s = (.ok a, s')) :
    (d >>= f).run answer s = (f a).run answer s' := by
  rw [run_bind, h]

/-- What becomes of the outcome has no part in the questions. -/
theorem run_map (g : α → β) : (g <$> d).run answer s =
    ((d.run answer s).1.map g, (d.run answer s).2) := by
  change (d.bind fun a => done (g a)).run answer s = _
  induction d generalizing s with
  | done a => rfl
  | fail e => rfl
  | ask q next ih =>
    rw [bind, run, run]
    rcases answer q s with ⟨e | a, u⟩
    · rfl
    · exact ih a

theorem asked_map (g : α → β) : (g <$> d).asked answer s = d.asked answer s := by
  change (d.bind fun a => done (g a)).asked answer s = _
  induction d generalizing s with
  | done a => rfl
  | fail e => rfl
  | ask q next ih =>
    rw [bind, asked, asked]
    congr 1
    rcases answer q s with ⟨e | a, u⟩
    · rfl
    · exact ih a

theorem asked_query_bind_ne_nil {q : Q} (f : A q → Dialogue Q A ε β) :
    (query q >>= f).asked answer s ≠ [] := by
  change (ask q fun a => (done a).bind f).asked answer s ≠ []
  rw [asked]
  exact List.cons_ne_nil _ _

/-- A success comes from a success of both parts. -/
theorem run_bind_eq_ok {b : β} {s' : σ} (h : (d >>= f).run answer s = (.ok b, s')) :
    ∃ a u, d.run answer s = (.ok a, u) ∧ (f a).run answer u = (.ok b, s') := by
  rw [run_bind] at h
  rcases hd : d.run answer s with ⟨a | e, u⟩
  · rw [hd] at h
    cases h
  · rw [hd] at h
    exact ⟨_, u, rfl, h⟩

/-- All questions that the program may put are of one kind. -/
def Asks (P : Q → Prop) : Dialogue Q A ε α → Prop
  | done _ => True
  | fail _ => True
  | ask q next => P q ∧ ∀ a, (next a).Asks P

variable {P : Q → Prop}

theorem asks_pure (a : α) : (pure a : Dialogue Q A ε α).Asks P := trivial

theorem asks_fail (e : ε) : (fail e : Dialogue Q A ε α).Asks P := trivial

theorem asks_query {q : Q} (h : P q) : (query q : Dialogue Q A ε (A q)).Asks P :=
  ⟨h, fun _ => trivial⟩

theorem Asks.bind (h : d.Asks P) (hf : ∀ a, (f a).Asks P) : (d >>= f).Asks P := by
  change (d.bind f).Asks P
  induction d with
  | done a => exact hf a
  | fail e => trivial
  | ask q next ih => exact ⟨h.1, fun a => ih a (h.2 a)⟩

theorem asks_forM {ι : Type} {f : ι → Dialogue Q A ε Unit} {l : List ι}
    (h : ∀ i ∈ l, (f i).Asks P) : (l.forM f).Asks P := by
  induction l with
  | nil => exact asks_pure ()
  | cons i l ih =>
    obtain ⟨hi, hl⟩ := List.forall_mem_cons.mp h
    exact hi.bind fun _ => ih hl

theorem asks_any (d : Dialogue Q A ε α) : d.Asks fun _ => True := by
  induction d with
  | done a => trivial
  | fail e => trivial
  | ask q next ih => exact ⟨trivial, ih⟩

theorem Asks.mono {P' : Q → Prop} (h : d.Asks P) (hP : ∀ q, P q → P' q) : d.Asks P' := by
  induction d with
  | done a => trivial
  | fail e => trivial
  | ask q next ih => exact ⟨hP q h.1, fun a => ih a (h.2 a)⟩

theorem asks_rephrase {Q' : Type} {A' : Q' → Type} {ε' : Type} {question : Q' → Q}
    {reply : ∀ q, A (question q) → A' q} {error : ε' → ε} (h : ∀ q, P (question q))
    (d : Dialogue Q' A' ε' α) : (d.rephrase question reply error).Asks P := by
  induction d with
  | done a => trivial
  | fail e => trivial
  | ask q next ih => exact ⟨h q, fun a => ih _⟩

/-- Surroundings that answer alike in related states run a program alike. -/
theorem Asks.run_related {answer' : Answerer Q A ε τ} (hd : d.Asks P) (R : σ → τ → Prop)
    (hanswer : ∀ q s t, P q → R s t →
      (answer q s).1 = (answer' q t).1 ∧ R (answer q s).2 (answer' q t).2)
    (h : R s t) : (d.run answer s).1 = (d.run answer' t).1 ∧
      R (d.run answer s).2 (d.run answer' t).2 := by
  induction d generalizing s t with
  | done a => exact ⟨rfl, h⟩
  | fail e => exact ⟨rfl, h⟩
  | ask q next ih =>
    obtain ⟨hreply, hnext⟩ := hanswer q s t hd.1 h
    rw [run, run]
    rcases hs : answer q s with ⟨a | e, s'⟩ <;> rcases ht : answer' q t with ⟨b | e', t'⟩ <;>
      rw [hs, ht] at hreply hnext <;> cases hreply
    · exact ⟨rfl, hnext⟩
    · exact ih _ (hd.2 _) hnext

/-- What the answers to such questions preserve is preserved by a run. -/
theorem Asks.run_keeps (h : d.Asks P) (R : σ → σ → Prop) (hrefl : ∀ s, R s s)
    (htrans : ∀ s t u, R s t → R t u → R s u) (hanswer : ∀ q s, P q → R s (answer q s).2) :
    R s (d.run answer s).2 := by
  induction d generalizing s with
  | done a => exact hrefl s
  | fail e => exact hrefl s
  | ask q next ih =>
    have hq := hanswer q s h.1
    rw [run]
    rcases hs : answer q s with ⟨a | e, s'⟩ <;> rw [hs] at hq
    · exact hq
    · exact htrans _ _ _ hq (ih _ (h.2 _))

/-- What every answer preserves is preserved by a run. -/
theorem run_keeps (R : σ → σ → Prop) (hrefl : ∀ s, R s s) (htrans : ∀ s t u, R s t → R t u → R s u)
    (hanswer : ∀ q s, R s (answer q s).2) : R s (d.run answer s).2 :=
  (asks_any d).run_keeps R hrefl htrans fun q s _ => hanswer q s

/-- Questions that leave the surroundings alone do so one after the other. -/
theorem run_of_asks (hanswer : ∀ q s, P q → (answer q s).2 = s) (h : d.Asks P) :
    (d.run answer s).2 = s :=
  h.run_keeps (fun s u => u = s) (fun _ => rfl) (fun _ _ _ hst htu => htu.trans hst) hanswer

/-- All errors that the program may raise of itself are of one kind. -/
def Raises (E : ε → Prop) : Dialogue Q A ε α → Prop
  | done _ => True
  | fail e => E e
  | ask _ next => ∀ a, (next a).Raises E

variable {E : ε → Prop}

theorem raises_pure (a : α) : (pure a : Dialogue Q A ε α).Raises E := trivial

theorem raises_query (q : Q) : (query q : Dialogue Q A ε (A q)).Raises E := fun _ => trivial

theorem Raises.bind (h : d.Raises E) (hf : ∀ a, (f a).Raises E) : (d >>= f).Raises E := by
  change (d.bind f).Raises E
  induction d with
  | done a => exact hf a
  | fail e => exact h
  | ask q next ih => exact fun a => ih a (h a)

theorem raises_rephrase {Q' : Type} {A' : Q' → Type} {ε' : Type} {question : Q' → Q}
    {read : ∀ q, A (question q) → A' q} {error : ε' → ε} (h : ∀ e, E (error e))
    (d : Dialogue Q' A' ε' α) : (d.rephrase question read error).Raises E := by
  induction d with
  | done a => trivial
  | fail e => exact h e
  | ask q next ih => exact fun a => ih _

theorem Raises.run {e : ε} {s' : σ} (hd : d.Raises E)
    (hanswer : ∀ q s e s', answer q s = (.error e, s') → E e)
    (h : d.run answer s = (.error e, s')) : E e := by
  induction d generalizing s with
  | done a => cases h
  | fail e =>
    cases h
    exact hd
  | ask q next ih =>
    rw [Dialogue.run] at h
    rcases hq : answer q s with ⟨e' | a, u⟩ <;> rw [hq] at h
    · cases h
      exact hanswer q s _ _ hq
    · exact ih a (hd a) h

/-- Two programs put the same questions, all of one kind, and come to the same, as long as the
replies are of one kind too. What they come to is of a kind as well. -/
inductive Alike (P : Q → Prop) (T : ∀ q, A q → Prop) (U : α → Prop) :
    Dialogue Q A ε α → Dialogue Q A ε α → Prop
  | done {a : α} (ha : U a) : Alike P T U (done a) (done a)
  | fail (e : ε) : Alike P T U (fail e) (fail e)
  | ask {q : Q} {next next' : A q → Dialogue Q A ε α} (hq : P q)
      (h : ∀ a, T q a → Alike P T U (next a) (next' a)) : Alike P T U (ask q next) (ask q next')

section

variable {T : ∀ q, A q → Prop} {U : α → Prop} {V : β → Prop} {d' : Dialogue Q A ε α}
  {g : α → Dialogue Q A ε β}

theorem alike_pure {a : α} (ha : U a) : (pure a : Dialogue Q A ε α).Alike P T U (pure a) :=
  .done ha

theorem alike_query {q : Q} (hq : P q) :
    (query q : Dialogue Q A ε (A q)).Alike P T (T q) (query q) :=
  .ask hq fun _ ha => .done ha

theorem alike_ofExcept {x : Except ε α} (h : ∀ a, x = .ok a → U a) :
    (ofExcept x : Dialogue Q A ε α).Alike P T U (ofExcept x) := by
  cases x with
  | ok a => exact .done (h a rfl)
  | error e => exact .fail e

theorem Asks.alike (h : d.Asks P) : d.Alike P T (fun _ => True) d := by
  induction d with
  | done a => exact .done trivial
  | fail e => exact .fail e
  | ask q next ih => exact .ask h.1 fun a _ => ih a (h.2 a)

theorem Alike.bind (h : d.Alike P T U d') (hf : ∀ a, U a → (f a).Alike P T V (g a)) :
    (d >>= f).Alike P T V (d' >>= g) := by
  change (d.bind f).Alike P T V (d'.bind g)
  induction h with
  | done ha => exact hf _ ha
  | fail e => exact .fail e
  | ask hq _ ih => exact .ask hq ih

theorem Alike.mono {U' : α → Prop} (h : d.Alike P T U d') (hU : ∀ a, U a → U' a) :
    d.Alike P T U' d' := by
  induction h with
  | done ha => exact .done (hU _ ha)
  | fail e => exact .fail e
  | ask hq _ ih => exact .ask hq ih

/-- Programs that are alike run alike, also where questions of another kind are answered in another
way. -/
theorem Alike.run {answer' : Answerer Q A ε σ} (h : d.Alike P T U d')
    (hsame : ∀ q s, P q → answer' q s = answer q s)
    (hreply : ∀ q s a s', P q → answer q s = (.ok a, s') → T q a) :
    d'.run answer' s = d.run answer s ∧ ∀ a s', d.run answer s = (.ok a, s') → U a := by
  induction h generalizing s with
  | done ha =>
    refine ⟨rfl, fun a s' hrun => ?_⟩
    cases hrun
    exact ha
  | fail e => exact ⟨rfl, nofun⟩
  | @ask q next next' hq _ ih =>
    rw [Dialogue.run, Dialogue.run, hsame q s hq]
    rcases hs : answer q s with ⟨e | a, u⟩
    · exact ⟨rfl, nofun⟩
    · exact ih a (hreply q s a u hq hs)

end

/-- The outcome of a program that is always told the same in reply to a question. -/
def told (reply : ∀ q, A q) : Dialogue Q A ε α → Except ε α
  | done a => .ok a
  | fail e => .error e
  | ask q next => (next (reply q)).told reply

variable {reply : ∀ q, A q}

@[simp] theorem told_pure (a : α) : (pure a : Dialogue Q A ε α).told reply = .ok a := rfl

@[simp] theorem told_query (q : Q) : (query q : Dialogue Q A ε (A q)).told reply = .ok (reply q) :=
  rfl

@[simp] theorem told_bind : (d >>= f).told reply = d.told reply >>= fun a => (f a).told reply := by
  change (d.bind f).told reply = _
  induction d with
  | done a => rfl
  | fail e => rfl
  | ask q next ih => exact ih _

@[simp] theorem told_map (g : α → β) : (g <$> d).told reply = (d.told reply).map g := by
  change (d.bind fun a => done (g a)).told reply = _
  induction d with
  | done a => rfl
  | fail e => rfl
  | ask q next ih => exact ih _

theorem run_told (h : ∀ q, answer q s = (.ok (reply q), s)) (d : Dialogue Q A ε α) :
    d.run answer s = (d.told reply, s) := by
  induction d with
  | done a => rfl
  | fail e => rfl
  | ask q next ih =>
    rw [run, h]
    exact ih _

/-- Surroundings that never refuse and never change tell the same whenever they are asked. -/
theorem run_rephrase {Q' : Type} {A' : Q' → Type} {ε' : Type} {reply : ∀ q, A' q}
    {question : Q' → Q} {read : ∀ q, A (question q) → A' q} {error : ε' → ε}
    (h : ∀ q, ∃ a, answer (question q) s = (.ok a, s) ∧ read q a = reply q)
    (d : Dialogue Q' A' ε' α) :
    (d.rephrase question read error).run answer s = ((d.told reply).mapError error, s) := by
  induction d with
  | done a => rfl
  | fail e => rfl
  | ask q next ih =>
    obtain ⟨a, ha, hread⟩ := h q
    rw [rephrase, run, ha]
    dsimp only
    rw [ih, hread]
    rfl

section Interruption

variable {q : Q} {c n : Nat} {e : ε}

theorem interrupted_self : interrupted answer n e q (n, s) = (.error e, (n + 1, s)) := by
  simp [interrupted]

/-- All questions but the refused one are answered as ever, and counted. -/
theorem interrupted_of_ne (h : c ≠ n) :
    interrupted answer n e q (c, s) = ((answer q s).1, (c + 1, (answer q s).2)) := by
  simp [interrupted, h]

/-- The refused question is the last one; up to it the questions are those of the undisturbed
run. -/
theorem asked_interrupted (d : Dialogue Q A ε α) (n : Nat) :
    d.asked (interrupted answer (c + n) e) (c, s) = (d.asked answer s).take (n + 1) := by
  induction d generalizing c n s with
  | done a => rfl
  | fail e => rfl
  | ask q next ih =>
    cases n with
    | zero =>
      have hnow : interrupted answer (c + 0) e q (c, s) = (.error e, (c + 1, s)) := interrupted_self
      rw [asked, asked, hnow]
      rfl
    | succ n =>
      have hlater : c ≠ c + (n + 1) := by omega
      have hcount : c + (n + 1) = c + 1 + n := by omega
      rw [asked, asked, interrupted_of_ne hlater, List.take_succ_cons]
      congr 1
      rcases answer q s with ⟨e' | a, u⟩
      · rfl
      · rw [hcount]
        exact ih a n

theorem run_interrupted_of_lt (h : n < (d.asked answer s).length) :
    (d.run (interrupted answer (c + n) e) (c, s)).1 = .error e := by
  induction d generalizing c n s with
  | done a => simp [asked] at h
  | fail e => simp [asked] at h
  | ask q next ih =>
    cases n with
    | zero =>
      have hnow : interrupted answer (c + 0) e q (c, s) = (.error e, (c + 1, s)) := interrupted_self
      rw [run, hnow]
    | succ n =>
      have hlater : c ≠ c + (n + 1) := by omega
      have hcount : c + (n + 1) = c + 1 + n := by omega
      rw [asked] at h
      rw [run, interrupted_of_ne hlater]
      rcases hs : answer q s with ⟨e' | a, u⟩ <;> rw [hs] at h
      · simp at h
      · have hrest : n < ((next a).asked answer u).length := by simpa using h
        rw [hcount]
        exact ih a hrest

/-- A refusal that comes after the last question makes no difference. -/
theorem run_interrupted_of_le (h : (d.asked answer s).length ≤ n) :
    d.run (interrupted answer (c + n) e) (c, s) =
      ((d.run answer s).1, (c + (d.asked answer s).length, (d.run answer s).2)) := by
  induction d generalizing c n s with
  | done a => rfl
  | fail e => rfl
  | ask q next ih =>
    rw [asked] at h
    obtain ⟨n, rfl⟩ : ∃ m, n = m + 1 := Nat.exists_eq_add_one.mpr (Nat.lt_of_lt_of_le (by simp) h)
    have hlater : c ≠ c + (n + 1) := by omega
    have hcount : c + (n + 1) = c + 1 + n := by omega
    rw [run, run, asked, interrupted_of_ne hlater]
    rcases hs : answer q s with ⟨e' | a, u⟩ <;> rw [hs] at h
    · rfl
    · have hrest : ((next a).asked answer u).length ≤ n := by simpa using h
      have hsum : c + 1 + ((next a).asked answer u).length =
          c + (((next a).asked answer u).length + 1) := by omega
      rw [hcount, List.length_cons, ← hsum]
      exact ih a hrest

end Interruption

end DriveAccess.Dialogue
