import DriveAccess.Proofs.Dialogues
import DriveAccess.Resolver
/-!
Look-ups that fail. Whichever it is, and however much has been found by then, nothing is concluded
from what has been found: the failure is the outcome.
-/
namespace DriveAccess.Resolver

open Dialogue

/-- A query fails closed if the failure of any of its look-ups, numbered from 0, is its outcome and
ends it there, and if a failure that strikes none of them changes nothing. -/
structure FailsClosed {α σ : Type} (answer : Answerer Lookup Lookup.Reply ResolveError σ) (s : σ)
    (query : Resolution α) : Prop where
  /-- Nothing is answered out of thin air. -/
  asks : query.asked answer s ≠ []
  outcome : ∀ n e, n < (query.asked answer s).length →
    (query.run (interrupted answer n e) (0, s)).1 = .error e
  length : ∀ n e, n < (query.asked answer s).length →
    (query.asked (interrupted answer n e) (0, s)).length = n + 1
  first : ∀ n e, query.asked (interrupted answer n e) (0, s) <+: query.asked answer s
  undisturbed : ∀ n e, (query.asked answer s).length ≤ n →
    (query.run (interrupted answer n e) (0, s)).1 = (query.run answer s).1 ∧
      query.asked (interrupted answer n e) (0, s) = query.asked answer s
  /-- Whatever is answered in spite of a failure is the answer without it. -/
  honest : ∀ n e a, (query.run (interrupted answer n e) (0, s)).1 = .ok a →
    (query.run answer s).1 = .ok a

variable {α σ : Type} {answer : Answerer Lookup Lookup.Reply ResolveError σ} {s : σ}

theorem failsClosed_of_asks {query : Resolution α} (h : query.asked answer s ≠ []) :
    FailsClosed answer s query := by
  have hasked (n : Nat) (e : ResolveError) : query.asked (interrupted answer n e) (0, s) =
      (query.asked answer s).take (n + 1) := by
    have hfrom : query.asked (interrupted answer (0 + n) e) (0, s) =
        (query.asked answer s).take (n + 1) := asked_interrupted query n
    rwa [Nat.zero_add] at hfrom
  have hstruck (n : Nat) (e : ResolveError) (hn : n < (query.asked answer s).length) :
      (query.run (interrupted answer n e) (0, s)).1 = .error e := by
    have hfrom := run_interrupted_of_lt (c := 0) (e := e) hn
    rwa [Nat.zero_add] at hfrom
  have hspared (n : Nat) (e : ResolveError) (hn : (query.asked answer s).length ≤ n) :
      (query.run (interrupted answer n e) (0, s)).1 = (query.run answer s).1 := by
    have hfrom := run_interrupted_of_le (c := 0) (e := e) hn
    rw [Nat.zero_add] at hfrom
    rw [hfrom]
  refine ⟨h, hstruck, ?_, ?_, ?_, ?_⟩
  · intro n e hn
    rw [hasked, List.length_take]
    omega
  · intro n e
    rw [hasked]
    exact List.take_prefix _ _
  · intro n e hn
    refine ⟨hspared n e hn, ?_⟩
    rw [hasked, List.take_of_length_le (by omega)]
  · intro n e a hok
    obtain hn | hn := Nat.lt_or_ge n (query.asked answer s).length
    · rw [hstruck n e hn] at hok
      cases hok
    · rwa [hspared n e hn] at hok

/-- Every query of the resolver fails closed, whatever the data says, and also while it changes or
refuses other look-ups of its own. -/
theorem fails_closed (answer : Answerer Lookup Lookup.Reply ResolveError σ) (s : σ) (limit : Nat)
    (user : Uuid) (r : Resource) :
    (∀ p, FailsClosed answer s (hasPermission limit user r p)) ∧
      FailsClosed answer s (collectPermissions limit user r) ∧
      FailsClosed answer s (effectiveRole limit user r) ∧
      FailsClosed answer s (isOwner user r) ∧
      ∀ target, FailsClosed answer s (canGrantRole limit user r target) := by
  have hgroups {β : Type} (next : List Uuid → Resolution β) :
      (groupsOf user >>= next).asked answer s ≠ [] := asked_query_bind_ne_nil _
  refine ⟨?_, ?_, ?_, ?_, ?_⟩
  · intro p
    apply failsClosed_of_asks
    rw [hasPermission]
    exact hgroups _
  · exact failsClosed_of_asks (hgroups _)
  · exact failsClosed_of_asks (hgroups _)
  · exact failsClosed_of_asks (asked_query_bind_ne_nil Dialogue.done)
  · intro target
    apply failsClosed_of_asks
    rw [canGrantRole]
    exact hgroups _

end DriveAccess.Resolver
