import DriveAccess.Proofs.Runs.Ledgers
import DriveAccess.Proofs.Storage.Batches
import DriveAccess.Proofs.Storage.Keys
/-!
Keys in sessions: whatever is done in a session that starts from nothing, no key occurs twice, and
an owner or a parent is replaced by another one alone.
-/
namespace DriveAccess

namespace Session

variable {α : Type} {stamp : Stamp} {s : Session} {tenant : Uuid}

theorem answer_keyed (q : Action) (h : s.tables.Keyed) : (answer stamp q s).2.tables.Keyed := by
  cases q with
  | store r => exact perform_keyed h
  | look l => exact perform_keyed h
  | record e => exact h

/-- What a program asks of its session keeps the keys apart, request by request. -/
theorem run_keyed (p : Program α) (h : s.tables.Keyed) : (s.run stamp p).2.tables.Keyed :=
  Dialogue.run_keeps (fun s u : Session => s.tables.Keyed → u.tables.Keyed) (fun _ h => h)
    (fun _ _ _ hs hu h => hu (hs h)) (fun q _ => answer_keyed q) h

theorem operation_keyed (o : Operation) (h : s.tables.Keyed) :
    (o.run tenant s).2.tables.Keyed := by
  obtain ⟨maxDepth, stamp, work⟩ := o
  cases work with
  | request r => exact perform_keyed h
  | command c =>
    rw [Operation.run_command]
    exact run_keyed _ h

theorem runAll_keyed (ops : List Operation) (h : s.tables.Keyed) :
    (s.runAll tenant ops).tables.Keyed := by
  induction ops generalizing s with
  | nil => exact h
  | cons o rest ih => exact ih (operation_keyed o h)

/-- No two tuples ever get the same identifier, however many requests there are as long as there
are more identifiers. -/
theorem performAll_identified {n : Nat} (requests : List (Stamp × Request))
    (h : s.tables.Identified n) (hroom : n + requests.length ≤ 2 ^ 128) :
    (s.performAll requests).tables.Identified (n + requests.length) := by
  induction requests generalizing s n with
  | nil => exact h
  | cons request rest ih =>
    rw [List.length_cons] at hroom ⊢
    have hone : (s.perform request.1 request.2).2.tables.Identified (n + 1) :=
      perform_identified h (by omega)
    have hrest := ih hone (by omega)
    rwa [Nat.add_right_comm] at hrest

/-- What holds of the keys in a session: they are apart, and after a change of owner or of parent
the object has the new one and no other, while all other tuples stay in their order. -/
structure KeepsKeys (s : Session) : Prop where
  keyed : s.tables.Keyed
  replaceOwner : ∀ stamp o user a u, s.perform stamp (.replaceOwner o user) = (.ok a, u) →
    (u.perform stamp (.findSubjects .owner o)).1 = .ok [.user user] ∧
    s.tables.Reassigns u.tables .owner o [.user user]
  setParent : ∀ stamp child parent, ∃ u,
    s.perform stamp (.setParent child parent) = (.ok (), u) ∧
    (u.perform stamp (.findParent child)).1 = .ok parent ∧
    s.tables.Reassigns u.tables .parent child parent.toList

/-- The requests and commands of a session may come in any order and with any arguments. -/
theorem keeps_keys (tenant : Uuid) (ops : List Operation) :
    (({} : Store).begin.runAll tenant ops).KeepsKeys where
  keyed := runAll_keyed ops Tables.keyed_empty
  replaceOwner stamp o user a u hu := by
    have hreassigns := replaceOwner_reassigns hu
    exact ⟨congrArg Except.ok hreassigns.subjects, hreassigns⟩
  setParent stamp child parent := by
    obtain ⟨u, hu, hreassigns⟩ := setParent_reassigns stamp child parent _
    exact ⟨u, hu, congrArg Except.ok hreassigns.parentOf, hreassigns⟩

end Session

end DriveAccess
