import DriveAccess.Access.Groups
import DriveAccess.Proofs.Access.Writes
/-!
Group membership: row and tuple come and go together.
-/
namespace DriveAccess

namespace Tables

def addMember (t : Tables) (stamp : Stamp) (m : Membership) : Tables :=
  (t.addMembership stamp.time m).addTuple stamp m.tuple

def removeMember (t : Tables) (group user : Uuid) : Tables :=
  (t.removeMembership group user).removeTuples (.exact (.member user group))

/-- Whether the group has the user among its members. -/
def hasMember (t : Tables) (group user : Uuid) : Bool :=
  t.memberships.any fun m => m.group == group && m.user == user

variable {t : Tables} {stamp : Stamp} {m : Membership} {group user : Uuid}

@[simp] theorem tuples_addMember : (t.addMember stamp m).tuples = t.tuples ++ [m.tuple] := by
  rw [addMember, tuples_addTuple]
  rfl

@[simp] theorem memberships_addMember :
    (t.addMember stamp m).memberships = t.memberships ++ [m] := memberships_addMembership

@[simp] theorem tuples_removeMember : (t.removeMember group user).tuples =
    t.tuples.filter fun u => !decide (u = .member user group) := by
  rw [removeMember, tuples_removeTuples, TupleFilter.selects_exact]
  rfl

@[simp] theorem memberships_removeMember : (t.removeMember group user).memberships =
    t.memberships.filter fun m => !(m.group == group && m.user == user) :=
  memberships_removeMembership group user

theorem Coherent.member_iff (h : t.Coherent) :
    Tuple.member user group ∈ t.tuples ↔ t.hasMember group user = true := by
  simp only [hasMember, List.any_eq_true, Bool.and_eq_true, beq_iff_eq]
  constructor
  · intro hu
    obtain ⟨m, hm, he⟩ := h.member_mem hu rfl
    simp only [Membership.tuple, Tuple.member, Tuple.mk.injEq, Subject.user, Object.group,
      Subject.mk.injEq, Object.mk.injEq, true_and] at he
    exact ⟨m, hm, he.2, he.1⟩
  · intro hmember
    obtain ⟨m, hm, hg, hu⟩ := hmember
    have hmem : m.tuple ∈ t.tuples.filter (·.relation == .member) := by
      rw [h.members]
      exact List.mem_map_of_mem hm
    have := (List.mem_filter.mp hmem).1
    rwa [Membership.tuple, hg, hu] at this

theorem Coherent.addMember (h : t.Coherent) (hnew : t.hasMember m.group m.user = false) :
    (t.addMember stamp m).Coherent := by
  refine h.withMembers rfl (fun o => ?_) (fun o => ?_) ?_ ?_
  · simp [Membership.tuple, Tuple.member]
  · simp [Membership.tuple, Tuple.member]
  · simp [h.members, Membership.tuple, Tuple.member]
  · rw [memberships_addMember, List.map_append]
    exact nodup_snoc h.memberships_nodup (key_not_mem hnew)

theorem Coherent.removeMember (h : t.Coherent) (group user : Uuid) :
    (t.removeMember group user).Coherent := by
  refine h.withMembers rfl (fun o => ?_) (fun o => ?_) ?_ ?_
  · simp [Tuple.member]
  · simp [Tuple.member]
  · rw [tuples_removeMember, memberships_removeMember, List.filter_filter,
      List.filter_congr (fun u _ => Bool.and_comm ..), ← List.filter_filter, h.members,
      List.filter_map]
    congr 1
    apply List.filter_congr
    intro m _
    rw [Bool.eq_iff_iff]
    simp [Membership.tuple, Tuple.member, Subject.user, Object.group]
    tauto
  · rw [memberships_removeMember]
    exact h.memberships_nodup.sublist (List.filter_sublist.map _)

end Tables

namespace Program

variable {stamp : Stamp} {s : Session} {group user : Uuid} {role : MembershipRole}

theorem addGroupMember_settles (h : s.tables.Coherent) :
    Settles stamp (addGroupMember group user role) s fun m t => m = ⟨group, user, role⟩ ∧
      s.tables.hasMember m.group m.user = false ∧ t = s.tables.addMember stamp m := by
  let m : Membership := ⟨group, user, role⟩
  apply Settles.attempt
  intro _ u hadd
  rw [Session.perform] at hadd
  split at hadd
  · cases hadd
  · rename_i hno
    cases hadd
    have hnew : s.tables.hasMember group user = false := Bool.not_eq_true _ |>.mp hno
    refine ⟨m, s.tables.addMember stamp m, ?_, rfl, hnew, rfl⟩
    refine Yields.bind (yields_createRelationship ?_ ?_) (yields_pure m)
    · intro hmem
      have := h.member_iff.mp hmem
      simp [hnew] at this
    · intro hsing
      cases hsing

theorem removeGroupMember_settles :
    Settles stamp (removeGroupMember group user) s fun _ t =>
      t = s.tables.removeMember group user := by
  apply Settles.request_bind
  intro removed u hrem
  have hpair := Prod.mk.inj hrem
  cases removed with
  | false =>
    refine .inl ⟨?_, settles_fail _⟩
    rw [← hpair.2]
    exact Session.remove_nothing (of_decide_eq_false (Except.ok.inj hpair.1))
  | true =>
    refine .inr ⟨(), _, ?_, rfl⟩
    have ht : u.tables = s.tables.removeMembership group user := by
      rw [← hpair.2]
      apply Session.remove_tables (·.membershipRecords)
      intro hall
      simp only [Tables.removeMembership, hall]
    apply Yields.next (yields_deleteRelationship _)
    intro _
    rw [ht]
    exact yields_pure ()

end Program

end DriveAccess
