import DriveAccess.Proofs.Storage.Coherence
import DriveAccess.Proofs.Storage.Rows
import DriveAccess.Proofs.Storage.Sessions
import Mathlib.Algebra.Group.Nat.Defs
import Mathlib.Data.List.Perm.Subperm
/-!
The keys of what is stored in memory. A request takes rows away, or adds one row whose key is free;
so no key ever occurs twice, whatever is asked for. The identifiers of tuples are keys too, which
are drawn when a tuple is stored.
-/
namespace DriveAccess

namespace Uuid

variable {used : List Uuid} {u : Uuid} {j k : Nat}

/-- The identifier that comes so many after this one. -/
def after (u : Uuid) (k : Nat) : Uuid := ⟨u.bits + BitVec.ofNat 128 k⟩

theorem after_zero : u.after 0 = u := by simp [after]

theorem after_next : u.next.after k = u.after (k + 1) := by
  simp [next, after, BitVec.ofNat_add, BitVec.add_assoc, BitVec.add_comm (BitVec.ofNat 128 k)]

theorem after_inj (hj : j < 2 ^ 128) (hk : k < 2 ^ 128) (h : u.after j = u.after k) : j = k := by
  have hbits : BitVec.ofNat 128 j = BitVec.ofNat 128 k := by simpa [after] using h
  have hnat := congrArg BitVec.toNat hbits
  rwa [BitVec.toNat_ofNat, BitVec.toNat_ofNat, Nat.mod_eq_of_lt hj, Nat.mod_eq_of_lt hk] at hnat

/-- If the tries have not led to an unused identifier, then all that come into question are used. -/
theorem after_mem_of_unusedFrom_mem {tries : Nat} (h : unusedFrom used tries u ∈ used) :
    ∀ k ≤ tries, u.after k ∈ used := by
  -- each try that fails meets an identifier in use and goes on with the next one
  induction tries generalizing u with
  | zero =>
    intro k hk
    obtain rfl := Nat.le_zero.mp hk
    rwa [after_zero]
  | succ tries ih =>
    rw [unusedFrom] at h
    split at h
    · rename_i hu
      intro k hk
      cases k with
      | zero => simpa [after_zero] using hu
      | succ k =>
        rw [← after_next]
        exact ih h k (Nat.le_of_succ_le_succ hk)
    · rename_i hu
      exact absurd h (by simpa using hu)

/-- There are more candidates than identifiers in use. -/
theorem unused_not_mem (h : used.length < 2 ^ 128) (u : Uuid) : u.unused used ∉ used := by
  intro hmem
  have hnodup : ((List.range (used.length + 1)).map u.after).Nodup := by
    refine List.nodup_range.map_on ?_
    intro j hj k hk
    rw [List.mem_range] at hj hk
    exact after_inj (by omega) (by omega)
  have hused : (List.range (used.length + 1)).map u.after ⊆ used := by
    intro v hv
    obtain ⟨k, hk, rfl⟩ := List.mem_map.mp hv
    exact after_mem_of_unusedFrom_mem hmem k (Nat.le_of_lt_succ (List.mem_range.mp hk))
  have hlength := (List.subperm_of_subset hnodup hused).length_le
  rw [List.length_map, List.length_range] at hlength
  omega

end Uuid

namespace Tables

/-- No key occurs twice. A tuple is its own key; its relation and object are another one if an
object has a single subject in that relation. -/
structure Keyed (t : Tables) : Prop where
  tuples : t.tuples.Nodup
  singular : ∀ r o, r.isSingular → (subjectsIn t.tuples r o).length ≤ 1
  grants : (t.grants.map Grant.assignment).Nodup
  memberships : (t.memberships.map Membership.key).Nodup

/-- Of the rows that have such keys at most some go away. -/
structure Shrinks (t t' : Tables) : Prop where
  relationships : t'.relationships.Sublist t.relationships := by exact .refl _
  grants : t'.grants.Sublist t.grants := by exact .refl _
  membershipRecords : t'.membershipRecords.Sublist t.membershipRecords := by exact .refl _

variable {t t' : Tables} {stamp : Stamp} {now : Instant} {u : Tuple} {g : Grant} {m : Membership}
  {r : Relation} {o : Object}

theorem keyed_empty : ({} : Tables).Keyed where
  tuples := .nil
  singular _ _ _ := Nat.zero_le 1
  grants := .nil
  memberships := .nil

namespace Keyed

variable (h : t.Keyed)

include h

theorem shrinks (hless : t.Shrinks t') : t'.Keyed where
  tuples := h.tuples.sublist (hless.relationships.map _)
  singular r o hr := by
    have hsub : (subjectsIn t'.tuples r o).Sublist (subjectsIn t.tuples r o) :=
      ((hless.relationships.map _).filter _).map _
    exact Nat.le_trans hsub.length_le (h.singular r o hr)
  grants := h.grants.sublist (hless.grants.map _)
  memberships := h.memberships.sublist ((hless.membershipRecords.map _).map _)

theorem addTuple (hnew : u ∉ t.tuples)
    (hone : u.relation.isSingular → subjectsIn t.tuples u.relation u.object = []) :
    (t.addTuple stamp u).Keyed where
  tuples := by
    rw [tuples_addTuple]
    exact nodup_snoc h.tuples hnew
  singular r o hr := by
    rw [tuples_addTuple, subjectsIn_append, subjectsIn_cons]
    split
    · rename_i hkey
      obtain ⟨rfl, rfl⟩ := hkey
      rw [hone hr]
      simp
    · simpa using h.singular r o hr
  grants := h.grants
  memberships := h.memberships

/-- An object that has no such tuple yet takes one of any relation. -/
theorem addFirst (hnone : subjectsIn t.tuples u.relation u.object = []) :
    (t.addTuple stamp u).Keyed :=
  h.addTuple (not_mem_of_subjectsIn hnone) fun _ => hnone

theorem addGrant (hnew : g.assignment ∉ t.grants.map Grant.assignment) :
    Keyed { t with grants := t.grants ++ [g] } where
  tuples := h.tuples
  singular := h.singular
  grants := by
    rw [List.map_append]
    exact nodup_snoc h.grants hnew
  memberships := h.memberships

theorem addMembership (hnew : m.key ∉ t.memberships.map Membership.key) :
    (t.addMembership now m).Keyed where
  tuples := h.tuples
  singular := h.singular
  grants := h.grants
  memberships := by
    rw [memberships_addMembership, List.map_append]
    exact nodup_snoc h.memberships hnew

end Keyed

theorem subjectsIn_removeTuples : subjectsIn
    (t.removeTuples ((TupleFilter.ofObject o).withRelation r)).tuples r o = [] := by
  rw [tuples_removeTuples, TupleFilter.selects_ofObject_withRelation, subjectsIn_filter]
  simp

theorem shrinks_removeTuples (f : TupleFilter) : t.Shrinks (t.removeTuples f) where
  relationships := List.filter_sublist

/-- No more than so many tuples are stored, and no two of them under one identifier. -/
structure Identified (t : Tables) (n : Nat) : Prop where
  distinct : (t.relationships.map (·.id)).Nodup
  length_le : t.relationships.length ≤ n

namespace Identified

variable {n k : Nat} (h : t.Identified n)

include h

theorem mono (hle : n ≤ k) : t.Identified k := ⟨h.distinct, Nat.le_trans h.length_le hle⟩

theorem shrinks (hless : t.Shrinks t') : t'.Identified n where
  distinct := h.distinct.sublist (hless.relationships.map _)
  length_le := Nat.le_trans hless.relationships.length_le h.length_le

/-- One more tuple gets an identifier of its own, as long as there are any left. -/
theorem addTuple (hroom : n < 2 ^ 128) : (t.addTuple stamp u).Identified (n + 1) where
  distinct := by
    have hleft : (t.relationships.map (·.id)).length < 2 ^ 128 := by
      rw [List.length_map]
      exact Nat.lt_of_le_of_lt h.length_le hroom
    rw [Tables.addTuple, List.map_append]
    exact nodup_snoc h.distinct (Uuid.unused_not_mem hleft stamp.id)
  length_le := by
    rw [Tables.addTuple, List.length_append]
    exact Nat.succ_le_succ h.length_le

end Identified

/-- An object gets other subjects in a relation, and nothing else changes. -/
structure Reassigns (t t' : Tables) (r : Relation) (o : Object) (ss : List Subject) : Prop where
  subjects : t'.subjectsOf r o = ss
  others :
    t'.relationships.filter (fun u => !decide (u.tuple.relation = r ∧ u.tuple.object = o)) =
      t.relationships.filter fun u => !decide (u.tuple.relation = r ∧ u.tuple.object = o)
  rest : t' = { t with relationships := t'.relationships }

theorem reassigns {us : List Tuple} (hus : ∀ u ∈ us, u.relation = r ∧ u.object = o) :
    t.Reassigns ((t.removeTuples ((TupleFilter.ofObject o).withRelation r)).addTuples stamp us) r o
      (us.map (·.subject)) where
  subjects := by
    rw [subjectsOf_eq, tuples_addTuples, subjectsIn_append, subjectsIn_removeTuples, subjectsIn,
      List.filter_eq_self.mpr (by simpa using hus), List.nil_append]
  others := by
    have hnone (left : Tables) : (left.newRows stamp us).filter
        (fun u => !decide (u.tuple.relation = r ∧ u.tuple.object = o)) = [] := by
      rw [List.filter_eq_nil_iff]
      intro u hu
      simpa using hus u.tuple (tuple_mem_of_mem_newRows hu)
    rw [addTuples, List.filter_append, hnone, List.append_nil, removeTuples, keepTuples]
    simp only [TupleFilter.selects_ofObject_withRelation, List.filter_filter, Bool.and_self]
  rest := rfl

/-- The first parent tuple that is found is the new one, if there is one. -/
theorem Reassigns.parentOf {parent : Option Subject}
    (h : t.Reassigns t' .parent o parent.toList) : t'.parentOf o = parent := by
  rw [parentOf_eq, ← subjectsOf_eq, h.subjects]
  cases parent <;> rfl

end Tables

/-- Requests that add a row with a key of its own. -/
def Request.adds : Request → Bool
  | createRelationship _ | replaceOwner _ _ | setParent _ _ | createGrant _ | addMembership _ =>
    true
  | _ => false

namespace Session

open Tables

variable {stamp : Stamp} {s : Session} {t : Tables} {r : Request}

theorem shrinks_writeIf (b : Bool) (h : s.tables.Shrinks t) :
    s.tables.Shrinks (s.writeIf b t).tables := by
  cases b with
  | false => exact {}
  | true => exact h

theorem perform_shrinks (h : ¬ r.adds) : s.tables.Shrinks (s.perform stamp r).2.tables := by
  cases r with
  | createRelationship | replaceOwner | setParent | createGrant | addMembership =>
    exact absurd rfl h
  | deleteRelationship | deleteByObject | deleteBySubject =>
    exact shrinks_writeIf _ (shrinks_removeTuples _)
  | deleteRelationships f =>
    rw [perform]
    split
    · exact {}
    · exact shrinks_writeIf _ (shrinks_removeTuples f)
  | deleteGrant | deleteGrantsFor => exact shrinks_writeIf _ { grants := List.filter_sublist }
  | removeMembership =>
    exact shrinks_writeIf _ { membershipRecords := List.filter_sublist }
  | insertSelfPath | insertPaths =>
    rw [perform, insertPaths]
    split
    · exact {}
    · exact shrinks_writeIf _ {}
  | deleteSubtreePaths | deletePathsTouching | deleteFolders => exact shrinks_writeIf _ {}
  | moveSubtree | createFolder =>
    rw [perform]
    split <;> exact {}
  | setFolderParent | setFolderOwner =>
    rw [perform, changeFolder]
    split <;> exact {}
  | setFolderDepths depths =>
    rw [perform]
    split
    · exact {}
    · rw [setDepths_eq]
      exact shrinks_writeIf _ {}
  | _ => exact {}

theorem perform_replaceOwner (stamp : Stamp) (o : Object) (user : Uuid) (s : Session) :
    let left := s.tables.removeTuples ((TupleFilter.ofObject o).withRelation .owner)
    (∃ e, s.perform stamp (.replaceOwner o user) = (.error e, s)) ∨
    s.perform stamp (.replaceOwner o user) =
      (.ok (left.newRow stamp (.owner user o)), s.write (left.addTuple stamp (.owner user o))) := by
  intro left
  rw [replaceOwner_eq]
  split
  · exact .inl ⟨_, rfl⟩
  · exact .inr rfl

theorem perform_setParent (stamp : Stamp) (child : Object) (parent : Option Subject)
    (s : Session) :
    let left := s.tables.removeTuples ((TupleFilter.ofObject child).withRelation .parent)
    ∃ u, s.perform stamp (.setParent child parent) = (.ok (), u) ∧
      u.tables = left.addTuples stamp (parent.map (Tuple.parent · child)).toList := by
  intro left
  cases parent with
  | none => exact ⟨_, rfl, (removeTuples_tables _).trans left.addTuples_nil.symm⟩
  | some p =>
    let rest := (s.removeTuples ((TupleFilter.ofObject child).withRelation .parent)).2
    refine ⟨rest.write (rest.tables.addTuple stamp (.parent p child)), rfl, ?_⟩
    rw [write_tables, removeTuples_tables, Option.map_some, Option.toList_some, addTuples_cons,
      addTuples_nil]

/-- One request keeps the keys apart. -/
theorem perform_keyed (h : s.tables.Keyed) : (s.perform stamp r).2.tables.Keyed := by
  cases r with
  | createRelationship u =>
    rw [perform]
    split_ifs with hheld hclash
    · exact h
    · exact h
    · refine h.addTuple (by simpa using hheld) fun hsingular => any_eq_false_iff.mp ?_
      simpa [hsingular] using hclash
  | replaceOwner o user =>
    obtain ⟨e, he⟩ | hok := perform_replaceOwner stamp o user s
    · rw [he]
      exact h
    · rw [hok]
      exact (h.shrinks (shrinks_removeTuples _)).addFirst (u := .owner user o)
        subjectsIn_removeTuples
  | setParent child parent =>
    obtain ⟨u, hu, ht⟩ := perform_setParent stamp child parent s
    have hrest := h.shrinks
      (shrinks_removeTuples ((TupleFilter.ofObject child).withRelation .parent))
    rw [hu, ht]
    cases parent with
    | none => exact addTuples_nil.symm ▸ hrest
    | some p => exact hrest.addFirst (u := .parent p child) subjectsIn_removeTuples
  | createGrant g =>
    rw [perform]
    split_ifs with hheld
    · exact h
    · exact h.addGrant (assignment_not_mem (by simpa using hheld))
  | addMembership m =>
    rw [perform]
    split_ifs with hheld
    · exact h
    · exact h.addMembership (key_not_mem (by simpa using hheld))
  | _ => exact h.shrinks (perform_shrinks Bool.false_ne_true)

/-- One request stores one more tuple at most, under an identifier of its own. -/
theorem perform_identified {n : Nat} (h : s.tables.Identified n) (hroom : n < 2 ^ 128) :
    (s.perform stamp r).2.tables.Identified (n + 1) := by
  have hsame : s.tables.Identified (n + 1) := h.mono (Nat.le_succ n)
  cases r with
  | createRelationship u =>
    rw [perform]
    split_ifs
    · exact hsame
    · exact hsame
    · exact h.addTuple hroom
  | replaceOwner o user =>
    obtain ⟨e, he⟩ | hok := perform_replaceOwner stamp o user s
    · rw [he]
      exact hsame
    · rw [hok]
      exact (h.shrinks (shrinks_removeTuples _)).addTuple hroom
  | setParent child parent =>
    obtain ⟨u, hu, ht⟩ := perform_setParent stamp child parent s
    have hrest := h.shrinks
      (shrinks_removeTuples ((TupleFilter.ofObject child).withRelation .parent))
    rw [hu, ht]
    cases parent with
    | none => exact addTuples_nil.symm ▸ hrest.mono (Nat.le_succ n)
    | some p => exact hrest.addTuple hroom
  | createGrant | addMembership =>
    rw [perform]
    split_ifs <;> exact ⟨hsame.distinct, hsame.length_le⟩
  | _ => exact hsame.shrinks (perform_shrinks Bool.false_ne_true)

theorem replaceOwner_reassigns {o : Object} {user : Uuid} {a : Relationship} {u : Session}
    (h : s.perform stamp (.replaceOwner o user) = (.ok a, u)) :
    s.tables.Reassigns u.tables .owner o [.user user] := by
  obtain ⟨e, he⟩ | hok := perform_replaceOwner stamp o user s
  · rw [he] at h
    cases h
  · rw [hok] at h
    obtain rfl := (Prod.mk.inj h).2
    have hone : ∀ v ∈ [Tuple.owner user o], v.relation = .owner ∧ v.object = o := by
      simp [Tuple.owner]
    exact reassigns hone

theorem setParent_reassigns (stamp : Stamp) (child : Object) (parent : Option Subject)
    (s : Session) : ∃ u, s.perform stamp (.setParent child parent) = (.ok (), u) ∧
      s.tables.Reassigns u.tables .parent child parent.toList := by
  obtain ⟨u, hu, ht⟩ := perform_setParent stamp child parent s
  have hsubjects : parent.toList =
      (parent.map (Tuple.parent · child)).toList.map (·.subject) := by
    cases parent <;> rfl
  refine ⟨u, hu, ?_⟩
  rw [ht, hsubjects]
  refine reassigns fun v hv => ?_
  obtain ⟨p, _, rfl⟩ : ∃ p, parent = some p ∧ Tuple.parent p child = v := by simpa using hv
  exact ⟨rfl, rfl⟩

end Session

end DriveAccess
