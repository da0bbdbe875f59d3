import DriveAccess.Proofs.Storage.Rows
/-!
The subjects that stand in a relation to an object, and what filters select and removals leave.
-/
namespace DriveAccess

namespace TupleFilter

variable {t : Tuple} {o : Object} {s : Subject} {r : Relation}

theorem agrees_none {α : Type} [DecidableEq α] {b : α} : agrees none b := rfl

theorem agrees_some {α : Type} [DecidableEq α] {a b : α} : agrees (some a) b ↔ b = a := by
  rw [agrees, beq_iff_eq, eq_comm]

theorem selects_ofObject : (ofObject o).selects = fun u => decide (u.object = o) := by
  funext u
  obtain ⟨_, _, ⟨k, x⟩⟩ := u
  obtain ⟨k', x'⟩ := o
  rw [Bool.eq_iff_iff]
  simp [ofObject, selects, agrees_some, agrees_none]

theorem selects_ofSubject : (ofSubject s).selects = fun u => decide (u.subject = s) := by
  funext u
  obtain ⟨⟨k, x⟩, _, _⟩ := u
  obtain ⟨k', x'⟩ := s
  rw [Bool.eq_iff_iff]
  simp [ofSubject, selects, agrees_some, agrees_none]

theorem selects_exact : (exact t).selects = fun u => decide (u = t) := by
  funext u
  obtain ⟨⟨k, x⟩, r, ⟨l, y⟩⟩ := u
  obtain ⟨⟨k', x'⟩, r', ⟨l', y'⟩⟩ := t
  rw [Bool.eq_iff_iff]
  simp [exact, selects, agrees_some, and_assoc]

theorem selects_ofObject_withRelation : ((ofObject o).withRelation r).selects =
    fun u => decide (u.relation = r ∧ u.object = o) := by
  funext u
  obtain ⟨_, r', ⟨k, x⟩⟩ := u
  obtain ⟨k', x'⟩ := o
  rw [Bool.eq_iff_iff]
  simp [ofObject, withRelation, selects, agrees_some, agrees_none, and_assoc]

theorem selects_ofSubject_withRelation : ((ofSubject s).withRelation r).selects =
    fun u => decide (u.subject = s ∧ u.relation = r) := by
  funext u
  obtain ⟨⟨k, x⟩, r', _⟩ := u
  obtain ⟨k', x'⟩ := s
  rw [Bool.eq_iff_iff]
  simp [ofSubject, withRelation, selects, agrees_some, agrees_none]

end TupleFilter

/-- In the order of the tuples. -/
def subjectsIn (ts : List Tuple) (r : Relation) (o : Object) : List Subject :=
  (ts.filter fun u => u.relation = r ∧ u.object = o).map (·.subject)

section

variable {ts us : List Tuple} {u : Tuple} {r : Relation} {o : Object} {s : Subject}

theorem Tables.subjectsOf_eq (t : Tables) : t.subjectsOf r o = subjectsIn t.tuples r o := by
  simp only [subjectsOf, tuplesWhere_eq, TupleFilter.selects_ofObject_withRelation, subjectsIn]

theorem Tables.parentOf_eq (t : Tables) :
    t.parentOf o = (subjectsIn t.tuples .parent o).head? := by
  simp only [parentOf, tuplesWhere_eq, TupleFilter.selects_ofObject_withRelation, subjectsIn,
    List.head?_map]

theorem mem_subjectsIn : s ∈ subjectsIn ts r o ↔ ⟨s, r, o⟩ ∈ ts := by
  simp only [subjectsIn, List.mem_map, List.mem_filter, decide_eq_true_eq]
  constructor
  · intro ⟨u, ⟨hu, hr, ho⟩, hs⟩
    obtain ⟨s', r', o'⟩ := u
    obtain rfl : r' = r := hr
    obtain rfl : o' = o := ho
    obtain rfl : s' = s := hs
    exact hu
  · intro h
    exact ⟨⟨s, r, o⟩, ⟨h, rfl, rfl⟩, rfl⟩

theorem not_mem_of_subjectsIn (h : subjectsIn ts r o = []) : ⟨s, r, o⟩ ∉ ts := by
  intro hm
  simpa [h] using mem_subjectsIn.mpr hm

theorem any_eq_false_iff :
    (ts.any fun u => u.relation == r && u.object == o) = false ↔ subjectsIn ts r o = [] := by
  simp [subjectsIn, List.filter_eq_nil_iff]

@[simp] theorem subjectsIn_nil : subjectsIn [] r o = [] := rfl

@[simp] theorem subjectsIn_append :
    subjectsIn (ts ++ us) r o = subjectsIn ts r o ++ subjectsIn us r o := by
  simp [subjectsIn]

@[simp] theorem subjectsIn_cons : subjectsIn (u :: us) r o =
    (if u.relation = r ∧ u.object = o then [u.subject] else []) ++ subjectsIn us r o := by
  by_cases h : u.relation = r ∧ u.object = o <;> simp [subjectsIn, h]

@[simp] theorem subjectsIn_filter {keep : Tuple → Bool} : subjectsIn (ts.filter keep) r o =
    (subjectsIn ts r o).filter fun s => keep ⟨s, r, o⟩ := by
  simp only [subjectsIn, List.filter_filter, List.filter_map]
  congr 1
  apply List.filter_congr
  intro u _
  obtain ⟨s, r', o'⟩ := u
  by_cases h : r' = r ∧ o' = o
  · obtain ⟨rfl, rfl⟩ := h
    simp
  · simp [h]

theorem members_filter {keep : Tuple → Bool} (h : ∀ u ∈ ts, u.relation = .member → keep u) :
    (ts.filter keep).filter (·.relation == .member) = ts.filter (·.relation == .member) := by
  rw [List.filter_filter]
  apply List.filter_congr
  intro u hu
  by_cases hm : u.relation = .member
  · simp [hm, h u hu hm]
  · simp [hm]

theorem members_append (h : ∀ u ∈ us, u.relation ≠ .member) :
    (ts ++ us).filter (·.relation == .member) = ts.filter (·.relation == .member) := by
  have hnone : us.filter (·.relation == .member) = [] := by
    simpa [List.filter_eq_nil_iff] using h
  rw [List.filter_append, hnone, List.append_nil]

end

end DriveAccess
